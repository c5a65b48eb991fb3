import InfraPins.Proofs.Scan.Pattern
import InfraPins.Proofs.Text.Pieces
import Mathlib.Data.List.Infix
import Mathlib.Data.List.TakeWhile

/-! Versions of sources: read, taken out and put back. A version is read behind the first `ref=` that a
mark introduces, while it is taken out of the query, parameter by parameter. The two meet at the marks:
no other reading reaches over a mark than the one that it introduces, so that a source without a
version is one whose parts are without one. -/

namespace InfraPins.Source

open Text Hcl

variable {source version front back : List Char} {mark : Char}

/-- A mark that introduces a parameter. -/
def isMark (c : Char) : Bool :=
  c == '?' || c == '&'

theorem notMem_refKey_of_isMark (marked : isMark mark = true) : mark ∉ refKey := by
  rintro member
  have unmarked : refKey.all (fun c => !isMark c) = true := by decide
  have other := List.all_eq_true.mp unmarked mark member
  rw [marked] at other
  cases other

theorem refHere?_cons (mark : Char) (text : List Char) :
    refHere? (mark :: text) = if isMark mark then (after? refKey text).bind fun rest =>
      if (rest.takeWhile isRefChar).isEmpty then none else some (rest.takeWhile isRefChar)
    else none := by
  simp only [refHere?, isMark]
  cases after? refKey text <;> rfl

theorem isMark_of_refHere? {text : List Char} (found : refHere? (mark :: text) = some version) :
    isMark mark = true ∧ ∃ rest, text = refKey ++ rest ∧ version = rest.takeWhile isRefChar ∧
      version ≠ [] := by
  rw [refHere?_cons] at found
  split at found
  · rename_i marked
    obtain ⟨rest, key, found⟩ := Option.bind_eq_some_iff.mp found
    split at found
    · cases found
    · rename_i filled
      obtain rfl := Option.some.inj found
      exact ⟨marked, rest, after?_eq_some_iff.mp key, rfl, by simpa using filled⟩
  · cases found

/-- A source has no version exactly when none is introduced at any of its places. -/
theorem version_eq_nil_iff :
    Source.version source = [] ↔ ∀ rest, rest <:+ source → refHere? rest = none := by
  unfold Source.version
  cases found : findFirst (fun _ rest => refHere? rest) none source with
  | none =>
    refine iff_of_true rfl ?_
    rintro rest ⟨before, rfl⟩
    exact findFirst_eq_none_iff.mp found before rest rfl
  | some place =>
    obtain ⟨rest, split, here, _⟩ := findFirst_eq_some_iff.mp found
    have filled : place.value ≠ [] := by
      cases rest with
      | nil => cases here
      | cons mark rest =>
        obtain ⟨_, _, _, _, filled⟩ := isMark_of_refHere? here
        exact filled
    refine iff_of_false filled fun missed => ?_
    have none := missed rest ⟨place.before, split.symm⟩
    rw [none] at here
    cases here

/-- A version stands behind a mark and `ref=`. -/
theorem introduced_of_version (pinned : Source.version source ≠ []) :
    ∃ mark, (mark = '?' ∨ mark = '&') ∧ mark :: (refKey ++ Source.version source) <:+: source := by
  unfold Source.version at pinned ⊢
  cases found : findFirst (fun _ rest => refHere? rest) none source with
  | none =>
    rw [found] at pinned
    exact absurd rfl pinned
  | some place =>
    obtain ⟨rest, split, here, _⟩ := findFirst_eq_some_iff.mp found
    cases rest with
    | nil => cases here
    | cons mark rest =>
      obtain ⟨marked, text, rfl, value, _⟩ := isMark_of_refHere? here
      refine ⟨mark, by simpa [isMark] using marked, place.before, text.dropWhile isRefChar, ?_⟩
      dsimp only
      rw [split, value, List.append_assoc, List.cons_append, List.append_assoc,
        List.takeWhile_append_dropWhile]

theorem version_eq_nil_of_unmarked (unmarked : ∀ c ∈ source, isMark c = false) :
    Source.version source = [] := by
  refine version_eq_nil_iff.mpr fun rest inside => ?_
  cases rest with
  | nil => rfl
  | cons c rest =>
    rw [refHere?_cons, unmarked c (inside.subset List.mem_cons_self)]
    rfl

private theorem refHere?_append_mark (marked : isMark mark = true) (some : front ≠ []) :
    refHere? (front ++ mark :: back) = none ↔ refHere? (front ++ [mark]) = none := by
  obtain ⟨c, front, rfl⟩ := List.exists_cons_of_ne_nil some
  rw [List.cons_append, List.cons_append, refHere?_cons, refHere?_cons,
    after?_append_cons _ _ (notMem_refKey_of_isMark marked),
    after?_append_cons _ _ (notMem_refKey_of_isMark marked)]
  split
  · cases after? refKey front with
    | none => exact Iff.rfl
    | some rest => cases rest <;> simp [List.takeWhile_cons]
  · exact Iff.rfl

private theorem suffix_append_cons {rest : List Char} :
    rest <:+ front ++ mark :: back ↔
      (∃ inner, inner <:+ front ∧ rest = inner ++ mark :: back) ∨ rest <:+ back := by
  constructor
  · rintro ⟨before, split⟩
    rcases List.append_eq_append_iff.mp split with ⟨inner, rfl, rfl⟩ | ⟨more, rfl, behind⟩
    · exact .inl ⟨inner, List.suffix_append _ _, rfl⟩
    · cases more with
      | nil => exact .inl ⟨[], List.nil_suffix, behind.symm⟩
      | cons c more => exact .inr ⟨more, (List.cons.inj behind).2.symm⟩
  · rintro (⟨inner, ⟨before, rfl⟩, rfl⟩ | inside)
    · exact ⟨before, by simp⟩
    · exact inside.trans ((List.suffix_cons mark back).trans (List.suffix_append _ _))

/-- A source has no version exactly when the parts before and behind a mark have none, and the mark
introduces none. -/
theorem version_append_mark (marked : isMark mark = true) :
    Source.version (front ++ mark :: back) = [] ↔
      Source.version (front ++ [mark]) = [] ∧ refHere? (mark :: back) = none ∧
        Source.version back = [] := by
  simp only [version_eq_nil_iff, suffix_append_cons]
  constructor
  · intro missed
    refine ⟨?_, missed _ (.inl ⟨[], List.nil_suffix, rfl⟩), fun rest inside => missed rest (.inr inside)⟩
    rintro rest (⟨inner, inside, rfl⟩ | inside)
    · by_cases here : inner = []
      · subst here
        rw [List.nil_append, refHere?_cons]
        cases isMark mark <;> rfl
      · exact (refHere?_append_mark marked here).mp (missed _ (.inl ⟨inner, inside, rfl⟩))
    · obtain rfl := List.suffix_nil.mp inside
      rfl
  · rintro ⟨before, here, behind⟩ rest (⟨inner, inside, rfl⟩ | inside)
    · by_cases first : inner = []
      · subst first
        exact here
      · exact (refHere?_append_mark marked first).mpr (before _ (.inl ⟨inner, inside, rfl⟩))
    · exact behind rest inside

/-- An ampersand ends what is read before it, as the end of the text does. -/
theorem version_concat_amp : Source.version (front ++ ['&']) = [] ↔ Source.version front = [] := by
  have same {text : List Char} (some : text ≠ []) :
      refHere? (text ++ ['&']) = none ↔ refHere? text = none := by
    obtain ⟨c, text, rfl⟩ := List.exists_cons_of_ne_nil some
    rw [List.cons_append, refHere?_cons, refHere?_cons,
      after?_append_cons _ _ (show '&' ∉ refKey by decide)]
    have ends : isRefChar '&' = false := by decide
    split
    · cases after? refKey text with
      | none => exact Iff.rfl
      | some rest =>
        rw [Option.map_some, Option.bind_some, Option.bind_some, takeWhile_append_cons _ _ ends]
    · exact Iff.rfl
  rw [version_eq_nil_iff, version_eq_nil_iff]
  constructor
  · intro missed rest inside
    by_cases here : rest = []
    · subst here
      rfl
    · exact (same here).mp (missed _ (suffix_append_cons.mpr (.inl ⟨rest, inside, rfl⟩)))
  · intro missed rest inside
    rcases suffix_append_cons.mp inside with ⟨inner, within, rfl⟩ | within
    · by_cases here : inner = []
      · subst here
        rfl
      · exact (same here).mpr (missed inner within)
    · obtain rfl := List.suffix_nil.mp within
      rfl

/-- A parameter that is kept does not start with `ref=`, so that the mark before it introduces no
version. -/
theorem isKeptParameter_iff {parameter : List Char} :
    isKeptParameter parameter = true ↔ parameter ≠ [] ∧ ¬ refKey <+: parameter := by
  simp [isKeptParameter, ← List.isPrefixOf_iff_prefix]

variable {parameters : List (List Char)}

/-- Parameters that are kept do not start with `ref=` together either. -/
theorem after?_join (kept : ∀ p ∈ parameters, isKeptParameter p = true) :
    after? refKey (join ['&'] parameters) = none := by
  match parameters with
  | [] => rfl
  | p :: parameters =>
    have first : after? refKey p = none :=
      after?_eq_none_iff.mpr (isKeptParameter_iff.mp (kept p List.mem_cons_self)).2
    cases parameters with
    | nil => exact first
    | cons q parameters =>
      have split : join ['&'] (p :: q :: parameters) = p ++ '&' :: join ['&'] (q :: parameters) :=
        List.append_assoc ..
      rw [split, after?_append_cons _ _ (by decide), first]
      rfl

theorem refHere?_join (kept : ∀ p ∈ parameters, isKeptParameter p = true) :
    refHere? (mark :: join ['&'] parameters) = none := by
  rw [refHere?_cons, after?_join kept]
  cases isMark mark <;> rfl

/-- Parameters that are kept have no version together exactly when none of them has one. -/
theorem version_join (kept : ∀ p ∈ parameters, isKeptParameter p = true) :
    Source.version (join ['&'] parameters) = [] ↔ ∀ p ∈ parameters, Source.version p = [] := by
  induction parameters with
  | nil => exact iff_of_true rfl nofun
  | cons p parameters ih =>
    obtain ⟨_, others⟩ := List.forall_mem_cons.mp kept
    cases parameters with
    | nil => simp [join]
    | cons q parameters =>
      have split : join ['&'] (p :: q :: parameters) = p ++ '&' :: join ['&'] (q :: parameters) :=
        List.append_assoc ..
      rw [split, version_append_mark (by decide), version_concat_amp, ih others, refHere?_join others,
        eq_self, true_and]
      exact (List.forall_mem_cons (p := fun p => Source.version p = [])).symm

/-- What stays of a source when its version is taken out, cut at the marks: its locator, with the mark
of the query if a parameter stays, and the parameters that stay. A source without a query stays as it
is. -/
def staying (source : List Char) : List (List Char) :=
  match cutAt? '?' source with
  | none => [source]
  | some (base, query) =>
    match (splitAt '&' query).filter isKeptParameter with
    | [] => [base]
    | parameters => (base ++ ['?']) :: parameters

/-- A source whose version is taken out has none exactly when nothing that stays of it has one. -/
theorem version_withoutVersion_eq_nil_iff :
    Source.version (withoutVersion source) = [] ↔ ∀ piece ∈ staying source, Source.version piece = [] := by
  unfold withoutVersion staying
  cases cutAt? '?' source with
  | none => simp
  | some found =>
    obtain ⟨base, query⟩ := found
    dsimp only
    have kept : ∀ p ∈ (splitAt '&' query).filter isKeptParameter, isKeptParameter p = true :=
      fun p member => (List.mem_filter.mp member).2
    cases same : (splitAt '&' query).filter isKeptParameter with
    | nil => simp
    | cons p parameters =>
      rw [same] at kept
      dsimp only
      rw [version_append_mark (by decide), version_join kept, refHere?_join kept, eq_self, true_and]
      exact (List.forall_mem_cons (p := fun p => Source.version p = [])).symm

/-- A version behind a mark is read if none is read before it. -/
theorem version_append_ref (marked : isMark mark = true) (none : Source.version (front ++ [mark]) = [])
    (filled : version ≠ []) (readable : ∀ c ∈ version, isRefChar c = true) :
    Source.version (front ++ mark :: (refKey ++ version)) = version := by
  have whole : version.takeWhile isRefChar = version := List.takeWhile_eq_self_iff.mpr readable
  have here : refHere? (mark :: (refKey ++ version)) = some version := by
    rw [refHere?_cons, marked, if_pos rfl, after?_eq_some_iff.mpr rfl, Option.bind_some, whole]
    exact if_neg fun empty => filled (List.isEmpty_iff.mp empty)
  have found : findFirst (fun _ rest => refHere? rest) Option.none (front ++ mark :: (refKey ++ version)) =
      some ⟨front, version⟩ := by
    refine findFirst_eq_some_iff.mpr ⟨_, rfl, here, fun before middle split some => ?_⟩
    have earlier := version_eq_nil_iff.mp none (middle ++ [mark]) ⟨before, by simp [split]⟩
    exact (refHere?_append_mark marked some).mpr earlier
  simp [Source.version, found]

def parametersOf (source : List Char) : List (List Char) :=
  match cutAt? '?' source with
  | none => []
  | some (_, query) => splitAt '&' query

/-- The text of a locator with parameters. -/
def written (base : List Char) (parameters : List (List Char)) : List Char :=
  match parameters with
  | [] => base
  | parameters => base ++ '?' :: join ['&'] parameters

/-- A locator without marks, and parameters without marks that are kept. -/
structure Plain (base : List Char) (parameters : List (List Char)) : Prop where
  base : ∀ c ∈ base, isMark c = false
  kept : ∀ p ∈ parameters, isKeptParameter p = true
  unmarked : ∀ p ∈ parameters, ∀ c ∈ p, isMark c = false

variable {base : List Char}

theorem Plain.amp_notMem (plain : Plain base parameters) : ∀ p ∈ parameters, '&' ∉ p :=
  fun p member inside => absurd (plain.unmarked p member '&' inside) (by decide)

theorem Plain.mark_notMem (plain : Plain base parameters) : '?' ∉ base :=
  fun inside => absurd (plain.base '?' inside) (by decide)

theorem Plain.cutAt?_written (plain : Plain base parameters) :
    cutAt? '?' (written base parameters) =
      if parameters = [] then none else some (base, join ['&'] parameters) := by
  cases parameters with
  | nil => exact cutAt?_eq_none_iff.mpr plain.mark_notMem
  | cons p parameters => exact cutAt?_of_notMem plain.mark_notMem _

theorem Plain.parametersOf_written (plain : Plain base parameters) :
    parametersOf (written base parameters) = parameters := by
  rw [parametersOf, plain.cutAt?_written]
  cases parameters with
  | nil => rfl
  | cons p parameters => exact splitAt_join (List.cons_ne_nil p parameters) plain.amp_notMem

theorem Plain.withoutVersion_written (plain : Plain base parameters) :
    withoutVersion (written base parameters) = written base parameters := by
  rw [withoutVersion, plain.cutAt?_written]
  cases parameters with
  | nil => rfl
  | cons p parameters =>
    have same : (splitAt '&' (join ['&'] (p :: parameters))).filter isKeptParameter = p :: parameters := by
      rw [splitAt_join (List.cons_ne_nil p parameters) plain.amp_notMem,
        List.filter_eq_self.mpr plain.kept]
    simp only [reduceCtorEq, if_false, same]
    rfl

theorem Plain.version_written (plain : Plain base parameters) :
    Source.version (written base parameters) = [] ∧
      Source.version (written base parameters ++ [if parameters = [] then '?' else '&']) = [] := by
  have none : Source.version base = [] := version_eq_nil_of_unmarked plain.base
  have ended : Source.version (base ++ ['?']) = [] := by
    refine version_eq_nil_iff.mpr fun rest inside => ?_
    rcases suffix_append_cons.mp inside with ⟨inner, within, rfl⟩ | within
    · cases inner with
      | nil => rfl
      | cons c inner =>
        rw [List.cons_append, refHere?_cons, plain.base c (within.subset List.mem_cons_self)]
        rfl
    · obtain rfl := List.suffix_nil.mp within
      rfl
  cases parameters with
  | nil => exact ⟨none, ended⟩
  | cons p parameters =>
    have whole : Source.version (written base (p :: parameters)) = [] := by
      refine (version_append_mark (by decide)).mpr ⟨ended, refHere?_join plain.kept, ?_⟩
      exact (version_join plain.kept).mpr fun q member =>
        version_eq_nil_of_unmarked (plain.unmarked q member)
    exact ⟨whole, version_concat_amp.mpr whole⟩

/-- A version is put into a source without one behind all that it has. -/
theorem Plain.withVersion_written (plain : Plain base parameters) (version : List Char) :
    withVersion (written base parameters) version =
      written base parameters ++ (if parameters = [] then '?' else '&') :: (refKey ++ version) := by
  have unpinned : ¬ refMark <:+: written base parameters := by
    rintro ⟨front, back, split⟩
    have marked : front ++ '?' :: (refKey ++ back) = written base parameters := by
      rw [← split, refMark]
      simp
    cases parameters with
    | nil =>
      have inside : '?' ∈ written base [] := marked ▸ List.mem_append_right front List.mem_cons_self
      exact plain.mark_notMem inside
    | cons p parameters =>
      have single : '?' ∉ join ['&'] (p :: parameters) := by
        intro inside
        rcases mem_join inside with same | ⟨q, member, inside⟩
        · cases same
        · exact absurd (plain.unmarked q member '?' inside) (by decide)
      obtain ⟨_, _, query⟩ := (List.append_cons_inj_of_notMem plain.mark_notMem single).mp marked.symm
      exact after?_eq_none_iff.mp (after?_join plain.kept) ⟨back, query.symm⟩
  have absent : occurs refMark (written base parameters) = false :=
    Bool.eq_false_iff.mpr fun inside => unpinned (occurs_iff.mp inside)
  rw [withVersion, absent, if_neg Bool.false_ne_true]
  cases parameters with
  | nil =>
    have unqueried : ¬ (written base []).contains '?' = true := by
      simpa [written] using plain.mark_notMem
    rw [if_neg unqueried, if_pos rfl, refMark, List.append_assoc]
    rfl
  | cons p parameters =>
    have queried : (written base (p :: parameters)).contains '?' = true := by simp [written]
    rw [if_pos queried, if_neg (List.cons_ne_nil p parameters), List.append_assoc]
    rfl

theorem Plain.locator_written (plain : Plain base parameters) :
    locator (written base parameters) = base := by
  have all : ∀ c ∈ base, (c != '?') = true := by
    intro c member
    have other : c ≠ '?' := fun same => plain.mark_notMem (same ▸ member)
    simpa using other
  cases parameters with
  | nil => exact List.takeWhile_eq_self_iff.mpr all
  | cons p parameters =>
    show (base ++ '?' :: join ['&'] (p :: parameters)).takeWhile (· != '?') = base
    rw [takeWhile_append_cons _ _ (by decide)]
    exact List.takeWhile_eq_self_iff.mpr all

/-- A version that was put in is taken out again. -/
theorem Plain.withoutVersion_withVersion (plain : Plain base parameters) (single : '&' ∉ version) :
    withoutVersion (withVersion (written base parameters) version) = written base parameters := by
  have pinned : isKeptParameter (refKey ++ version) = false := by
    rw [Bool.eq_false_iff, ne_eq, isKeptParameter_iff]
    exact fun kept => kept.2 (List.prefix_append _ _)
  have removed : (splitAt '&' (refKey ++ version)).filter isKeptParameter = [] := by
    rw [splitAt_of_notMem fun member => ?_]
    · simp [pinned]
    · rcases List.mem_append.mp member with member | member
      · exact absurd member (by decide)
      · exact single member
  rw [plain.withVersion_written]
  cases parameters with
  | nil =>
    have cut : cutAt? '?' (base ++ '?' :: (refKey ++ version)) = some (base, refKey ++ version) :=
      cutAt?_of_notMem plain.mark_notMem _
    show withoutVersion (base ++ '?' :: (refKey ++ version)) = base
    simp only [withoutVersion, cut, removed]
  | cons p parameters =>
    have split : written base (p :: parameters) ++ '&' :: (refKey ++ version) =
        base ++ '?' :: (join ['&'] (p :: parameters) ++ '&' :: (refKey ++ version)) := List.append_assoc ..
    have kept : (splitAt '&' (join ['&'] (p :: parameters) ++ '&' :: (refKey ++ version))).filter
        isKeptParameter = p :: parameters := by
      rw [splitAt_append, splitAt_join (List.cons_ne_nil p parameters) plain.amp_notMem,
        List.filter_append, List.filter_eq_self.mpr plain.kept, removed, List.append_nil]
    rw [if_neg (List.cons_ne_nil p parameters), split, withoutVersion, cutAt?_of_notMem plain.mark_notMem]
    simp only [kept]
    rfl

/-- A source with one query at most is left with its locator and the parameters that are kept. -/
theorem withoutVersion_eq_written (single : source.count '?' ≤ 1) (unmarked : '&' ∉ locator source) :
    let parameters := (parametersOf source).filter isKeptParameter
    Plain (locator source) parameters ∧ withoutVersion source = written (locator source) parameters := by
  intro parameters
  have bare : ∀ c ∈ locator source, isMark c = false := by
    intro c member
    have other : c ≠ '?' := by simpa using List.mem_takeWhile_imp member
    have single : c ≠ '&' := fun same => unmarked (same ▸ member)
    simp [isMark, other, single]
  cases cut : cutAt? '?' source with
  | none =>
    have whole : locator source = source := by
      refine List.takeWhile_eq_self_iff.mpr fun c member => ?_
      have other : c ≠ '?' := fun same => cutAt?_eq_none_iff.mp cut (same ▸ member)
      simpa using other
    have none : parameters = [] := by simp [parameters, parametersOf, cut]
    rw [none]
    refine ⟨⟨bare, nofun, nofun⟩, ?_⟩
    rw [withoutVersion, cut, whole]
    rfl
  | some found =>
    obtain ⟨base, query⟩ := found
    have split : source = base ++ '?' :: query := eq_of_cutAt? cut
    have front : '?' ∉ base := notMem_of_cutAt? cut
    have once : '?' ∉ query := by
      rw [split, List.count_append, List.count_cons_self] at single
      exact List.count_eq_zero.mp (by omega)
    have same : locator source = base := by
      rw [locator, split, takeWhile_append_cons _ _ (by decide)]
      refine List.takeWhile_eq_self_iff.mpr fun c member => ?_
      have other : c ≠ '?' := fun same => front (same ▸ member)
      simpa using other
    have query' : parametersOf source = splitAt '&' query := by rw [parametersOf, cut]
    refine ⟨⟨bare, fun p member => (List.mem_filter.mp member).2, fun p member c inside => ?_⟩, ?_⟩
    · have member : p ∈ splitAt '&' query := query' ▸ (List.mem_filter.mp member).1
      obtain ⟨here, other⟩ := mem_of_mem_splitAt member inside
      have single : c ≠ '?' := fun same => once (same ▸ here)
      simp [isMark, other, single]
    · rw [withoutVersion, cut, same]
      simp only [parameters, query']
      cases (splitAt '&' query).filter isKeptParameter <;> rfl

/-- The version of a source can be taken out and put back. Taken out, it leaves no version, the same
locator, and the other parameters in their order; put back, it is read as it was put, and taking it out
leaves what was left before. -/
theorem version_taken_out_and_put_back {source version : List Char} (single : source.count '?' ≤ 1)
    (unmarked : '&' ∉ locator source) (filled : version ≠ [])
    (readable : ∀ c ∈ version, c ≠ '&' ∧ c ≠ '"' ∧ isBlank c = false) :
    let bare := withoutVersion source
    Source.version bare = [] ∧
      Source.version (withVersion bare version) = version ∧
      withoutVersion (withVersion bare version) = bare ∧
      withoutVersion bare = bare ∧
      locator bare = locator source ∧
      parametersOf bare = (parametersOf source).filter fun p => !p.isEmpty && !refKey.isPrefixOf p := by
  intro bare
  have chars : ∀ c ∈ version, isRefChar c = true := by
    intro c member
    obtain ⟨amp, quote, blank⟩ := readable c member
    simp [isRefChar, amp, quote, blank]
  obtain ⟨plain, left⟩ := withoutVersion_eq_written single unmarked
  obtain ⟨none, ended⟩ := plain.version_written
  have put := plain.withVersion_written version
  have apart : '&' ∉ version := fun member => (readable '&' member).1 rfl
  have introduces : isMark (if (parametersOf source).filter isKeptParameter = [] then '?' else '&') =
      true := by
    split <;> rfl
  rw [show bare = written _ _ from left]
  refine ⟨none, ?_, plain.withoutVersion_withVersion apart, plain.withoutVersion_written,
    plain.locator_written, plain.parametersOf_written⟩
  rw [put]
  exact version_append_ref introduces ended filled chars

theorem version_taken_out_and_put_back_sample :
    let source := "git::https://h/net?ref=v1&&myref=v1&depth=1&ref=v2".toList
    let bare := "git::https://h/net?myref=v1&depth=1".toList
    source.count '?' ≤ 1 ∧ '&' ∉ locator source ∧ "a?b".toList ≠ [] ∧
      (∀ c ∈ "a?b".toList, c ≠ '&' ∧ c ≠ '"' ∧ isBlank c = false) ∧
      withoutVersion source = bare ∧ Source.version bare = [] ∧
      Source.version (withVersion bare "a?b".toList) = "a?b".toList ∧
      withoutVersion (withVersion bare "a?b".toList) = bare ∧
      parametersOf bare = ["myref=v1".toList, "depth=1".toList] := by
  intro source bare
  have single : source.count '?' ≤ 1 := by decide
  have unmarked : '&' ∉ locator source := by decide
  have readable : ∀ c ∈ "a?b".toList, c ≠ '&' ∧ c ≠ '"' ∧ isBlank c = false := by
    intro c member
    have cases : c = 'a' ∨ c = '?' ∨ c = 'b' := by simpa using member
    rcases cases with rfl | rfl | rfl <;> decide
  have left : withoutVersion source = bare := by decide +kernel
  obtain ⟨none, read, removed, _, _, parameters⟩ :=
    @version_taken_out_and_put_back _ "a?b".toList single unmarked (by decide) readable
  rw [left] at none read removed parameters
  exact ⟨single, unmarked, by decide, readable, left, none, read, removed, parameters.trans (by decide)⟩

end InfraPins.Source
