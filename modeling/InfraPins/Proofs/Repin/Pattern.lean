import InfraPins.Proofs.Repin.Modules
import InfraPins.Proofs.Scan.Pattern

namespace InfraPins.Repin

open Text Hcl Scan

variable {repin : Repin}

/-- Whether a version ends as one of the keywords that a block is found by. Such a version might be
taken for the keyword. -/
def endsKeyword (version : List Char) : Bool :=
  "module".toList.isSuffixOf version || "source".toList.isSuffixOf version

/-- A text that does not go on as it would behind a keyword. -/
def Unlike (text : List Char) : Prop :=
  ∀ c ∈ text.head?, isBlank c = false ∧ c ≠ '='

/-- A version that reaches as far as it can, and is no keyword: it ends as none, or what follows it
follows no keyword. -/
structure Apart (repin : Repin) : Prop where
  ends : ∀ c ∈ repin.tail.head?, Patch.isVersionChar c = false
  old : endsKeyword repin.old = false ∨ Unlike repin.tail
  new : endsKeyword repin.new = false ∨ Unlike repin.tail

theorem Apart.swap (apart : Apart repin) : Apart repin.swap :=
  ⟨apart.ends, apart.new, apart.old⟩

theorem not_isBlank_of_isPinChar {c : Char} (pinned : isPinChar c = true) : isBlank c = false := by
  cases blank : isBlank c with
  | false => rfl
  | true =>
    simp only [isPinChar, Patch.isNameChar, Patch.isVersionChar, isWord_of_isBlank blank,
      Bool.false_or, Bool.or_eq_true, beq_iff_eq, or_assoc] at pinned
    rcases pinned with rfl | rfl | rfl | rfl | rfl | rfl | rfl <;> revert blank <;> decide

private theorem eq_append_of_after? {keyword inner tail rest : List Char}
    (letters : ∀ c ∈ keyword, Patch.isVersionChar c = true)
    (ends : ∀ c ∈ tail.head?, Patch.isVersionChar c = false)
    (found : after? keyword (inner ++ tail) = some rest) :
    ∃ more, inner = keyword ++ more ∧ rest = more ++ tail := by
  have split := after?_eq_some_iff.mp found
  rcases List.append_eq_append_iff.mp split with ⟨more, rfl, rfl⟩ | ⟨more, rfl, rfl⟩
  · cases more with
    | nil => exact ⟨[], by simp, rfl⟩
    | cons c more =>
      have letter := letters c (by simp)
      rw [ends c rfl] at letter
      cases letter
  · exact ⟨more, rfl, rfl⟩

private theorem unlike_behind_keyword {keyword version inner tail rest : List Char}
    (pinned : ∀ c ∈ version, isPinChar c = true)
    (apart : endsKeyword version = false ∨ Unlike tail)
    (ends : ∀ c ∈ tail.head?, Patch.isVersionChar c = false)
    (within : inner <:+ Source.refKey ++ version)
    (known : keyword = "module".toList ∨ keyword = "source".toList)
    (found : after? keyword (inner ++ tail) = some rest) : Unlike rest := by
  have letters : ∀ c ∈ keyword, Patch.isVersionChar c = true := by
    rcases known with rfl | rfl <;> exact List.all_eq_true.mp (by decide)
  have foreign : ∃ c rest, keyword = c :: rest ∧ c ∉ Source.refKey := by
    rcases known with rfl | rfl <;> exact ⟨_, _, rfl, by decide⟩
  obtain ⟨more, rfl, rfl⟩ := eq_append_of_after? letters ends found
  have inside : keyword ++ more <:+ version := by
    rcases List.suffix_or_suffix_of_suffix within (List.suffix_append Source.refKey version) with
      inside | ⟨key, split⟩
    · exact inside
    · -- No keyword starts in the name of the parameter.
      cases key with
      | nil => exact split ▸ List.suffix_rfl
      | cons c key =>
        obtain ⟨outer, whole⟩ := within
        rw [← split, ← List.append_assoc] at whole
        have member : c ∈ Source.refKey := by simp [← List.append_cancel_right whole]
        obtain ⟨d, rest, rfl, outside⟩ := foreign
        exact absurd ((List.cons.inj split).1 ▸ member) outside
  cases more with
  | nil =>
    rcases apart with apart | apart
    · rw [List.append_nil, ← List.isSuffixOf_iff_suffix] at inside
      rw [endsKeyword, Bool.or_eq_false_iff] at apart
      rcases known with rfl | rfl
      · exact absurd inside (Bool.eq_false_iff.mp apart.1)
      · exact absurd inside (Bool.eq_false_iff.mp apart.2)
    · exact apart
  | cons c more =>
    -- The version itself goes on.
    intro d head
    obtain rfl : c = d := by simpa using head
    have inner := pinned c (inside.subset (by simp))
    refine ⟨not_isBlank_of_isPinChar inner, ?_⟩
    rintro rfl
    revert inner
    decide

private theorem nothing_in_version {version inner tail : List Char}
    (pinned : ∀ c ∈ version, isPinChar c = true)
    (apart : endsKeyword version = false ∨ Unlike tail)
    (ends : ∀ c ∈ tail.head?, Patch.isVersionChar c = false)
    (within : inner <:+ Source.refKey ++ version) :
    sourceHere? (inner ++ tail) = none ∧ blockHere? (inner ++ tail) = none := by
  have behind := fun {keyword rest : List Char} =>
    @unlike_behind_keyword keyword version inner tail rest pinned apart ends within
  constructor
  · rw [sourceHere?_eq]
    cases found : after? "source".toList (inner ++ tail) with
    | none => rfl
    | some rest =>
      have unlike := behind (.inr rfl) found
      cases rest with
      | nil => rfl
      | cons c rest =>
        obtain ⟨filled, other⟩ := unlike c rfl
        simp [afterAssign?, trimStart, filled, after?, Ne.symm other]
  · rw [blockHere?_eq, headerHere?_eq]
    cases found : after? "module".toList (inner ++ tail) with
    | none => rfl
    | some rest =>
      have unlike := behind (.inl rfl) found
      cases rest with
      | nil => rfl
      | cons c rest => simp [(unlike c rfl).1]

theorem Aligned.stands {first second : List Char} (aligned : Aligned repin first second) :
    first <:+ repin.text repin.old := by
  cases aligned with
  | before inside =>
    obtain ⟨outer, split⟩ := inside
    exact ⟨outer, by rw [text, ← split, List.append_assoc]⟩
  | same inside =>
    refine inside.trans ⟨repin.before ++ repin.mark :: (Source.refKey ++ repin.old), ?_⟩
    simp [text, beyond]

private theorem rel_refl {α : Type} {relation : α → α → Prop} {found : Option α}
    (reflects : ∀ value, found = some value → relation value value) :
    Option.Rel relation found found := by
  cases found with
  | none => exact .none
  | some value => exact .some (reflects value rfl)

private theorem rel_found {α β : Type} {relation image : α → β → Prop} {first : Option α}
    {second : Option β} (related : Option.Rel relation first second)
    (onward : ∀ a b, first = some a → second = some b → relation a b → image a b) :
    Option.Rel image first second := by
  cases related with
  | none => exact .none
  | some here => exact .some (onward _ _ rfl rfl here)

private theorem rel_none {α β : Type} {relation : α → β → Prop} {first : Option α}
    {second : Option β} (related : Option.Rel relation first second) (missed : first = none) :
    second = none := by
  cases related with
  | none => rfl
  | some => cases missed

private theorem after?_aligned {opening first second : List Char}
    (aligned : Aligned repin first second) (absent : repin.mark ∉ opening) :
    Option.Rel (Aligned repin) (after? opening first) (after? opening second) := by
  cases aligned with
  | @before front inside =>
    rw [after?_append_cons _ _ absent, after?_append_cons _ _ absent]
    cases found : after? opening front with
    | none => exact .none
    | some rest =>
      have split := after?_eq_some_iff.mp found
      exact .some (.before (List.IsSuffix.trans ⟨opening, split.symm⟩ inside))
  | same inside =>
    refine rel_refl fun rest found => .same ?_
    exact List.IsSuffix.trans ⟨opening, (after?_eq_some_iff.mp found).symm⟩ inside

private theorem mark_not_blank (repin : Repin) : isBlank repin.mark = false := by
  rcases repin.mark_cases with same | same <;> rw [same] <;> decide

private theorem blanks_aligned {first second : List Char} (aligned : Aligned repin first second) :
    first.takeWhile isBlank = second.takeWhile isBlank ∧
      Aligned repin (first.dropWhile isBlank) (second.dropWhile isBlank) := by
  cases aligned with
  | @before front inside =>
    have blank := repin.mark_not_blank
    rw [takeWhile_append_cons _ _ blank, takeWhile_append_cons _ _ blank,
      dropWhile_append_cons _ _ blank, dropWhile_append_cons _ _ blank]
    exact ⟨rfl, .before ((List.dropWhile_suffix _).trans inside)⟩
  | same inside => exact ⟨rfl, .same ((List.dropWhile_suffix _).trans inside)⟩

private def AlikeQuoted (repin : Repin) (first second : List Char × List Char) : Prop :=
  Renewed repin first.1 second.1 ∧ AlikeSource repin first.1 second.1 ∧
    Aligned repin first.2 second.2

private theorem repinned_of_quoted {front value value' rest rest' : List Char}
    (inside : front <:+ repin.before)
    (found : front ++ repin.mark :: repin.beyond repin.old = '"' :: (value ++ '"' :: rest))
    (found' : front ++ repin.mark :: repin.beyond repin.new = '"' :: (value' ++ '"' :: rest'))
    (bare : '"' ∉ value) (bare' : '"' ∉ value') : Repinned repin value value' := by
  cases front with
  | nil => exact absurd (List.cons.inj found).1.symm repin.quote_ne_mark
  | cons c front =>
    obtain ⟨rfl, behind⟩ := List.cons.inj found
    have behind' : front ++ repin.mark :: repin.beyond repin.new = value' ++ '"' :: rest' :=
      (List.cons.inj found').2
    rcases cut_at_quote behind with ⟨more, rfl⟩ | ⟨closing, rfl, ends⟩
    · have same : value' ++ '"' :: rest' = value ++ '"' :: (more ++ repin.mark :: repin.beyond repin.new) := by
        rw [← behind', List.append_assoc, List.cons_append]
      exact .inl (eq_before bare' bare same)
    · refine .inr ⟨front, closing, inside, ⟨rest, by simp [ends]⟩, rfl, ?_⟩
      have same : value' ++ '"' :: rest' = repin.pinnedAt front repin.new closing ++ '"' :: rest := by
        simpa [pinnedAt, beyond, ends] using behind'.symm
      refine eq_before bare' (fun member => ?_) same
      simp only [pinnedAt, List.mem_append, List.mem_cons, not_or] at bare member
      rcases member with member | same | member | member | member
      · exact bare.1 member
      · exact repin.quote_ne_mark same
      · exact bare.2.2.1 member
      · exact quote_notMem_refKey_append repin.new_pinned (List.mem_append_right _ member)
      · exact bare.2.2.2.2 member

private theorem cut_aligned {first second : List Char} (aligned : Aligned repin first second) :
    Option.Rel (fun first second => Renewed repin first.1 second.1 ∧ Aligned repin first.2 second.2)
      (cutAt? '"' first) (cutAt? '"' second) := by
  cases aligned with
  | before inside => exact cutAt?_aligned (by decide) inside
  | same inside =>
    refine rel_refl fun found cut => ⟨.refl _, .same ?_⟩
    exact List.IsSuffix.trans ⟨found.1 ++ ['"'], by simp [eq_of_cutAt? cut]⟩ inside

private theorem quotedHere?_aligned {first second : List Char}
    (aligned : Aligned repin first second) :
    Option.Rel (AlikeQuoted repin) (quotedHere? first) (quotedHere? second) := by
  have cut : Option.Rel (fun first second =>
      Renewed repin first.1 second.1 ∧ Aligned repin first.2 second.2)
      (quotedHere? first) (quotedHere? second) := by
    rw [quotedHere?_eq, quotedHere?_eq]
    refine rel_bind (after?_aligned aligned (by simp [Ne.symm repin.quote_ne_mark])) ?_
    intro inner inner' opened
    refine rel_bind (cut_aligned opened) fun found found' alike => ?_
    have empty : found.1.isEmpty = found'.1.isEmpty := by
      have heads := alike.1.head?
      cases taken : found.1 <;> cases taken' : found'.1 <;> simp_all
    rw [empty]
    split
    · exact .none
    · exact .some alike
  refine rel_found cut fun found found' here here' alike => ?_
  obtain ⟨split, bare⟩ := eq_of_quotedHere? here
  obtain ⟨split', bare'⟩ := eq_of_quotedHere? here'
  refine ⟨alike.1, fun _ => ⟨?_, ?_⟩, alike.2⟩
  · refine List.IsInfix.trans ⟨[], found.2, ?_⟩ aligned.stands.isInfix
    simp [inQuotes, split]
  · cases aligned with
    | before inside => exact repinned_of_quoted inside split split' bare bare'
    | same =>
      rw [split'] at split
      exact .inl (eq_before bare' bare (List.cons.inj split).2)

private theorem sourceHere?_aligned {first second : List Char}
    (aligned : Aligned repin first second) :
    Option.Rel (AlikeQuoted repin) (sourceHere? first) (sourceHere? second) := by
  rw [sourceHere?_eq, sourceHere?_eq]
  refine rel_bind (after?_aligned aligned ?_) fun rest rest' keyword => ?_
  · rcases repin.mark_cases with same | same <;> rw [same] <;> decide
  · refine rel_bind ?_ fun _ _ assigned => quotedHere?_aligned assigned
    refine rel_map (after?_aligned (blanks_aligned keyword).2 ?_) fun _ _ behind =>
      (blanks_aligned behind).2
    rcases repin.mark_cases with same | same <;> rw [same] <;> decide

private theorem headerHere?_aligned {first second : List Char}
    (aligned : Aligned repin first second) :
    Option.Rel (AlikeQuoted repin) (headerHere? first) (headerHere? second) := by
  rw [headerHere?_eq, headerHere?_eq]
  refine rel_bind (after?_aligned aligned ?_) fun rest rest' keyword => ?_
  · rcases repin.mark_cases with same | same <;> rw [same] <;> decide
  · obtain ⟨gap, behind⟩ := blanks_aligned keyword
    rw [gap]
    split
    · exact .none
    · exact quotedHere?_aligned behind

private theorem sourceWithin?_mark {version : List Char}
    (pinned : ∀ c ∈ version, isPinChar c = true)
    (apart : endsKeyword version = false ∨ Unlike repin.tail)
    (ends : ∀ c ∈ repin.tail.head?, Patch.isVersionChar c = false) :
    sourceWithin? (repin.mark :: repin.beyond version) = sourceWithin? repin.tail := by
  have passed (inner : List Char) (within : inner <:+ Source.refKey ++ version) :
      sourceWithin? (inner ++ repin.tail) = sourceWithin? repin.tail := by
    induction inner with
    | nil => rfl
    | cons c inner ih =>
      have nothing := (nothing_in_version pinned apart ends within).1
      have unclosed : c ≠ '}' := by
        rintro rfl
        exact notMem_refKey_append pinned (by decide) (within.subset List.mem_cons_self)
      rw [List.cons_append] at nothing ⊢
      rw [sourceWithin?_cons, nothing, Option.none_or, if_neg unclosed]
      exact ih ((List.suffix_cons c inner).trans within)
  have nothing : sourceHere? (repin.mark :: repin.beyond version) = none := by
    rw [sourceHere?_eq]
    rcases repin.mark_cases with same | same <;> rw [same] <;> rfl
  have unclosed : repin.mark ≠ '}' := by
    rcases repin.mark_cases with same | same <;> rw [same] <;> decide
  rw [sourceWithin?_cons, nothing, Option.none_or, if_neg unclosed, beyond_eq_append]
  exact passed _ List.suffix_rfl

private theorem sourceWithin?_same {text : List Char} (inside : text <:+ repin.tail) :
    Option.Rel (AlikeQuoted repin) (sourceWithin? text) (sourceWithin? text) := by
  induction text with
  | nil => exact .none
  | cons c text ih =>
    rw [sourceWithin?_cons]
    refine rel_or (sourceHere?_aligned (.same inside)) ?_
    split
    · exact .none
    · exact ih ((List.suffix_cons c text).trans inside)

private theorem sourceWithin?_aligned (apart : Apart repin) {first second : List Char}
    (aligned : Aligned repin first second) :
    Option.Rel (AlikeQuoted repin) (sourceWithin? first) (sourceWithin? second) := by
  cases aligned with
  | same inside => exact sourceWithin?_same inside
  | @before front inside =>
    induction front with
    | nil =>
      rw [List.nil_append, List.nil_append, sourceWithin?_mark repin.old_pinned apart.old apart.ends,
        sourceWithin?_mark repin.new_pinned apart.new apart.ends]
      exact sourceWithin?_same List.suffix_rfl
    | cons c front ih =>
      rw [List.cons_append, List.cons_append, sourceWithin?_cons, sourceWithin?_cons]
      refine rel_or (sourceHere?_aligned (.before inside)) ?_
      split
      · exact .none
      · exact ih ((List.suffix_cons c front).trans inside)

private def AlikeBlockHere (repin : Repin)
    (first second : (List Char × List Char) × List Char) : Prop :=
  AlikeModule repin ⟨first.1.1, first.1.2⟩ ⟨second.1.1, second.1.2⟩ ∧
    Aligned repin first.2 second.2

private theorem blockHere?_aligned (apart : Apart repin) {first second : List Char}
    (aligned : Aligned repin first second) :
    Option.Rel (AlikeBlockHere repin) (blockHere? first) (blockHere? second) := by
  rw [blockHere?_eq, blockHere?_eq]
  refine rel_bind (headerHere?_aligned aligned) fun header header' named => ?_
  refine rel_bind (after?_aligned (blanks_aligned named.2.2).2 ?_) fun body body' opened => ?_
  · rcases repin.mark_cases with same | same <;> rw [same] <;> decide
  · exact rel_map (sourceWithin?_aligned apart opened) fun _ _ source =>
      ⟨⟨named.1, source.2.1⟩, source.2.2⟩

private def AlikeValues (repin : Repin) : List (List Char × List Char) → List (List Char × List Char) → Prop :=
  List.Forall₂ fun first second => AlikeModule repin ⟨first.1, first.2⟩ ⟨second.1, second.2⟩

private theorem values_mark {version : List Char}
    (pinned : ∀ c ∈ version, isPinChar c = true)
    (apart : endsKeyword version = false ∨ Unlike repin.tail)
    (ends : ∀ c ∈ repin.tail.head?, Patch.isVersionChar c = false) :
    values blockHere? (repin.mark :: repin.beyond version) = values blockHere? repin.tail := by
  have nothing : blockHere? (repin.mark :: repin.beyond version) = none := by
    rw [blockHere?_eq, headerHere?_eq]
    rcases repin.mark_cases with same | same <;> rw [same] <;> rfl
  rw [values_of_none nothing, beyond_eq_append]
  exact values_append fun inner within _ => (nothing_in_version pinned apart ends within).2

private theorem values_aligned (apart : Apart repin) {first second : List Char}
    (aligned : Aligned repin first second) :
    AlikeValues repin (values blockHere? first) (values blockHere? second) := by
  induction size : first.length using Nat.strongRecOn generalizing first second with
  | _ size ih =>
    subst size
    have here := blockHere?_aligned apart aligned
    cases found : blockHere? first with
    | some block =>
      cases found' : blockHere? second with
      | none => rw [found, found'] at here; cases here
      | some block' =>
        rw [found, found'] at here
        cases here with
        | some alike =>
          have shorter := length_lt_of_blockHere? found
          rw [values_of_some found shorter, values_of_some found' (length_lt_of_blockHere? found')]
          exact .cons alike.1 (ih _ shorter alike.2 rfl)
    | none =>
      have missed := rel_none here found
      cases aligned with
      | same inside =>
        cases first with
        | nil => rw [values_nil]; exact .nil
        | cons c text =>
          rw [values_of_none found]
          exact ih _ (Nat.lt_succ_self _) (.same ((List.suffix_cons c text).trans inside)) rfl
      | @before front inside =>
        cases front with
        | nil =>
          rw [List.nil_append, List.nil_append, values_mark repin.old_pinned apart.old apart.ends,
            values_mark repin.new_pinned apart.new apart.ends]
          exact ih _ (by simp [beyond]; omega) (.same List.suffix_rfl) rfl
        | cons c front =>
          rw [List.cons_append] at found missed ⊢
          rw [List.cons_append, values_of_none found, values_of_none missed]
          exact ih _ (Nat.lt_succ_self _) (.before ((List.suffix_cons c front).trans inside)) rfl

/-- The blocks that a text shows before and after. -/
theorem patternModules_alike (apart : Apart repin) :
    List.Forall₂ (AlikeModule repin) (patternModules (repin.text repin.old))
      (patternModules (repin.text repin.new)) := by
  have alike := values_aligned apart (.before List.suffix_rfl)
  have shown (text : List Char) : patternModules text =
      (values blockHere? text).map fun found => ⟨found.1, found.2⟩ := by
    simp [patternModules, values, Function.comp_def]
  rw [shown, shown]
  exact List.forall₂_map_left_iff.mpr (List.forall₂_map_right_iff.mpr alike)

/-- The text with a line end behind it, as documents are read. -/
def ended (repin : Repin) : Repin :=
  { repin with tail := repin.tail ++ ['\n'] }

theorem text_ended (version : List Char) : repin.ended.text version = repin.text version ++ ['\n'] := by
  simp [ended, text, beyond]

private theorem Renewed.ended {first second : List Char} (renewed : Renewed repin first second) :
    Renewed repin.ended first second := by
  induction renewed with
  | nil => exact .nil
  | cons c _ ih => exact .cons c ih
  | version _ ih => exact .version ih

private theorem AlikeModule.ended {first second : ModuleSource}
    (alike : AlikeModule repin first second) : AlikeModule repin.ended first second := by
  refine ⟨alike.name.ended, fun plain => ?_⟩
  obtain ⟨stands, repinned⟩ := alike.source plain
  refine ⟨stands.trans ⟨[], ['\n'], by rw [text_ended]; rfl⟩, ?_⟩
  rcases repinned with same | ⟨front, closing, inside, closes, here, there⟩
  · exact .inl same
  · exact .inr ⟨front, closing, inside, closes.trans (List.prefix_append _ _), here, there⟩

/-- The modules of a text before and after, by whichever strategy they are read. -/
theorem modules_alike {content content' : String} (blocks : ModulesAreBlocks content)
    (old : content.toList = repin.text repin.old) (new : content'.toList = repin.text repin.new)
    (apart : Apart repin) :
    ∃ found found', modules content = .ok found ∧ modules content' = .ok found' ∧
      List.Forall₂ (AlikeModule repin.ended) found found' := by
  obtain ⟨read, read', document, document', alike⟩ := @documentModules_alike repin.ended content
    content' blocks (by rw [old, text_ended]; rfl) (by rw [new, text_ended]; rfl)
  unfold modules
  rw [document, document']
  cases alike with
  | ok related => exact ⟨_, _, rfl, rfl, related⟩
  | error =>
    refine ⟨_, _, rfl, rfl, ?_⟩
    rw [old, new]
    exact (patternModules_alike apart).imp fun _ _ => AlikeModule.ended

/-- A module whose name holds no version and whose source is plain changes around the version only.
-/
theorem AlikeModule.repinned {first second : ModuleSource} (alike : AlikeModule repin first second)
    (named : '=' ∉ first.name) (plain : ∀ c ∈ first.source, isPlainChar c = true) :
    second.name = first.name ∧ Repinned repin first.source second.source := by
  refine ⟨(alike.name.eq_of_no_key fun inside => named ?_).symm, (alike.source plain).2⟩
  exact inside.subset (by decide)

end InfraPins.Repin
