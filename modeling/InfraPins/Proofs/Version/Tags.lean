import Mathlib.Data.List.Perm.Basic
import InfraPins.Proofs.Sorting
import InfraPins.Proofs.Version.Precedence

/-! The newest tag. Being newer is told by precedence for two versions and by the order of texts for
other tags, so over mixed tags it need not be transitive. Sorting puts a newest tag first, whichever
tags are taken, exactly when no other tag stands between two versions the wrong way round. -/

namespace InfraPins.Version

variable {a b c : List Char}

theorem Newer.asymm (newer : Newer a b) : ¬ Newer b a := by
  unfold Newer at newer ⊢
  cases is : version? a <;> cases is' : version? b <;> simp only [is, is'] at newer ⊢ <;>
    exact newer.not_gt

theorem version?_of_not_isSemanticLike (apart : isSemanticLike a = .ok false) : version? a = none := by
  obtain ⟨version?, read, missing⟩ := Result.map_eq_ok.mp apart
  unfold parse at read
  cases found : shape? (normalize a) with
  | none => rw [Version.version?, found, Option.map_none]
  | some shape =>
    rw [found] at read
    obtain ⟨version, _, rfl⟩ := Result.map_eq_ok.mp read
    cases missing

/-- What is told to be newer is so, whether or not both are legible. -/
theorem newer_of_isNewer (told : isNewer a b = .ok true) : Newer a b := by
  unfold isNewer at told
  obtain ⟨semantic, first, told⟩ := Result.bind_eq_ok.mp told
  cases semantic with
  | false =>
    have below : a < b := of_decide_eq_true (Except.ok.inj told)
    simpa [Newer, version?_of_not_isSemanticLike first] using below
  | true =>
    obtain ⟨semantic', second, later⟩ := Result.bind_eq_ok.mp told
    cases semantic' with
    | false =>
      have below : a < b := of_decide_eq_true (Except.ok.inj later)
      cases is : version? a <;> simpa [Newer, is, version?_of_not_isSemanticLike second] using below
    | true =>
      obtain ⟨version, version', is, is', lower⟩ := rank_lt_of_isNewer first second (by
        unfold isNewer
        rw [first, second]
        exact later)
      simp only [Newer, is, is']
      exact lower

theorem isNewer_self (legible : Legible a) : isNewer a a = .ok false :=
  (isNewer_eq_false_iff legible legible).mpr fun newer => newer.asymm newer

/-- Versions and other tags do not cross: where another tag stands between two versions in the order of
texts, the version that comes later in it is newer. -/
def Coherent (tags : List String) : Prop :=
  ∀ low ∈ tags, ∀ other ∈ tags, ∀ high ∈ tags, isSemanticLike low.toList = .ok true →
    isSemanticLike other.toList = .ok false → isSemanticLike high.toList = .ok true →
    low.toList < other.toList → other.toList < high.toList →
    isNewer low.toList high.toList = .ok true

instance (tags : List String) : Decidable (Coherent tags) :=
  inferInstanceAs (Decidable (∀ low ∈ tags, ∀ other ∈ tags, ∀ high ∈ tags,
    isSemanticLike low.toList = .ok true → isSemanticLike other.toList = .ok false →
    isSemanticLike high.toList = .ok true → low.toList < other.toList →
    other.toList < high.toList → isNewer low.toList high.toList = .ok true))

section Mixed

variable {tags : List String} (legible : ∀ tag ∈ tags, Legible tag.toList)

include legible

/-- No other tag stands between two versions of coherent tags the wrong way round. -/
theorem Coherent.rank_lt (coherent : Coherent tags) {low other high : String} (first : low ∈ tags)
    (second : other ∈ tags) (third : high ∈ tags) {version version' : SemVer}
    (is : version? low.toList = some version) (apart : version? other.toList = none)
    (is' : version? high.toList = some version') (below : low.toList < other.toList)
    (above : other.toList < high.toList) : rank version < rank version' := by
  have ahead : isNewer low.toList high.toList = .ok true := by
    refine coherent low first other second high third ?_ ?_ ?_ below above
    · rw [(legible low first).isSemanticLike_eq, is]
      rfl
    · rw [(legible other second).isSemanticLike_eq, apart]
      rfl
    · rw [(legible high third).isSemanticLike_eq, is']
      rfl
  have holds := (isNewer_eq_true_iff (legible low first) (legible high third)).mp ahead
  simpa only [Newer, is, is'] using holds

/-- Over coherent tags, what is not newer than a tag that is not newer than a third is not newer than
the third. -/
theorem Coherent.not_newer_trans (coherent : Coherent tags) {first second third : String}
    (here : first ∈ tags) (there : second ∈ tags) (beyond : third ∈ tags)
    (below : ¬ Newer second.toList first.toList) (below' : ¬ Newer third.toList second.toList) :
    ¬ Newer third.toList first.toList := by
  unfold Newer at below below' ⊢
  have apart {left right : String} {version : SemVer} (is : version? left.toList = some version)
      (none : version? right.toList = none) : left.toList ≠ right.toList := by
    intro same
    rw [same, none] at is
    cases is
  cases is : version? first.toList with
  | none =>
    cases is' : version? second.toList with
    | none =>
      cases is'' : version? third.toList <;> simp only [is, is', is'', not_lt] at below below' ⊢ <;>
        exact below.trans below'
    | some version' =>
      cases is'' : version? third.toList with
      | none =>
        simp only [is, is', is'', not_lt] at below below' ⊢
        exact below.trans below'
      | some version'' =>
        -- The first tag would stand between the third and the second.
        simp only [is, is', is'', not_lt] at below below' ⊢
        refine not_lt.mp fun under => ?_
        have higher := lt_of_le_of_ne below (apart is' is).symm
        exact absurd (coherent.rank_lt legible beyond here there is'' is is' under higher) below'.not_gt
  | some version =>
    cases is' : version? second.toList with
    | none =>
      cases is'' : version? third.toList with
      | none =>
        simp only [is, is', is'', not_lt] at below below' ⊢
        exact below.trans below'
      | some version'' =>
        simp only [is, is', is'', not_lt] at below below' ⊢
        have under := lt_of_le_of_ne below (apart is is')
        have higher := lt_of_le_of_ne below' (apart is'' is').symm
        exact (coherent.rank_lt legible here there beyond is is' is'' under higher).le
    | some version' =>
      cases is'' : version? third.toList with
      | none =>
        -- The third tag would stand between the second and the first.
        simp only [is, is', is'', not_lt] at below below' ⊢
        refine not_lt.mp fun higher => ?_
        have under := lt_of_le_of_ne below' (apart is' is'')
        exact absurd (coherent.rank_lt legible there beyond here is' is'' is under higher) below.not_gt
      | some version'' =>
        simp only [is, is', is'', not_lt] at below below' ⊢
        exact below.trans below'

def IsTag (tags : List String) (item : Datum) : Prop :=
  ∃ tag ∈ tags, item = .text tag

omit legible in
theorem all_isTag (tags : List String) : ∀ item ∈ tags.map Datum.text, IsTag tags item := by
  intro item member
  obtain ⟨tag, inside, rfl⟩ := List.mem_map.mp member
  exact ⟨tag, inside, rfl⟩

/-- A tag is not newer than another. -/
def NotNewer (first second : Datum) : Prop :=
  isNewerTag second first = .ok false

theorem notNewer_iff {first second : String} (here : first ∈ tags) (there : second ∈ tags) :
    NotNewer (.text first) (.text second) ↔ ¬ Newer second.toList first.toList := by
  rw [NotNewer, isNewerTag_text_eq_ok, isNewer_eq_false_iff (legible second there) (legible first here)]

/-- Over coherent tags, the comparison that sorts them is told by a total order. -/
theorem Coherent.compares (coherent : Coherent tags) :
    Sorting.Compares (IsTag tags) NotNewer isBelow where
  told := by
    rintro _ _ ⟨left, here, rfl⟩ ⟨right, there, rfl⟩
    obtain ⟨newer, told, exactly⟩ := isNewer_eq_ok (legible left here) (legible right there)
    obtain ⟨newer', told', exactly'⟩ := isNewer_eq_ok (legible right there) (legible left here)
    rw [notNewer_iff legible there here, not_not, ← exactly]
    cases newer' with
    | false =>
      refine ⟨newer, ?_, Iff.rfl⟩
      simp only [isBelow, isNewerTag_text_eq_ok.mpr told']
      exact isNewerTag_text_eq_ok.mpr told
    | true =>
      refine ⟨false, by simp only [isBelow, isNewerTag_text_eq_ok.mpr told']; rfl, ?_⟩
      have older : ¬ newer = true := fun same => (exactly'.mp rfl).asymm (exactly.mp same)
      simp [older]
  total := by
    rintro _ _ ⟨left, here, rfl⟩ ⟨right, there, rfl⟩
    rw [notNewer_iff legible here there, notNewer_iff legible there here, ← not_and_or]
    exact fun ⟨newer, newer'⟩ => newer.asymm newer'
  trans := by
    rintro _ _ _ ⟨first, here, rfl⟩ ⟨second, there, rfl⟩ ⟨third, beyond, rfl⟩
    rw [notNewer_iff legible here there, notNewer_iff legible there beyond,
      notNewer_iff legible here beyond]
    exact coherent.not_newer_trans legible here there beyond

end Mixed

/-- Tags put in order, newest first: each once, none before a newer one, and those of one rank in the
order in which they came. -/
structure NewestFirst (tags sorted : List String) : Prop where
  perm : sorted.Perm tags
  ordered : sorted.Pairwise fun first later => isNewer first.toList later.toList = .ok false
  stable : ∀ test : String → Bool,
    (∀ first ∈ tags, ∀ second ∈ tags, test first = true → test second = true →
      isNewer first.toList second.toList = .ok false) → sorted.filter test = tags.filter test

/-- None is newer than the first of sorted tags. -/
theorem NewestFirst.head_newest {tags rest : List String} {head tag : String}
    (newestFirst : NewestFirst tags (head :: rest)) (legible : ∀ tag ∈ tags, Legible tag.toList)
    (member : tag ∈ tags) : isNewer head.toList tag.toList = .ok false := by
  rcases List.mem_cons.mp (newestFirst.perm.mem_iff.mpr member) with rfl | behind
  · exact isNewer_self (legible tag member)
  · exact List.rel_of_pairwise_cons newestFirst.ordered behind

def textPasses (test : String → Bool) : Datum → Bool
  | .text text => test text
  | _ => false

/-- Coherent tags are put in order. -/
theorem Coherent.sortTags_eq_ok {tags : List String} (legible : ∀ tag ∈ tags, Legible tag.toList)
    (coherent : Coherent tags) :
    ∃ sorted : List String, sortTags (tags.map .text) = .ok (sorted.map .text) ∧
      NewestFirst tags sorted := by
  obtain ⟨items, found, perm, ordered, stable⟩ :=
    Sorting.descending_eq_ok (coherent.compares legible) (all_isTag tags)
  obtain ⟨sorted, rfl, moved⟩ :=
    (congrFun (congrFun (List.eq_map_comp_perm Datum.text) items) tags).mpr perm
  refine ⟨sorted, found, moved, ?_, fun test level => ?_⟩
  · exact (List.pairwise_map.mp ordered).imp isNewerTag_text_eq_ok.mp
  · have picks :
        Sorting.Picks (IsTag tags) (fun first second => NotNewer second first) (textPasses test) := by
      rintro _ _ ⟨first, here, rfl⟩ ⟨second, there, rfl⟩ yes yes'
      exact isNewerTag_text_eq_ok.mpr (level first here second there yes yes')
    have same := stable (textPasses test) picks
    rw [List.filter_map, List.filter_map] at same
    exact List.map_injective_iff.mpr (fun _ _ => Datum.text.inj) same

/-- Texts that can be compared are sorted, each of them once, whether or not they are coherent. -/
theorem sortTags_of_legible {tags : List String} (legible : ∀ tag ∈ tags, Legible tag.toList) :
    ∃ sorted : List String, sortTags (tags.map .text) = .ok (sorted.map .text) ∧ sorted.Perm tags := by
  have decides : Sorting.Decides (IsTag tags) isBelow := by
    rintro _ _ ⟨left, here, rfl⟩ ⟨right, there, rfl⟩
    obtain ⟨above, told⟩ := isNewerTag_of_legible (legible right there) (legible left here)
    obtain ⟨below, told'⟩ := isNewerTag_of_legible (legible left here) (legible right there)
    cases above with
    | true => exact ⟨false, by rw [isBelow, told]; rfl⟩
    | false => exact ⟨below, by rw [isBelow, told]; exact told'⟩
  obtain ⟨items, found, moved⟩ := decides.descending_eq_ok (all_isTag tags)
  obtain ⟨sorted, rfl, perm⟩ :=
    (congrFun (congrFun (List.eq_map_comp_perm Datum.text) items) tags).mpr moved
  exact ⟨sorted, found, perm⟩

theorem coherent_of_versions {tags : List String}
    (versions : ∀ tag ∈ tags, isSemanticLike tag.toList = .ok true) : Coherent tags := by
  intro low _ other second high _ _ apart
  cases (versions other second).symm.trans apart

theorem Coherent.subset {tags chosen : List String} (coherent : Coherent tags)
    (among : ∀ tag ∈ chosen, tag ∈ tags) : Coherent chosen := by
  intro low first other second high third
  exact coherent low (among low first) other (among other second) high (among high third)

/-- Three tags stay as they are where none is below the one before it. -/
theorem sortTags_of_steps {low high other : Datum} (first : isBelow high other = .ok false)
    (second : isBelow low high = .ok false) :
    sortTags [low, high, other] = .ok [low, high, other] := by
  simp [sortTags, Sorting.descending, Sorting.ascending, Sorting.extendRun, first, second, bind,
    Except.bind, pure, Except.pure]

/-- The first of sorted tags is one that none is newer than. -/
def HeadIsNewest (tags : List String) : Prop :=
  ∃ head rest, sortTags (tags.map .text) = .ok (.text head :: rest) ∧ head ∈ tags ∧
    ∀ tag ∈ tags, isNewer head.toList tag.toList = .ok false

theorem Coherent.headIsNewest {tags : List String} (legible : ∀ tag ∈ tags, Legible tag.toList)
    (coherent : Coherent tags) (present : tags ≠ []) : HeadIsNewest tags := by
  obtain ⟨sorted, found, newestFirst⟩ := coherent.sortTags_eq_ok legible
  cases sorted with
  | nil => exact absurd newestFirst.perm.nil_eq.symm present
  | cons head rest =>
    have inside : head ∈ tags := newestFirst.perm.mem_iff.mp List.mem_cons_self
    exact ⟨head, rest.map .text, found, inside, fun tag => newestFirst.head_newest legible⟩

/-- Where one of two texts is no version, the later one is newer. -/
theorem isNewer_of_lt {current candidate : List Char} {semantic semantic' : Bool}
    (told : isSemanticLike current = .ok semantic) (told' : isSemanticLike candidate = .ok semantic')
    (apart : (semantic && semantic') = false) (below : current < candidate) :
    isNewer current candidate = .ok true := by
  cases semantic <;> cases semantic' <;> simp [isNewer, told, told', bind, Except.bind, below] at apart ⊢ <;>
    rfl

/-- Two versions and another tag that stands between them the wrong way round stay as they are, with
the other tag behind a version that it is newer than. -/
theorem not_headIsNewest {low other high : String} (legible : Legible low.toList)
    (legible' : Legible high.toList) (semantic : isSemanticLike low.toList = .ok true)
    (apart : isSemanticLike other.toList = .ok false)
    (semantic' : isSemanticLike high.toList = .ok true) (below : low.toList < other.toList)
    (above : other.toList < high.toList) (older : isNewer low.toList high.toList = .ok false) :
    ¬ HeadIsNewest [low, high, other] := by
  rintro ⟨head, rest, sorted, _, newest⟩
  have ahead : isNewer low.toList other.toList = .ok true := isNewer_of_lt semantic apart rfl below
  have beyond : isNewer other.toList high.toList = .ok true := isNewer_of_lt apart semantic' rfl above
  obtain ⟨answer, told, _⟩ := isNewer_eq_ok legible' legible
  have first : isBelow (.text high) (.text other) = .ok false := by
    simp only [isBelow, isNewerTag_text_eq_ok.mpr beyond]
    rfl
  have second : isBelow (.text low) (.text high) = .ok false := by
    simp only [isBelow, isNewerTag_text_eq_ok.mpr told, isNewerTag_text_eq_ok.mpr older]
    cases answer <;> rfl
  have kept := (sortTags_of_steps first second).symm.trans sorted
  obtain ⟨same, _⟩ := List.cons.inj (Except.ok.inj kept)
  obtain rfl := Datum.text.inj same
  cases ahead.symm.trans (newest other (by simp))

/-- The first of sorted tags is a newest one, whichever of some tags are taken and in whatever order,
exactly when the tags are coherent. -/
theorem headIsNewest_iff_coherent (tags : List String)
    (legible : ∀ tag ∈ tags, Legible tag.toList) :
    (∀ chosen : List String, chosen ≠ [] → (∀ tag ∈ chosen, tag ∈ tags) → HeadIsNewest chosen) ↔
      Coherent tags := by
  constructor
  · intro heads low first other second high third semantic apart semantic' below above
    obtain ⟨newer, told⟩ := isNewer_of_legible (legible low first) (legible high third)
    cases newer with
    | true => exact told
    | false =>
      refine absurd (heads [low, high, other] (by simp) (by simp [first, second, third])) ?_
      exact not_headIsNewest (legible low first) (legible high third) semantic apart semantic' below
        above told
  · intro coherent chosen present among
    exact (coherent.subset among).headIsNewest (fun tag member => legible tag (among tag member)) present

/-- A tag that is no version, between two versions that stand the right way round. -/
theorem headIsNewest_iff_coherent_sample :
    (∀ tag ∈ ["v1", "v1x", "v2"], Legible tag.toList) ∧ HeadIsNewest ["v1", "v1x", "v2"] := by
  have legible : ∀ tag ∈ ["v1", "v1x", "v2"], Legible tag.toList := by decide
  have coherent : Coherent ["v1", "v1x", "v2"] := by decide
  exact ⟨legible, (headIsNewest_iff_coherent _ legible).mpr coherent _ (by decide) fun _ => id⟩

/-- The first of sorted tags need not be a newest one: `v1.0-x` is no version, and in the order of
texts it stands between `v1.0` and `v1.0.0`, which are the same version. -/
theorem not_forall_head_newest :
    ¬ ∀ tags : List String, tags ≠ [] → (∀ tag ∈ tags, Legible tag.toList) →
      ∀ head rest, sortTags (tags.map .text) = .ok (.text head :: rest) →
        ∀ tag ∈ tags, isNewer head.toList tag.toList ≠ .ok true := by
  intro newest
  have legible : ∀ tag ∈ ["v1.0", "v1.0.0", "v1.0-x"], Legible tag.toList := by decide
  have sorted : sortTags (["v1.0", "v1.0.0", "v1.0-x"].map .text) =
      .ok [.text "v1.0", .text "v1.0.0", .text "v1.0-x"] := by decide
  have newer : isNewer "v1.0".toList "v1.0-x".toList = .ok true := by decide
  exact newest _ (by decide) legible "v1.0" _ sorted "v1.0-x" (by decide) newer

end InfraPins.Version
