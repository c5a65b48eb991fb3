import InfraPins.Proofs.Result
import InfraPins.Sorting

namespace InfraPins.Sorting

variable {ε α : Type} {good : α → Prop} {le : α → α → Prop} {less : α → α → Except ε Bool}

/-- A comparison that tells of two good items whether the first is strictly below the second, in an
order that is total and transitive on good items. -/
structure Compares (good : α → Prop) (le : α → α → Prop) (less : α → α → Except ε Bool) : Prop where
  told : ∀ {a b}, good a → good b → ∃ answer, less a b = .ok answer ∧ (answer = true ↔ ¬ le b a)
  total : ∀ {a b}, good a → good b → le a b ∨ le b a
  trans : ∀ {a b c}, good a → good b → good c → le a b → le b c → le a c

/-- A test that only items of one rank pass. -/
def Picks (good : α → Prop) (le : α → α → Prop) (test : α → Bool) : Prop :=
  ∀ {a b}, good a → good b → test a = true → test b = true → le a b

/-- Items put in order: each once, and those of one rank in the order in which they came. -/
structure Arranges (good : α → Prop) (le : α → α → Prop) (items sorted : List α) : Prop where
  perm : sorted.Perm items
  ordered : sorted.Pairwise le
  stable : ∀ test, Picks good le test → sorted.filter test = items.filter test

namespace Compares

variable {a b c : α}

/-- What is not below an item is above it. -/
theorem le_of_not_le (compares : Compares good le less) (here : good a) (there : good b)
    (not : ¬ le a b) : le b a :=
  (compares.total here there).resolve_left not

theorem not_le_trans (compares : Compares good le less) (first : good a) (second : good b)
    (third : good c) (above : ¬ le a b) (under : ¬ le b c) : ¬ le a c := by
  intro upward
  have down : le c b := compares.le_of_not_le second third under
  exact above (compares.trans first third second upward down)

end Compares

variable {pivot previous : α} {items sorted run : List α}

/-- The search for a place ends behind the last item that is not above the one to put in. -/
theorem position_eq_ok (compares : Compares good le less) (here : good pivot)
    (all : ∀ item ∈ sorted, good item) (ordered : sorted.Pairwise le) {fuel low high : Nat}
    (room : high - low ≤ fuel) (within : low ≤ high) (inside : high ≤ sorted.length)
    (below : ∀ item ∈ sorted.take low, le item pivot)
    (above : ∀ item ∈ sorted.drop high, ¬ le item pivot) :
    ∃ place, position less pivot sorted fuel low high = .ok place ∧
      (∀ item ∈ sorted.take place, le item pivot) ∧
      ∀ item ∈ sorted.drop place, ¬ le item pivot := by
  induction fuel generalizing low high with
  | zero =>
    obtain rfl : low = high := by omega
    exact ⟨low, rfl, below, above⟩
  | succ fuel ih =>
    by_cases more : low < high
    · have bound : (low + high) / 2 < sorted.length := by omega
      generalize halved : (low + high) / 2 = middle at bound
      have member : sorted[middle] ∈ sorted := List.getElem_mem bound
      -- The item in the middle parts those before it from those behind it.
      have front : sorted.take (middle + 1) = sorted.take middle ++ [sorted[middle]] :=
        (List.take_append_getElem bound).symm
      have back : sorted.drop middle = sorted[middle] :: sorted.drop (middle + 1) :=
        List.drop_eq_getElem_cons bound
      have parted := ordered
      rw [← List.take_append_drop middle sorted, back, List.pairwise_append,
        List.pairwise_cons] at parted
      obtain ⟨_, ⟨behind, _⟩, before⟩ := parted
      obtain ⟨answer, told, exactly⟩ := compares.told here (all _ member)
      have step : position less pivot sorted (fuel + 1) low high =
          if answer then position less pivot sorted fuel low middle
          else position less pivot sorted fuel (middle + 1) high := by
        simp only [position, more, if_true, halved, List.getElem?_eq_getElem bound, told]
        rfl
      rw [step]
      cases answer with
      | true =>
        have high' : ¬ le sorted[middle] pivot := exactly.mp rfl
        refine ih (by omega) (by omega) (by omega) below ?_
        rw [back]
        refine List.forall_mem_cons.mpr ⟨high', fun item inside low' => high' ?_⟩
        exact compares.trans (all _ member) (all item (List.mem_of_mem_drop inside)) here
          (behind item inside) low'
      | false =>
        have low' : le sorted[middle] pivot := by
          by_contra above
          cases exactly.mpr above
        refine ih (by omega) (by omega) inside ?_ above
        rw [front, List.forall_mem_append]
        refine ⟨fun item inside => ?_, by simpa using low'⟩
        exact compares.trans (all item (List.mem_of_mem_take inside)) (all _ member) here
          (before item inside _ List.mem_cons_self) low'
    · obtain rfl : low = high := by omega
      exact ⟨low, by simp [position, pure, Except.pure], below, above⟩

theorem Arranges.all_good (arranges : Arranges good le items sorted)
    (all : ∀ item ∈ items, good item) : ∀ item ∈ sorted, good item :=
  fun item member => all item (arranges.perm.mem_iff.mp member)

/-- One more item goes behind those of its rank. -/
theorem insert_eq_ok (compares : Compares good le less) (here : good pivot)
    (all : ∀ item ∈ items, good item) (arranges : Arranges good le items sorted) :
    ∃ longer, insert less sorted pivot = .ok longer ∧
      Arranges good le (items ++ [pivot]) longer := by
  have all' := arranges.all_good all
  have room : sorted.length - 0 ≤ sorted.length + 1 := by omega
  obtain ⟨place, found, before, behind⟩ := position_eq_ok compares here all' arranges.ordered room
    (Nat.zero_le _) (Nat.le_refl _) (by simp) (by simp)
  refine ⟨sorted.take place ++ pivot :: sorted.drop place,
    Result.bind_eq_ok.mpr ⟨place, found, rfl⟩, ?_⟩
  have whole : sorted.take place ++ sorted.drop place = sorted := List.take_append_drop place sorted
  have parted := arranges.ordered
  rw [← whole, List.pairwise_append] at parted
  obtain ⟨first, second, across⟩ := parted
  constructor
  · calc (sorted.take place ++ pivot :: sorted.drop place).Perm
          (pivot :: (sorted.take place ++ sorted.drop place)) := List.perm_middle
      _ = pivot :: sorted := by rw [whole]
      (pivot :: sorted).Perm (pivot :: items) := arranges.perm.cons pivot
      (pivot :: items).Perm (items ++ [pivot]) := (List.perm_append_singleton pivot items).symm
  · rw [List.pairwise_append, List.pairwise_cons]
    refine ⟨first, ⟨fun item member => ?_, second⟩, fun item member other member' => ?_⟩
    · exact compares.le_of_not_le (all' item (List.mem_of_mem_drop member)) here
        (behind item member)
    · rcases List.mem_cons.mp member' with rfl | member'
      · exact before item member
      · exact across item member other member'
  · intro test picks
    rw [List.filter_append, List.filter_append, ← arranges.stable test picks, ← whole,
      List.filter_append, List.append_assoc, whole]
    congr 1
    by_cases passes : test pivot = true
    · -- What stands behind the new item is above it, so it is of another rank.
      have none : (sorted.drop place).filter test = [] := by
        refine List.filter_eq_nil_iff.mpr fun item member passes' => behind item member ?_
        exact picks (all' item (List.mem_of_mem_drop member)) here passes' passes
      simp [passes, none]
    · simp [passes]

theorem insertAll_eq_ok (compares : Compares good le less) {rest : List α}
    (all : ∀ item ∈ items ++ rest, good item) (arranges : Arranges good le items sorted) :
    ∃ longer, rest.foldlM (insert less) sorted = .ok longer ∧
      Arranges good le (items ++ rest) longer := by
  induction rest generalizing items sorted with
  | nil => exact ⟨sorted, rfl, by simpa using arranges⟩
  | cons item rest ih =>
    have first : ∀ other ∈ items, good other := fun other member =>
      all other (List.mem_append_left _ member)
    obtain ⟨longer, inserted, arranges'⟩ := insert_eq_ok compares (all item (by simp)) first arranges
    rw [List.append_cons] at all ⊢
    obtain ⟨last, folded, whole⟩ := ih all arranges'
    exact ⟨last, by rw [List.foldlM_cons, inserted]; exact folded, whole⟩

/-- Two items that stand one after the other in a run: the second is below the first where the run
descends, and not below it where the run does not. -/
def Steps (le : α → α → Prop) (descending : Bool) (first second : α) : Prop :=
  (¬ le first second) ↔ descending = true

theorem Steps.pairwise (compares : Compares good le less) {descending : Bool} {first second : α}
    (all : ∀ item ∈ first :: second :: run, good item) (step : Steps le descending first second)
    (ordered : (second :: run).Pairwise (Steps le descending)) :
    (first :: second :: run).Pairwise (Steps le descending) := by
  refine List.pairwise_cons.mpr ⟨fun other member => ?_, ordered⟩
  rcases List.mem_cons.mp member with rfl | inside
  · exact step
  · have onward : Steps le descending second other := List.rel_of_pairwise_cons ordered inside
    have start : good first := all first (by simp)
    have next : good second := all second (by simp)
    have last : good other := all other (by simp [inside])
    cases descending with
    | true => simpa [Steps] using
        compares.not_le_trans start next last (step.mpr rfl) (onward.mpr rfl)
    | false => simpa [Steps] using
        compares.trans start next last (by simpa [Steps] using step) (by simpa [Steps] using onward)

/-- The run that is kept together descends or does not, as asked. -/
theorem extendRun_eq_ok (compares : Compares good le less) (descending : Bool)
    (all : ∀ item ∈ previous :: items, good item) :
    ∃ run after, extendRun less descending previous items = .ok (run, after) ∧
      items = run ++ after ∧ (previous :: run).Pairwise (Steps le descending) := by
  induction items generalizing previous with
  | nil => exact ⟨[], [], rfl, rfl, List.pairwise_singleton _ _⟩
  | cons item rest ih =>
    obtain ⟨start, all'⟩ := List.forall_mem_cons.mp all
    obtain ⟨answer, told, exactly⟩ := compares.told (all' item List.mem_cons_self) start
    by_cases same : answer = descending
    · obtain ⟨run, after, found, rfl, ordered⟩ := ih all'
      refine ⟨item :: run, after, ?_, rfl, ?_⟩
      · simp only [extendRun, told, same, found]
        simp [bind, Except.bind, pure, Except.pure]
      · refine Steps.pairwise compares (fun other member => all other ?_) (same ▸ exactly.symm) ordered
        simp only [List.mem_cons, List.mem_append] at member ⊢
        tauto
    · refine ⟨[], item :: rest, ?_, rfl, List.pairwise_singleton _ _⟩
      simp only [extendRun, told]
      simp [bind, Except.bind, pure, Except.pure, same]

/-- A run that goes strictly down has no two items of one rank. -/
theorem filter_reverse_of_descending {test : α → Bool} (all : ∀ item ∈ run, good item)
    (picks : Picks good le test) (strict : run.Pairwise fun first second => ¬ le first second) :
    run.reverse.filter test = run.filter test := by
  have strict' : (run.filter test).Pairwise fun first second => ¬ le first second :=
    strict.sublist List.filter_sublist
  have passing : ∀ item ∈ run.filter test, good item ∧ test item = true := fun item member =>
    ⟨all item (List.mem_of_mem_filter member), (List.mem_filter.mp member).2⟩
  rw [List.filter_reverse]
  cases picked : run.filter test with
  | nil => rfl
  | cons first others =>
    cases others with
    | nil => rfl
    | cons second others =>
      rw [picked] at strict' passing
      have apart : ¬ le first second := List.rel_of_pairwise_cons strict' List.mem_cons_self
      obtain ⟨here, yes⟩ := passing first (by simp)
      obtain ⟨there, yes'⟩ := passing second (by simp)
      exact absurd (picks here there yes yes') apart

/-- A run is in order once it is turned round, if it descends. -/
theorem arranges_run (compares : Compares good le less) {descending : Bool}
    (all : ∀ item ∈ run, good item) (ordered : run.Pairwise (Steps le descending)) :
    Arranges good le run (if descending then run.reverse else run) := by
  cases descending with
  | true =>
    have strict : run.Pairwise fun first second => ¬ le first second :=
      ordered.imp fun step => step.mpr rfl
    refine ⟨List.reverse_perm run, List.pairwise_reverse.mpr ?_, fun test picks =>
      filter_reverse_of_descending all picks strict⟩
    exact strict.imp_of_mem fun first second => compares.le_of_not_le (all _ first) (all _ second)
  | false =>
    exact ⟨.refl run, ordered.imp fun step => by simpa [Steps] using step, fun _ _ => rfl⟩

theorem ascending_eq_ok (compares : Compares good le less) (all : ∀ item ∈ items, good item) :
    ∃ sorted, ascending less items = .ok sorted ∧ Arranges good le items sorted := by
  match items with
  | [] => exact ⟨[], rfl, .refl _, .nil, fun _ _ => rfl⟩
  | [item] => exact ⟨[item], rfl, .refl _, List.pairwise_singleton _ _, fun _ _ => rfl⟩
  | first :: second :: rest =>
    obtain ⟨start, all'⟩ := List.forall_mem_cons.mp all
    obtain ⟨descending, told, exactly⟩ := compares.told (all' second List.mem_cons_self) start
    obtain ⟨run, after, found, rfl, ordered⟩ := extendRun_eq_ok compares descending all'
    have kept : ∀ item ∈ first :: second :: run, good item := fun item member =>
      all item (List.mem_append_left after member)
    have arranges := arranges_run compares kept (Steps.pairwise compares kept exactly.symm ordered)
    obtain ⟨sorted, folded, whole⟩ := insertAll_eq_ok compares all arranges
    refine ⟨sorted, ?_, whole⟩
    exact Result.bind_eq_ok.mpr ⟨descending, told, Result.bind_eq_ok.mpr ⟨_, found, folded⟩⟩

/-- Sorting in descending order comes to an end, with each item once, in descending order, and items
of one rank in the order in which they came. -/
theorem descending_eq_ok (compares : Compares good le less) (all : ∀ item ∈ items, good item) :
    ∃ sorted, descending less items = .ok sorted ∧
      Arranges good (fun first second => le second first) items sorted := by
  have all' : ∀ item ∈ items.reverse, good item := fun item member =>
    all item (List.mem_reverse.mp member)
  obtain ⟨sorted, found, arranges⟩ := ascending_eq_ok compares all'
  refine ⟨sorted.reverse, Result.bind_eq_ok.mpr ⟨sorted, found, rfl⟩, ?_, ?_, fun test picks => ?_⟩
  · exact (List.reverse_perm sorted).trans (arranges.perm.trans (List.reverse_perm items))
  · exact List.pairwise_reverse.mpr arranges.ordered
  · have picks' : Picks good le test := fun here there yes yes' => picks there here yes' yes
    rw [List.filter_reverse, arranges.stable test picks', List.filter_reverse, List.reverse_reverse]

/-- A comparison that can be made of any two good items. -/
def Decides (good : α → Prop) (less : α → α → Except ε Bool) : Prop :=
  ∀ {a b}, good a → good b → ∃ answer, less a b = .ok answer

theorem Decides.position_eq_ok (decides : Decides good less) (here : good pivot)
    (all : ∀ item ∈ sorted, good item) (fuel low high : Nat) :
    ∃ place, position less pivot sorted fuel low high = .ok place := by
  induction fuel generalizing low high with
  | zero => exact ⟨low, rfl⟩
  | succ fuel ih =>
    unfold position
    by_cases more : low < high
    · rw [if_pos more]
      dsimp only
      cases found : sorted[(low + high) / 2]? with
      | none => exact ⟨low, rfl⟩
      | some item =>
        obtain ⟨answer, told⟩ := decides here (all item (List.mem_of_getElem? found))
        simp only [told]
        cases answer with
        | true => exact ih low ((low + high) / 2)
        | false => exact ih ((low + high) / 2 + 1) high
    · rw [if_neg more]
      exact ⟨low, rfl⟩

theorem Decides.insert_eq_ok (decides : Decides good less) (here : good pivot)
    (all : ∀ item ∈ sorted, good item) :
    ∃ longer, insert less sorted pivot = .ok longer ∧ longer.Perm (pivot :: sorted) := by
  obtain ⟨place, found⟩ := decides.position_eq_ok here all (sorted.length + 1) 0 sorted.length
  refine ⟨sorted.take place ++ pivot :: sorted.drop place,
    Result.bind_eq_ok.mpr ⟨place, found, rfl⟩, ?_⟩
  calc (sorted.take place ++ pivot :: sorted.drop place).Perm
        (pivot :: (sorted.take place ++ sorted.drop place)) := List.perm_middle
    _ = pivot :: sorted := by rw [List.take_append_drop]

theorem Decides.insertAll_eq_ok (decides : Decides good less)
    (all : ∀ item ∈ items ++ sorted, good item) :
    ∃ longer, items.foldlM (insert less) sorted = .ok longer ∧ longer.Perm (items ++ sorted) := by
  induction items generalizing sorted with
  | nil => exact ⟨sorted, rfl, .refl sorted⟩
  | cons item items ih =>
    obtain ⟨here, others⟩ := List.forall_mem_cons.mp all
    obtain ⟨first, behind⟩ := List.forall_mem_append.mp others
    obtain ⟨longer, inserted, kept⟩ := decides.insert_eq_ok here behind
    have all' : ∀ other ∈ items ++ longer, good other := by
      refine List.forall_mem_append.mpr ⟨first, fun other member => ?_⟩
      exact List.forall_mem_cons.mpr ⟨here, behind⟩ other (kept.mem_iff.mp member)
    obtain ⟨last, folded, moved⟩ := ih all'
    refine ⟨last, by rw [List.foldlM_cons, inserted]; exact folded, ?_⟩
    calc last.Perm (items ++ longer) := moved
      (items ++ longer).Perm (items ++ item :: sorted) := kept.append_left items
      (items ++ item :: sorted).Perm (item :: (items ++ sorted)) := List.perm_middle

theorem Decides.extendRun_eq_ok (decides : Decides good less) (descending : Bool)
    (all : ∀ item ∈ previous :: items, good item) :
    ∃ run after, extendRun less descending previous items = .ok (run, after) ∧
      items = run ++ after := by
  induction items generalizing previous with
  | nil => exact ⟨[], [], rfl, rfl⟩
  | cons item rest ih =>
    obtain ⟨start, all'⟩ := List.forall_mem_cons.mp all
    obtain ⟨answer, told⟩ := decides (all' item List.mem_cons_self) start
    obtain ⟨run, after, found, whole⟩ := ih all'
    unfold extendRun
    rw [told]
    by_cases same : answer = descending
    · subst same
      refine ⟨item :: run, after, ?_, congrArg (item :: ·) whole⟩
      simp [found, bind, Except.bind, pure, Except.pure]
    · refine ⟨[], item :: rest, ?_, rfl⟩
      simp [same, bind, Except.bind, pure, Except.pure]

theorem Decides.ascending_eq_ok (decides : Decides good less) (all : ∀ item ∈ items, good item) :
    ∃ sorted, ascending less items = .ok sorted ∧ sorted.Perm items := by
  match items with
  | [] => exact ⟨[], rfl, .refl _⟩
  | [item] => exact ⟨[item], rfl, .refl _⟩
  | first :: second :: rest =>
    obtain ⟨start, all'⟩ := List.forall_mem_cons.mp all
    obtain ⟨descending, told⟩ := decides (all' second List.mem_cons_self) start
    obtain ⟨run, after, found, rfl⟩ := decides.extendRun_eq_ok descending all'
    generalize begun : (if descending then (first :: second :: run).reverse
      else first :: second :: run) = kept
    have turned : kept.Perm (first :: second :: run) := by
      cases descending with
      | true => exact begun ▸ List.reverse_perm _
      | false => exact begun ▸ .refl _
    have whole : (after ++ kept).Perm (first :: second :: (run ++ after)) :=
      (turned.append_left after).trans List.perm_append_comm
    obtain ⟨sorted, folded, moved⟩ := decides.insertAll_eq_ok fun item member =>
      all item (whole.mem_iff.mp member)
    refine ⟨sorted, ?_, moved.trans whole⟩
    refine Result.bind_eq_ok.mpr ⟨descending, told, Result.bind_eq_ok.mpr ⟨_, found, ?_⟩⟩
    dsimp only
    rw [begun]
    exact folded

/-- Sorting by a comparison that can be made comes to an end, with each item once. -/
theorem Decides.descending_eq_ok (decides : Decides good less) (all : ∀ item ∈ items, good item) :
    ∃ sorted, descending less items = .ok sorted ∧ sorted.Perm items := by
  have all' : ∀ item ∈ items.reverse, good item := fun item member =>
    all item (List.mem_reverse.mp member)
  obtain ⟨sorted, found, moved⟩ := decides.ascending_eq_ok all'
  refine ⟨sorted.reverse, Result.bind_eq_ok.mpr ⟨sorted, found, rfl⟩, ?_⟩
  exact (List.reverse_perm sorted).trans (moved.trans (List.reverse_perm items))

end InfraPins.Sorting
