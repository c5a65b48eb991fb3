import InfraPins.Journal
import InfraPins.Upgrade.Plan

namespace InfraPins

variable {m : Type → Type} [Monad m] {α β : Type}

/-- A way to say how an operation goes, and that the values it comes to have a property: a value goes
well if it has the property, and one operation after another if each of them goes well. -/
structure Rules (Goes : {α : Type} → m α → (α → Prop) → Prop) : Prop where
  pure : ∀ {α : Type} {value : α} {good : α → Prop}, good value → Goes (Pure.pure value) good
  bind : ∀ {α β : Type} {first : m α} {next : α → m β} {middle : α → Prop} {good : β → Prop},
    Goes first middle → (∀ value, middle value → Goes (next value) good) →
      Goes (first >>= next) good

namespace Rules

variable {Goes : {α : Type} → m α → (α → Prop) → Prop}

theorem weaken [LawfulMonad m] (rules : Rules Goes) {act : m α} {good other : α → Prop}
    (goes : Goes act good) (implies : ∀ value, good value → other value) : Goes act other := by
  rw [← bind_pure act]
  exact rules.bind goes fun value here => rules.pure (implies value here)

theorem mapM [LawfulMonad m] (rules : Rules Goes) {items : List β} {act : β → m α} {good : α → Prop}
    (each : ∀ item ∈ items, Goes (act item) good) :
    Goes (items.mapM act) fun values => ∀ value ∈ values, good value := by
  induction items with
  | nil => exact rules.pure nofun
  | cons item items ih =>
    rw [List.mapM_cons]
    obtain ⟨first, others⟩ := List.forall_mem_cons.mp each
    exact rules.bind first fun value here => rules.bind (ih others) fun rest there =>
      rules.pure (List.forall_mem_cons.mpr ⟨here, there⟩)

theorem forM (rules : Rules Goes) {items : List β} {act : β → m PUnit}
    (each : ∀ item ∈ items, Goes (act item) fun _ => True) :
    Goes (items.forM act) fun _ => True := by
  induction items with
  | nil => exact rules.pure trivial
  | cons item items ih =>
    obtain ⟨first, others⟩ := List.forall_mem_cons.mp each
    exact rules.bind first fun _ _ => ih others

/-- An operation that hands on a state goes well if it does from every valid one, and leaves one. -/
theorem stateT (rules : Rules Goes) {S : Type} {valid : S → Prop} :
    Rules fun {α} (act : StateT S m α) (good : α → Prop) => ∀ state, valid state →
      Goes (act.run state) fun found => good found.1 ∧ valid found.2 where
  pure := fun holds _ kept => rules.pure ⟨holds, kept⟩
  bind := fun head rest state kept => rules.bind (head state kept) fun found come =>
    rest found.1 come.1 found.2 come.2

end Rules

namespace Sorting

variable {m : Type → Type} [Monad m] {α : Type} {Goes : {α : Type} → m α → (α → Prop) → Prop}
  {less : α → α → m Bool} (rules : Rules Goes)
  (compared : ∀ left right, Goes (less left right) fun _ => True)

include rules compared

theorem extendRun_goes (descending : Bool) (previous : α) (items : List α) :
    Goes (extendRun less descending previous items) fun _ => True := by
  induction items generalizing previous with
  | nil => exact rules.pure trivial
  | cons item rest ih =>
    refine rules.bind (compared item previous) fun below _ => ?_
    split
    · exact rules.bind (ih item) fun _ _ => rules.pure trivial
    · exact rules.pure trivial

theorem position_goes (pivot : α) (sorted : List α) (fuel low high : Nat) :
    Goes (position less pivot sorted fuel low high) fun _ => True := by
  induction fuel generalizing low high with
  | zero => exact rules.pure trivial
  | succ fuel ih =>
    unfold position
    dsimp only
    split
    · split
      · refine rules.bind (compared _ _) fun below _ => ?_
        split
        · exact ih _ _
        · exact ih _ _
      · exact rules.pure trivial
    · exact rules.pure trivial

theorem insertAll_goes [LawfulMonad m] (items sorted : List α) :
    Goes (items.foldlM (insert less) sorted) fun _ => True := by
  induction items generalizing sorted with
  | nil => exact rules.pure trivial
  | cons item items ih =>
    rw [List.foldlM_cons]
    have inserted : Goes (insert less sorted item) fun _ => True :=
      rules.bind (position_goes rules compared _ _ _ _ _) fun _ _ => rules.pure trivial
    exact rules.bind inserted fun sorted _ => ih sorted

/-- Sorting goes well if each comparison does. -/
theorem descending_goes [LawfulMonad m] (items : List α) :
    Goes (descending less items) fun _ => True := by
  have sorted (items : List α) : Goes (ascending less items) fun _ => True := by
    unfold ascending
    split
    · exact rules.pure trivial
    · exact rules.pure trivial
    · refine rules.bind (compared _ _) fun descending _ => ?_
      exact rules.bind (extendRun_goes rules compared _ _ _) fun found _ =>
        insertAll_goes rules compared _ _
  exact rules.bind (sorted _) fun _ _ => rules.pure trivial

end Sorting

structure Plan.Answers.Covers (good : String → List Datum → Prop) (scanned : List ScanResult)
    (answers : Plan.Answers) : Prop where
  good : ∀ source tags, answers.lookup source = some tags → good source tags
  known : ∀ result ∈ scanned, (answers.lookup result.dependency.source).isSome

namespace Plan

variable {Goes : {α : Type} → m α → (α → Prop) → Prop} {good : String → List Datum → Prop}
  {answers : Answers} {scanned done : List ScanResult}

theorem Answers.covers_nil : Answers.Covers good [] [] :=
  ⟨nofun, nofun⟩

theorem Answers.Covers.snoc (covers : answers.Covers good done) {result : ScanResult}
    (known : (answers.lookup result.dependency.source).isSome) :
    answers.Covers good (done ++ [result]) :=
  ⟨covers.good, List.forall_mem_append.mpr ⟨covers.known, List.forall_mem_singleton.mpr known⟩⟩

/-- The tags of one more source leave what was answered as it was. -/
theorem Answers.Covers.add (covers : answers.Covers good done) {source : String} {tags : List Datum}
    (here : good source tags) : Answers.Covers good done (answers ++ [(source, tags)]) := by
  constructor
  · intro other found known
    rw [List.lookup_append] at known
    rcases Option.or_eq_some_iff.mp known with known | ⟨_, known⟩
    · exact covers.good other found known
    · by_cases same : other = source
      · subst same
        rw [List.lookup_cons_self] at known
        exact Option.some.inj known ▸ here
      · rw [List.lookup_cons, beq_false_of_ne same] at known
        cases known
  · intro result member
    rw [List.lookup_append, Option.isSome_or, covers.known result member, Bool.true_or]

/-- The tags that were answered for a source that was asked for. -/
theorem Answers.Covers.tags (covers : answers.Covers good scanned) {result : ScanResult}
    (member : result ∈ scanned) :
    good result.dependency.source (answers.tags result.dependency.source) := by
  obtain ⟨tags, found⟩ := Option.isSome_iff_exists.mp (covers.known result member)
  rw [Answers.tags, found]
  exact covers.good _ _ found

private theorem askAll_goes_on (rules : Rules Goes) {resolve : String → m (List Datum)}
    (asks : ∀ source, Goes (resolve source) (good source)) (covers : answers.Covers good done) :
    Goes (askAll resolve answers scanned) fun found => found.Covers good (done ++ scanned) := by
  induction scanned generalizing answers done with
  | nil => exact rules.pure (by simpa using covers)
  | cons result scanned ih =>
    rw [List.append_cons]
    unfold askAll
    dsimp only
    split
    · rename_i known
      exact ih (covers.snoc (by simp [known]))
    · refine rules.bind (asks result.dependency.source) fun tags here => ?_
      exact ih ((covers.add here).snoc (by simp [List.lookup_append]))

/-- Asking for the tags of all sources goes well if asking for each of them does. -/
theorem askAll_goes (rules : Rules Goes) (good : String → List Datum → Prop) {resolve : String → m (List Datum)}
    (asks : ∀ source, Goes (resolve source) (good source)) :
    Goes (askAll resolve [] scanned) fun found => found.Covers good scanned :=
  askAll_goes_on rules asks Answers.covers_nil

end Plan

end InfraPins
