import InfraPins.Failure
import Mathlib.Data.List.Forall2

namespace InfraPins.Result

variable {ε α β : Type}

theorem bind_eq_ok {first : Except ε α} {next : α → Except ε β} {result : β} :
    (first >>= next) = .ok result ↔ ∃ value, first = .ok value ∧ next value = .ok result := by
  cases first with
  | error cause => simp [bind, Except.bind]
  | ok value => simp [bind, Except.bind]

theorem map_eq_ok {first : Except ε α} {change : α → β} {result : β} :
    first.map change = .ok result ↔ ∃ value, first = .ok value ∧ change value = result := by
  cases first <;> simp [Except.map]

theorem mapError_eq_ok {δ : Type} {first : Except ε α} {change : ε → δ} {result : α} :
    first.mapError change = .ok result ↔ first = .ok result := by
  cases first <;> simp [Except.mapError]

/-- A list of computations succeeds with what each of them gives. -/
theorem mapM_eq_ok {items : List α} {act : α → Except ε β} {values : List β} :
    items.mapM act = .ok values ↔ List.Forall₂ (fun item value => act item = .ok value) items values
    := by
  induction items generalizing values with
  | nil =>
    simp only [List.mapM_nil, List.forall₂_nil_left_iff]
    exact ⟨fun same => (Except.ok.inj same).symm, fun same => congrArg _ same.symm⟩
  | cons item items ih =>
    simp only [List.mapM_cons, bind_eq_ok, List.forall₂_cons_left_iff, ih]
    constructor
    · rintro ⟨value, here, rest, others, same⟩
      exact ⟨value, rest, here, others, (Except.ok.inj same).symm⟩
    · rintro ⟨value, rest, here, others, rfl⟩
      exact ⟨value, here, rest, others, rfl⟩

/-- A list of computations of which each succeeds with something good succeeds. -/
theorem mapM_of_forall {items : List α} {act : α → Except ε β} {good : β → Prop}
    (each : ∀ item ∈ items, ∃ value, act item = .ok value ∧ good value) :
    ∃ values, items.mapM act = .ok values ∧ ∀ value ∈ values, good value := by
  induction items with
  | nil => exact ⟨[], rfl, nofun⟩
  | cons item items ih =>
    obtain ⟨value, here, first⟩ := each item List.mem_cons_self
    obtain ⟨values, others, rest⟩ := ih fun other member => each other (List.mem_cons_of_mem _ member)
    refine ⟨value :: values, by rw [List.mapM_cons, here, others]; rfl, ?_⟩
    intro other member
    rcases List.mem_cons.mp member with rfl | member
    · exact first
    · exact rest other member

/-- Of two lists in step, what stands in the first has its counterpart in the second. -/
theorem exists_of_mem_left {relation : α → β → Prop} {items : List α} {values : List β} {item : α}
    (pairs : List.Forall₂ relation items values) (member : item ∈ items) :
    ∃ value ∈ values, relation item value := by
  induction pairs with
  | nil => cases member
  | cons here _ ih =>
    rcases List.mem_cons.mp member with rfl | member
    · exact ⟨_, List.mem_cons_self, here⟩
    · obtain ⟨value, inside, related⟩ := ih member
      exact ⟨value, List.mem_cons_of_mem _ inside, related⟩

/-- Lists in step with a list between them are in step. -/
theorem forall₂_trans {γ : Type} {first : α → β → Prop} {second : β → γ → Prop}
    {whole : α → γ → Prop} (both : ∀ a b c, first a b → second b c → whole a c) {items : List α}
    {between : List β} {values : List γ} (left : List.Forall₂ first items between)
    (right : List.Forall₂ second between values) : List.Forall₂ whole items values := by
  induction left generalizing values with
  | nil => cases right; exact .nil
  | cons here _ ih =>
    cases right with
    | cons there behind => exact .cons (both _ _ _ here there) (ih behind)

theorem mem_of_mapM_eq_ok {items : List α} {act : α → Except ε β} {values : List β}
    (found : items.mapM act = .ok values) {value : β} (member : value ∈ values) :
    ∃ item ∈ items, act item = .ok value :=
  exists_of_mem_left (mapM_eq_ok.mp found).flip member

theorem mapM_map_result {γ : Type} (items : List α) (act : α → Except ε β) (change : β → γ) :
    (items.mapM fun item => (act item).map change) = (items.mapM act).map (List.map change) := by
  induction items with
  | nil => rfl
  | cons item items ih =>
    simp only [List.mapM_cons, ih]
    cases act item with
    | error => rfl
    | ok value =>
      cases items.mapM act with
      | error => rfl
      | ok values => rfl

end InfraPins.Result
