import InfraPins.Hcl.Value
import InfraPins.Proofs.Datum
import Mathlib.Data.List.Forall2

namespace InfraPins.Hcl

variable {kind : String} {block : Datum} {blocks : List Datum} {fields : List (Datum × Datum)}

/-- The word that a statement starts with: the name of an assignment, or the type of a block. -/
def Statement.word : Statement → String
  | .assignment name _ => name
  | .block kind _ _ => kind

theorem eq_word_of_blockValue {statement : Statement} {value : String × Datum}
    (read : blockValue statement = some value) : value.1 = statement.word := by
  cases statement with
  | assignment name value => cases read
  | block kind labels body =>
    obtain ⟨_, _, same⟩ := Option.bind_eq_some_iff.mp read
    obtain rfl := Option.some.inj same
    rfl

theorem lookup?_addBlock_of_ne {other : String} (different : kind ≠ other) (block : Datum)
    (fields : List (Datum × Datum)) :
    Datum.lookup? (.text kind) (addBlock other block fields) = Datum.lookup? (.text kind) fields := by
  unfold addBlock
  split <;> exact Datum.lookup?_insert_of_ne different _ _

/-- Fields with these blocks of a type; where there are none, the type may have no field. -/
def Holds (kind : String) (fields : List (Datum × Datum)) (blocks : List Datum) : Prop :=
  (Datum.lookup? (.text kind) fields).getD (.list []) = .list blocks

namespace Holds

theorem assign {name : String} (holds : Holds kind fields blocks) (other : kind ≠ name)
    (value : Datum) : Holds kind (Datum.insert (.text name) value fields) blocks := by
  rw [Holds, Datum.lookup?_insert_of_ne other]
  exact holds

theorem add_other {name : String} (holds : Holds kind fields blocks) (other : kind ≠ name) :
    Holds kind (addBlock name block fields) blocks := by
  rw [Holds, lookup?_addBlock_of_ne other]
  exact holds

theorem add (holds : Holds kind fields blocks) :
    Holds kind (addBlock kind block fields) (blocks ++ [block]) := by
  unfold Holds at holds ⊢
  unfold addBlock
  cases found : Datum.lookup? (.text kind) fields with
  | none =>
    rw [found] at holds
    obtain rfl := Datum.list.inj holds
    rw [Datum.lookup?_insert_self]
    rfl
  | some value =>
    rw [found] at holds
    obtain rfl : value = .list blocks := holds
    rw [Datum.lookup?_insert_self]
    rfl

end Holds

/-- The statements of a body add the blocks of a type to those before them. -/
theorem holds_of_bodyFields {assigned : List String} {done : List (Datum × Datum)}
    {body : List Statement} (unassigned : ∀ value, .assignment kind value ∉ body)
    (holds : Holds kind done blocks) (read : bodyFields assigned done body = some fields) :
    ∃ added, List.Forall₂ (fun statement block => blockValue statement = some (kind, block))
        (body.filter fun statement => statement.word == kind) added ∧
      Holds kind fields (blocks ++ added) := by
  induction body generalizing assigned done blocks with
  | nil =>
    obtain rfl := Option.some.inj read
    exact ⟨[], .nil, by rwa [List.append_nil]⟩
  | cons statement body ih =>
    have others : ∀ value, Statement.assignment kind value ∉ body := fun value member =>
      unassigned value (List.mem_cons_of_mem _ member)
    cases statement with
    | assignment name value =>
      have other : kind ≠ name := by
        rintro rfl
        exact unassigned value List.mem_cons_self
      obtain ⟨added, values, holds⟩ := ih others (holds.assign other value.value) read
      refine ⟨added, ?_, holds⟩
      rwa [List.filter_cons_of_neg (by simpa [Statement.word] using other.symm)]
    | block name labels inner =>
      simp only [bodyFields] at read
      obtain ⟨⟨type, block⟩, value, onward⟩ := Option.bind_eq_some_iff.mp read
      obtain rfl : type = name := eq_word_of_blockValue value
      split at onward
      · cases onward
      · by_cases same : kind = type
        · subst same
          obtain ⟨added, values, holds⟩ := ih others holds.add onward
          refine ⟨block :: added, ?_, by rwa [List.append_assoc] at holds⟩
          rw [List.filter_cons_of_pos (by simp [Statement.word])]
          exact .cons value values
        · obtain ⟨added, values, holds⟩ := ih others (holds.add_other same) onward
          refine ⟨added, ?_, holds⟩
          rwa [List.filter_cons_of_neg (by simpa [Statement.word] using Ne.symm same)]

end InfraPins.Hcl
