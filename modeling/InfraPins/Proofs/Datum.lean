import InfraPins.Datum.Access
import InfraPins.Proofs.Ends

namespace InfraPins.Datum

open Result

def NoMapping (value : Datum) : Prop :=
  ∀ fields, value ≠ .object fields

theorem elements_ends (value : Datum) :
    Ends (fun cause => cause = .unsupported ∧ ¬ ∃ items, value.elements = .ok items) value.elements
      fun items => value.elements = .ok items := by
  cases value
  case null | bool | int | float | stamp => exact .error ⟨rfl, nofun⟩
  all_goals exact .ok rfl

theorem sameKey_text (key : Datum) (name : String) :
    key.sameKey (.text name) = decide (key = .text name) := by
  unfold sameKey
  cases sameKey.worth? key <;> rfl

theorem lookup?_insert_self (name : String) (value : Datum) (fields : List (Datum × Datum)) :
    lookup? (.text name) (insert (.text name) value fields) = some value := by
  induction fields with
  | nil => simp [insert, lookup?, sameKey_text]
  | cons field fields ih =>
    by_cases same : field.1 = .text name
    · simp [insert, lookup?, sameKey_text, same]
    · simp only [lookup?, sameKey_text] at ih
      simp [insert, lookup?, sameKey_text, same, ih]

theorem lookup?_insert_of_ne {name other : String} (different : name ≠ other)
    (value : Datum) (fields : List (Datum × Datum)) :
    lookup? (.text name) (insert (.text other) value fields) =
      lookup? (.text name) fields := by
  induction fields with
  | nil => simp [insert, lookup?, sameKey_text, different.symm]
  | cons field fields ih =>
    simp only [lookup?, sameKey_text] at ih
    by_cases same : field.1 = .text other
    · simp [insert, lookup?, sameKey_text, same, different.symm]
    · by_cases here : field.1 = .text name
      · simp [insert, lookup?, sameKey_text, here, different]
      · simp [insert, lookup?, sameKey_text, same, here, ih]

end InfraPins.Datum
