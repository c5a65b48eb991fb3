import InfraPins.Decimal.Binary64
import InfraPins.Text.Quoted

/-! Values of no fixed kind: what a reply of a hosting service or a configuration file holds. Such a
value is used by asking it for a field, for its elements or for its text; a value of the wrong kind
answers with a `Misuse`. -/

namespace InfraPins

open Decimal

/-- A value of a reply or a configuration. An object keeps its fields in order of insertion; `stamp`
is a date or a time, by its plain text and the text it has inside a list. -/
inductive Datum where
  | null
  | bool (value : Bool)
  | int (value : Int)
  | float (value : Binary64)
  | text (value : String)
  | list (items : List Datum)
  | object (fields : List (Datum × Datum))
  | set (items : List Datum)
  | pair (first second : Datum)
  | bytes (octets : List Nat)
  | stamp (plain nested : String)
  deriving Inhabited

/-- Why a value could not be used as it was meant to be. -/
inductive Misuse where
  /-- The operation does not exist for values of that kind. -/
  | unsupported
  /-- Values of that kind have no such member. -/
  | noMember
  /-- An object has no field of that name. -/
  | noField (name : String)
  deriving DecidableEq, Repr

def Misuse.name : Misuse → String
  | .unsupported => "TypeError"
  | .noMember => "AttributeError"
  | .noField field => "KeyError(" ++ Text.quoted field ++ ")"

namespace Datum

mutual

/-- Equality of values, decided kind by kind. -/
def decideEq : (left right : Datum) → Decidable (left = right)
  | .null, right => match right with
    | .null => isTrue rfl
    | .bool _ | .int _ | .float _ | .text _ | .list _ | .object _ | .set _ | .pair _ _ | .bytes _
    | .stamp _ _ => isFalse nofun
  | .bool left, right => match right with
    | .bool right => if same : left = right then isTrue (same ▸ rfl) else isFalse fun | rfl => same rfl
    | .null | .int _ | .float _ | .text _ | .list _ | .object _ | .set _ | .pair _ _ | .bytes _
    | .stamp _ _ => isFalse nofun
  | .int left, right => match right with
    | .int right => if same : left = right then isTrue (same ▸ rfl) else isFalse fun | rfl => same rfl
    | .null | .bool _ | .float _ | .text _ | .list _ | .object _ | .set _ | .pair _ _ | .bytes _
    | .stamp _ _ => isFalse nofun
  | .float left, right => match right with
    | .float right => if same : left = right then isTrue (same ▸ rfl) else isFalse fun | rfl => same rfl
    | .null | .bool _ | .int _ | .text _ | .list _ | .object _ | .set _ | .pair _ _ | .bytes _
    | .stamp _ _ => isFalse nofun
  | .text left, right => match right with
    | .text right => if same : left = right then isTrue (same ▸ rfl) else isFalse fun | rfl => same rfl
    | .null | .bool _ | .int _ | .float _ | .list _ | .object _ | .set _ | .pair _ _ | .bytes _
    | .stamp _ _ => isFalse nofun
  | .list left, right => match right with
    | .list right => match decideItems left right with
      | isTrue same => isTrue (same ▸ rfl)
      | isFalse differ => isFalse fun | rfl => differ rfl
    | .null | .bool _ | .int _ | .float _ | .text _ | .object _ | .set _ | .pair _ _ | .bytes _
    | .stamp _ _ => isFalse nofun
  | .object left, right => match right with
    | .object right => match decideFields left right with
      | isTrue same => isTrue (same ▸ rfl)
      | isFalse differ => isFalse fun | rfl => differ rfl
    | .null | .bool _ | .int _ | .float _ | .text _ | .list _ | .set _ | .pair _ _ | .bytes _
    | .stamp _ _ => isFalse nofun
  | .set left, right => match right with
    | .set right => match decideItems left right with
      | isTrue same => isTrue (same ▸ rfl)
      | isFalse differ => isFalse fun | rfl => differ rfl
    | .null | .bool _ | .int _ | .float _ | .text _ | .list _ | .object _ | .pair _ _ | .bytes _
    | .stamp _ _ => isFalse nofun
  | .pair first second, right => match right with
    | .pair first' second' => match decideEq first first', decideEq second second' with
      | isTrue same, isTrue same' => isTrue (same ▸ same' ▸ rfl)
      | isFalse differ, _ => isFalse fun | rfl => differ rfl
      | _, isFalse differ => isFalse fun | rfl => differ rfl
    | .null | .bool _ | .int _ | .float _ | .text _ | .list _ | .object _ | .set _ | .bytes _
    | .stamp _ _ => isFalse nofun
  | .bytes left, right => match right with
    | .bytes right => if same : left = right then isTrue (same ▸ rfl) else isFalse fun | rfl => same rfl
    | .null | .bool _ | .int _ | .float _ | .text _ | .list _ | .object _ | .set _ | .pair _ _
    | .stamp _ _ => isFalse nofun
  | .stamp plain nested, right => match right with
    | .stamp plain' nested' =>
      if same : plain = plain' ∧ nested = nested' then isTrue (same.1 ▸ same.2 ▸ rfl)
      else isFalse fun | rfl => same ⟨rfl, rfl⟩
    | .null | .bool _ | .int _ | .float _ | .text _ | .list _ | .object _ | .set _ | .pair _ _
    | .bytes _ => isFalse nofun

/-- Equality of lists of values. -/
def decideItems : (left right : List Datum) → Decidable (left = right)
  | [], [] => isTrue rfl
  | [], _ :: _ => isFalse nofun
  | _ :: _, [] => isFalse nofun
  | left :: lefts, right :: rights => match decideEq left right, decideItems lefts rights with
    | isTrue same, isTrue same' => isTrue (same ▸ same' ▸ rfl)
    | isFalse differ, _ => isFalse fun | rfl => differ rfl
    | _, isFalse differ => isFalse fun | rfl => differ rfl

def decideFields : (left right : List (Datum × Datum)) → Decidable (left = right)
  | [], [] => isTrue rfl
  | [], _ :: _ => isFalse nofun
  | _ :: _, [] => isFalse nofun
  | (key, value) :: lefts, (key', value') :: rights =>
    match decideEq key key', decideEq value value', decideFields lefts rights with
    | isTrue same, isTrue same', isTrue same'' => isTrue (same ▸ same' ▸ same'' ▸ rfl)
    | isFalse differ, _, _ => isFalse fun | rfl => differ rfl
    | _, isFalse differ, _ => isFalse fun | rfl => differ rfl
    | _, _, isFalse differ => isFalse fun | rfl => differ rfl

end

instance : DecidableEq Datum := decideEq

/-- Text as a value. -/
instance : Coe String Datum := ⟨.text⟩

/-- An object whose field names are texts. -/
def ofFields (fields : List (String × Datum)) : Datum :=
  .object (fields.map fun field => (.text field.1, field.2))

end Datum

end InfraPins
