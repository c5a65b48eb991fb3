import InfraPins.Datum.Basic

namespace InfraPins.Datum

/-- Whether a value counts as true: it is not null, false, zero or empty. -/
def isTruthy : Datum → Bool
  | .null => false
  | .bool value => value
  | .int value => value != 0
  | .float value => !value.isZero
  | .text value => !value.isEmpty
  | .list items => !items.isEmpty
  | .object fields => !fields.isEmpty
  | .set items => !items.isEmpty
  | .pair _ _ => true
  | .bytes octets => !octets.isEmpty
  | .stamp _ _ => true

/-- A value, or another one in its place when it counts as false. -/
def orElse (value other : Datum) : Datum :=
  if value.isTruthy then value else other

/-- Whether two values name the same field: numbers and truth values of equal worth do. -/
def sameKey (left right : Datum) : Bool :=
  match worth? left, worth? right with
  | some left, some right => left == right
  | _, _ => decide (left = right)
where
  worth? : Datum → Option Int
    | .bool value => some (if value then 1 else 0)
    | .int value => some value
    | .float value => value.toInt?
    | _ => none

def lookup? (key : Datum) (fields : List (Datum × Datum)) : Option Datum :=
  (fields.find? fun field => field.1.sameKey key).map (·.2)

/-- A field list with a value under a key: at the key's place if it has one, at the end if not. -/
def insert (key value : Datum) : List (Datum × Datum) → List (Datum × Datum)
  | [] => [(key, value)]
  | field :: fields =>
    if field.1.sameKey key then (field.1, value) :: fields
    else field :: insert key value fields

def field (value : Datum) (name : String) : Except Misuse Datum :=
  match value with
  | .object fields => match lookup? name fields with
    | some found => .ok found
    | none => .error (.noField name)
  | _ => .error .unsupported

/-- The value of a field, or a default when the object has no such field. -/
def fieldOr (value : Datum) (name : String) (default : Datum) : Except Misuse Datum :=
  match value with
  | .object fields => .ok ((lookup? name fields).getD default)
  | _ => .error .noMember

/-- The values that a value consists of: a list's items, a text's characters, an object's keys. -/
def elements : Datum → Except Misuse (List Datum)
  | .list items => .ok items
  | .set items => .ok items
  | .text value => .ok (value.toList.map fun c => .text c.toString)
  | .object fields => .ok (fields.map (·.1))
  | .pair first second => .ok [first, second]
  | .bytes octets => .ok (octets.map fun octet => .int (Int.ofNat octet))
  | _ => .error .unsupported

/-- The text of a value, when one of a text's members is asked for. -/
def textMember : Datum → Except Misuse String
  | .text value => .ok value
  | _ => .error .noMember

/-- The text of a value, when an operation wants a text. -/
def textOperand : Datum → Except Misuse String
  | .text value => .ok value
  | _ => .error .unsupported

end InfraPins.Datum
