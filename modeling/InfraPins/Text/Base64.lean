namespace InfraPins.Text.Base64

def alphabet : List Char :=
  "ABCDEFGHIJKLMNOPQRSTUVWXYZabcdefghijklmnopqrstuvwxyz0123456789+/".toList

/-- The character that fills up the last group. -/
def padding : Char := '='

/-- The character of a value below 64. -/
def symbol (value : Nat) : Char :=
  alphabet[value]?.getD padding

/-- The value of a character of the alphabet. -/
def value? (c : Char) : Option Nat :=
  alphabet.findIdx? (· == c)

/-- Octets as characters. -/
def encode : List UInt8 → List Char
  | [] => []
  | [a] => [symbol (a.toNat / 4), symbol (a.toNat % 4 * 16), padding, padding]
  | [a, b] =>
    [symbol (a.toNat / 4), symbol (a.toNat % 4 * 16 + b.toNat / 16), symbol (b.toNat % 16 * 4),
      padding]
  | a :: b :: c :: rest =>
    symbol (a.toNat / 4) :: symbol (a.toNat % 4 * 16 + b.toNat / 16)
      :: symbol (b.toNat % 16 * 4 + c.toNat / 64) :: symbol (c.toNat % 64) :: encode rest

/-- The place in a group of four characters, with the bits that are left over from the characters
before it, and the paddings that were met since the last of them. -/
structure Group where
  place : Nat
  rest : Nat
  paddings : Nat
  deriving DecidableEq, Repr

/-- The octets of characters from a place of a group on; none when a group stays incomplete. -/
def decodeFrom (group : Group) : List Char → Option (List UInt8)
  | [] => if group.place = 0 then some [] else none
  | c :: text =>
    if c = padding then
      if 2 ≤ group.place ∧ 4 ≤ group.place + group.paddings + 1 then some []
      else
        let met := if 2 ≤ group.place then group.paddings + 1 else group.paddings
        decodeFrom { group with paddings := met } text
    else match value? c with
      | none => decodeFrom group text
      | some value =>
        match group.place with
        | 0 => decodeFrom ⟨1, value, 0⟩ text
        | 1 => (decodeFrom ⟨2, value % 16, 0⟩ text).map (UInt8.ofNat (group.rest * 4 + value / 16) :: ·)
        | 2 => (decodeFrom ⟨3, value % 4, 0⟩ text).map (UInt8.ofNat (group.rest * 16 + value / 4) :: ·)
        | _ => (decodeFrom ⟨0, 0, 0⟩ text).map (UInt8.ofNat (group.rest * 64 + value) :: ·)

/-- The octets of characters, if every group is complete. -/
def decode (text : List Char) : Option (List UInt8) :=
  decodeFrom ⟨0, 0, 0⟩ text

end InfraPins.Text.Base64
