namespace InfraPins.Text.Utf8

/-- What is wrong at a place of octets that are no UTF-8. -/
inductive Reason where
  /-- No character starts with the octet. -/
  | start
  /-- An octet that should continue a character does not. -/
  | continuation
  /-- The octets end within a character. -/
  | ended
  deriving DecidableEq, Repr

/-- The words for what is wrong. -/
def Reason.text : Reason → String
  | .start => "invalid start byte"
  | .continuation => "invalid continuation byte"
  | .ended => "unexpected end of data"

/-- The first fault of octets that are no UTF-8: where it is, its first octet, and how many it
covers. -/
structure Fault where
  position : Nat
  octet : UInt8
  width : Nat
  reason : Reason
  deriving DecidableEq, Repr

/-- The first octet of a character: how many octets follow it, the bits that it gives, and the
bounds of the octet after it. -/
structure Lead where
  following : Nat
  bits : Nat
  low : Nat
  high : Nat
  deriving DecidableEq, Repr

/-- The lead that an octet is. The bounds leave out overlong forms, surrogates and what is beyond
the last code point. -/
def lead? (octet : Nat) : Option Lead :=
  if octet < 0x80 then some ⟨0, octet, 0x80, 0xBF⟩
  else if octet < 0xC2 then none
  else if octet < 0xE0 then some ⟨1, octet - 0xC0, 0x80, 0xBF⟩
  else if octet < 0xF0 then
    some ⟨2, octet - 0xE0, if octet = 0xE0 then 0xA0 else 0x80, if octet = 0xED then 0x9F else 0xBF⟩
  else if octet < 0xF5 then
    some ⟨3, octet - 0xF0, if octet = 0xF0 then 0x90 else 0x80, if octet = 0xF4 then 0x8F else 0xBF⟩
  else none

/-- The octets that continue a character: the code point and the octets after it, or what is wrong
and how many octets have been taken. -/
def continued (following low high code width : Nat) (octets : List UInt8) :
    Except (Reason × Nat) (Nat × List UInt8) :=
  match following, octets with
  | 0, rest => .ok (code, rest)
  | _ + 1, [] => .error (.ended, width)
  | following + 1, octet :: rest =>
    if low ≤ octet.toNat ∧ octet.toNat ≤ high then
      continued following 0x80 0xBF (code * 64 + (octet.toNat - 0x80)) (width + 1) rest
    else .error (.continuation, width)

theorem continued_length {following low high code width : Nat} {octets rest : List UInt8}
    {point : Nat} (read : continued following low high code width octets = .ok (point, rest)) :
    rest.length ≤ octets.length := by
  induction following generalizing low high code width octets with
  | zero =>
    simp only [continued, Except.ok.injEq, Prod.mk.injEq] at read
    simp [read.2]
  | succ following ih =>
    cases octets with
    | nil => simp [continued] at read
    | cons octet octets =>
      simp only [continued] at read
      split at read
      · have shorter := ih read
        simp only [List.length_cons]
        omega
      · simp at read

/-- The characters of octets, the first of which is at a position. -/
def decodeFrom (position : Nat) : List UInt8 → Except Fault (List Char)
  | [] => .ok []
  | octet :: rest =>
    match lead? octet.toNat with
    | none => .error ⟨position, octet, 1, .start⟩
    | some lead =>
      match _read : continued lead.following lead.low lead.high lead.bits 1 rest with
      | .error (reason, width) => .error ⟨position, octet, width, reason⟩
      | .ok (point, after) => do
        let more ← decodeFrom (position + (lead.following + 1)) after
        return Char.ofNat point :: more
termination_by octets => octets.length
decreasing_by
  have shorter := continued_length _read
  simp only [List.length_cons]
  omega

def decode (octets : List UInt8) : Except Fault (List Char) :=
  decodeFrom 0 octets

/-- The octets of characters. -/
def encode (text : List Char) : List UInt8 :=
  text.flatMap String.utf8EncodeChar

end InfraPins.Text.Utf8
