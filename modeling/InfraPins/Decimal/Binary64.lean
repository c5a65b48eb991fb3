/-! Binary floating point numbers of 64 bits, in exact integer arithmetic. A number is kept as its
bits; reading a decimal rounds to the nearest number, a tie to the one with an even significand. -/

namespace InfraPins.Decimal

/-- A binary64 number, by its bits. -/
structure Binary64 where
  bits : UInt64
  deriving DecidableEq, Repr, Inhabited

/-- What the bits of a number say. A finite number is `significand * 2 ^ exponent`. -/
inductive Reading where
  | notANumber
  | infinite (negative : Bool)
  | finite (negative : Bool) (significand : Nat) (exponent : Int)
  deriving Repr

namespace Binary64

/-- The weight of the bit above the fraction, which is one in every number that is not too small and
is not kept. -/
def hiddenBit : Nat := Nat.pow 2 52

def signBit : Nat := Nat.pow 2 63

def reading (number : Binary64) : Reading :=
  let bits := number.bits.toNat
  let negative := decide (signBit ≤ bits)
  let biased : Nat := bits / hiddenBit % 2048
  let fraction := bits % hiddenBit
  if biased == 2047 then
    if fraction == 0 then .infinite negative else .notANumber
  else if biased == 0 then .finite negative fraction (-1074)
  else .finite negative (fraction + hiddenBit) ((biased : Int) - 1075)

/-- The quotient of two naturals, rounded to the nearest integer, a tie to the even one. -/
def roundQuotient (numerator denominator : Nat) : Nat :=
  let quotient := numerator / denominator
  let twice := 2 * (numerator % denominator)
  if twice < denominator || (twice == denominator && quotient % 2 == 0) then quotient
  else quotient + 1

/-- `numerator / denominator / 2 ^ exponent`, rounded to the nearest integer. -/
def scaled (numerator denominator : Nat) (exponent : Int) : Nat :=
  if exponent < 0 then roundQuotient (numerator * Nat.pow 2 (-exponent).toNat) denominator
  else roundQuotient numerator (denominator * Nat.pow 2 exponent.toNat)

def signed (negative : Bool) (magnitude : Nat) : Binary64 :=
  ⟨UInt64.ofNat (if negative then magnitude + signBit else magnitude)⟩

def infinity (negative : Bool) : Binary64 :=
  signed negative (2047 * hiddenBit)

/-- The value that is no number. -/
def nan : Binary64 :=
  signed false (2047 * hiddenBit + hiddenBit / 2)

/-- The number nearest to a quotient of positive naturals. -/
def ofQuotient (negative : Bool) (numerator denominator : Nat) : Binary64 :=
  let guess : Int := (numerator.log2 : Int) - denominator.log2 - 52
  let lower := if scaled numerator denominator guess < hiddenBit then guess - 1 else guess
  let exponent := max lower (-1074)
  let significand := scaled numerator denominator exponent
  let (significand, exponent) :=
    if significand == 2 * hiddenBit then (hiddenBit, exponent + 1) else (significand, exponent)
  if significand < hiddenBit then signed negative significand
  else if 971 < exponent then infinity negative
  else signed negative ((exponent + 1074).toNat * hiddenBit + significand)

def ofDecimal (negative : Bool) (digits : Nat) (exponent : Int) : Binary64 :=
  let magnitude := exponent + (Nat.toDigits 10 digits).length
  if digits == 0 || magnitude < -330 then signed negative 0
  else if 330 < magnitude then infinity negative
  else if exponent < 0 then ofQuotient negative digits (Nat.pow 10 (-exponent).toNat)
  else ofQuotient negative (digits * Nat.pow 10 exponent.toNat) 1

/-- Whether a number counts as false: it is zero, of either sign. -/
def isZero (number : Binary64) : Bool :=
  number.bits.toNat % signBit == 0

/-- The integer that a number equals, if it equals one. -/
def toInt? (number : Binary64) : Option Int :=
  match number.reading with
  | .finite negative significand exponent =>
    let magnitude? : Option Nat :=
      if 0 ≤ exponent then some (significand * Nat.pow 2 exponent.toNat)
      else if significand % Nat.pow 2 (-exponent).toNat == 0 then
        some (significand / Nat.pow 2 (-exponent).toNat)
      else none
    magnitude?.map fun magnitude => if negative then -magnitude else magnitude
  | _ => none

end Binary64

end InfraPins.Decimal
