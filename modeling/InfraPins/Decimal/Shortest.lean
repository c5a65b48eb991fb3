import InfraPins.Decimal.Binary64

/-! The shortest decimal text of a binary64 number: the fewest digits that read back as the number,
the nearest of those to it, positional between 10⁻⁴ and 10¹⁶ and with an exponent elsewhere. -/

namespace InfraPins.Decimal

/-- A positive number with the reals that round to it, all over one denominator. The ends of the
interval round to the number when its significand is even. -/
structure Interval where
  low : Nat
  value : Nat
  high : Nat
  denominator : Nat
  closed : Bool

/-- The reals that round to `significand * 2 ^ exponent`. Below a power of two the next number is
half as far away as above it. -/
def Interval.ofNumber (significand : Nat) (exponent : Int) : Interval :=
  let narrow := significand == Binary64.hiddenBit && decide (-1074 < exponent)
  let low := if narrow then 4 * significand - 1 else 4 * significand - 2
  let scale := exponent - 2
  let factor := if 0 ≤ scale then Nat.pow 2 scale.toNat else 1
  { low := low * factor
    value := 4 * significand * factor
    high := (4 * significand + 2) * factor
    denominator := if 0 ≤ scale then 1 else Nat.pow 2 (-scale).toNat
    closed := significand % 2 == 0 }

def Interval.holds (interval : Interval) (digits : Nat) (power : Int) : Bool :=
  let point := digits * (if 0 ≤ power then Nat.pow 10 power.toNat else 1) * interval.denominator
  let unit := if 0 ≤ power then 1 else Nat.pow 10 (-power).toNat
  if interval.closed then interval.low * unit ≤ point && point ≤ interval.high * unit
  else interval.low * unit < point && point < interval.high * unit

/-- The two neighbours of the value on the grid of multiples of `10 ^ power`, the nearer one first
and of two equally near ones the even one. -/
def Interval.neighbours (interval : Interval) (power : Int) : List Nat :=
  let numerator := interval.value * (if 0 ≤ power then 1 else Nat.pow 10 (-power).toNat)
  let denominator := interval.denominator * (if 0 ≤ power then Nat.pow 10 power.toNat else 1)
  let below := numerator / denominator
  if Binary64.roundQuotient numerator denominator == below then [below, below + 1]
  else [below + 1, below]

/-- The power of ten of the value's first digit. -/
def Interval.magnitude (interval : Interval) : Int :=
  let whole := interval.value / interval.denominator
  if 0 < whole then (Nat.toDigits 10 whole).length - 1
  else
    let places : Int := (Nat.toDigits 10 ((interval.denominator - 1) / interval.value)).length
    0 - places

/-- The digits of the first grid, from the coarsest on, that has a neighbour of the value in the
interval, with the power of ten of its last digit. Seventeen digits always suffice. -/
def Interval.shortest (interval : Interval) : Nat × Int :=
  let start := interval.magnitude
  let attempt (count : Nat) : Option (Nat × Int) :=
    let power := start - count + 1
    ((interval.neighbours power).find? (interval.holds · power)).map (·, power)
  ((List.range 18).findSome? fun count => attempt (count + 1)).getD (0, 0)

/-- Digits and the power of ten of the last one, as text. -/
def layout (digits : List Char) (power : Int) : String :=
  let digits := match (digits.reverse.dropWhile (· == '0')).reverse with
    | [] => ['0']
    | kept => kept
  let point := power
  let text :=
    if -4 ≤ point && point < 16 then
      if point < 0 then
        '0' :: '.' :: List.replicate (-point - 1).toNat '0' ++ digits
      else
        let whole := digits.take (point.toNat + 1)
        let padded := whole ++ List.replicate (point.toNat + 1 - whole.length) '0'
        let fraction := digits.drop (point.toNat + 1)
        padded ++ '.' :: (if fraction.isEmpty then ['0'] else fraction)
    else
      let sign := if point < 0 then '-' else '+'
      let exponent := Nat.toDigits 10 point.natAbs
      let exponent := if exponent.length < 2 then '0' :: exponent else exponent
      let mantissa := match digits with
        | [] => []
        | [only] => [only]
        | first :: more => first :: '.' :: more
      mantissa ++ 'e' :: sign :: exponent
  String.ofList text

def Binary64.shortest (number : Binary64) : String :=
  match number.reading with
  | .notANumber => "nan"
  | .infinite negative => if negative then "-inf" else "inf"
  | .finite negative significand exponent =>
    let sign := if negative then "-" else ""
    if significand == 0 then sign ++ "0.0"
    else
      let (digits, power) := (Interval.ofNumber significand exponent).shortest
      let text := Nat.toDigits 10 digits
      sign ++ layout text (power + (text.length - 1 : Nat))

end InfraPins.Decimal
