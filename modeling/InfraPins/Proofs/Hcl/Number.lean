import InfraPins.Hcl.Token
import Mathlib.Data.List.Basic

namespace InfraPins.Hcl

open Text

variable {c : Char} {text digits rest : List Char}

theorem takeWhile_append_cons {accept : Char → Bool} (front back : List Char)
    (refused : accept c = false) : (front ++ c :: back).takeWhile accept = front.takeWhile accept := by
  induction front with
  | nil => simp [refused]
  | cons d front ih => by_cases here : accept d <;> simp [here, ih]

theorem dropWhile_append_cons {accept : Char → Bool} (front back : List Char)
    (refused : accept c = false) :
    (front ++ c :: back).dropWhile accept = front.dropWhile accept ++ c :: back := by
  induction front with
  | nil => simp [refused]
  | cons d front ih => by_cases here : accept d <;> simp [here, ih]

theorem spanWhile_append_cons {accept : Char → Bool} (front back : List Char)
    (refused : accept c = false) :
    spanWhile accept (front ++ c :: back) =
      ((spanWhile accept front).1, (spanWhile accept front).2 ++ c :: back) := by
  simp only [spanWhile, takeWhile_append_cons _ _ refused, dropWhile_append_cons _ _ refused]

theorem spanWhile_append (accept : Char → Bool) (text : List Char) :
    (spanWhile accept text).1 ++ (spanWhile accept text).2 = text :=
  List.takeWhile_append_dropWhile

theorem eq_of_integer? (found : integer? text = some (digits, rest)) :
    text = digits ++ rest ∧ digits ≠ [] := by
  unfold integer? at found
  grind [spanWhile_append]

theorem negatedDigits_append (text : List Char) :
    (negatedDigits text).1 ++ (negatedDigits text).2 = text := by
  fun_induction negatedDigits text with
  | case1 digit rest here more after same ih => simp_all
  | case2 => rfl
  | case3 => rfl

theorem eq_of_exponent? (found : exponent? text = some (digits, rest)) : text = digits ++ rest := by
  unfold exponent? at found
  grind [spanWhile_append]

theorem eq_of_decimalTail? (found : decimalTail? text = some (digits, rest)) :
    text = digits ++ rest := by
  unfold decimalTail? at found
  grind [spanWhile_append, eq_of_exponent?]

/-- Digits with the decimal tail behind them. -/
private def decimalFrom (start : List Char × List Char) : Option (List Char × List Char) :=
  (decimalTail? start.2).map fun found => (start.1 ++ found.1, found.2)

private theorem decimal?_eq (text : List Char) :
    decimal? text =
      match (integer? text).bind decimalFrom with
      | some found => some found
      | none =>
        if (negatedDigits text).1.isEmpty then none else decimalFrom (negatedDigits text) := rfl

theorem eq_of_decimal? (found : decimal? text = some (digits, rest)) :
    text = digits ++ rest ∧ digits ≠ [] := by
  have from_start {start : List Char × List Char} (tailed : decimalFrom start = some (digits, rest)) :
      start.1 ++ start.2 = digits ++ rest ∧ (start.1 ≠ [] → digits ≠ []) := by
    obtain ⟨tail, behind, same⟩ := Option.map_eq_some_iff.mp tailed
    obtain ⟨rfl, rfl⟩ := Prod.mk.inj same
    exact ⟨by rw [eq_of_decimalTail? behind, List.append_assoc], by simp_all⟩
  rw [decimal?_eq] at found
  split at found
  · rename_i decimal same
    obtain rfl := Option.some.inj found
    obtain ⟨start, whole, tailed⟩ := Option.bind_eq_some_iff.mp same
    obtain ⟨split, nonempty⟩ := eq_of_integer? whole
    exact ⟨split.trans (from_start tailed).1, (from_start tailed).2 nonempty⟩
  · obtain ⟨nonempty, tailed⟩ := Option.ite_none_left_eq_some.mp found
    obtain ⟨split, digital⟩ := from_start tailed
    exact ⟨(negatedDigits_append text).symm.trans split, digital (by simpa using nonempty)⟩

def endsNumber (c : Char) : Bool :=
  !(c.isDigit || c == '-' || c == '+' || c == '.' || c == 'e' || c == 'E')

/-- What is found at the start of a text, with more text behind it. -/
def behind (back : List Char) (found : List Char × List Char) : List Char × List Char :=
  (found.1, found.2 ++ back)

private theorem not_isDigit (ends : endsNumber c) : c.isDigit = false := by
  simp_all [endsNumber]

private theorem integer?_of_unsigned (unsigned : text.head? ≠ some '-') :
    integer? text =
      if (text.takeWhile Char.isDigit).isEmpty then none
      else some (text.takeWhile Char.isDigit, text.dropWhile Char.isDigit) := by
  unfold integer?
  split
  · simp at unsigned
  · rfl

theorem integer?_append (front back : List Char) (ends : endsNumber c) :
    integer? (front ++ c :: back) = (integer? front).map (behind (c :: back)) := by
  have refused := not_isDigit ends
  by_cases signed : front.head? = some '-'
  · match front with
    | [a] =>
      obtain rfl : a = '-' := by simpa using signed
      simp [integer?, spanWhile, refused, show '-'.isDigit = false by decide]
    | a :: b :: front =>
      obtain rfl : a = '-' := by simpa using signed
      simp only [integer?, List.cons_append, spanWhile_append_cons front back refused]
      split <;> rfl
  · have unsigned : (front ++ c :: back).head? ≠ some '-' := by
      cases front with
      | nil =>
        rintro same
        obtain rfl : c = '-' := by simpa using same
        cases ends
      | cons a front => simpa using signed
    rw [integer?_of_unsigned signed, integer?_of_unsigned unsigned,
      takeWhile_append_cons _ _ refused, dropWhile_append_cons _ _ refused]
    split <;> rfl

theorem negatedDigits_append_cons (front back : List Char) (ends : endsNumber c) :
    negatedDigits (front ++ c :: back) = behind (c :: back) (negatedDigits front) := by
  have refused := not_isDigit ends
  fun_induction negatedDigits front with
  | case1 digit rest here more after same ih => simp [negatedDigits, here, ih, same, behind]
  | case2 digit rest here => simp [negatedDigits, here, behind]
  | case3 front unsigned =>
    match front with
    | [] =>
      unfold negatedDigits
      split
      · rename_i same
        obtain rfl : c = '-' := (List.cons.inj same).1
        cases ends
      · rfl
    | [a] =>
      by_cases minus : a = '-'
      · simp [negatedDigits, minus, refused, behind]
      · simp [negatedDigits, minus, behind]
    | a :: b :: front =>
      have minus : a ≠ '-' := fun same => unsigned b front (by rw [same])
      simp [negatedDigits, minus, behind]

theorem exponent?_append (front back : List Char) (ends : endsNumber c) :
    exponent? (front ++ c :: back) = (exponent? front).map (behind (c :: back)) := by
  have refused := not_isDigit ends
  have noSign : c ≠ '+' ∧ c ≠ '-' ∧ c ≠ 'e' ∧ c ≠ 'E' := by
    simp_all [endsNumber]
  match front with
  | [] => simp [exponent?, noSign]
  | [a] =>
    simp only [exponent?, List.cons_append, List.nil_append]
    split
    · split
      · simp_all
      · simp_all
      · simp [spanWhile, refused]
    · rfl
  | a :: b :: front =>
    have spans := spanWhile_append_cons front back refused
    have longer := spanWhile_append_cons (b :: front) back refused
    rw [List.cons_append] at longer
    simp only [exponent?, List.cons_append]
    split
    · by_cases plus : b = '+'
      · subst plus
        simp only [spans]
        split <;> rfl
      · by_cases minus : b = '-'
        · subst minus
          simp only [spans]
          split <;> rfl
        · simp only [List.cons.injEq, plus, minus, false_and, imp_false, not_false_eq_true,
            implies_true, longer]
          split <;> rfl
    · rfl

theorem decimalTail?_append (front back : List Char) (ends : endsNumber c) :
    decimalTail? (front ++ c :: back) = (decimalTail? front).map (behind (c :: back)) := by
  have refused := not_isDigit ends
  by_cases dotted : front.head? = some '.'
  · cases front with
    | nil => simp at dotted
    | cons a front =>
      obtain rfl : a = '.' := by simpa using dotted
      simp only [decimalTail?, List.cons_append, spanWhile_append_cons front back refused]
      by_cases empty : (spanWhile Char.isDigit front).1.isEmpty = true
      · simpa [empty] using exponent?_append ('.' :: front) back ends
      · simp only [empty, Bool.false_eq_true, if_false, exponent?_append _ back ends]
        cases exponent? (spanWhile Char.isDigit front).2 <;> rfl
  · have plain {text : List Char} (other : text.head? ≠ some '.') :
        decimalTail? text = exponent? text := by
      unfold decimalTail?
      simp only
      split
      · rename_i fraction after same
        split at same
        · simp at other
        · cases same
      · rfl
    have other : (front ++ c :: back).head? ≠ some '.' := by
      cases front with
      | nil =>
        rintro same
        obtain rfl : c = '.' := by simpa using same
        cases ends
      | cons a front => simpa using dotted
    rw [plain dotted, plain other, exponent?_append front back ends]

private theorem decimalFrom_behind (start : List Char × List Char) (back : List Char)
    (ends : endsNumber c) :
    decimalFrom (behind (c :: back) start) = (decimalFrom start).map (behind (c :: back)) := by
  simp only [decimalFrom, behind, decimalTail?_append _ _ ends]
  cases decimalTail? start.2 <;> rfl

theorem decimal?_append (front back : List Char) (ends : endsNumber c) :
    decimal? (front ++ c :: back) = (decimal? front).map (behind (c :: back)) := by
  have signed : (integer? (front ++ c :: back)).bind decimalFrom =
      ((integer? front).bind decimalFrom).map (behind (c :: back)) := by
    rw [integer?_append front back ends]
    cases integer? front with
    | none => rfl
    | some start => exact decimalFrom_behind start back ends
  rw [decimal?_eq, decimal?_eq, signed, negatedDigits_append_cons front back ends,
    decimalFrom_behind _ _ ends]
  cases (integer? front).bind decimalFrom with
  | some found => rfl
  | none => cases empty : (negatedDigits front).1.isEmpty <;> simp [behind, empty]

theorem number?_append (expected : Expectation) (front back : List Char) (ends : endsNumber c) :
    number? expected (front ++ c :: back) =
      (number? expected front).map fun found => (found.1, found.2 ++ c :: back) := by
  unfold number?
  simp only [decimal?_append front back ends, integer?_append front back ends]
  cases expected == .member with
  | true => cases integer? front <;> rfl
  | false =>
    cases decimal? front with
    | some found => rfl
    | none => cases integer? front <;> rfl

theorem eq_of_number? {expected : Expectation} {token : Token}
    (found : number? expected text = some (token, rest)) :
    (∃ digits, text = digits ++ rest ∧ digits ≠ []) ∧
      ∃ digits, token = .integer digits ∨ token = .decimal digits := by
  unfold number? at found
  simp only at found
  split at found
  · rename_i digits after same
    obtain ⟨rfl, rfl⟩ := Prod.mk.inj (Option.some.inj found)
    split at same
    · cases same
    · exact ⟨⟨_, eq_of_decimal? same⟩, _, .inr rfl⟩
  · obtain ⟨⟨digits, after⟩, whole, same⟩ := Option.map_eq_some_iff.mp found
    obtain ⟨rfl, rfl⟩ := Prod.mk.inj same
    exact ⟨⟨_, eq_of_integer? whole⟩, _, .inl rfl⟩

end InfraPins.Hcl
