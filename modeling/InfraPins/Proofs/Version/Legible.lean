import InfraPins.Proofs.Version.Spelling
import InfraPins.Version.Precedence

namespace InfraPins.Version

def Shape.numbers (shape : Shape) : List (List Char) :=
  [shape.major, shape.minor, shape.patch] ++ shape.prerelease.filter isNumeric

/-- A text that, if it is a version once normalized, has no number of too many digits. -/
def Legible (text : List Char) : Prop :=
  ∀ shape, shape? (normalize text) = some shape →
    ∀ number ∈ shape.numbers, number.length ≤ Text.maxDigits

instance (text : List Char) : Decidable (Legible text) :=
  inferInstanceAs (Decidable (∀ shape ∈ shape? (normalize text),
    ∀ number ∈ shape.numbers, number.length ≤ Text.maxDigits))

variable {text current candidate : List Char}

theorem readNumber_eq_ok {digits : List Char} (short : digits.length ≤ Text.maxDigits) :
    readNumber digits = .ok (Text.decimalNumber digits) :=
  if_neg (Nat.not_lt.mpr short)

theorem Shape.read_eq_ok {shape : Shape}
    (short : ∀ number ∈ shape.numbers, number.length ≤ Text.maxDigits) :
    shape.read = .ok shape.version := by
  have major := readNumber_eq_ok (short shape.major (by simp [Shape.numbers]))
  have minor := readNumber_eq_ok (short shape.minor (by simp [Shape.numbers]))
  have patch := readNumber_eq_ok (short shape.patch (by simp [Shape.numbers]))
  rw [Shape.read, major, minor, patch]
  rfl

theorem Legible.parse_eq (legible : Legible text) : parse (normalize text) = .ok (version? text) := by
  unfold parse version?
  cases found : shape? (normalize text) with
  | none => rfl
  | some shape =>
    simp only [shape.read_eq_ok (legible shape found)]
    rfl

theorem Legible.isSemanticLike_eq (legible : Legible text) :
    isSemanticLike text = .ok (version? text).isSome := by
  rw [isSemanticLike, isSemantic, legible.parse_eq]
  rfl

/-- The bump between two legible texts can be told. -/
theorem bump?_of_legible (legible : Legible current) (legible' : Legible candidate) :
    ∃ bump, bump? current candidate = .ok bump := by
  rw [bump?, legible.parse_eq, legible'.parse_eq]
  cases version? current with
  | none => exact ⟨none, rfl⟩
  | some version =>
    cases version? candidate with
    | none => exact ⟨none, rfl⟩
    | some version' =>
      show ∃ bump, (if version.major ≠ version'.major then Except.ok (some Bump.major)
        else if version.minor ≠ version'.minor then .ok (some .minor)
        else .ok (some .patch) : Except Fault (Option Bump)) = .ok bump
      split
      · exact ⟨_, rfl⟩
      · split <;> exact ⟨_, rfl⟩

end InfraPins.Version
