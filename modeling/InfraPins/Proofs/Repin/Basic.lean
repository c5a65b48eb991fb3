import InfraPins.Proofs.Patch.Whole
import Mathlib.Data.List.Basic

/-! Repinning. One pinned version in a text changes, and all else stays. What is read from the text
before and after it is the same, but for versions in the place of the old one. -/

namespace InfraPins

open Text

/-- A character of a pinned version. -/
def isPinChar (c : Char) : Bool :=
  Patch.isNameChar c || Patch.isVersionChar c

/-- A character of a reference: of its locator, of its version, or between parameters. -/
def isReferenceChar (c : Char) : Bool :=
  isPinChar c || c == '?' || c == '&' || c == '='

/-- A character that strings write as it is. -/
def isPlainChar (c : Char) : Bool :=
  !(c == '"' || c == '\\' || c == '$' || c == '%' || c == '<')

theorem isReferenceChar_of_isPinChar {c : Char} (pinned : isPinChar c = true) :
    isReferenceChar c = true := by
  simp [isReferenceChar, pinned]

theorem isPlainChar_of_isReferenceChar {c : Char} (reference : isReferenceChar c = true) :
    isPlainChar c = true := by
  cases plain : isPlainChar c with
  | true => rfl
  | false =>
    simp only [isPlainChar, Bool.not_eq_false', Bool.or_eq_true, beq_iff_eq, or_assoc] at plain
    rcases plain with rfl | rfl | rfl | rfl | rfl <;> revert reference <;> decide

/-- A text with a reference whose version changes. The version is the value of the parameter `ref`
behind a mark. A reader that takes the reference for code finds none of the language there, so that
a second `&` may not stand before the mark. -/
structure Repin where
  before : List Char
  mark : Char
  old : List Char
  new : List Char
  tail : List Char
  marked : mark = '?' ∨ mark = '&' ∧ before.getLast? ≠ some '&'
  old_nonempty : old ≠ []
  new_nonempty : new ≠ []
  old_pinned : ∀ c ∈ old, isPinChar c = true
  new_pinned : ∀ c ∈ new, isPinChar c = true

namespace Repin

/-- The text after the mark, with a version. -/
def beyond (repin : Repin) (version : List Char) : List Char :=
  Source.refKey ++ (version ++ repin.tail)

def text (repin : Repin) (version : List Char) : List Char :=
  repin.before ++ repin.mark :: repin.beyond version

/-- The change back. -/
def swap (repin : Repin) : Repin :=
  { repin with
    old := repin.new
    new := repin.old
    old_nonempty := repin.new_nonempty
    new_nonempty := repin.old_nonempty
    old_pinned := repin.new_pinned
    new_pinned := repin.old_pinned }

/-- What a text becomes when versions behind `ref=` change. -/
inductive Renewed (repin : Repin) : List Char → List Char → Prop where
  | nil : Renewed repin [] []
  | cons (c : Char) {first second : List Char} : Renewed repin first second →
      Renewed repin (c :: first) (c :: second)
  | version {first second : List Char} : Renewed repin first second →
      Renewed repin (Source.refKey ++ (repin.old ++ first))
        (Source.refKey ++ (repin.new ++ second))

variable {repin : Repin}

theorem Renewed.refl (text : List Char) : Renewed repin text text := by
  induction text with
  | nil => exact .nil
  | cons c text ih => exact .cons c ih

theorem Renewed.append {first second third fourth : List Char} (left : Renewed repin first second)
    (right : Renewed repin third fourth) : Renewed repin (first ++ third) (second ++ fourth) := by
  induction left with
  | nil => exact right
  | cons c _ ih => exact .cons c ih
  | version _ ih => simpa using Renewed.version ih

theorem Renewed.prepend (text : List Char) {first second : List Char}
    (right : Renewed repin first second) : Renewed repin (text ++ first) (text ++ second) :=
  (Renewed.refl text).append right

theorem Renewed.flatten {first second : List (List Char)}
    (pairs : List.Forall₂ (Renewed repin) first second) :
    Renewed repin first.flatten second.flatten := by
  induction pairs with
  | nil => exact .nil
  | cons here _ ih => exact here.append ih

theorem Renewed.head? {first second : List Char} (pair : Renewed repin first second) :
    first.head? = second.head? := by
  cases pair <;> rfl

/-- Without a `ref=` there is no version to change. -/
theorem Renewed.eq_of_no_key {first second : List Char} (pair : Renewed repin first second)
    (bare : ¬ Source.refKey <:+: first) : first = second := by
  induction pair with
  | nil => rfl
  | cons c _ ih => rw [ih fun inside => bare (List.infix_cons inside)]
  | version => exact absurd ⟨[], _, rfl⟩ bare

/-- A text without `=` has no version in it. -/
theorem Renewed.eq_left_iff {first second text : List Char} (pair : Renewed repin first second)
    (bare : '=' ∉ text) : first = text ↔ second = text := by
  induction pair generalizing text with
  | nil => rfl
  | cons c _ ih =>
    cases text with
    | nil => simp
    | cons d text =>
      have shorter := @ih text fun member => bare (List.mem_cons_of_mem _ member)
      simp only [List.cons.injEq, shorter]
  | version =>
    constructor <;> (rintro rfl; exact absurd (by simp [Source.refKey]) bare)

private theorem mark_infix_append_iff {c d : Char} {front text : List Char} (bare : c ∉ front) :
    [c, d] <:+: front ++ text ↔ [c, d] <:+: text := by
  induction front with
  | nil => rfl
  | cons first front ih =>
    have different : c ≠ first := fun same => bare (by simp [same])
    rw [List.cons_append, List.infix_cons_iff, ih fun member => bare (List.mem_cons_of_mem _ member)]
    simp [List.cons_prefix_cons, different]

/-- Two characters of which neither stands in a version are found before and after. -/
theorem Renewed.infix_iff {first second : List Char} {c d : Char}
    (pair : Renewed repin first second) (unpinned : isPinChar c = false)
    (unkeyed : c ∉ Source.refKey) : [c, d] <:+: first ↔ [c, d] <:+: second := by
  induction pair with
  | nil => rfl
  | @cons e first second rest ih =>
    rw [List.infix_cons_iff, List.infix_cons_iff, ih]
    have heads := rest.head?
    cases first <;> cases second <;> simp_all [List.cons_prefix_cons]
  | version _ ih =>
    have outside {version : List Char} (pinned : ∀ e ∈ version, isPinChar e = true) :
        c ∉ Source.refKey ++ version := by
      intro member
      rcases List.mem_append.mp member with member | member
      · exact unkeyed member
      · simp [pinned c member] at unpinned
    rw [← List.append_assoc, ← List.append_assoc, mark_infix_append_iff (outside repin.old_pinned),
      mark_infix_append_iff (outside repin.new_pinned), ih]

/-- Whether a text ends with a character that is in no version is the same before and after. -/
theorem Renewed.concat_cases {first second : List Char} {d : Char}
    (pair : Renewed repin first second) (unpinned : isPinChar d = false)
    (unkeyed : d ∉ Source.refKey) :
    (∃ body body', first = body ++ [d] ∧ second = body' ++ [d] ∧ Renewed repin body body') ∨
      first.getLast? ≠ some d ∧ second.getLast? ≠ some d := by
  have across {version text : List Char} (pinned : ∀ c ∈ version, isPinChar c = true)
      (other : text.getLast? ≠ some d) :
      (Source.refKey ++ (version ++ text)).getLast? ≠ some d := by
    intro same
    rw [← List.append_assoc, List.getLast?_append, Option.or_eq_some_iff] at same
    rcases same with same | ⟨_, same⟩
    · exact other same
    · rcases List.mem_append.mp (List.mem_of_getLast? same) with member | member
      · exact unkeyed member
      · simp [pinned d member] at unpinned
  induction pair with
  | nil => exact .inr ⟨nofun, nofun⟩
  | @cons c first second pair ih =>
    rcases ih with ⟨body, body', rfl, rfl, renewed⟩ | ⟨other, other'⟩
    · exact .inl ⟨c :: body, c :: body', rfl, rfl, .cons c renewed⟩
    · cases pair with
      | nil =>
        by_cases last : c = d
        · subst last
          exact .inl ⟨[], [], rfl, rfl, .nil⟩
        · exact .inr ⟨by simpa using last, by simpa using last⟩
      | cons e rest => exact .inr ⟨by simpa using other, by simpa using other'⟩
      | version rest =>
        refine .inr ⟨?_, ?_⟩
        · simpa [Source.refKey] using other
        · simpa [Source.refKey] using other'
  | version _ ih =>
    rcases ih with ⟨body, body', rfl, rfl, renewed⟩ | ⟨other, other'⟩
    · exact .inl ⟨_, _, by simp, by simp, .version renewed⟩
    · exact .inr ⟨across repin.old_pinned other, across repin.new_pinned other'⟩

end Repin

end InfraPins
