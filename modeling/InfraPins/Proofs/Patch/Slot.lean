import InfraPins.Proofs.Patch.Whole
import Mathlib.Data.List.Basic

namespace InfraPins.Patch

open Text

/-- What stands between a source and its version. -/
def joint : DependencyKind → List Char
  | .module => Source.refMark
  | .image => [':']

/-- A character of a source in a slot: one of a name, but for an image not the colon before the
tag. -/
def isSourceChar (kind : DependencyKind) (c : Char) : Bool :=
  isNameChar c && (kind = .module || c != ':')

/-- A pinned reference between quotes. -/
@[ext]
structure Slot (kind : DependencyKind) where
  source : List Char
  version : List Char
  named : ∀ c ∈ source, isSourceChar kind c
  pinned : ∀ c ∈ version, isVersionChar c
  deriving DecidableEq

namespace Slot

variable {kind : DependencyKind}

def reference (slot : Slot kind) : List Char :=
  slot.source ++ joint kind ++ slot.version

def quoted (slot : Slot kind) : List Char :=
  '"' :: slot.reference ++ ['"']

private theorem joint_eq_cons (kind : DependencyKind) :
    ∃ mark rest, joint kind = mark :: rest ∧ mark ∉ rest ∧ '"' ∉ joint kind ∧
      isSourceChar kind mark = false ∧ isVersionChar mark = false := by
  cases kind with
  | module => exact ⟨'?', Source.refKey, rfl, by decide, by decide, by decide, by decide⟩
  | image => exact ⟨':', [], rfl, by decide, by decide, by decide, by decide⟩

theorem reference_ne_nil (slot : Slot kind) : slot.reference ≠ [] := by
  obtain ⟨mark, rest, same, _⟩ := joint_eq_cons kind
  simp [reference, same]

theorem quote_not_mem_version (slot : Slot kind) : '"' ∉ slot.version := by
  intro member
  have pinned := slot.pinned '"' member
  rw [not_isVersionChar_quote] at pinned
  cases pinned

theorem quote_not_mem_reference (slot : Slot kind) : '"' ∉ slot.reference := by
  obtain ⟨_, _, _, _, bare, _⟩ := joint_eq_cons kind
  intro member
  rcases List.mem_append.mp member with member | member
  · rcases List.mem_append.mp member with member | member
    · have named := slot.named '"' member
      simp [isSourceChar, not_isNameChar_quote] at named
    · exact bare member
  · exact slot.quote_not_mem_version member

theorem withVersion_eq_reference (slot : Slot .module) :
    Source.withVersion slot.source slot.version = slot.reference := by
  have bare : '?' ∉ slot.source := fun member => by
    have named := slot.named '?' member
    revert named
    decide
  have absent : occurs Source.refMark slot.source = false := by
    rw [Bool.eq_false_iff]
    intro found
    exact bare ((occurs_iff.mp found).subset (by simp [Source.refMark]))
  simp [Source.withVersion, absent, bare, reference, joint]

private theorem eq_of_reference_split {slot other : Slot kind} {before after : List Char}
    (split : other.reference = before ++ slot.reference ++ after)
    (starts : before.getLast?.any isNameChar = false)
    (ends : after.head?.any isVersionChar = false) : before = [] ∧ after = [] ∧ slot = other := by
  obtain ⟨mark, tail, same, single, _, unnamed, unpinned⟩ := joint_eq_cons kind
  have notSource : mark ∉ other.source := fun member => by
    simpa [unnamed] using other.named mark member
  have notBehind : mark ∉ tail ++ other.version := fun member => by
    rcases List.mem_append.mp member with member | member
    · exact single member
    · simpa [unpinned] using other.pinned mark member
  simp only [reference, same, List.append_assoc, List.cons_append] at split
  rw [← List.append_assoc before] at split
  obtain ⟨source, _, behind⟩ := (List.append_cons_inj_of_notMem notSource notBehind).mp split
  have version := List.append_cancel_left behind
  obtain rfl : before = [] := by
    rcases List.eq_nil_or_concat before with empty | ⟨front, c, rfl⟩
    · exact empty
    · have named := other.named c (by simp [source])
      simp only [isSourceChar, Bool.and_eq_true] at named
      simp [named.1] at starts
  obtain rfl : after = [] := by
    cases after with
    | nil => rfl
    | cons c after =>
      have goes := other.pinned c (by simp [version])
      simp [goes] at ends
  exact ⟨rfl, rfl, Slot.ext (by simpa using source.symm) (by simpa using version.symm)⟩

/-- A reference is found in another one exactly when the two are the same. -/
theorem findWhole?_reference (slot other : Slot kind) :
    findWhole? slot.reference other.reference = if slot = other then some ⟨[], []⟩ else none := by
  by_cases same : slot = other
  · subst same
    cases found : findWhole? slot.reference slot.reference with
    | none => exact absurd ⟨[], [], by simp, rfl, rfl⟩ (findWhole?_eq_none_iff.mp found)
    | some place =>
      obtain ⟨before, after⟩ := place
      obtain ⟨split, starts, ends⟩ := findWhole?_split found
      obtain ⟨rfl, rfl, _⟩ := eq_of_reference_split split starts ends
      simp
  · rw [if_neg same, findWhole?_eq_none_iff]
    rintro ⟨before, after, split, starts, ends⟩
    exact same (eq_of_reference_split split starts ends).2.2

end Slot

end InfraPins.Patch
