import InfraPins.Proofs.Patch.Slot

namespace InfraPins.Patch

open Text

/-- Free text, and slots each with the free text behind it. -/
structure Layout (kind : DependencyKind) where
  opening : List Char
  tail : List (Slot kind × List Char)
  deriving DecidableEq

namespace Layout

variable {kind : DependencyKind}

def slots (layout : Layout kind) : List (Slot kind) :=
  layout.tail.map Prod.fst

def segments (layout : Layout kind) : List (List Char) :=
  layout.opening :: layout.tail.map Prod.snd

def tailText : List (Slot kind × List Char) → List Char
  | [] => []
  | (slot, segment) :: tail => slot.quoted ++ segment ++ tailText tail

def text (layout : Layout kind) : List Char :=
  layout.opening ++ tailText layout.tail

def map (change : Slot kind → Slot kind) (layout : Layout kind) : Layout kind :=
  { layout with tail := layout.tail.map fun (slot, segment) => (change slot, segment) }

theorem tailText_append (front back : List (Slot kind × List Char)) :
    tailText (front ++ back) = tailText front ++ tailText back := by
  induction front with
  | nil => rfl
  | cons pair front ih =>
    obtain ⟨slot, segment⟩ := pair
    simp [tailText, ih]

private theorem append_quote_inj {left right first last : List Char} (bare : '"' ∉ left)
    (other : '"' ∉ first) (same : left ++ '"' :: right = first ++ '"' :: last) :
    left = first ∧ right = last := by
  rcases List.append_eq_append_iff.mp same with ⟨middle, rfl, behind⟩ | ⟨middle, rfl, behind⟩ <;>
    cases middle <;> simp_all

/-- The free text of slots and their sources: all but the versions. -/
def frame (tail : List (Slot kind × List Char)) : List (List Char × List Char) :=
  tail.map fun (slot, segment) => (slot.source, segment)

/-- Between the same sources and the same free text, different versions make different texts. -/
theorem tailText_inj {left right : List (Slot kind × List Char)} (framed : frame left = frame right)
    (same : tailText left = tailText right) : left = right := by
  induction left generalizing right with
  | nil => exact (List.map_eq_nil_iff.mp framed.symm).symm
  | cons pair left ih =>
    obtain ⟨⟨other, gap⟩, rest, rfl, behind, frames⟩ := List.map_eq_cons_iff.mp framed.symm
    obtain ⟨slot, segment⟩ := pair
    obtain ⟨source, rfl⟩ := Prod.mk.inj behind
    simp only [tailText, Slot.quoted, Slot.reference, source, List.append_assoc, List.cons_append,
      List.cons.injEq, true_and, List.append_cancel_left_eq, List.nil_append] at same
    obtain ⟨version, same⟩ :=
      append_quote_inj slot.quote_not_mem_version other.quote_not_mem_version same
    rw [Slot.ext source.symm version, ih frames.symm (List.append_cancel_left same)]

/-- A reference that no free text holds is found in the first slot that holds it. -/
theorem findWhole?_text {slot : Slot kind} {opening segment : List Char}
    {front back : List (Slot kind × List Char)} (absent : slot ∉ front.map Prod.fst)
    (clear : ∀ text ∈ opening :: front.map Prod.snd, ¬ StandsWhole slot.reference text) :
    findWhole? slot.reference (opening ++ tailText (front ++ (slot, segment) :: back)) =
      some ⟨opening ++ tailText front ++ ['"'], '"' :: segment ++ tailText back⟩ := by
  have bare := slot.quote_not_mem_reference
  have nonempty := slot.reference_ne_nil
  have passed : findWhole? slot.reference opening = none :=
    findWhole?_eq_none_iff.mpr (clear opening (by simp))
  induction front generalizing opening with
  | nil =>
    have quoted : opening ++ tailText ((slot, segment) :: back) =
        opening ++ '"' :: (slot.reference ++ '"' :: (segment ++ tailText back)) := by
      simp [tailText, Slot.quoted]
    rw [List.nil_append, quoted, findWhole?_append_quote bare nonempty, passed,
      findWhole?_append_quote bare nonempty, Slot.findWhole?_reference]
    simp [Place.behind, tailText]
  | cons pair front ih =>
    obtain ⟨other, gap⟩ := pair
    have different : slot ≠ other := fun same => absent (by simp [same])
    have quoted : opening ++ tailText ((other, gap) :: front ++ (slot, segment) :: back) =
        opening ++ '"' :: (other.reference ++
          '"' :: (gap ++ tailText (front ++ (slot, segment) :: back))) := by
      simp [tailText, Slot.quoted]
    have rest : findWhole? slot.reference (gap ++ tailText (front ++ (slot, segment) :: back)) =
        some ⟨gap ++ tailText front ++ ['"'], '"' :: segment ++ tailText back⟩ :=
      ih (fun member => absent (by simp_all))
        (fun text member => clear text (List.mem_cons_of_mem _ member))
        (findWhole?_eq_none_iff.mpr (clear gap (by simp)))
    rw [quoted, findWhole?_append_quote bare nonempty, passed,
      findWhole?_append_quote bare nonempty, Slot.findWhole?_reference, if_neg different, rest]
    simp [Place.behind, tailText, Slot.quoted]

/-- A task changes the first slot that has its source and its current version. -/
theorem patch_text {layout : Layout kind} {task : UpgradeTask} {slot renewed : Slot kind}
    {segment : List Char} {front back : List (Slot kind × List Char)}
    (split : layout.tail = front ++ (slot, segment) :: back) (absent : slot ∉ front.map Prod.fst)
    (clear : ∀ text ∈ layout.segments, ¬ StandsWhole slot.reference text)
    (same : task.kind = kind) (source : task.dependency.source.toList = slot.source)
    (current : task.dependency.current.toList = slot.version)
    (kept : renewed.source = slot.source) (new : task.newVersion.toList = renewed.version) :
    patch layout.text task =
      ⟨{ layout with tail := front ++ (renewed, segment) :: back : Layout kind }.text,
        some .whole⟩ := by
  have around : ∀ text ∈ layout.opening :: front.map Prod.snd, ¬ StandsWhole slot.reference text := by
    intro text member
    apply clear text
    simp only [segments, split, List.map_append, List.mem_cons, List.mem_append] at member ⊢
    exact member.imp_right .inl
  have found := @findWhole?_text _ _ _ segment _ back absent around
  have content : layout.text = layout.opening ++ tailText (front ++ (slot, segment) :: back) := by
    rw [text, split]
  cases kind with
  | module =>
    have old := slot.withVersion_eq_reference
    have fresh := kept ▸ renewed.withVersion_eq_reference
    simp only [patch, same, patchModule, source, current, old, content, found, new, fresh]
    simp [text, tailText, tailText_append, Slot.quoted, Place.fill]
  | image =>
    have old : tagged slot.source slot.version = slot.reference := by
      simp [tagged, Slot.reference, joint]
    have fresh : tagged slot.source renewed.version = renewed.reference := by
      simp [tagged, Slot.reference, joint, kept]
    simp only [patch, same, patchImage, source, current, old, content, found, new, fresh]
    simp [text, tailText, tailText_append, Slot.quoted, Place.fill]

end Layout

end InfraPins.Patch
