import InfraPins.Proofs.Search
import InfraPins.Proofs.Source.Address
import Mathlib.Data.List.Count

/-! Quoted references. The quotes of a text cut it into pieces, of which each may be a reference to a
source at a version. Where one quoted piece gives way to another, the reference of the one is quoted
once less, that of the other once more, and every other one as often as before. -/

namespace InfraPins.Patch

open Text

/-- The source and the version that a text refers to, if it is read as a reference. -/
def reference? (kind : DependencyKind) (text : List Char) : Option (List Char × List Char) :=
  match kind with
  | .module => some (Source.withoutVersion text, Source.version text)
  | .image => cutAt? ':' text

/-- What the pieces of a text refer to, from left to right. -/
def quotedReferences (kind : DependencyKind) (content : List Char) : List (List Char × List Char) :=
  (splitAt '"' content).filterMap (reference? kind)

structure Swaps (content content' piece piece' : List Char) : Prop where
  bare : '"' ∉ piece
  bare' : '"' ∉ piece'
  stands : ∃ before after, content = before ++ '"' :: (piece ++ '"' :: after) ∧
    content' = before ++ '"' :: (piece' ++ '"' :: after)

variable {kind : DependencyKind} {content content' piece piece' : List Char}
  {pin old new : List Char × List Char}

private theorem splitAt_quoted (bare : '"' ∉ piece) (before after : List Char) :
    splitAt '"' (before ++ '"' :: (piece ++ '"' :: after)) =
      splitAt '"' before ++ piece :: splitAt '"' after := by
  rw [splitAt_append, splitAt_append, splitAt_of_notMem bare]
  rfl

/-- A swap takes one reference away and brings another. -/
theorem Swaps.count_add (swaps : Swaps content content' piece piece')
    (refers : reference? kind piece = some old) (refers' : reference? kind piece' = some new)
    (other : new ≠ pin) :
    (quotedReferences kind content').count pin + [old].count pin =
      (quotedReferences kind content).count pin := by
  obtain ⟨before, after, rfl, rfl⟩ := swaps.stands
  simp only [quotedReferences, splitAt_quoted swaps.bare, splitAt_quoted swaps.bare',
    List.filterMap_append, List.filterMap_cons_some refers, List.filterMap_cons_some refers',
    List.count_append, List.count_cons, List.count_nil, beq_iff_eq, other, if_false]
  omega

/-- One quoted reference to a source in the place of another: it goes from one version to another. -/
def Requotes (kind : DependencyKind) (content content' source old new : List Char) : Prop :=
  ∃ piece piece', Swaps content content' piece piece' ∧ reference? kind piece = some (source, old) ∧
    reference? kind piece' = some (source, new)

theorem Requotes.count_add {source old new : List Char}
    (requotes : Requotes kind content content' source old new) (other : (source, new) ≠ pin) :
    (quotedReferences kind content').count pin + [(source, old)].count pin =
      (quotedReferences kind content).count pin := by
  obtain ⟨piece, piece', swaps, refers, refers'⟩ := requotes
  exact swaps.count_add refers refers' other

theorem Requotes.ne {source old new : List Char}
    (requotes : Requotes kind content content' source old new) (other : new ≠ old) :
    content' ≠ content := by
  intro same
  subst same
  have different : (source, new) ≠ (source, old) := fun same => other (Prod.mk.inj same).2
  have counted := requotes.count_add different
  simp at counted

/-- Where a reference is found between quotes, what is put in its place stands between them. -/
theorem swaps_of_whole {place : Place} (found : findWhole? piece content = some place)
    (opened : place.before.getLast? = some '"') (closed : place.after.head? = some '"')
    (bare : '"' ∉ piece) (bare' : '"' ∉ piece') :
    Swaps content (place.fill piece') piece piece' := by
  obtain ⟨split, _, _⟩ := findWhole?_split found
  obtain ⟨before, opening⟩ := List.getLast?_eq_some_iff.mp opened
  obtain ⟨after, closing⟩ := List.head?_eq_some_iff.mp closed
  exact ⟨bare, bare', before, after, by simp [split, opening, closing],
    by simp [Place.fill, opening, closing]⟩

theorem mem_quotedReferences (bare : '"' ∉ piece) (inside : inQuotes piece <:+: content)
    (refers : reference? kind piece = some pin) : pin ∈ quotedReferences kind content := by
  obtain ⟨before, after, rfl⟩ := inside
  have split : before ++ inQuotes piece ++ after = before ++ '"' :: (piece ++ '"' :: after) := by
    simp [inQuotes]
  rw [quotedReferences, split, splitAt_quoted bare]
  exact List.mem_filterMap.mpr ⟨piece, by simp, refers⟩

end InfraPins.Patch
