import InfraPins.Proofs.Repin.Pattern
import InfraPins.Proofs.Source.Address

namespace InfraPins.Patch

open Text Scan Source

/-- An edit of the reference of a source: a repinned text in which every address around the version
has that source. -/
structure Edits (repin : Repin) (content content' source old new : List Char) : Prop where
  before_eq : content = repin.text repin.old
  after_eq : content' = repin.text repin.new
  old_eq : repin.old = old
  new_eq : repin.new = new
  filled : ∀ c ∈ repin.old, isVersionChar c = true
  ends : ∀ c ∈ repin.tail.head?, isVersionChar c = false
  touches : ∀ (address : Address) (front closing : List Char), '"' :: front <:+ repin.before →
    closing ++ ['"'] <+: repin.tail ++ ['\n'] →
    address.text = repin.pinnedAt front repin.old closing → address.bare = source

theorem isPinChar_of_isVersionChar {c : Char} (pinned : isVersionChar c = true) :
    isPinChar c = true := by
  simp [isPinChar, pinned]

private theorem eq_bare_of_suffix {address other : Address} {outer front rest : List Char}
    (inside : '"' :: front <:+ outer ++ address.bare)
    (starts : outer.getLast?.any isNameChar = false) (here : other.text = front ++ rest) :
    front = address.bare := by
  obtain ⟨taken, split⟩ := inside
  rcases List.append_eq_append_iff.mp split with ⟨quoted, rfl, ends⟩ | ⟨more, _, ends⟩
  · cases quoted with
    | nil =>
      rw [List.nil_append] at ends
      exact absurd (by simp [← ends]) address.quote_notMem_bare
    | cons c lead =>
      obtain ⟨rfl, rfl⟩ := List.cons.inj ends
      rcases List.eq_nil_or_concat lead with rfl | ⟨lead, d, rfl⟩
      · rfl
      · exfalso
        have unnamed : isNameChar d = false := by
          rw [List.concat_eq_append, ← List.cons_append, ← List.append_assoc,
            List.getLast?_concat] at starts
          exact starts
        have outside := other.notMem_locator unnamed
        have whole : other.locator ++ '?' :: other.query =
            (lead ++ [d]) ++ (address.bare ++ rest) := by
          rw [← other.text_eq, here]
          simp [List.concat_eq_append]
        rcases List.append_eq_append_iff.mp whole with ⟨more, same, query⟩ | ⟨more, same, _⟩
        · cases more with
          | nil => exact outside (by simp [← (same.trans (List.append_nil _))])
          | cons e more =>
            have member : ':' ∈ other.query := by
              rw [(List.cons.inj query).2]
              simp [address.colon_mem_bare]
            exact other.notMem_query (by decide) (by decide) (by decide) member
        · exact outside (by simp [same])
  · exact absurd (by simp [ends]) address.quote_notMem_bare

/-- What follows a version in a quoted text follows it in the file. -/
theorem mem_head?_of_closing {c : Char} {closing tail : List Char}
    (closes : closing ++ ['"'] <+: tail ++ ['\n']) (member : c ∈ closing.head?) :
    c ∈ tail.head? ∨ c = '\n' := by
  obtain ⟨rest, behind⟩ := closes
  cases closing with
  | nil => cases member
  | cons d closing => cases tail <;> simp_all

/-- A text around the version of an address, in which another version takes its place. -/
def repinOf (address : Address) (before : List Char) (mark : Char) (version tail : List Char)
    (marked : mark = '?' ∨ mark = '&' ∧ before.getLast? ≠ some '&') (versioned : version ≠ [])
    (pinned : ∀ c ∈ version, isVersionChar c = true) : Repin where
  before
  mark
  old := address.version
  new := version
  tail
  marked
  old_nonempty := address.versioned
  new_nonempty := versioned
  old_pinned := fun c member => isPinChar_of_isVersionChar (address.pinned c member)
  new_pinned := fun c member => isPinChar_of_isVersionChar (pinned c member)

/-- The exact text of an address, with no further parameter behind it, is edited in addresses of the
same source only. -/
theorem edits_of_whole {content version : List Char} {address : Address} {place : Place}
    (pinned : ∀ c ∈ version, isVersionChar c = true) (versioned : version ≠ [])
    (found : findWhole? (withVersion address.bare address.version) content = some place)
    (single : place.after.head? ≠ some '&') :
    ∃ repin, repin.tail = place.after ∧
      Edits repin content (place.fill (withVersion address.bare version)) address.bare
        address.version version := by
  obtain ⟨split, starts, ends⟩ := findWhole?_split found
  obtain ⟨mark, marked, opened, put⟩ := address.withVersion_bare
  rw [put] at split ⊢
  have last : (place.before ++ address.bare).getLast? ≠ some '&' := by
    rw [List.getLast?_append_of_ne_nil _ (List.ne_nil_of_mem address.colon_mem_bare)]
    exact address.getLast?_bare
  refine ⟨repinOf address (place.before ++ address.bare) mark version place.after
    (marked.imp id fun amp => ⟨amp, last⟩) versioned pinned, rfl, ?_⟩
  have tail : ∀ c ∈ place.after.head?, isVersionChar c = false := by
    intro c head
    rw [head] at ends
    exact ends
  refine ⟨?_, ?_, rfl, rfl, address.pinned, tail, ?_⟩
  · simp [repinOf, Repin.text, Repin.beyond, split]
  · simp [repinOf, Repin.text, Repin.beyond, Place.fill]
  · intro other front closing inside closes here
    have same := eq_bare_of_suffix inside starts here
    have closed : ∀ c ∈ closing.head?, isVersionChar c = false := by
      intro c member
      rcases mem_head?_of_closing closes member with inside | rfl
      · exact tail c inside
      · decide
    obtain ⟨-, rfl, -⟩ := other.renew_text marked here address.pinned closed pinned versioned
    -- No parameter follows the version, so that the address ends with it.
    have none : other.after = [] := by
      cases after : other.after with
      | nil => rfl
      | cons p after =>
        have amp : '&' ∈ (Address.trail other.after).head? := by simp [after, Address.trail]
        rcases mem_head?_of_closing closes amp with inside | same
        · exact absurd inside single
        · cases same
    obtain ⟨mark', _, normal⟩ := other.opening_normal
    have ends' : other.bare ++ [mark'] = front ++ [mark] := by
      rw [← normal, (other.eq_opening marked here).1]
      simp [Address.opening, Address.normal, none]
    rw [← same]
    exact List.append_inj_left' ends' rfl

end InfraPins.Patch
