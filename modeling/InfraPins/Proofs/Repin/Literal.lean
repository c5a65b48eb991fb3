import InfraPins.Proofs.Hcl.Strings
import InfraPins.Proofs.Repin.Meaning

namespace InfraPins.Repin

open Text Hcl

variable {repin : Repin}

theorem AlikeParts.consPlain {plain plain' : List Char} {first second : List Part}
    (renewed : Renewed repin plain plain') (nonempty : plain ≠ []) (nonempty' : plain' ≠ [])
    (alike : AlikeParts repin first second) :
    AlikeParts repin (consPlain plain first) (consPlain plain' second) := by
  obtain ⟨c, rest, rfl⟩ := List.exists_cons_of_ne_nil nonempty
  obtain ⟨d, rest', rfl⟩ := List.exists_cons_of_ne_nil nonempty'
  rw [consPlain_cons, consPlain_cons]
  exact alike.consText renewed

theorem quote_ne_mark (repin : Repin) : '"' ≠ repin.mark := by
  rcases repin.mark_cases with same | same <;> rw [same] <;> decide

theorem quote_notMem_refKey_append {version : List Char}
    (pinned : ∀ c ∈ version, isPinChar c = true) : '"' ∉ Source.refKey ++ version :=
  notMem_refKey_append pinned (by decide)

/-- A text up to the mark, cut at a quote: the quote stands before the mark or behind the version. -/
theorem cut_at_quote {front plain rest : List Char}
    (same : front ++ repin.mark :: repin.beyond repin.old = plain ++ '"' :: rest) :
    (∃ more, front = plain ++ '"' :: more) ∨
      ∃ closing, plain = repin.pinnedAt front repin.old closing ∧
        repin.tail = closing ++ '"' :: rest := by
  rcases List.append_eq_append_iff.mp same with ⟨more, rfl, behind⟩ | ⟨more, rfl, behind⟩
  · cases more with
    | nil => exact absurd (List.cons.inj behind).1.symm repin.quote_ne_mark
    | cons c more =>
      rw [beyond_eq_append, List.cons_append] at behind
      obtain ⟨rfl, onward⟩ := List.cons.inj behind
      rcases List.append_eq_append_iff.mp onward with ⟨closing, rfl, ends⟩ | ⟨inner, cut, ends⟩
      · exact .inr ⟨closing, by simp [pinnedAt], ends⟩
      · cases inner with
        | nil => exact .inr ⟨[], by simp_all [pinnedAt], by simpa using ends.symm⟩
        | cons d inner =>
          obtain ⟨rfl, _⟩ := List.cons.inj ends
          exact absurd (by simp [cut]) (quote_notMem_refKey_append repin.old_pinned)
  · cases more with
    | nil => exact absurd (List.cons.inj behind).1 repin.quote_ne_mark
    | cons c more =>
      obtain ⟨rfl, _⟩ := List.cons.inj behind
      exact .inl ⟨more, rfl⟩

/-- A plain literal stands in the text, and changes only around the version. -/
theorem source_of_parts {first second rest rest' : List Char} {fuel fuel' : Nat}
    {found found' : List Part} (stands : '"' :: first <:+ repin.text repin.old)
    (aligned : Aligned repin first second) (read : parts fuel first = some (found, rest))
    (read' : parts fuel' second = some (found', rest')) :
    AlikeSource repin (printParts found).toList (printParts found').toList := by
  intro chars
  generalize print : (printParts found).toList = plain at chars ⊢
  have literal : first = plain ++ '"' :: rest := print ▸ eq_of_parts read (print ▸ chars)
  refine ⟨?_, ?_⟩
  · refine List.IsInfix.trans ⟨[], rest, ?_⟩ stands.isInfix
    simp [inQuotes, literal]
  have unchanged {after : List Char} (literal' : second = plain ++ '"' :: after) :
      Repinned repin plain (printParts found').toList := by
    subst literal'
    exact .inl (print_of_parts chars read')
  cases aligned with
  | same => exact unchanged literal
  | @before front inside =>
    rcases cut_at_quote literal with ⟨more, rfl⟩ | ⟨closing, pinned, ends⟩
    · exact unchanged (List.append_assoc ..)
    · refine .inr ⟨front, closing, ?_, ⟨rest, by simp [ends]⟩, pinned, ?_⟩
      · obtain ⟨outer, split⟩ := stands
        rw [← List.cons_append, ← List.append_assoc, text] at split
        exact ⟨outer, List.append_cancel_right split⟩
      · refine @print_of_parts _ rest _ _ _ ?_ (by simpa [pinnedAt, beyond, ends] using read')
        intro c member
        subst pinned
        simp only [pinnedAt, List.mem_append, List.mem_cons] at member chars
        rcases member with member | rfl | member | member | member
        · exact chars c (.inl member)
        · exact isPlainChar_of_isReferenceChar repin.mark_isReferenceChar
        · exact chars c (by simp [member])
        · exact isPlainChar_of_isReferenceChar (isReferenceChar_of_isPinChar (repin.new_pinned c member))
        · exact chars c (by simp [member])

end InfraPins.Repin
