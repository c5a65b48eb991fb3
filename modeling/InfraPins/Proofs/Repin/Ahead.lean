import InfraPins.Proofs.Repin.Token
import Mathlib.Data.List.Forall2

namespace InfraPins.Repin

open Text Hcl

variable {repin : Repin}

/-- A search for one character that no reference has finds it before the mark or behind the version.
-/
theorem cutAt?_aligned {separator : Char} (other : isReferenceChar separator = false)
    {front : List Char} (inside : front <:+ repin.before) :
    Option.Rel (fun first second => Renewed repin first.1 second.1 ∧ Aligned repin first.2 second.2)
      (cutAt? separator (front ++ repin.mark :: repin.beyond repin.old))
      (cutAt? separator (front ++ repin.mark :: repin.beyond repin.new)) := by
  rw [cutAt?_append, cutAt?_append]
  cases cut : cutAt? separator front with
  | some found =>
    obtain ⟨taken, rest⟩ := found
    have split := eq_of_cutAt? cut
    exact .some ⟨.refl _, .before (List.IsSuffix.trans ⟨taken ++ [separator], by simp [split]⟩ inside)⟩
  | none =>
    have across {version : List Char} (pinned : ∀ c ∈ version, isPinChar c = true) :
        cutAt? separator (repin.mark :: repin.beyond version) =
          (cutAt? separator repin.tail).map fun found =>
            (repin.mark :: (Source.refKey ++ version) ++ found.1, found.2) := by
      have absent : separator ∉ repin.mark :: (Source.refKey ++ version) := by
        intro member
        rcases List.mem_cons.mp member with same | member
        · rw [same, repin.mark_isReferenceChar] at other
          cases other
        · exact notMem_refKey_append pinned other member
      rw [beyond_eq_append, ← List.cons_append, cutAt?_append, cutAt?_eq_none_iff.mpr absent]
    rw [across repin.old_pinned, across repin.new_pinned]
    cases cut : cutAt? separator repin.tail with
    | none => exact .none
    | some found =>
      obtain ⟨taken, rest⟩ := found
      have split := eq_of_cutAt? cut
      refine .some ⟨?_, .same ⟨taken ++ [separator], by simp [split]⟩⟩
      simpa using renewed_beyond repin front taken

theorem lineBody?_aligned {front : List Char} (inside : front <:+ repin.before) :
    Option.Rel (fun first second => Renewed repin first.1 second.1 ∧ Aligned repin first.2 second.2)
      (lineBody? (front ++ repin.mark :: repin.beyond repin.old))
      (lineBody? (front ++ repin.mark :: repin.beyond repin.new)) := by
  have cut := cutAt?_aligned (show isReferenceChar '\n' = false by decide) inside
  exact rel_map cut fun _ _ here => ⟨here.1.append (.refl _), here.2⟩

theorem commentBody?_aligned {front : List Char} (inside : front <:+ repin.before) :
    Option.Rel (fun first second => Renewed repin first.1 second.1 ∧ Aligned repin first.2 second.2)
      (commentBody? (front ++ repin.mark :: repin.beyond repin.old))
      (commentBody? (front ++ repin.mark :: repin.beyond repin.new)) := by
  have apart (back : List Char) : (repin.mark :: back).head? ≠ some '/' := by
    rcases repin.mark_cases with same | same <;> simp [same]
  rw [commentBody?_append front (apart _), commentBody?_append front (apart _)]
  cases commented : commentBody? front with
  | some found =>
    obtain ⟨taken, rest⟩ := found
    have split := eq_of_commentBody? commented
    exact .some ⟨.refl _, .before (List.IsSuffix.trans ⟨taken, split.symm⟩ inside)⟩
  | none =>
    have across {version : List Char} (pinned : ∀ c ∈ version, isPinChar c = true) :
        commentBody? (repin.mark :: repin.beyond version) =
          (commentBody? repin.tail).map fun found =>
            (repin.mark :: (Source.refKey ++ version) ++ found.1, found.2) := by
      have absent : '*' ∉ repin.mark :: (Source.refKey ++ version) := by
        intro member
        rcases List.mem_cons.mp member with same | member
        · have plain := repin.mark_isReferenceChar
          rw [← same] at plain
          revert plain
          decide
        · exact notMem_refKey_append pinned (by decide) member
      rw [beyond_eq_append, ← List.cons_append, commentBody?_append_of_notMem _ absent]
    rw [across repin.old_pinned, across repin.new_pinned]
    cases commented : commentBody? repin.tail with
    | none => exact .none
    | some found =>
      obtain ⟨taken, rest⟩ := found
      have split := eq_of_commentBody? commented
      refine .some ⟨?_, .same ⟨taken, split.symm⟩⟩
      simpa using renewed_beyond repin front taken

theorem break?_aligned {front : List Char} (inside : front <:+ repin.before) :
    Option.Rel (fun first second => Renewed repin first.1 second.1 ∧ Aligned repin first.2 second.2)
      (break? (front ++ repin.mark :: repin.beyond repin.old))
      (break? (front ++ repin.mark :: repin.beyond repin.new)) := by
  have unmarked (back : List Char) : break? (repin.mark :: back) = none := by
    rcases repin.mark_cases with same | same <;> simp [break?, same]
  match front with
  | [] => simpa only [List.nil_append, unmarked] using Option.Rel.none
  | c :: front =>
    have shorter : front <:+ repin.before := (List.suffix_cons c front).trans inside
    by_cases feed : c = '\n'
    · subst feed
      have refused : (repin.mark == ' ' || repin.mark == '\t') = false := by
        rcases repin.mark_cases with same | same <;> simp [same]
      have spans (back : List Char) :=
        @spanWhile_append_cons repin.mark (fun c => c == ' ' || c == '\t') front back refused
      simp only [List.cons_append, break?, spans]
      exact .some ⟨.refl _, .before ((List.dropWhile_suffix _).trans shorter)⟩
    · by_cases hash : c = '#'
      · subst hash
        exact rel_map (lineBody?_aligned shorter) fun _ _ here => ⟨here.1.prepend ['#'], here.2⟩
      · by_cases slash : c = '/'
        · subst slash
          match front with
          | [] =>
            have unmarked (back : List Char) : break? ('/' :: repin.mark :: back) = none := by
              rcases repin.mark_cases with same | same <;> simp [break?, same]
            simpa only [List.cons_append, List.nil_append, unmarked] using Option.Rel.none
          | d :: front =>
            have shorter' : front <:+ repin.before := (List.suffix_cons d front).trans shorter
            by_cases line : d = '/'
            · subst line
              exact rel_map (lineBody?_aligned shorter') fun _ _ here => ⟨here.1.prepend ['/', '/'], here.2⟩
            · by_cases star : d = '*'
              · subst star
                exact rel_map (commentBody?_aligned shorter') fun _ _ here =>
                  ⟨here.1.prepend ['/', '*'], here.2⟩
              · have missed (back : List Char) : break? ('/' :: d :: back) = none := by
                  simp [break?, line, star]
                simpa only [List.cons_append, missed] using Option.Rel.none
        · have missed (back : List Char) : break? (c :: back) = none := by
            simp [break?, feed, hash, slash]
          simpa only [List.cons_append, missed] using Option.Rel.none

private theorem forall₂_renewed_refl (gaps : List (List Char)) :
    List.Forall₂ (Renewed repin) gaps gaps :=
  List.forall₂_same.mpr fun gap _ => .refl gap

theorem skipBreaks_aligned {first second : List Char}
    (aligned : Aligned repin first second) :
    List.Forall₂ (Renewed repin) (skipBreaks first).1 (skipBreaks second).1 ∧
      Aligned repin (skipBreaks first).2 (skipBreaks second).2 := by
  induction size : first.length using Nat.strongRecOn generalizing first second with
  | _ size ih =>
    subst size
    cases aligned with
    | same inside => exact ⟨forall₂_renewed_refl _, .same ((suffix_skipBreaks _).trans inside)⟩
    | @before front inside =>
      have refused : isGap repin.mark = false := by
        rcases repin.mark_cases with same | same <;> rw [same] <;> decide
      have dropped (back : List Char) := dropWhile_append_cons front back refused
      have shorter : front.dropWhile isGap <:+ repin.before :=
        (List.dropWhile_suffix isGap).trans inside
      have broken := break?_aligned shorter
      cases here : break? (front.dropWhile isGap ++ repin.mark :: repin.beyond repin.old) with
      | none =>
        rw [here] at broken
        cases there : break? (front.dropWhile isGap ++ repin.mark :: repin.beyond repin.new) with
        | some found => rw [there] at broken; cases broken
        | none =>
          rw [skipBreaks_nil (by rw [dropped, here]), skipBreaks_nil (by rw [dropped, there]),
            dropped, dropped]
          exact ⟨.nil, .before shorter⟩
      | some found =>
        obtain ⟨gap, rest⟩ := found
        rw [here] at broken
        cases there : break? (front.dropWhile isGap ++ repin.mark :: repin.beyond repin.new) with
        | none => rw [there] at broken; cases broken
        | some found' =>
          obtain ⟨gap', rest'⟩ := found'
          rw [there] at broken
          obtain ⟨renewed, aligned⟩ : Renewed repin gap gap' ∧ Aligned repin rest rest' := by
            cases broken with
            | some related => exact related
          have less : rest.length <
              (front ++ repin.mark :: repin.beyond repin.old).length := by
            refine Nat.lt_of_lt_of_le (break?_length here) ?_
            simp only [List.length_append]
            have := (List.dropWhile_suffix (l := front) isGap).length_le
            omega
          have more := ih _ less aligned rfl
          rw [← dropped] at here there
          rw [skipBreaks_cons here, skipBreaks_cons there]
          exact ⟨.cons renewed more.1, more.2⟩

/-- The token ahead before and after. -/
structure AlignedAhead (repin : Repin) (first second : Ahead) : Prop where
  breaks : List.Forall₂ (Renewed repin) first.breaks second.breaks
  token : RenewedToken repin first.token second.token
  rest : FollowsToken repin first.token first.rest second.rest
  quoted : first.token = .symbol .quote → '"' :: first.rest <:+ repin.text repin.old

theorem Aligned.suffix {first second : List Char} (starts : Aligned repin first second) :
    first <:+ repin.text repin.old := by
  cases starts with
  | before inside =>
    obtain ⟨outer, same⟩ := inside
    exact ⟨outer, by simp [text, ← same]⟩
  | same inside =>
    refine inside.trans ⟨repin.before ++ repin.mark :: (Source.refKey ++ repin.old), ?_⟩
    simp [text, beyond]

private theorem token?_starts (expected : Expectation) {first second : List Char}
    (starts : Aligned repin first second) :
    Option.Rel (fun first second => RenewedToken repin first.1 second.1 ∧
        FollowsToken repin first.1 first.2 second.2)
      (token? expected first) (token? expected second) := by
  cases starts with
  | before inside => exact token?_aligned expected inside
  | same inside =>
    cases found : token? expected first with
    | none => exact .none
    | some pair =>
      obtain ⟨token, rest⟩ := pair
      refine .some ⟨?_, .inl (.same ((suffix_of_token? found).1.trans inside))⟩
      cases token with
      | heredoc raw => exact .heredoc (.refl _) ((head?_of_token? found).1 rfl)
      | escapedText raw => exact .escapedText (.refl _) ((head?_of_token? found).2 rfl)
      | _ => exact .same fun _ => ⟨nofun, nofun⟩

theorem RenewedToken.joinsLines {first second : Token} (renewed : RenewedToken repin first second) :
    first.joinsLines = second.joinsLines := by
  cases renewed <;> rfl

/-- The next token is the same before and after, but for a version in it or in the comments before
it. -/
theorem ahead?_aligned (expected : Expectation) {first second : List Char}
    (aligned : Aligned repin first second) :
    Option.Rel (AlignedAhead repin) (ahead? expected first) (ahead? expected second) := by
  obtain ⟨breaks, starts⟩ := skipBreaks_aligned aligned
  rw [ahead?_eq, ahead?_eq, ← breaks.length_eq]
  have tokens :=
    token?_starts (if (skipBreaks first).1.length ≤ 1 then expected else .anything) starts
  cases here : token? (if (skipBreaks first).1.length ≤ 1 then expected else .anything)
      (skipBreaks first).2 with
  | none =>
    rw [here] at tokens
    cases there : token? (if (skipBreaks first).1.length ≤ 1 then expected else .anything)
        (skipBreaks second).2 with
    | none => exact .none
    | some found => rw [there] at tokens; cases tokens
  | some found =>
    have quoted := (suffix_of_token? here).2.2
    rw [here] at tokens
    cases there : token? (if (skipBreaks first).1.length ≤ 1 then expected else .anything)
        (skipBreaks second).2 with
    | none => rw [there] at tokens; cases tokens
    | some found' =>
      rw [there] at tokens
      cases tokens with
      | some related =>
        refine .some ⟨?_, related.1, related.2, fun quote => quoted quote ▸ starts.suffix⟩
        simp only [related.1.joinsLines]
        split
        · rw [List.dropLast_eq_take, List.dropLast_eq_take, ← breaks.length_eq]
          exact List.forall₂_take _ breaks
        · exact breaks

end InfraPins.Repin
