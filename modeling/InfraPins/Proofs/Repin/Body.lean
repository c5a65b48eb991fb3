import InfraPins.Proofs.Repin.Expression

namespace InfraPins.Repin

open Text Hcl

variable {repin : Repin}

/-- Labels of blocks before and after. -/
def AlikeLabel (repin : Repin) (first second : Label) : Prop :=
  RenewedText repin first.print second.print

/-- Statements before and after. -/
inductive AlikeStatement (repin : Repin) : Statement → Statement → Prop where
  | assignment {first second : Expr} (name : String) (value : AlikeExpr repin first second) :
      AlikeStatement repin (.assignment name first) (.assignment name second)
  | block {labels labels' : List Label} {body body' : List Statement} (kind : String)
      (marked : List.Forall₂ (AlikeLabel repin) labels labels')
      (inside : List.Forall₂ (AlikeStatement repin) body body') :
      AlikeStatement repin (.block kind labels body) (.block kind labels' body')

instance : Alike Statement := ⟨AlikeStatement⟩
instance : Alike (List Statement) := ⟨fun repin => List.Forall₂ (AlikeStatement repin)⟩
instance : Alike (List Label) := ⟨fun repin => List.Forall₂ (AlikeLabel repin)⟩

/-- What is read of a body before is read alike after. -/
structure FaithfulBody (repin : Repin) (fuel : Nat) : Prop where
  statements : Follows repin 1 statements fuel
  statement : ∀ name, Follows repin 2 (fun fuel => statement fuel name) fuel
  labels : Follows repin 1 labels fuel

theorem RenewedToken.statementWord? {first second : Token}
    (renewed : RenewedToken repin first second) : first.statementWord? = second.statementWord? := by
  cases renewed <;> rfl

private theorem known_of_statementWord? {token : Token} {word : String}
    (here : token.statementWord? = some word) : token ≠ .finish ∧ token ≠ .symbol .question := by
  constructor <;> (rintro rfl; cases here)

variable {fuel : Nat}

private theorem statements_step (ih : FaithfulBody repin fuel) :
    Follows repin 1 statements (fuel + 1) := by
  intro first second aligned
  refine Sim.call ?_
  simp only [Hcl.statements]
  rw [aligned.token.statementWord?]
  cases here : second.token.statementWord? with
  | none => exact .pure ⟨.nil, aligned.unbroken⟩ (Nat.lt_succ_self _)
  | some name =>
    obtain ⟨inside, known⟩ := known_of_statementWord? here
    refine .bind (.past .anything aligned rfl inside known) Nat.le.refl (Nat.le_succ _) ?_
    rintro next next' aligned (shorter : next'.size < second.size)
    refine .bind (ih.statement name next next' aligned) (by omega) Nat.le.refl ?_
    rintro ⟨statement, ahead⟩ ⟨statement', ahead'⟩ ⟨alike, aligned⟩
      (short : ahead'.size < next'.size + 1)
    refine .bind (ih.statements ahead ahead' aligned) (by omega) Nat.le.refl ?_
    rintro ⟨more, last⟩ ⟨more', last'⟩ ⟨alikes, aligned⟩ _
    exact .pure ⟨.cons alike alikes, aligned⟩ (Nat.lt_succ_self _)

private theorem statement_step (ih : FaithfulBody repin fuel)
    (name : String) : Follows repin 2 (fun fuel => statement fuel name) (fuel + 1) := by
  intro first second aligned
  refine Sim.call ?_
  simp only [Hcl.statement]
  refine .ite (aligned.isSymbol .assign) (fun here => ?assignment) fun _ => ?block
  case assignment =>
    refine .bind (.pastSymbol .operand aligned here (by simp)) Nat.le.refl (Nat.le_succ _) ?_
    rintro next next' aligned (shorter : next'.size < second.size)
    refine .bind ((faithful fuel).expression next next' aligned) (by omega) Nat.le.refl ?_
    rintro ⟨value, ahead⟩ ⟨value', ahead'⟩ ⟨alike, aligned⟩ _
    exact .pure ⟨.assignment name alike, aligned⟩ (Nat.lt_succ_self _)
  case block =>
    refine .bind (ih.labels first second aligned) (by omega) Nat.le.refl ?_
    rintro ⟨labels, ahead⟩ ⟨labels', ahead'⟩ ⟨alike, (aligned : AlignedAhead repin ahead ahead')⟩
      (short : ahead'.size < second.size + 1)
    have gaps : List.Forall₂ (AlikeLabel repin)
        (if ahead.broken then [Label.gap ahead.breaks.flatten] else [])
        (if ahead'.broken then [Label.gap ahead'.breaks.flatten] else []) := by
      rw [aligned.broken]
      split
      · refine .cons ?_ .nil
        simpa [AlikeLabel, RenewedText, Label.print] using Renewed.flatten aligned.breaks
      · exact .nil
    refine .bind (.afterSymbol? .openBrace .anything aligned.unbroken (by simp)) Nat.le.refl
      (Nat.le_succ _) ?_
    rintro next next' aligned (shorter : next'.size < ahead'.size)
    refine .bind (ih.statements next next' aligned) (by omega) Nat.le.refl ?_
    rintro ⟨body, last⟩ ⟨body', last'⟩ ⟨alikes, aligned⟩ _
    refine .bind (.afterSymbol? .closeBrace .anything aligned (by simp)) Nat.le.refl
      (Nat.le_succ _) ?_
    exact fun _ _ aligned _ =>
      .pure ⟨.block name (List.rel_append alike gaps) alikes, aligned⟩ (Nat.lt_succ_self _)

private theorem labels_step (ih : FaithfulBody repin fuel) :
    Follows repin 1 labels (fuel + 1) := by
  intro first second aligned
  refine Sim.call ?_
  have done : Sim repin (16 * second.size + 0) (second.size + 1)
      (some (([] : List Label), first)) fun _ => some ([], second) :=
    .pure ⟨.nil, aligned⟩ (Nat.lt_succ_self _)
  simp only [Hcl.labels]
  refine .ite aligned.broken (fun _ => done) fun _ => ?_
  have words := aligned.token.statementWord?
  have tokens := aligned.token
  cases here : second.token.statementWord? with
  | some name =>
    rw [words, here]
    obtain ⟨inside, known⟩ := known_of_statementWord? here
    refine .bind (.past .anything aligned rfl inside known) Nat.le.refl (Nat.le_succ _) ?_
    rintro next next' aligned (shorter : next'.size < second.size)
    refine .bind (ih.labels next next' aligned) (by omega) Nat.le.refl ?_
    rintro ⟨more, last⟩ ⟨more', last'⟩ ⟨alikes, aligned⟩ _
    exact .pure ⟨.cons (.refl _) alikes, aligned⟩ (Nat.lt_succ_self _)
  | none =>
    rw [words, here]
    generalize first.token = token at tokens ⊢
    generalize opens : second.token = token' at tokens ⊢
    cases tokens with
    | heredoc => exact done
    | escapedText => exact done
    | @same token =>
      by_cases quote : token = .symbol .quote
      · subst quote
        have size : second.size = second.rest.length + 1 := by simp [Ahead.size, opens]
        have behind : Aligned repin first.rest second.rest := aligned.behind (by simp [opens])
        refine .bind ((faithful fuel).string _ _ behind.string) (by omega) (by omega) ?_
        rintro ⟨parts, rest⟩ ⟨parts', rest'⟩ ⟨alike, aligned⟩
          (short : rest'.length < second.rest.length + 1)
        refine .bind (.ahead .anything aligned) Nat.le.refl Nat.le.refl ?_
        rintro next next' aligned (shorter : next'.size < rest'.length + 1)
        refine .bind (ih.labels next next' aligned) (by omega) Nat.le.refl ?_
        rintro ⟨more, last⟩ ⟨more', last'⟩ ⟨alikes, aligned⟩ _
        have print := ((RenewedText.refl "\"").append (AlikeParts.print alike)).append (.refl "\"")
        exact .pure ⟨.cons print alikes, aligned⟩ (Nat.lt_succ_self _)
      · cases token with
        | symbol operator =>
          cases operator with
          | quote => exact absurd rfl quote
          | _ => exact done
        | _ => exact done

theorem faithfulBody (fuel : Nat) : FaithfulBody repin fuel := by
  induction fuel with
  | zero => exact ⟨fun _ _ _ => .fail, fun _ _ _ _ => .fail, fun _ _ _ => .fail⟩
  | succ fuel ih =>
    exact ⟨statements_step ih, statement_step ih, labels_step ih⟩

end InfraPins.Repin
