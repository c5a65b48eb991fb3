import InfraPins.Proofs.Repin.Reading

/-! Expressions of a repinned text are read alike before and after. Each function of the parser has
a rank for the calls that it makes without taking a token; a token pays for more than all of them.
-/

namespace InfraPins.Repin

open Text Hcl

variable {repin : Repin}

/-- With the same kind of token ahead, a reader follows what it read before. -/
def Follows {α : Type} [Reading α] (repin : Repin) (rank : Nat) (read : Nat → Ahead → Option α)
    (fuel : Nat) : Prop :=
  ∀ first second, AlignedAhead repin first second →
    Sim repin (16 * second.size + rank) (second.size + 1) (read fuel first)
      fun fuel => read fuel second

/-- Inside a string, a reader follows what it read before. -/
def FollowsString {α : Type} [Reading α] (repin : Repin) (rank : Nat)
    (read : Nat → List Char → Option α) (relation : List Char → List Char → Prop)
    (fuel : Nat) : Prop :=
  ∀ first second, relation first second →
    Sim repin (16 * second.length + rank) (second.length + 1) (read fuel first)
      fun fuel => read fuel second

/-- What is read with some fuel before is read alike after. -/
structure Faithful (repin : Repin) (fuel : Nat) : Prop where
  expression : Follows repin 4 expression fuel
  operators : ∀ limit, Follows repin 1 (fun fuel => operators fuel limit) fuel
  operand : Follows repin 3 operand fuel
  term : Follows repin 2 term fuel
  steps : ∀ subject subject', AlikeExpr repin subject subject' →
    ∀ first second, AlignedAhead repin first second →
      Sim repin (16 * second.size + 1) (second.size + 1) (steps fuel subject first)
        fun fuel => Hcl.steps fuel subject' second
  atom : Follows repin 1 atom fuel
  named : ∀ name, Follows repin 1 (fun fuel => named fuel name) fuel
  call : ∀ path, Follows repin 6 (fun fuel => call fuel path) fuel
  arguments : Follows repin 5 arguments fuel
  list : Follows repin 6 list fuel
  items : Follows repin 5 items fuel
  object : Follows repin 6 object fuel
  fields : Follows repin 5 fields fuel
  field : ∀ key key', AlikeExpr repin key key' →
    ∀ first second, AlignedAhead repin first second →
      Sim repin (16 * second.size + 1) (second.size + 1) (field fuel key first)
        fun fuel => Hcl.field fuel key' second
  forIntroduction : Follows repin 1 forIntroduction fuel
  forCondition : Follows repin 1 forCondition fuel
  string : FollowsString repin 2 string (AlignedString repin) fuel
  parts : FollowsString repin 1 parts (AlignedString repin) fuel
  directive : FollowsString repin 5 directive (Aligned repin) fuel

namespace Follows

variable {α : Type} [Reading α] {rank : Nat} {read : Nat → Ahead → Option α} {fuel : Nat}
  {first second : Ahead}

theorem here (follows : Follows repin rank read fuel) (aligned : AlignedAhead repin first second) :
    Sim repin (16 * second.size + rank) (second.size + 1) (read fuel first)
      fun fuel => read fuel second :=
  follows first second aligned

theorem unbroken (follows : Follows repin rank read fuel)
    (aligned : AlignedAhead repin first second) :
    Sim repin (16 * second.size + rank) (second.size + 1) (read fuel first.unbroken)
      fun fuel => read fuel second.unbroken :=
  follows _ _ aligned.unbroken

end Follows

variable {fuel : Nat}

private theorem operators_step (ih : Faithful repin fuel)
    (limit : Nat) : Follows repin 1 (fun fuel => operators fuel limit) (fuel + 1) := by
  intro first second aligned
  refine Sim.call ?_
  have done : Sim repin (16 * second.size + 0) (second.size + 1)
      (some (([] : List (Symbol × Expr)), first)) fun _ => some ([], second) :=
    .pure ⟨.nil, aligned⟩ (Nat.lt_succ_self _)
  simp only [Hcl.operators]
  rw [aligned.broken]
  cases second.broken with
  | true => exact done
  | false =>
    have tokens := aligned.token
    generalize first.token = token at tokens ⊢
    generalize here : second.token = token' at tokens ⊢
    cases tokens with
    | heredoc => exact done
    | escapedText => exact done
    | @same token =>
      cases token with
      | symbol operator =>
        dsimp only
        cases bound : operator.binding? with
        | none => exact done
        | some binding =>
          have known : Token.symbol operator ≠ .symbol .question := by
            rintro same
            rw [Token.symbol.inj same] at bound
            cases bound
          dsimp only
          split
          · exact .fail
          refine .bind (.past .operand aligned here nofun known) Nat.le.refl (Nat.le_succ _) ?_
          rintro next next' aligned (shorter : next'.size < second.size)
          refine .bind (ih.operand.unbroken aligned) (by omega) Nat.le.refl ?_
          rintro ⟨right, ahead⟩ ⟨right', ahead'⟩ ⟨alike, aligned⟩ (short : ahead'.size < next'.size + 1)
          dsimp only
          rw [aligned.broken]
          refine .bind ((ih.operators _).unbroken aligned) (by omega) Nat.le.refl ?_
          rintro ⟨rest, ahead⟩ ⟨rest', ahead'⟩ ⟨alikes, aligned⟩ _
          exact .pure ⟨.cons ⟨rfl, alike⟩ alikes, aligned⟩ (Nat.lt_succ_self _)
      | _ => exact done

private theorem operand_step (ih : Faithful repin fuel) :
    Follows repin 3 operand (fuel + 1) := by
  intro first second aligned
  refine Sim.call ?_
  simp only [Hcl.operand]
  refine .ite (by rw [aligned.isSymbol, aligned.isSymbol]) (fun here => ?_) fun _ =>
    (ih.term.here aligned).weaken Nat.le.refl Nat.le.refl
  rw [aligned.isSymbol]
  have next (expected : Expectation) : Sim repin (16 * second.size + 2) second.size
      (ahead? expected first.rest) fun _ => ahead? expected second.rest := by
    rcases Bool.or_eq_true_iff.mp here with here | here
    · exact .pastSymbol expected aligned here nofun
    · exact .pastSymbol expected aligned here nofun
  refine .bind (next .operand) Nat.le.refl (Nat.le_succ _) ?_
  rintro next next' aligned (shorter : next'.size < second.size)
  refine .bind (ih.term.here aligned) (by omega) Nat.le.refl ?_
  rintro ⟨inner, ahead⟩ ⟨inner', ahead'⟩ ⟨alike, aligned⟩ _
  exact .pure ⟨.unary _ alike, aligned⟩ (Nat.lt_succ_self _)

private theorem term_step (ih : Faithful repin fuel) : Follows repin 2 term (fuel + 1) := by
  intro first second aligned
  refine Sim.call ?_
  simp only [Hcl.term]
  refine .bind (ih.atom.here aligned) Nat.le.refl Nat.le.refl ?_
  rintro ⟨subject, ahead⟩ ⟨subject', ahead'⟩ ⟨alike, aligned⟩ (short : ahead'.size < second.size + 1)
  exact (ih.steps _ _ alike _ ahead' aligned).weaken (by omega) Nat.le.refl

private theorem steps_step (ih : Faithful repin fuel)
    (subject subject' : Expr) (alike : AlikeExpr repin subject subject') (first second : Ahead)
    (aligned : AlignedAhead repin first second) :
    Sim repin (16 * second.size + 1) (second.size + 1) (steps (fuel + 1) subject first)
      fun fuel => Hcl.steps fuel subject' second := by
  refine Sim.call ?_
  have onward {step step' : Step} {ahead ahead' : Ahead} (same : AlikeStep repin step step')
      (aligned : AlignedAhead repin ahead ahead') (shorter : ahead'.size < second.size) :
      Sim repin (16 * second.size + 0) (ahead'.size + 1)
        (Hcl.steps fuel (.access subject step) ahead)
        fun fuel => Hcl.steps fuel (.access subject' step') ahead' :=
    (ih.steps _ _ (alike.access same) ahead ahead' aligned).weaken (by omega) Nat.le.refl
  simp only [Hcl.steps]
  refine .ite (aligned.isSymbol .dot) (fun here => ?member) fun _ =>
    .ite (aligned.isSymbol .eachMember) (fun here => ?eachMember) fun _ =>
    .ite (aligned.isSymbol .each) (fun here => ?each) fun _ =>
    .ite (aligned.isSymbol .openList) (fun here => ?index) fun _ =>
    .pure ⟨alike, aligned⟩ (Nat.lt_succ_self _)
  case eachMember =>
    refine .bind (.pastSymbol .anything aligned here nofun) Nat.le.refl (Nat.le_succ _) ?_
    exact fun _ _ aligned shorter => onward (.refl _) aligned shorter
  case each =>
    refine .bind (.pastSymbol .anything aligned here nofun) Nat.le.refl (Nat.le_succ _) ?_
    exact fun _ _ aligned shorter => onward (.refl _) aligned shorter
  case index =>
    refine .bind (.pastSymbol .operand aligned here nofun) Nat.le.refl (Nat.le_succ _) ?_
    rintro next next' aligned (shorter : next'.size < second.size)
    refine .bind (ih.expression.unbroken aligned) (by omega) Nat.le.refl ?_
    rintro ⟨key, ahead⟩ ⟨key', ahead'⟩ ⟨same, aligned⟩ (short : ahead'.size < next'.size + 1)
    refine .bind (.afterSymbol? .closeList .anything aligned.unbroken nofun) Nat.le.refl
      (Nat.le_succ _) ?_
    rintro last last' aligned (less : last'.size < ahead'.size)
    exact onward (.index same) aligned (by omega)
  case member =>
    refine .bind (.pastSymbol .member aligned here nofun) Nat.le.refl (Nat.le_succ _) ?_
    rintro step step' aligned (shorter : step'.size < second.size)
    rw [aligned.broken]
    have behind {token : Token} (here : step'.token = token) (inside : token ≠ .finish)
        (known : token ≠ .symbol .question) {part : Step} :
        Sim repin (16 * second.size + 0) (step'.size + 1)
          (ahead? .anything step.rest >>= fun next => Hcl.steps fuel (.access subject part) next)
          fun fuel => ahead? .anything step'.rest >>= fun next =>
            Hcl.steps fuel (.access subject' part) next := by
      refine .bind (.past .anything aligned here inside known) Nat.le.refl (Nat.le_succ _) ?_
      rintro next next' aligned (less : next'.size < step'.size)
      exact onward (.refl _) aligned (by omega)
    have nothing {rest : List Char} :
        (ahead? .anything rest >>= fun _ => (none : Option (Expr × Ahead))) = none := by
      cases ahead? .anything rest <;> rfl
    cases step'.broken with
    | true =>
      simp only [nothing]
      exact .fail
    | false =>
      have tokens := aligned.token
      generalize step.token = token at tokens ⊢
      generalize here : step'.token = token' at tokens ⊢
      cases tokens with
      | @same token =>
        cases token with
        | name name => exact behind here nofun nofun
        | constant word => exact behind here nofun nofun
        | integer digits => exact behind here nofun nofun
        | _ =>
          simp only [nothing]
          exact .fail
      | _ =>
        simp only [nothing]
        exact .fail

private theorem named_step (ih : Faithful repin fuel) (name : String) :
    Follows repin 1 (fun fuel => named fuel name) (fuel + 1) := by
  intro first second aligned
  refine Sim.call ?_
  simp only [Hcl.named]
  refine .ite (aligned.isSymbol .openGroup) (fun here => ?call) fun _ =>
    .ite (aligned.isSymbol .colons) (fun here => ?spaced) fun _ =>
    .pure ⟨.reference name, aligned⟩ (Nat.lt_succ_self _)
  case call =>
    refine .bind (.pastSymbol .operand aligned here nofun) Nat.le.refl (Nat.le_succ _) ?_
    rintro next next' aligned (shorter : next'.size < second.size)
    exact ((ih.call [name]).unbroken aligned).weaken (by omega) Nat.le.refl
  case spaced =>
    refine .bind (.pastSymbol .binder aligned here nofun) Nat.le.refl (Nat.le_succ _) ?_
    rintro next next' aligned (shorter : next'.size < second.size)
    refine .bind (.nameHere? .anything aligned) Nat.le.refl (Nat.le_succ _) ?_
    rintro ⟨other, ahead⟩ ⟨_, ahead'⟩ ⟨rfl, aligned⟩ (short : ahead'.size < next'.size)
    refine .bind (.afterSymbol? .colons .binder aligned nofun) Nat.le.refl (Nat.le_succ _) ?_
    rintro after after' aligned (shorter' : after'.size < ahead'.size)
    refine .bind (.nameHere? .anything aligned) Nat.le.refl (Nat.le_succ _) ?_
    rintro ⟨third, last⟩ ⟨_, last'⟩ ⟨rfl, aligned⟩ (short' : last'.size < after'.size)
    refine .bind (.afterSymbol? .openGroup .operand aligned nofun) Nat.le.refl
      (Nat.le_succ _) ?_
    rintro inside inside' aligned (less : inside'.size < last'.size)
    exact ((ih.call _).unbroken aligned).weaken (by omega) Nat.le.refl

private theorem call_step (ih : Faithful repin fuel)
    (path : List String) : Follows repin 6 (fun fuel => call fuel path) (fuel + 1) := by
  intro first second aligned
  refine Sim.call ?_
  simp only [Hcl.call]
  refine .ite (aligned.isSymbol .closeGroup) (fun here => ?_) fun _ => ?_
  · refine .bind (.pastSymbol .anything aligned here nofun) Nat.le.refl (Nat.le_succ _) ?_
    exact fun _ _ aligned _ => .pure ⟨.call path false .nil, aligned⟩ (Nat.lt_succ_self _)
  · refine .bind (ih.arguments.here aligned) (by omega) Nat.le.refl ?_
    rintro ⟨items, spread, ahead⟩ ⟨items', _, ahead'⟩ ⟨alike, rfl, aligned⟩ _
    refine .bind (.afterSymbol? .closeGroup .anything aligned.unbroken nofun) Nat.le.refl
      (Nat.le_succ _) ?_
    exact fun _ _ aligned _ => .pure ⟨.call path spread alike, aligned⟩ (Nat.lt_succ_self _)

private theorem arguments_step (ih : Faithful repin fuel) :
    Follows repin 5 arguments (fuel + 1) := by
  intro first second aligned
  refine Sim.call ?_
  simp only [Hcl.arguments]
  refine .bind (ih.expression.here aligned) (by omega) Nat.le.refl ?_
  rintro ⟨item, ahead⟩ ⟨item', ahead'⟩ ⟨alike, aligned⟩ (short : ahead'.size < second.size + 1)
  refine .ite (aligned.isSymbol .ellipsis) (fun here => ?spread) fun _ =>
    .ite (aligned.unbroken.isSymbol .comma) (fun here => ?more) fun _ =>
    .pure ⟨.cons alike .nil, rfl, aligned⟩ (Nat.lt_succ_self _)
  case spread =>
    refine .bind (.pastSymbol .anything aligned here nofun) Nat.le.refl (Nat.le_succ _) ?_
    exact fun _ _ aligned _ => .pure ⟨.cons alike .nil, rfl, aligned⟩ (Nat.lt_succ_self _)
  case more =>
    have comma : ahead'.token = .symbol .comma := token_of_isSymbol_unbroken here
    refine .bind (.past .operand aligned comma nofun nofun) Nat.le.refl (Nat.le_succ _) ?_
    rintro next next' following (shorter : next'.size < ahead'.size)
    refine .ite (by rw [aligned.broken, following.unbroken.isSymbol])
      (fun _ => .pure ⟨.cons alike .nil, rfl, following⟩ (Nat.lt_succ_self _)) fun _ => ?_
    refine .bind (ih.arguments.unbroken following) (by omega) Nat.le.refl ?_
    rintro ⟨items, spread, last⟩ ⟨items', _, last'⟩ ⟨alikes, rfl, aligned⟩ _
    exact .pure ⟨.cons alike alikes, rfl, aligned⟩ (Nat.lt_succ_self _)

private theorem list_step (ih : Faithful repin fuel) :
    Follows repin 6 list (fuel + 1) := by
  intro first second aligned
  refine Sim.call ?_
  simp only [Hcl.list]
  refine .ite (aligned.isKeyword .forWord) (fun here => ?made) fun _ => ?plain
  case made =>
    have opens : second.token = .keyword .forWord := beq_iff_eq.mp here
    refine .bind (.past .binder aligned opens nofun nofun) Nat.le.refl (Nat.le_succ _) ?_
    rintro next next' aligned (shorter : next'.size < second.size)
    refine .bind (ih.forIntroduction.here aligned) (by omega) Nat.le.refl ?_
    rintro ⟨binders, source, ahead⟩ ⟨_, source', ahead'⟩ ⟨rfl, sources, aligned⟩
      (short : ahead'.size < next'.size + 1)
    dsimp only
    refine .bind (ih.expression.here aligned) (by omega) Nat.le.refl ?_
    rintro ⟨value, after⟩ ⟨value', after'⟩ ⟨values, aligned⟩
      (short' : after'.size < ahead'.size + 1)
    dsimp only
    refine .bind (ih.forCondition.unbroken aligned) (by omega) Nat.le.refl ?_
    rintro ⟨condition, last⟩ ⟨condition', last'⟩ ⟨conditions, aligned⟩ _
    refine .bind (.afterSymbol? .closeList .anything aligned.unbroken nofun) Nat.le.refl
      (Nat.le_succ _) ?_
    exact fun _ _ aligned _ =>
      .pure ⟨.forTuple binders sources values conditions, aligned⟩ (Nat.lt_succ_self _)
  case plain =>
    refine .bind (ih.items.here aligned) (by omega) Nat.le.refl ?_
    rintro ⟨items, ahead⟩ ⟨items', ahead'⟩ ⟨alike, aligned⟩ _
    exact .pure ⟨.tuple alike, aligned⟩ (Nat.lt_succ_self _)

private theorem items_step (ih : Faithful repin fuel) :
    Follows repin 5 items (fuel + 1) := by
  intro first second aligned
  refine Sim.call ?_
  simp only [Hcl.items]
  refine .ite (aligned.isSymbol .closeList) (fun here => ?_) fun _ => ?_
  · refine .bind (.pastSymbol .anything aligned here nofun) Nat.le.refl (Nat.le_succ _) ?_
    exact fun _ _ aligned _ => .pure ⟨.nil, aligned⟩ (Nat.lt_succ_self _)
  · refine .bind (ih.expression.here aligned) (by omega) Nat.le.refl ?_
    rintro ⟨item, ahead⟩ ⟨item', ahead'⟩ ⟨alike, aligned⟩
      (short : ahead'.size < second.size + 1)
    dsimp only
    refine .ite (aligned.unbroken.isSymbol .comma) (fun here => ?_) fun _ => ?_
    · refine .bind (.pastSymbol .operand aligned.unbroken here nofun) Nat.le.refl
        (Nat.le_succ _) ?_
      rintro next next' aligned (shorter : next'.size < ahead'.size)
      refine .bind (ih.items.unbroken aligned) (by omega) Nat.le.refl ?_
      rintro ⟨items, last⟩ ⟨items', last'⟩ ⟨alikes, aligned⟩ _
      exact .pure ⟨.cons alike alikes, aligned⟩ (Nat.lt_succ_self _)
    · refine .bind (.afterSymbol? .closeList .anything aligned.unbroken nofun) Nat.le.refl
        (Nat.le_succ _) ?_
      exact fun _ _ aligned _ => .pure ⟨.cons alike .nil, aligned⟩ (Nat.lt_succ_self _)

private theorem object_step (ih : Faithful repin fuel) :
    Follows repin 6 object (fuel + 1) := by
  intro first second aligned
  refine Sim.call ?_
  simp only [Hcl.object]
  refine .ite (aligned.isKeyword .forWord) (fun here => ?made) fun _ => ?plain
  case made =>
    have opens : second.token = .keyword .forWord := beq_iff_eq.mp here
    refine .bind (.past .binder aligned opens nofun nofun) Nat.le.refl (Nat.le_succ _) ?_
    rintro next next' aligned (shorter : next'.size < second.size)
    refine .ite (by rw [aligned.isSymbol, aligned.isSymbol]) (fun _ => ?_) fun _ => ?_
    · refine .bind (ih.field _ _ (.reference _) next next' aligned) (by omega) Nat.le.refl ?_
      rintro ⟨fields, ahead⟩ ⟨fields', ahead'⟩ ⟨alike, aligned⟩ _
      exact .pure ⟨.object alike, aligned⟩ (Nat.lt_succ_self _)
    · refine .bind (ih.forIntroduction.here aligned) (by omega) Nat.le.refl ?_
      rintro ⟨binders, source, ahead⟩ ⟨_, source', ahead'⟩ ⟨rfl, sources, aligned⟩
        (short : ahead'.size < next'.size + 1)
      dsimp only
      refine .bind (ih.expression.here aligned) (by omega) Nat.le.refl ?_
      rintro ⟨key, after⟩ ⟨key', after'⟩ ⟨keys, aligned⟩ (short' : after'.size < ahead'.size + 1)
      refine .bind (.afterSymbol? .arrow .operand aligned nofun) Nat.le.refl
        (Nat.le_succ _) ?_
      rintro inside inside' aligned (less : inside'.size < after'.size)
      refine .bind (ih.expression.unbroken aligned) (by omega) Nat.le.refl ?_
      rintro ⟨value, follow⟩ ⟨value', follow'⟩ ⟨values, aligned⟩
        (short'' : follow'.size < inside'.size + 1)
      dsimp only
      rw [aligned.unbroken.isSymbol .ellipsis]
      show Sim repin _ (follow'.unbroken.size + 1) _ _
      refine .optional .anything aligned.unbroken rfl (fun here =>
        ⟨.ellipsis, nofun, token_of_isSymbol here⟩) ?_
      rintro maybe maybe' aligned (bound : maybe'.size < follow'.size + 1)
      refine .bind (ih.forCondition.unbroken aligned) (by omega) Nat.le.refl ?_
      rintro ⟨condition, last⟩ ⟨condition', last'⟩ ⟨conditions, aligned⟩ _
      refine .bind (.afterSymbol? .closeBrace .anything aligned.unbroken nofun) Nat.le.refl
        (Nat.le_succ _) ?_
      exact fun _ _ aligned _ =>
        .pure ⟨.forObject binders _ sources keys values conditions, aligned⟩ (Nat.lt_succ_self _)
  case plain =>
    refine .bind (ih.fields.here aligned) (by omega) Nat.le.refl ?_
    rintro ⟨fields, ahead⟩ ⟨fields', ahead'⟩ ⟨alike, aligned⟩ _
    exact .pure ⟨.object alike, aligned⟩ (Nat.lt_succ_self _)

private theorem fields_step (ih : Faithful repin fuel) :
    Follows repin 5 fields (fuel + 1) := by
  intro first second aligned
  refine Sim.call ?_
  simp only [Hcl.fields]
  refine .ite (aligned.isSymbol .closeBrace) (fun here => ?_) fun _ => ?_
  · refine .bind (.pastSymbol .anything aligned here nofun) Nat.le.refl (Nat.le_succ _) ?_
    exact fun _ _ aligned _ => .pure ⟨.nil, aligned⟩ (Nat.lt_succ_self _)
  · have keyed : Sim repin (16 * second.size + 4) (second.size + 1)
        (Hcl.expression fuel first >>= fun found => Hcl.field fuel found.1 found.2)
        fun fuel => Hcl.expression fuel second >>= fun found => Hcl.field fuel found.1 found.2 := by
      refine .bind (ih.expression.here aligned) (by omega) Nat.le.refl ?_
      rintro ⟨key, ahead⟩ ⟨key', ahead'⟩ ⟨alike, aligned⟩ (short : ahead'.size < second.size + 1)
      exact (ih.field _ _ alike ahead ahead' aligned).weaken (by omega) Nat.le.refl
    have tokens := aligned.token
    generalize first.token = token at tokens ⊢
    generalize here : second.token = token' at tokens ⊢
    cases tokens with
    | heredoc => exact keyed
    | escapedText => exact keyed
    | @same token =>
      cases token with
      | keyword word =>
        refine .bind (.past .anything aligned here nofun nofun) Nat.le.refl (Nat.le_succ _) ?_
        rintro next next' aligned (shorter : next'.size < second.size)
        exact (ih.field _ _ (.reference _) next next' aligned).weaken (by omega) Nat.le.refl
      | _ => exact keyed

private theorem field_step (ih : Faithful repin fuel) (key key' : Expr)
    (keys : AlikeExpr repin key key') (first second : Ahead)
    (aligned : AlignedAhead repin first second) :
    Sim repin (16 * second.size + 1) (second.size + 1) (field (fuel + 1) key first)
      fun fuel => Hcl.field fuel key' second := by
  refine Sim.call ?_
  simp only [Hcl.field]
  refine .ite (by rw [aligned.isSymbol, aligned.isSymbol]) (fun here => ?_) fun _ => .fail
  have opens : ∃ symbol, symbol ≠ .question ∧ second.token = .symbol symbol := by
    rcases Bool.or_eq_true_iff.mp here with here | here
    · exact ⟨.assign, nofun, token_of_isSymbol here⟩
    · exact ⟨.colon, nofun, token_of_isSymbol here⟩
  obtain ⟨symbol, other, token⟩ := opens
  refine .bind (.past .operand aligned token nofun fun same => other (Token.symbol.inj same))
    Nat.le.refl (Nat.le_succ _) ?_
  rintro next next' aligned (shorter : next'.size < second.size)
  refine .bind (ih.expression.here aligned) (by omega) Nat.le.refl ?_
  rintro ⟨value, ahead⟩ ⟨value', ahead'⟩ ⟨values, aligned⟩ (short : ahead'.size < next'.size + 1)
  show Sim repin _ (ahead'.unbroken.size + 1) _ _
  refine .optional .anything aligned.unbroken (aligned.unbroken.isSymbol .comma)
    (fun here => ⟨.comma, nofun, token_of_isSymbol here⟩) ?_
  rintro maybe maybe' aligned (short' : maybe'.size < ahead'.size + 1)
  refine .bind (ih.fields.unbroken aligned) (by omega) Nat.le.refl ?_
  rintro ⟨fields, last⟩ ⟨fields', last'⟩ ⟨alikes, aligned⟩ _
  exact .pure ⟨.cons ⟨keys, values⟩ alikes, aligned⟩ (Nat.lt_succ_self _)

private theorem forIntroduction_step (ih : Faithful repin fuel) :
    Follows repin 1 forIntroduction (fuel + 1) := by
  intro first second aligned
  refine Sim.call ?_
  simp only [Hcl.forIntroduction]
  refine .bind (.binders? aligned.unbroken) Nat.le.refl (Nat.le_succ _) ?_
  rintro ⟨binders, ahead⟩ ⟨_, ahead'⟩ ⟨rfl, aligned⟩ (shorter : ahead'.size < second.size)
  refine .bind (.afterKeyword? .inWord .operand aligned.unbroken) Nat.le.refl (Nat.le_succ _) ?_
  rintro inside inside' aligned (less : inside'.size < ahead'.size)
  refine .bind (ih.expression.unbroken aligned) (by omega) Nat.le.refl ?_
  rintro ⟨source, last⟩ ⟨source', last'⟩ ⟨sources, aligned⟩ _
  refine .bind (.afterSymbol? .colon .operand aligned.unbroken nofun) Nat.le.refl
    (Nat.le_succ _) ?_
  exact fun _ _ aligned _ => .pure ⟨rfl, sources, aligned.unbroken⟩ (Nat.lt_succ_self _)

private theorem forCondition_step (ih : Faithful repin fuel) :
    Follows repin 1 forCondition (fuel + 1) := by
  intro first second aligned
  refine Sim.call ?_
  simp only [Hcl.forCondition]
  have related := Sim.afterKeyword?_rel .ifWord .operand aligned
  generalize afterKeyword? first .ifWord .operand = found at related ⊢
  generalize afterKeyword? second .ifWord .operand = found' at related ⊢
  cases related with
  | none => exact .pure ⟨.none, aligned⟩ (Nat.lt_succ_self _)
  | some here =>
    obtain ⟨aligned, shorter⟩ := here
    refine .bind (ih.expression.unbroken aligned) (by omega) (by omega) ?_
    rintro ⟨condition, last⟩ ⟨condition', last'⟩ ⟨alike, aligned⟩ _
    exact .pure ⟨.some alike, aligned⟩ (Nat.lt_succ_self _)

private theorem string_step (ih : Faithful repin fuel) :
    FollowsString repin 2 string (AlignedString repin) (fuel + 1) := by
  intro first second aligned
  refine Sim.call ?_
  simp only [Hcl.string]
  refine .bind (ih.parts _ _ aligned) (by omega) Nat.le.refl ?_
  rintro ⟨parts, rest⟩ ⟨parts', rest'⟩ ⟨alike, aligned⟩ _
  refine .ite (AlikeParts.directivesClose alike) (fun _ => ?_) fun _ => .fail
  exact .pure ⟨alike, aligned⟩ (Nat.lt_succ_self _)

private theorem parts_of_string {text rest : List Char} {found : List Part}
    (read : string fuel text = some (found, rest)) : ∃ fuel', parts fuel' text = some (found, rest) := by
  cases fuel with
  | zero => simp [Hcl.string] at read
  | succ fuel =>
    simp only [Hcl.string] at read
    obtain ⟨⟨parts, after⟩, inside, closed⟩ := Option.bind_eq_some_iff.mp read
    refine ⟨fuel, ?_⟩
    dsimp only at closed
    split at closed
    · rw [inside, closed]
    · cases closed

private theorem atom_step (ih : Faithful repin fuel) :
    Follows repin 1 atom (fuel + 1) := by
  intro first second aligned
  refine Sim.call ?_
  have single {token : Token} {expr expr' : Expr} (here : second.token = token)
      (inside : token ≠ .finish) (known : token ≠ .symbol .question)
      (alike : AlikeExpr repin expr expr') :
      Sim repin (16 * second.size + 0) (second.size + 1)
        ((ahead? .anything first.rest).map (expr, ·))
        fun _ => (ahead? .anything second.rest).map (expr', ·) :=
    .map (.past .anything aligned here inside known) Nat.le.refl (Nat.le_succ _)
      fun _ _ same _ => ⟨⟨alike, same⟩, rfl⟩
  simp only [Hcl.atom]
  refine .ite aligned.broken (fun _ => .fail) fun _ => ?_
  have tokens := aligned.token
  generalize here' : first.token = token at tokens ⊢
  generalize here : second.token = token' at tokens ⊢
  cases tokens with
  | heredoc renewed opened => exact single here (by simp) (by simp) (.heredoc renewed opened)
  | escapedText renewed opened => exact single here (by simp) (by simp) (.escapedText renewed opened)
  | @same token cooked =>
    cases token with
    | keyword => exact .fail
    | finish => exact .fail
    | heredoc text => exact absurd rfl (cooked text).1
    | escapedText text => exact absurd rfl (cooked text).2
    | integer digits => exact single here (by simp) (by simp) (.integer digits)
    | decimal digits =>
      exact .ite rfl (fun _ => single here (by simp) (by simp) (.decimal digits)) fun _ => .fail
    | constant word => exact single here (by simp) (by simp) (.constant word)
    | name name =>
      refine .bind (.past .anything aligned here (by simp) (by simp)) Nat.le.refl (Nat.le_succ _) ?_
      rintro next next' aligned (shorter : next'.size < second.size)
      exact (ih.named name next next' aligned).weaken (by omega) Nat.le.refl
    | symbol operator =>
      cases operator with
      | quote =>
        have size : second.size = second.rest.length + 1 := by simp [Ahead.size, here]
        have behind : Aligned repin first.rest second.rest := aligned.behind (by simp [here])
        refine .bindRead (ih.string _ _ behind.string) (by omega) (by omega) ?_
        rintro ⟨parts, rest⟩ ⟨parts', rest'⟩ ⟨alike, rests⟩ _ read ⟨_, read'⟩
        obtain ⟨_, parsed⟩ := parts_of_string read
        obtain ⟨_, parsed'⟩ := parts_of_string read'
        have quoted := source_of_parts (aligned.quoted here') behind parsed parsed'
        refine .bind (.ahead .anything rests) Nat.le.refl Nat.le.refl ?_
        exact fun _ _ aligned _ => .pure ⟨.quoted alike quoted, aligned⟩ (Nat.lt_succ_self _)
      | openGroup =>
        refine .bind (.past .operand aligned here (by simp) (by simp)) Nat.le.refl (Nat.le_succ _) ?_
        rintro next next' aligned (shorter : next'.size < second.size)
        refine .bind (ih.expression.unbroken aligned) (by omega) Nat.le.refl ?_
        rintro ⟨inner, ahead⟩ ⟨inner', ahead'⟩ ⟨alike, aligned⟩ _
        refine .bind (.afterSymbol? .closeGroup .anything aligned.unbroken (by simp)) Nat.le.refl
          (Nat.le_succ _) ?_
        exact fun _ _ aligned _ => .pure ⟨.group alike, aligned⟩ (Nat.lt_succ_self _)
      | openList =>
        refine .bind (.past .listStart aligned here (by simp) (by simp)) Nat.le.refl (Nat.le_succ _) ?_
        rintro next next' aligned (shorter : next'.size < second.size)
        exact (ih.list.unbroken aligned).weaken (by omega) Nat.le.refl
      | openBrace =>
        refine .bind (.past .anything aligned here (by simp) (by simp)) Nat.le.refl (Nat.le_succ _) ?_
        rintro next next' aligned (shorter : next'.size < second.size)
        exact (ih.object.unbroken aligned).weaken (by omega) Nat.le.refl
      | _ => exact .fail

private theorem parts_beyond {first second : List Char}
    (earlier : ∀ fuel' ≤ fuel, FollowsString repin 1 parts (AlignedString repin) fuel')
    (here : first = repin.beyond repin.old) (here' : second = repin.beyond repin.new) :
    Sim repin (16 * second.length + 1) (second.length + 1) (parts (fuel + 1) first)
      fun fuel => Hcl.parts fuel second := by
  rw [beyond_eq_append] at here here'
  subst here here'
  have chars {version : List Char} (pinned : ∀ c ∈ version, isPinChar c = true) :
      ∀ c ∈ Source.refKey ++ version, isPlainChar c = true :=
    fun c member => isPlainChar_of_isReferenceChar (plain_of_mem_refKey_append pinned member)
  rintro ⟨found, rest⟩ read
  obtain ⟨fuel', inner, spent, behind, rfl⟩ :=
    (parts_append_eq_some (chars repin.old_pinned)).mp read
  have nonempty {version : List Char} (some : version ≠ []) : Source.refKey ++ version ≠ [] := by
    simp [some]
  have less := List.length_pos_iff.mpr (nonempty repin.old_nonempty)
  obtain ⟨⟨inner', rest'⟩, ⟨alike, aligned⟩, (short : rest'.length < _), runs⟩ :=
    earlier fuel' (by omega) _ _ (.same List.suffix_rfl) _ behind
  have renewed : Renewed repin (Source.refKey ++ repin.old) (Source.refKey ++ repin.new) := by
    simpa using @Renewed.version repin _ _ .nil
  refine ⟨(consPlain (Source.refKey ++ repin.new) inner', rest'),
    ⟨AlikeParts.consPlain renewed (nonempty repin.old_nonempty) (nonempty repin.new_nonempty) alike,
      aligned⟩, ?_, fun fuel (paid : _ ≤ fuel + 16 * rest'.length) => ?_⟩
  · show rest'.length < _
    rw [List.length_append]
    omega
  · rw [List.length_append] at paid
    refine (parts_append_eq_some (chars repin.new_pinned)).mpr
      ⟨fuel - (Source.refKey ++ repin.new).length, inner', by omega, runs _ ?_, rfl⟩
    show _ ≤ _ + 16 * rest'.length
    omega

private theorem interpolation_starts (ih : Faithful repin fuel) {rest rest' : List Char}
    (inside : Aligned repin rest rest') :
    Sim repin (16 * (rest'.length + 2)) (rest'.length + 3) (partsHere? fuel ('$' :: '{' :: rest))
      fun fuel => partsHere? fuel ('$' :: '{' :: rest') := by
  refine .bind (.ahead .operand inside) Nat.le.refl (by omega) ?_
  rintro next next' aligned (shorter : next'.size < rest'.length + 1)
  refine .bind (ih.expression next next' aligned) (by omega) Nat.le.refl ?_
  rintro ⟨inner, ahead⟩ ⟨inner', ahead'⟩ ⟨alike, aligned⟩ (short : ahead'.size < next'.size + 1)
  refine .ite (aligned.isSymbol .closeBrace) (fun here => ?_) fun _ => .fail
  have size := size_of_isSymbol here
  have closed := aligned.behind (by simp [token_of_isSymbol here])
  refine .bind (ih.parts _ _ closed.string) (by omega) (size ▸ Nat.le_succ _) ?_
  rintro ⟨parts, last⟩ ⟨parts', last'⟩ ⟨alikes, aligned⟩ _
  exact .pure ⟨.cons (.interpolation alike) alikes, aligned⟩ (Nat.lt_succ_self _)

private theorem directivePart_starts (ih : Faithful repin fuel) {rest rest' : List Char}
    (inside : Aligned repin rest rest') :
    Sim repin (16 * (rest'.length + 2)) (rest'.length + 3) (partsHere? fuel ('%' :: '{' :: rest))
      fun fuel => partsHere? fuel ('%' :: '{' :: rest') := by
  refine .bind (ih.directive _ _ inside) (by omega) (by omega) ?_
  rintro ⟨part, after⟩ ⟨part', after'⟩ ⟨alike, aligned⟩ (short : after'.length < rest'.length + 1)
  refine .bind (ih.parts after after' (Aligned.string aligned)) (by omega) Nat.le.refl ?_
  rintro ⟨parts, last⟩ ⟨parts', last'⟩ ⟨alikes, aligned⟩ _
  exact .pure ⟨.cons alike alikes, aligned⟩ (Nat.lt_succ_self _)

private theorem partsHere?_starts (ih : Faithful repin fuel)
    {first second : List Char} (starts : Aligned repin first second) :
    Sim repin (16 * second.length + 0) (second.length + 1) (partsHere? fuel first)
      fun fuel => partsHere? fuel second := by
  have unopened {c : Char} (rest : List Char) (other : c ≠ '"' ∧ c ≠ '$' ∧ c ≠ '%') (fuel : Nat) :
      partsHere? fuel (c :: rest) = none := by
    unfold partsHere?
    split <;> simp_all
  have unbraced {c d : Char} (rest : List Char) (other : c ≠ '"' ∧ d ≠ '{') (fuel : Nat) :
      partsHere? fuel (c :: d :: rest) = none := by
    unfold partsHere?
    split <;> simp_all
  have lone {c : Char} (other : c ≠ '"') (fuel : Nat) : partsHere? fuel [c] = none := by
    unfold partsHere?
    split <;> simp_all
  have marked : repin.mark ≠ '"' ∧ repin.mark ≠ '$' ∧ repin.mark ≠ '%' ∧ repin.mark ≠ '{' := by
    rcases repin.mark_cases with same | same <;> rw [same] <;> decide
  rcases starts.cons_cases with ⟨rfl, rfl⟩ | ⟨c, rest, rest', rfl, rfl, behind⟩ | ⟨rest, rest', rfl, rfl⟩
  · exact .fail
  · by_cases quote : c = '"'
    · subst quote
      exact .pure ⟨.nil, behind⟩ (by
        show rest'.length < rest'.length + 1 + 1
        omega)
    by_cases opens : c = '$' ∨ c = '%'
    · rcases behind.cons_cases with
        ⟨rfl, rfl⟩ | ⟨d, rest, rest', rfl, rfl, inside⟩ | ⟨rest, rest', rfl, rfl⟩
      · simp only [lone quote]
        exact .fail
      · by_cases brace : d = '{'
        · subst brace
          rcases opens with rfl | rfl
          · exact interpolation_starts ih inside
          · exact directivePart_starts ih inside
        · simp only [unbraced _ ⟨quote, brace⟩]
          exact .fail
      · simp only [unbraced _ ⟨quote, marked.2.2.2⟩]
        exact .fail
    · obtain ⟨dollar, percent⟩ := not_or.mp opens
      simp only [unopened _ ⟨quote, dollar, percent⟩]
      exact .fail
  · simp only [unopened _ ⟨marked.1, marked.2.1, marked.2.2.1⟩]
    exact .fail

private theorem parts_step (ih : Faithful repin fuel)
    (earlier : ∀ fuel' ≤ fuel, FollowsString repin 1 parts (AlignedString repin) fuel') :
    FollowsString repin 1 parts (AlignedString repin) (fuel + 1) := by
  intro first second aligned
  rcases aligned.cases with starts | ⟨here, here'⟩
  · refine Sim.call ?_
    have related := run?_starts starts
    cases taken : run? first with
    | none =>
      rw [taken] at related
      cases taken' : run? second with
      | some _ => rw [taken'] at related; cases related
      | none =>
        simp only [parts_of_run?_eq_none _ taken, parts_of_run?_eq_none _ taken']
        exact partsHere?_starts ih starts
    | some pair =>
      rw [taken] at related
      cases taken' : run? second with
      | none => rw [taken'] at related; cases related
      | some pair' =>
        obtain ⟨chars, rest⟩ := pair
        obtain ⟨chars', rest'⟩ := pair'
        rw [taken'] at related
        simp only [parts_of_run? _ taken, parts_of_run? _ taken']
        obtain ⟨⟨renewed, aligned⟩, (shorter : rest'.length < second.length)⟩ :
            AlikeRun repin (chars, rest) (chars', rest') ∧ rest'.length < second.length := by
          cases related with
          | some here => exact here
        refine .map (ih.parts rest rest' aligned) (by omega) (by omega) ?_
        rintro ⟨found, last⟩ ⟨found', last'⟩ ⟨alike, aligned⟩ _
        exact ⟨⟨AlikeParts.consText renewed alike, aligned⟩, rfl⟩
  · exact parts_beyond earlier here here'

private def directiveAfter? (fuel : Nat) (before : Bool) (word : Keyword) (text : List Char) :
    Option (Part × List Char) :=
  match word with
  | .ifWord => do
    let (condition, ahead) ← expression fuel (← ahead? .operand text)
    let (after, rest) ← directiveEnd? ahead
    return (.ifStart ⟨before, after⟩ condition, rest)
  | .forWord => do
    let (binders, ahead) ← binders? (← ahead? .binder text)
    let ahead ← afterKeyword? ahead .inWord .operand
    let (source, ahead) ← expression fuel ahead
    let (after, rest) ← directiveEnd? ahead
    return (.forStart ⟨before, after⟩ binders source, rest)
  | word => do
    let (after, rest) ← directiveEnd? (← ahead? .anything text)
    match word with
    | .elseWord => return (.elseMark ⟨before, after⟩, rest)
    | .endIf => return (.endIf ⟨before, after⟩, rest)
    | .endFor => return (.endFor ⟨before, after⟩, rest)
    | _ => none

private theorem directive_succ (fuel : Nat) (text : List Char) :
    directive (fuel + 1) text = (directiveWord? (directiveStart text).2).bind fun found =>
      directiveAfter? fuel (directiveStart text).1 found.1 found.2 := by
  rw [directive.eq_def]
  rfl

private theorem directiveAfter?_starts (ih : Faithful repin fuel)
    (before : Bool) (word : Keyword) {first second : List Char}
    (starts : Aligned repin first second) :
    Sim repin (16 * second.length + 4) (second.length + 1) (directiveAfter? fuel before word first)
      fun fuel => directiveAfter? fuel before word second := by
  have closed {part : Bool → Part} (same : ∀ after, AlikePart repin (part after) (part after)) :
      Sim repin (16 * second.length + 4) (second.length + 1)
        (ahead? .anything first >>= fun ahead => directiveEnd? ahead >>= fun found =>
          some (part found.1, found.2))
        fun _ => ahead? .anything second >>= fun ahead => directiveEnd? ahead >>= fun found =>
          some (part found.1, found.2) := by
    refine .bind (.ahead .anything starts) Nat.le.refl Nat.le.refl ?_
    intro ahead ahead' aligned _
    refine .bind (.directiveEnd? aligned) Nat.le.refl (Nat.le_succ _) ?_
    rintro ⟨after, rest⟩ ⟨_, rest'⟩ ⟨rfl, aligned⟩ _
    exact .pure ⟨same after, aligned⟩ (Nat.lt_succ_self _)
  have unclosed {first : List Char} : (ahead? .anything first >>= fun ahead =>
      directiveEnd? ahead >>= fun _ => (none : Option (Part × List Char))) = none := by
    cases ahead? .anything first with
    | none => rfl
    | some ahead =>
      show (directiveEnd? ahead).bind _ = none
      cases directiveEnd? ahead <;> rfl
  cases word with
  | ifWord =>
    refine .bind (.ahead .operand starts) Nat.le.refl Nat.le.refl ?_
    rintro next next' aligned (shorter : next'.size < second.length + 1)
    refine .bind (ih.expression next next' aligned) (by omega) Nat.le.refl ?_
    rintro ⟨condition, ahead⟩ ⟨condition', ahead'⟩ ⟨alike, aligned⟩ _
    refine .bind (.directiveEnd? aligned) Nat.le.refl (Nat.le_succ _) ?_
    rintro ⟨after, rest⟩ ⟨_, rest'⟩ ⟨rfl, aligned⟩ _
    exact .pure ⟨.ifStart _ alike, aligned⟩ (Nat.lt_succ_self _)
  | forWord =>
    refine .bind (.ahead .binder starts) Nat.le.refl Nat.le.refl ?_
    rintro next next' aligned (shorter : next'.size < second.length + 1)
    refine .bind (.binders? aligned) Nat.le.refl (Nat.le_succ _) ?_
    rintro ⟨binders, ahead⟩ ⟨_, ahead'⟩ ⟨rfl, aligned⟩ (short : ahead'.size < next'.size)
    refine .bind (.afterKeyword? .inWord .operand aligned) Nat.le.refl (Nat.le_succ _) ?_
    rintro inside inside' aligned (less : inside'.size < ahead'.size)
    refine .bind (ih.expression inside inside' aligned) (by omega) Nat.le.refl ?_
    rintro ⟨source, last⟩ ⟨source', last'⟩ ⟨alike, aligned⟩ _
    refine .bind (.directiveEnd? aligned) Nat.le.refl (Nat.le_succ _) ?_
    rintro ⟨after, rest⟩ ⟨_, rest'⟩ ⟨rfl, aligned⟩ _
    exact .pure ⟨.forStart _ binders alike, aligned⟩ (Nat.lt_succ_self _)
  | elseWord => exact closed fun after => .elseMark ⟨before, after⟩
  | endIf => exact closed fun after => .endIf ⟨before, after⟩
  | endFor => exact closed fun after => .endFor ⟨before, after⟩
  | inWord =>
    rw [show directiveAfter? fuel before .inWord first = none from unclosed]
    exact .fail
  | forEach =>
    rw [show directiveAfter? fuel before .forEach first = none from unclosed]
    exact .fail

private theorem directive_step (ih : Faithful repin fuel) :
    FollowsString repin 5 directive (Aligned repin) (fuel + 1) := by
  intro first second starts
  refine Sim.call ?_
  simp only [directive_succ]
  obtain ⟨same, behind⟩ := directiveStart_aligned starts
  have related := directiveWord?_aligned behind
  rw [same]
  cases found : directiveWord? (directiveStart first).2 with
  | none => exact .fail
  | some pair =>
    rw [found] at related
    cases found' : directiveWord? (directiveStart second).2 with
    | none => rw [found'] at related; cases related
    | some pair' =>
      obtain ⟨word, rest⟩ := pair
      obtain ⟨word', rest'⟩ := pair'
      rw [found'] at related
      obtain ⟨rfl, starts⟩ : word = word' ∧ Aligned repin rest rest' := by
        cases related with
        | some here => exact here
      have short := Nat.le_trans (length_le_of_directiveWord? found')
        (length_directiveStart_le second)
      exact (directiveAfter?_starts ih _ word starts).weaken (by omega) (by omega)

private theorem ahead?_ref (text : List Char) :
    ahead? .operand (Source.refKey ++ text) = some ⟨[], .name "ref", '=' :: text⟩ := by
  have unbroken : break? ((Source.refKey ++ text).dropWhile isGap) = none := rfl
  rw [ahead?_eq, skipBreaks_nil unbroken]
  rfl

private theorem ahead?_assign {c : Char} (text : List Char)
    (pinned : isPinChar c = true) :
    ahead? .anything ('=' :: c :: text) = some ⟨[], .symbol .assign, c :: text⟩ := by
  have unbroken : break? (('=' :: c :: text).dropWhile isGap) = none := rfl
  have equal : '=' ≠ c := by
    rintro rfl
    revert pinned
    decide
  have arrow : '>' ≠ c := by
    rintro rfl
    revert pinned
    decide
  have token : token? .anything ('=' :: c :: text) = some (.symbol .assign, c :: text) := by
    simp [token?, startsName, heredoc?, escapedText?, number?, decimal?, integer?, negatedDigits,
      symbol?, Symbol.all, Symbol.text, after?, spanWhile, equal, arrow]
  rw [ahead?_eq, skipBreaks_nil unbroken]
  show (token? .anything ('=' :: c :: text)).map _ = _
  rw [token]
  rfl

private theorem expression_ref {c : Char} {text : List Char} {found : Expr × Ahead}
    (pinned : isPinChar c = true)
    (read : expression fuel ⟨[], .name "ref", '=' :: c :: text⟩ = some found) :
    found.2.token = .symbol .assign := by
  have assign := ahead?_assign text pinned
  have atom {fuel : Nat} {found : Expr × Ahead}
      (read : atom fuel ⟨[], .name "ref", '=' :: c :: text⟩ = some found) :
      found = (.reference "ref", ⟨[], .symbol .assign, c :: text⟩) := by
    rcases fuel with _ | _ | fuel
    · simp [Hcl.atom] at read
    · simp [Hcl.atom, Hcl.named, assign, Ahead.broken] at read
    · simp [Hcl.atom, Hcl.named, assign, Ahead.broken, Ahead.isSymbol] at read
      exact read.symm
  have steps {fuel : Nat} {subject : Expr} {found : Expr × Ahead}
      (read : steps fuel subject ⟨[], .symbol .assign, c :: text⟩ = some found) :
      found = (subject, ⟨[], .symbol .assign, c :: text⟩) := by
    cases fuel with
    | zero => simp [Hcl.steps] at read
    | succ fuel =>
      simp [Hcl.steps, Ahead.isSymbol] at read
      exact read.symm
  have operand {fuel : Nat} {found : Expr × Ahead}
      (read : operand fuel ⟨[], .name "ref", '=' :: c :: text⟩ = some found) :
      found.2 = ⟨[], .symbol .assign, c :: text⟩ := by
    rcases fuel with _ | _ | fuel
    · simp [Hcl.operand] at read
    · simp [Hcl.operand, Hcl.term, Ahead.isSymbol] at read
    · simp only [Hcl.operand, Hcl.term, Ahead.isSymbol] at read
      obtain ⟨subject, here, read⟩ := Option.bind_eq_some_iff.mp read
      rw [atom here] at read
      rw [steps read]
  have operators {fuel limit : Nat} {found : List (Symbol × Expr) × Ahead}
      (read : operators fuel limit ⟨[], .symbol .assign, c :: text⟩ = some found) :
      found.2 = ⟨[], .symbol .assign, c :: text⟩ := by
    cases fuel with
    | zero => simp [Hcl.operators] at read
    | succ fuel =>
      rw [← Option.some.inj read]
  cases fuel with
  | zero => simp [Hcl.expression] at read
  | succ fuel =>
    simp only [Hcl.expression] at read
    obtain ⟨⟨first, ahead⟩, here, read⟩ := Option.bind_eq_some_iff.mp read
    obtain rfl : ahead = _ := operand here
    obtain ⟨⟨rest, ahead⟩, here, read⟩ := Option.bind_eq_some_iff.mp read
    obtain rfl : ahead = _ := operators here
    rw [← Option.some.inj read]

private theorem no_colon {next after : Ahead} {yes : Expr}
    (begun : ahead? .operand (repin.beyond repin.old) = some next)
    (read : expression fuel next.unbroken = some (yes, after)) (expected : Expectation) :
    after.unbroken.afterSymbol? .colon expected = none := by
  obtain ⟨c, more, version⟩ := List.exists_cons_of_ne_nil repin.old_nonempty
  have pinned : isPinChar c = true := repin.old_pinned c (by simp [version])
  rw [beyond, ahead?_ref, version] at begun
  obtain rfl := Option.some.inj begun
  have token : after.token = .symbol .assign := expression_ref pinned read
  simp [Ahead.afterSymbol?, Ahead.isSymbol, Ahead.unbroken, token]

private theorem expression_step (ih : Faithful repin fuel) :
    Follows repin 4 expression (fuel + 1) := by
  intro first second aligned
  refine Sim.call ?_
  simp only [Hcl.expression]
  refine .bind (ih.operand first second aligned) (by omega) Nat.le.refl ?_
  rintro ⟨start, ahead⟩ ⟨start', ahead'⟩ ⟨starts, aligned⟩ (short : ahead'.size < second.size + 1)
  refine .bind (ih.operators _ ahead ahead' aligned) (by omega) Nat.le.refl ?_
  rintro ⟨links, after⟩ ⟨links', after'⟩ ⟨alikes, aligned⟩ (short' : after'.size < ahead'.size + 1)
  have chain : AlikeExpr repin (if links.isEmpty then start else .chain start links)
      (if links'.isEmpty then start' else .chain start' links') := by
    cases alikes with
    | nil => exact starts
    | cons here rest => exact .chain starts (.cons here rest)
  refine .ite (aligned.isSymbol .question) (fun here => ?_) fun _ =>
    .pure ⟨chain, aligned⟩ (Nat.lt_succ_self _)
  have size : after'.size = after'.rest.length + 1 := size_of_isSymbol here
  rcases aligned.rest with behind | ⟨_, begun, _⟩
  · refine .bind (.ahead .operand behind) Nat.le.refl (size ▸ Nat.le_succ _) ?_
    rintro next next' aligned (shorter : next'.size < after'.rest.length + 1)
    refine .bind (ih.expression.unbroken aligned) (by omega) Nat.le.refl ?_
    rintro ⟨yes, middle⟩ ⟨yes', middle'⟩ ⟨yeses, aligned⟩ (short'' : middle'.size < next'.size + 1)
    refine .bind (.afterSymbol? .colon .operand aligned.unbroken nofun) Nat.le.refl
      (Nat.le_succ _) ?_
    rintro inside inside' aligned (less : inside'.size < middle'.size)
    refine .bind (ih.expression.unbroken aligned) (by omega) Nat.le.refl ?_
    rintro ⟨no, last⟩ ⟨no', last'⟩ ⟨noes, aligned⟩ _
    exact .pure ⟨.conditional chain yeses noes, aligned⟩ (Nat.lt_succ_self _)
  · rintro value found
    obtain ⟨next, opened, found⟩ := Option.bind_eq_some_iff.mp found
    obtain ⟨⟨yes, middle⟩, read, found⟩ := Option.bind_eq_some_iff.mp found
    obtain ⟨_, colon, _⟩ := Option.bind_eq_some_iff.mp found
    have missed := no_colon (begun ▸ opened) read .operand
    rw [missed] at colon
    cases colon

private theorem faithful_zero (repin : Repin) : Faithful repin 0 where
  expression _ _ _ := .fail
  operators _ _ _ _ := .fail
  operand _ _ _ := .fail
  term _ _ _ := .fail
  steps _ _ _ _ _ _ := .fail
  atom _ _ _ := .fail
  named _ _ _ _ := .fail
  call _ _ _ _ := .fail
  arguments _ _ _ := .fail
  list _ _ _ := .fail
  items _ _ _ := .fail
  object _ _ _ := .fail
  fields _ _ _ := .fail
  field _ _ _ _ _ _ := .fail
  forIntroduction _ _ _ := .fail
  forCondition _ _ _ := .fail
  string _ _ _ := .fail
  parts _ _ _ := .fail
  directive _ _ _ := .fail

/-- What the parser reads from a text before a version changes, it reads alike afterwards. -/
theorem faithful (fuel : Nat) : Faithful repin fuel := by
  induction fuel using Nat.strongRecOn with
  | _ fuel ih =>
    cases fuel with
    | zero => exact faithful_zero repin
    | succ fuel =>
      have here := ih fuel (Nat.lt_succ_self _)
      exact {
        expression := expression_step here
        operators := operators_step here
        operand := operand_step here
        term := term_step here
        steps := steps_step here
        atom := atom_step here
        named := named_step here
        call := call_step here
        arguments := arguments_step here
        list := list_step here
        items := items_step here
        object := object_step here
        fields := fields_step here
        field := field_step here
        forIntroduction := forIntroduction_step here
        forCondition := forCondition_step here
        string := string_step here
        parts := parts_step here fun fuel' short => (ih fuel' (Nat.lt_succ_of_le short)).parts
        directive := directive_step here }

end InfraPins.Repin
