import InfraPins.Proofs.Repin.Template

namespace InfraPins.Repin

open Text Hcl

variable {repin : Repin}

/-- Things that have a form before and a form after. -/
class Alike (α : Type) where
  alike : Repin → α → α → Prop

/-- Things that are read and leave text to read. -/
class Reading (α : Type) extends Alike α where
  left : α → Nat

export Alike (alike)
export Reading (left)

instance : Alike Bool := ⟨fun _ => Eq⟩
instance : Alike String := ⟨fun _ => Eq⟩
instance : Alike (List String) := ⟨fun _ => Eq⟩
instance : Alike Expr := ⟨AlikeExpr⟩
instance : Alike Part := ⟨AlikePart⟩
instance : Alike (List Expr) := ⟨fun repin => List.Forall₂ (AlikeExpr repin)⟩
instance : Alike (List (Expr × Expr)) := ⟨fun repin => List.Forall₂ (AlikeField repin)⟩
instance : Alike (List (Symbol × Expr)) := ⟨fun repin => List.Forall₂ (AlikeLink repin)⟩
instance : Alike (List Part) := ⟨AlikeParts⟩
instance : Alike (Option Expr) := ⟨fun repin => Option.Rel (AlikeExpr repin)⟩

instance : Reading Ahead where
  alike := AlignedAhead
  left := Ahead.size

instance : Reading (List Char) where
  alike := Aligned
  left := List.length

instance {α β : Type} [Alike α] [Reading β] : Reading (α × β) where
  alike repin first second := alike repin first.1 second.1 ∧ alike repin first.2 second.2
  left pair := left pair.2

/-- A reader before and after: what the first gives, the second gives alike. It leaves less than a
limit, and its fuel is paid by what it takes. -/
def Sim {α : Type} [Reading α] (repin : Repin) (cost limit : Nat) (first : Option α)
    (second : Nat → Option α) : Prop :=
  ∀ value, first = some value → ∃ value', alike repin value value' ∧ left value' < limit ∧
    ∀ fuel, cost ≤ fuel + 16 * left value' → second fuel = some value'

namespace Sim

variable {α β : Type} [Reading α] [Reading β] {cost inner limit : Nat}

theorem fail {second : Nat → Option α} : Sim repin cost limit none second :=
  nofun

theorem pure {value value' : α} (same : alike repin value value') (short : left value' < limit) :
    Sim repin cost limit (some value) fun _ => some value' := by
  intro other found
  obtain rfl := Option.some.inj found
  exact ⟨value', same, short, fun _ _ => rfl⟩

theorem weaken {cost' : Nat} {first : Option α} {second : Nat → Option α}
    (sim : Sim repin cost' inner first second) (enough : cost' ≤ cost) (short : inner ≤ limit) :
    Sim repin cost limit first second := by
  intro value found
  obtain ⟨value', same, less, runs⟩ := sim value found
  exact ⟨value', same, Nat.lt_of_lt_of_le less short,
    fun fuel paid => runs fuel (Nat.le_trans enough paid)⟩

/-- A reader that goes on from what another one reads. -/
theorem bindRead {cost' : Nat} {first : Option α} {second : Nat → Option α} {next : α → Option β}
    {next' : Nat → α → Option β} (here : Sim repin cost' inner first second)
    (enough : cost' ≤ cost) (short : inner ≤ limit)
    (onward : ∀ value value', alike repin value value' → left value' < inner →
      first = some value → (∃ fuel, second fuel = some value') →
      Sim repin cost (left value' + 1) (next value) fun fuel => next' fuel value') :
    Sim repin cost limit (first >>= next) fun fuel => second fuel >>= next' fuel := by
  intro last found
  obtain ⟨value, read, found⟩ := Option.bind_eq_some_iff.mp found
  obtain ⟨value', same, less, runs⟩ := here value read
  have finished : ∃ fuel, second fuel = some value' := ⟨cost', runs cost' (Nat.le_add_right ..)⟩
  obtain ⟨last', alikes, shorter, rest⟩ := onward value value' same less read finished last found
  refine ⟨last', alikes, by omega, fun fuel paid => ?_⟩
  have through : second fuel = some value' := runs fuel (by omega)
  show (second fuel).bind (next' fuel) = some last'
  rw [through]
  exact rest fuel paid

theorem bind {cost' : Nat} {first : Option α} {second : Nat → Option α} {next : α → Option β}
    {next' : Nat → α → Option β} (here : Sim repin cost' inner first second)
    (enough : cost' ≤ cost) (short : inner ≤ limit)
    (onward : ∀ value value', alike repin value value' → left value' < inner →
      Sim repin cost (left value' + 1) (next value) fun fuel => next' fuel value') :
    Sim repin cost limit (first >>= next) fun fuel => second fuel >>= next' fuel :=
  here.bindRead enough short fun value value' same less _ _ => onward value value' same less

/-- A reader that passes on what another one reads, made into something else. -/
theorem map {cost' : Nat} {first : Option α} {second : Nat → Option α} {change change' : α → β}
    (here : Sim repin cost' inner first second) (enough : cost' ≤ cost) (short : inner ≤ limit)
    (onward : ∀ value value', alike repin value value' → left value' < inner →
      alike repin (change value) (change' value') ∧ left (change' value') = left value') :
    Sim repin cost limit (first.map change) fun fuel => (second fuel).map change' := by
  intro last found
  obtain ⟨value, read, rfl⟩ := Option.map_eq_some_iff.mp found
  obtain ⟨value', same, less, runs⟩ := here value read
  obtain ⟨alikes, kept⟩ := onward value value' same less
  refine ⟨_, alikes, by omega, fun fuel paid => ?_⟩
  have through : second fuel = some value' := runs fuel (by omega)
  show (second fuel).map change' = _
  rw [through]
  rfl

theorem ite {choice choice' : Bool} {first third : Option α} {second fourth : Nat → Option α}
    (same : choice = choice') (yes : choice' = true → Sim repin cost limit first second)
    (no : choice' = false → Sim repin cost limit third fourth) :
    Sim repin cost limit (if choice then first else third)
      fun fuel => if choice' then second fuel else fourth fuel := by
  subst same
  cases choice with
  | true => exact yes rfl
  | false => exact no rfl

/-- A call costs one unit of fuel. -/
theorem call {first : Option α} {second : Nat → Option α} {size rank : Nat}
    (inside : Sim repin (16 * size + rank) (size + 1) first fun fuel => second (fuel + 1)) :
    Sim repin (16 * size + (rank + 1)) (size + 1) first second := by
  intro value found
  obtain ⟨value', same, less, runs⟩ := inside value found
  refine ⟨value', same, less, fun fuel paid => ?_⟩
  cases fuel with
  | zero => omega
  | succ fuel => exact runs fuel (by omega)

theorem of_rel {first second : Option α} (related : Option.Rel (alike repin) first second)
    (short : ∀ value, second = some value → left value < limit) :
    Sim repin cost limit first fun _ => second := by
  cases related with
  | none => exact fail
  | some same => exact pure same (short _ rfl)

end Sim

theorem RenewedToken.beq {token token' : Token} (renewed : RenewedToken repin token token')
    (other : Token) (cooked : ∀ text, other ≠ .heredoc text ∧ other ≠ .escapedText text) :
    (token == other) = (token' == other) := by
  cases renewed with
  | same => rfl
  | heredoc =>
    rw [beq_eq_false_iff_ne.mpr (cooked _).1.symm, beq_eq_false_iff_ne.mpr (cooked _).1.symm]
  | escapedText =>
    rw [beq_eq_false_iff_ne.mpr (cooked _).2.symm, beq_eq_false_iff_ne.mpr (cooked _).2.symm]

theorem token_of_isSymbol {ahead : Ahead} {symbol : Symbol}
    (here : ahead.isSymbol symbol = true) : ahead.token = .symbol symbol := by
  simp_all [Ahead.isSymbol]

theorem token_of_isSymbol_unbroken {ahead : Ahead} {symbol : Symbol}
    (here : ahead.unbroken.isSymbol symbol = true) : ahead.token = .symbol symbol := by
  simp_all [Ahead.isSymbol, Ahead.unbroken]

theorem size_of_isSymbol {ahead : Ahead} {symbol : Symbol}
    (here : ahead.isSymbol symbol = true) : ahead.size = ahead.rest.length + 1 := by
  simp [Ahead.size, token_of_isSymbol here]

namespace AlignedAhead

variable {first second : Ahead}

theorem broken (aligned : AlignedAhead repin first second) : first.broken = second.broken := by
  have sizes := aligned.breaks.length_eq
  unfold Ahead.broken
  cases gaps : first.breaks <;> cases gaps' : second.breaks <;> simp_all

theorem unbroken (aligned : AlignedAhead repin first second) :
    AlignedAhead repin first.unbroken second.unbroken :=
  ⟨.nil, aligned.token, aligned.rest, aligned.quoted⟩

theorem isSymbol (aligned : AlignedAhead repin first second) (symbol : Symbol) :
    first.isSymbol symbol = second.isSymbol symbol := by
  rw [Ahead.isSymbol, Ahead.isSymbol, aligned.broken, aligned.token.beq (.symbol symbol) fun _ => ⟨nofun, nofun⟩]

theorem isKeyword (aligned : AlignedAhead repin first second) (word : Keyword) :
    (first.token == .keyword word) = (second.token == .keyword word) :=
  aligned.token.beq (.keyword word) fun _ => ⟨nofun, nofun⟩

/-- Behind every token but a question mark the texts stay aligned. -/
theorem behind (aligned : AlignedAhead repin first second)
    (known : second.token ≠ .symbol .question) : Aligned repin first.rest second.rest := by
  rcases aligned.rest with here | ⟨question, _⟩
  · exact here
  · have token := aligned.token
    rw [question] at token
    generalize second.token = token' at token known
    cases token
    exact absurd rfl known

end AlignedAhead

namespace Sim

variable {α : Type} [Reading α] {cost limit : Nat} {first second : Ahead}

theorem ahead {first second : List Char} (expected : Expectation)
    (aligned : Aligned repin first second) :
    Sim repin cost (second.length + 1) (ahead? expected first) fun _ => ahead? expected second :=
  of_rel (ahead?_aligned expected aligned) fun _ found =>
    Nat.lt_succ_of_le (size_le_of_ahead? found)

theorem past {token : Token} (expected : Expectation)
    (aligned : AlignedAhead repin first second) (here : second.token = token)
    (inside : token ≠ .finish) (known : token ≠ .symbol .question) :
    Sim repin cost second.size (ahead? expected first.rest)
      fun _ => ahead? expected second.rest := by
  subst here
  have sim := @ahead repin cost _ _ expected (aligned.behind known)
  rwa [show second.size = second.rest.length + 1 from if_neg inside]

/-- The token behind a symbol. -/
theorem pastSymbol {symbol : Symbol} (expected : Expectation)
    (aligned : AlignedAhead repin first second) (here : second.isSymbol symbol = true)
    (known : symbol ≠ .question) :
    Sim repin cost second.size (ahead? expected first.rest)
      fun _ => ahead? expected second.rest :=
  past expected aligned (token_of_isSymbol here) nofun fun same =>
    known (Token.symbol.inj same)

theorem afterSymbol? (symbol : Symbol) (expected : Expectation)
    (aligned : AlignedAhead repin first second) (known : symbol ≠ .question) :
    Sim repin cost second.size (first.afterSymbol? symbol expected)
      fun _ => second.afterSymbol? symbol expected :=
  ite (aligned.isSymbol symbol) (fun here => pastSymbol expected aligned here known)
    fun _ => fail

/-- Whether a keyword is here is the same before and after. -/
theorem afterKeyword?_rel (word : Keyword) (expected : Expectation)
    (aligned : AlignedAhead repin first second) :
    Option.Rel (fun ahead ahead' => AlignedAhead repin ahead ahead' ∧ ahead'.size < second.size)
      (Hcl.afterKeyword? first word expected) (Hcl.afterKeyword? second word expected) := by
  unfold Hcl.afterKeyword?
  rw [aligned.broken, aligned.isKeyword]
  split
  · rename_i here
    have token : second.token = .keyword word := by simp_all
    have size : second.size = second.rest.length + 1 := by simp [Ahead.size, token]
    refine rel_and (ahead?_aligned expected (aligned.behind (by simp [token]))) ?_
    intro ahead found
    have short := size_le_of_ahead? found
    omega
  · exact .none

theorem afterKeyword? (word : Keyword) (expected : Expectation)
    (aligned : AlignedAhead repin first second) :
    Sim repin cost second.size (afterKeyword? first word expected)
      fun _ => afterKeyword? second word expected := by
  have related := afterKeyword?_rel word expected aligned
  generalize Hcl.afterKeyword? first word expected = ahead at related ⊢
  generalize Hcl.afterKeyword? second word expected = ahead' at related ⊢
  cases related with
  | none => exact fail
  | some here => exact pure here.1 here.2

theorem nameHere? (expected : Expectation)
    (aligned : AlignedAhead repin first second) :
    Sim repin cost second.size (nameHere? first expected) fun _ => nameHere? second expected := by
  unfold Hcl.nameHere?
  rw [aligned.broken]
  cases second.broken with
  | true => exact fail
  | false =>
    have tokens := aligned.token
    have next (name : String) (here : second.token = .name name) :=
      @past repin cost first second (.name name) expected aligned here nofun nofun
    generalize first.token = token at tokens ⊢
    generalize second.token = token' at tokens next ⊢
    cases tokens with
    | @same token =>
      cases token with
      | name name => exact map (next name rfl) Nat.le.refl Nat.le.refl fun _ _ same _ => ⟨⟨rfl, same⟩, rfl⟩
      | _ => exact fail
    | _ => exact fail

/-- A token that may be taken in. -/
theorem optional {choice choice' : Bool} {next : Ahead → Option α} {next' : Nat → Ahead → Option α}
    (expected : Expectation)
    (aligned : AlignedAhead repin first second) (same : choice = choice')
    (known : choice' = true → ∃ symbol, symbol ≠ .question ∧ second.token = .symbol symbol)
    (onward : ∀ ahead ahead', AlignedAhead repin ahead ahead' → ahead'.size < second.size + 1 →
      Sim repin cost (ahead'.size + 1) (next ahead) fun fuel => next' fuel ahead') :
    Sim repin cost (second.size + 1)
      (if choice then ahead? expected first.rest >>= next else some first >>= next)
      fun fuel => if choice' then ahead? expected second.rest >>= next' fuel
        else some second >>= next' fuel := by
  refine .ite same (fun here => ?_) fun _ => onward _ _ aligned (Nat.lt_succ_self _)
  obtain ⟨symbol, other, token⟩ := known here
  refine .bind (.past expected aligned token nofun fun same => other (Token.symbol.inj same))
    Nat.le.refl (Nat.le_succ _) ?_
  rintro ahead ahead' aligned (short : ahead'.size < second.size)
  exact onward ahead ahead' aligned (Nat.lt_succ_of_lt short)

theorem binders? (aligned : AlignedAhead repin first second) :
    Sim repin cost second.size (binders? first) fun _ => binders? second := by
  refine bind (nameHere? .anything aligned) Nat.le.refl Nat.le.refl ?_
  rintro ⟨name, ahead⟩ ⟨_, ahead'⟩ ⟨rfl, aligned⟩ _
  refine ite (aligned.isSymbol .comma) (fun here => ?_) fun _ => pure ⟨rfl, aligned⟩ (Nat.lt_succ_self _)
  refine bind (pastSymbol .binder aligned here nofun) Nat.le.refl (Nat.le_succ _) ?_
  intro ahead ahead' aligned _
  refine bind (nameHere? .anything aligned) Nat.le.refl (Nat.le_succ _) ?_
  rintro ⟨other, ahead⟩ ⟨_, ahead'⟩ ⟨rfl, aligned⟩ _
  exact pure ⟨rfl, aligned⟩ (Nat.lt_succ_self _)

theorem directiveEnd? (aligned : AlignedAhead repin first second) :
    Sim repin cost second.size (directiveEnd? first) fun _ => directiveEnd? second := by
  have closed {ahead ahead' : Ahead} (strip : Bool) (aligned : AlignedAhead repin ahead ahead')
      (here : ahead'.isSymbol .closeBrace = true) :
      Sim repin cost ahead'.size (some (strip, ahead.rest)) fun _ => some (strip, ahead'.rest) := by
    have known : ahead'.token ≠ .symbol .question := by
      intro same
      simp [Hcl.Ahead.isSymbol, same] at here
    refine pure ⟨rfl, aligned.behind known⟩ ?_
    rw [size_of_isSymbol here]
    exact Nat.lt_succ_self _
  refine ite (aligned.isSymbol .strip) (fun here => ?_) fun _ =>
    ite (aligned.isSymbol .closeBrace) (closed false aligned) fun _ => fail
  refine bind (pastSymbol .anything aligned here nofun) Nat.le.refl Nat.le.refl ?_
  intro ahead ahead' aligned _
  refine ite (aligned.isSymbol .closeBrace) (fun here => ?_) fun _ => fail
  exact (closed true aligned here).weaken Nat.le.refl (Nat.le_succ _)

end Sim

end InfraPins.Repin
