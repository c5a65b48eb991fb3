import InfraPins.Proofs.Hcl.Blocks
import InfraPins.Proofs.Hcl.Suffix

/-! Where the statements of a document stand. The reader goes over a document with the place of each
statement kept; without the places it gives what the parser gives, and at its place the word of each
statement stands in the text, behind everything of the statements before it. -/

namespace InfraPins.Hcl

open Text

/-- A statement with the text behind its word. -/
structure Placed where
  statement : Statement
  behind : List Char

/-- The text from the word of a statement on. -/
def Placed.text (placed : Placed) : List Char :=
  placed.statement.word.toList ++ placed.behind

/-- The statements of a body with their places, and the token that ends it. -/
def statementsAt : Nat → Ahead → Option (List Placed × Ahead)
  | 0, _ => none
  | fuel + 1, ahead =>
    match ahead.token.statementWord? with
    | none => some ([], ahead.unbroken)
    | some name => do
      let (found, next) ← statement fuel name (← ahead? .anything ahead.rest)
      let (more, next) ← statementsAt fuel next
      return (⟨found, ahead.rest⟩ :: more, next)

/-- The statements of a document with their places. -/
def placements (text : String) : Option (List Placed) := do
  let characters := text.toList ++ ['\n']
  let (placed, ahead) ← statementsAt (16 * characters.length + 16) (← ahead? .anything characters)
  if ahead.token == .finish then some placed else none

variable {text : List Char} {fuel : Nat} {ahead next : Ahead} {placed : List Placed}

theorem statements_eq (fuel : Nat) (ahead : Ahead) : statements fuel ahead =
    (statementsAt fuel ahead).map fun read => (read.1.map Placed.statement, read.2) := by
  induction fuel generalizing ahead with
  | zero => rfl
  | succ fuel ih =>
    simp only [statements, statementsAt]
    cases ahead.token.statementWord? with
    | none => rfl
    | some name =>
      simp only [Option.map_eq_bind, Option.bind_eq_bind, Option.bind_assoc]
      refine Option.bind_congr fun first _ => Option.bind_congr fun found _ => ?_
      rw [ih]
      cases statementsAt fuel found.2 <;> rfl

theorem document?_eq (text : String) :
    document? text = (placements text).map (List.map Placed.statement) := by
  simp only [document?, placements, Option.map_eq_bind, Option.bind_eq_bind, Option.bind_assoc]
  refine Option.bind_congr fun first _ => ?_
  rw [statements_eq]
  cases statementsAt _ first with
  | none => rfl
  | some read =>
    simp only [Option.map_some, Option.bind_some]
    split <;> rfl

theorem word_of_statement {name : String} {found : Statement}
    (read : statement fuel name ahead = some (found, next)) : found.word = name := by
  cases fuel with
  | zero => cases read
  | succ fuel =>
    simp only [statement] at read
    split at read
    · obtain ⟨_, _, read⟩ := Option.bind_eq_some_iff.mp read
      obtain ⟨_, _, read⟩ := Option.bind_eq_some_iff.mp read
      obtain ⟨rfl, _⟩ := Prod.mk.inj (Option.some.inj read)
      rfl
    · obtain ⟨_, _, read⟩ := Option.bind_eq_some_iff.mp read
      obtain ⟨_, _, read⟩ := Option.bind_eq_some_iff.mp read
      obtain ⟨_, _, read⟩ := Option.bind_eq_some_iff.mp read
      obtain ⟨_, _, read⟩ := Option.bind_eq_some_iff.mp read
      obtain ⟨rfl, _⟩ := Prod.mk.inj (Option.some.inj read)
      rfl

/-- Statements that stand in a text one behind another. -/
def InOrder (text : List Char) (placed : List Placed) : Prop :=
  (∀ statement ∈ placed, statement.text <:+ text) ∧
    placed.Pairwise fun first second => second.text <:+ first.behind

theorem InOrder.cons {first : Placed} (here : first.text <:+ text)
    (others : InOrder first.behind placed) : InOrder text (first :: placed) := by
  have behind : first.behind <:+ text := (List.suffix_append _ _).trans here
  refine ⟨?_, List.pairwise_cons.mpr ⟨others.1, others.2⟩⟩
  intro statement member
  rcases List.mem_cons.mp member with rfl | member
  · exact here
  · exact (others.1 statement member).trans behind

/-- The statements of a body stand in the text that its first token stands in. -/
theorem inOrder_of_statementsAt (stands : ahead.StandsIn text)
    (read : statementsAt fuel ahead = some (placed, next)) : InOrder text placed := by
  induction fuel generalizing text ahead next placed with
  | zero => cases read
  | succ fuel ih =>
    simp only [statementsAt] at read
    split at read
    · obtain ⟨rfl, _⟩ := Prod.mk.inj (Option.some.inj read)
      exact ⟨nofun, .nil⟩
    · rename_i name word
      obtain ⟨start, begins, read⟩ := Option.bind_eq_some_iff.mp read
      obtain ⟨⟨found, between⟩, here, read⟩ := Option.bind_eq_some_iff.mp read
      obtain ⟨⟨more, last⟩, others, read⟩ := Option.bind_eq_some_iff.mp read
      obtain ⟨rfl, _⟩ := Prod.mk.inj (Option.some.inj read)
      -- The statements that follow are read from the text behind the word of this one.
      have started := gives_ahead? .anything ahead.rest (List.suffix_refl _) start begins
      have left := (orderlyBody ahead.rest fuel).statement name start started _ here
      refine InOrder.cons ?_ (ih left others)
      rw [Placed.text, word_of_statement here]
      exact stands.word name word

/-- The statements of a document stand in its text, each behind those before it. -/
theorem inOrder_of_placements {text : String} (read : placements text = some placed) :
    InOrder (text.toList ++ ['\n']) placed := by
  obtain ⟨start, begins, read⟩ := Option.bind_eq_some_iff.mp read
  obtain ⟨⟨found, last⟩, here, read⟩ := Option.bind_eq_some_iff.mp read
  have started := gives_ahead? .anything _ (List.suffix_refl _) start begins
  dsimp only at read
  split at read
  · obtain rfl := Option.some.inj read
    exact inOrder_of_statementsAt started here
  · cases read

end InfraPins.Hcl
