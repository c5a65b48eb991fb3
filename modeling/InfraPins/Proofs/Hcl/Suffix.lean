import InfraPins.Proofs.Hcl.Plain

/-! What the parser leaves to be read. Every function of the parser goes on with an end of the text that
it is given, and where the word of a statement is ahead, that word stands right before what is behind it.
Fuel bounds the nesting of calls, so the functions are taken together, by induction on it. -/

namespace InfraPins.Hcl

open Text

variable {α β : Type} {text rest : List Char} {fuel : Nat}

/-- A token ahead in a text: an end of the text is behind it, and the word of a statement stands right
before that end. -/
structure Ahead.StandsIn (text : List Char) (ahead : Ahead) : Prop where
  rest : ahead.rest <:+ text
  word : ∀ word, ahead.token.statementWord? = some word → word.toList ++ ahead.rest <:+ text

/-- Results that leave something of a text to be read. -/
class Leaves (α : Type) where
  leaves : List Char → α → Prop

instance : Leaves Ahead := ⟨Ahead.StandsIn⟩
instance : Leaves (List Char) := ⟨fun text rest => rest <:+ text⟩
instance [Leaves β] : Leaves (α × β) := ⟨fun text pair => Leaves.leaves text pair.2⟩

/-- What is read, if anything, leaves an end of the text. -/
def Gives [Leaves α] (text : List Char) (read : Option α) : Prop :=
  ∀ value, read = some value → Leaves.leaves text value

/-- A reader goes on with an end of the text where it starts with one. -/
def Keeps [Leaves α] [Leaves β] (text : List Char) (read : α → Option β) : Prop :=
  ∀ start, Leaves.leaves text start → Gives text (read start)

namespace Gives

variable [Leaves α] [Leaves β] {read : Option α}

theorem none : Gives text (Option.none : Option α) :=
  nofun

theorem some {value : α} (leaves : Leaves.leaves text value) : Gives text (Option.some value) := by
  rintro _ ⟨⟩
  exact leaves

theorem bind {next : α → Option β} (first : Gives text read)
    (onward : ∀ value, Leaves.leaves text value → Gives text (next value)) :
    Gives text (read >>= next) := by
  intro value found
  obtain ⟨middle, here, there⟩ := Option.bind_eq_some_iff.mp found
  exact onward middle (first middle here) value there

theorem map {next : α → β} (first : Gives text read)
    (onward : ∀ value, Leaves.leaves text value → Leaves.leaves text (next value)) :
    Gives text (read.map next) := by
  intro value found
  obtain ⟨middle, here, rfl⟩ := Option.map_eq_some_iff.mp found
  exact onward middle (first middle here)

theorem ite {condition : Prop} [Decidable condition] {yes no : Option α}
    (first : condition → Gives text yes) (second : ¬condition → Gives text no) :
    Gives text (if condition then yes else no) := by
  by_cases here : condition
  · rw [if_pos here]
    exact first here
  · rw [if_neg here]
    exact second here

/-- Two ways of reading on that meet again. -/
theorem ite_bind {condition : Prop} [Decidable condition] {yes no : Option α} {next : α → Option β}
    (first : Gives text yes) (second : Gives text no)
    (onward : ∀ value, Leaves.leaves text value → Gives text (next value)) :
    Gives text (if condition then yes >>= next else no >>= next) :=
  .ite (fun _ => first.bind onward) fun _ => second.bind onward

end Gives

theorem Ahead.StandsIn.unbroken {ahead : Ahead} (stands : ahead.StandsIn text) :
    ahead.unbroken.StandsIn text :=
  ⟨stands.rest, stands.word⟩

theorem eq_of_statementWord? {expected : Expectation} {token : Token} {word : String}
    (found : token? expected text = some (token, rest)) (here : token.statementWord? = some word) :
    text = word.toList ++ rest := by
  unfold token? at found
  split at found
  · obtain ⟨rfl, rfl⟩ := Prod.mk.inj (Option.some.inj found)
    cases here
  · split at found
    · obtain ⟨rfl, rfl⟩ := Prod.mk.inj (Option.some.inj found)
      rw [statementWord?_wordToken] at here
      obtain rfl := Option.some.inj here
      simp [List.takeWhile_append_dropWhile]
    · split at found
      · rename_i heredoc
        obtain rfl := Option.some.inj found
        obtain ⟨_, _, _, _, rfl⟩ := eq_of_heredoc? heredoc
        cases here
      · split at found
        · rename_i escaped
          obtain rfl := Option.some.inj found
          obtain ⟨_, _, _, rfl⟩ := eq_of_escapedText? escaped
          cases here
        · split at found
          · rename_i numeric
            obtain rfl := Option.some.inj found
            obtain ⟨_, _, rfl | rfl⟩ := eq_of_number? numeric <;> cases here
          · obtain ⟨symbol, rfl, _⟩ := eq_of_symbol? found
            cases here

theorem gives_ahead? (expected : Expectation) : Keeps text (ahead? expected) := by
  intro start (inside : start <:+ text) ahead found
  obtain ⟨expected, token⟩ := eq_of_ahead? found
  have within : (skipBreaks start).2 <:+ text := (suffix_skipBreaks start).trans inside
  refine ⟨(suffix_of_token? token).1.trans within, fun word here => ?_⟩
  rw [← eq_of_statementWord? token here]
  exact within

theorem gives_afterSymbol? {ahead : Ahead} (stands : ahead.StandsIn text) (symbol : Symbol)
    (expected : Expectation) : Gives text (ahead.afterSymbol? symbol expected) := by
  unfold Ahead.afterSymbol?
  exact .ite (fun _ => gives_ahead? expected _ stands.rest) fun _ => .none

theorem gives_afterKeyword? {ahead : Ahead} (stands : ahead.StandsIn text) (word : Keyword)
    (expected : Expectation) : Gives text (afterKeyword? ahead word expected) := by
  unfold afterKeyword?
  exact .ite (fun _ => gives_ahead? expected _ stands.rest) fun _ => .none

theorem gives_nameHere? {ahead : Ahead} (stands : ahead.StandsIn text) (expected : Expectation) :
    Gives text (nameHere? ahead expected) := by
  unfold nameHere?
  split
  · exact (gives_ahead? expected _ stands.rest).map fun _ leaves => leaves
  · exact .none

theorem keeps_binders? : Keeps text binders? := by
  intro ahead stands
  unfold binders?
  refine (gives_nameHere? stands .anything).bind ?_
  rintro ⟨first, ahead⟩ (stands : ahead.StandsIn text)
  refine .ite (fun _ => ?_) fun _ => .some stands
  refine (gives_ahead? .binder _ stands.rest).bind fun ahead stands => ?_
  refine (gives_nameHere? stands .anything).bind ?_
  rintro ⟨second, ahead⟩ (stands : ahead.StandsIn text)
  exact .some stands

theorem keeps_directiveEnd? : Keeps text directiveEnd? := by
  intro ahead (stands : ahead.StandsIn text)
  unfold directiveEnd?
  refine .ite (fun _ => ?_) fun _ => .ite (fun _ => .some stands.rest) fun _ => .none
  refine (gives_ahead? .anything _ stands.rest).bind fun ahead (stands : ahead.StandsIn text) => ?_
  exact .ite (fun _ => .some stands.rest) fun _ => .none

/-- The functions that read expressions and strings go on with an end of the text. -/
structure Orderly (text : List Char) (fuel : Nat) : Prop where
  expression : Keeps text (expression fuel)
  operators : ∀ limit, Keeps text (operators fuel limit)
  operand : Keeps text (operand fuel)
  term : Keeps text (term fuel)
  steps : ∀ subject, Keeps text (steps fuel subject)
  atom : Keeps text (atom fuel)
  named : ∀ name, Keeps text (named fuel name)
  call : ∀ path, Keeps text (call fuel path)
  arguments : Keeps text (arguments fuel)
  list : Keeps text (list fuel)
  items : Keeps text (items fuel)
  object : Keeps text (object fuel)
  fields : Keeps text (fields fuel)
  field : ∀ key, Keeps text (field fuel key)
  forIntroduction : Keeps text (forIntroduction fuel)
  forCondition : Keeps text (forCondition fuel)
  string : Keeps text (string fuel)
  parts : Keeps text (parts fuel)
  directive : Keeps text (directive fuel)

private theorem expression_keeps (ih : Orderly text fuel) : Keeps text (expression (fuel + 1)) := by
  intro ahead stands
  simp only [Hcl.expression]
  refine (ih.operand _ stands).bind ?_
  rintro ⟨first, ahead⟩ stands
  refine (ih.operators _ _ stands).bind ?_
  rintro ⟨rest, ahead⟩ (stands : ahead.StandsIn text)
  refine .ite (fun _ => ?_) fun _ => .some stands
  refine (gives_ahead? .operand _ stands.rest).bind fun ahead (stands : ahead.StandsIn text) => ?_
  refine (ih.expression _ stands.unbroken).bind ?_
  rintro ⟨yes, ahead⟩ (stands : ahead.StandsIn text)
  refine (gives_afterSymbol? stands.unbroken .colon .operand).bind
    fun ahead (stands : ahead.StandsIn text) => ?_
  refine (ih.expression _ stands.unbroken).bind ?_
  rintro ⟨no, ahead⟩ stands
  exact .some stands

private theorem operators_keeps (ih : Orderly text fuel) (limit : Nat) :
    Keeps text (operators (fuel + 1) limit) := by
  intro ahead (stands : ahead.StandsIn text)
  simp only [Hcl.operators]
  split
  · split
    · refine .ite (fun _ => .none) fun _ => ?_
      refine (gives_ahead? .operand _ stands.rest).bind fun next (stands : next.StandsIn text) => ?_
      refine (ih.operand _ stands.unbroken).bind ?_
      rintro ⟨right, ahead⟩ (stands : ahead.StandsIn text)
      refine (ih.operators _ _ stands.unbroken).bind ?_
      rintro ⟨rest, ahead⟩ stands
      exact .some stands
    · exact .some stands
  · exact .some stands

private theorem operand_keeps (ih : Orderly text fuel) : Keeps text (operand (fuel + 1)) := by
  intro ahead (stands : ahead.StandsIn text)
  simp only [Hcl.operand]
  refine .ite (fun _ => ?_) fun _ => ih.term _ stands
  refine (gives_ahead? .operand _ stands.rest).bind fun ahead stands => ?_
  refine (ih.term _ stands).bind ?_
  rintro ⟨inner, ahead⟩ stands
  exact .some stands

private theorem term_keeps (ih : Orderly text fuel) : Keeps text (term (fuel + 1)) := by
  intro ahead stands
  simp only [Hcl.term]
  refine (ih.atom _ stands).bind ?_
  rintro ⟨subject, ahead⟩ stands
  exact ih.steps _ _ stands

private theorem steps_keeps (ih : Orderly text fuel) (subject : Expr) :
    Keeps text (steps (fuel + 1) subject) := by
  intro ahead (stands : ahead.StandsIn text)
  simp only [Hcl.steps]
  refine .ite (fun _ => ?member) fun _ => .ite (fun _ => ?eachMember) fun _ =>
    .ite (fun _ => ?each) fun _ => .ite (fun _ => ?index) fun _ => .some stands
  case member =>
    refine (gives_ahead? .member _ stands.rest).bind fun step (stands : step.StandsIn text) => ?_
    refine (gives_ahead? .anything _ stands.rest).bind fun next stands => ?_
    split
    · exact ih.steps _ _ stands
    · exact ih.steps _ _ stands
    · exact ih.steps _ _ stands
    · exact .none
  case eachMember =>
    exact (gives_ahead? .anything _ stands.rest).bind fun ahead stands => ih.steps _ _ stands
  case each =>
    exact (gives_ahead? .anything _ stands.rest).bind fun ahead stands => ih.steps _ _ stands
  case index =>
    refine (gives_ahead? .operand _ stands.rest).bind fun ahead (stands : ahead.StandsIn text) => ?_
    refine (ih.expression _ stands.unbroken).bind ?_
    rintro ⟨key, ahead⟩ (stands : ahead.StandsIn text)
    exact (gives_afterSymbol? stands.unbroken .closeList .anything).bind fun ahead stands =>
      ih.steps _ _ stands

private theorem atom_keeps (ih : Orderly text fuel) : Keeps text (atom (fuel + 1)) := by
  intro ahead (stands : ahead.StandsIn text)
  have next : Gives text (ahead? .anything ahead.rest) := gives_ahead? .anything _ stands.rest
  have behind (value : Expr) : Gives text ((ahead? .anything ahead.rest).map (value, ·)) :=
    next.map fun _ leaves => leaves
  simp only [Hcl.atom]
  refine .ite (fun _ => .none) fun _ => ?_
  split
  · exact behind _
  · exact .ite (fun _ => behind _) fun _ => .none
  · exact behind _
  · exact behind _
  · exact behind _
  · exact next.bind fun ahead stands => ih.named _ _ stands
  · refine (ih.string _ stands.rest).bind ?_
    rintro ⟨parts, rest⟩ inside
    exact (gives_ahead? .anything _ inside).bind fun ahead stands => .some stands
  · refine (gives_ahead? .operand _ stands.rest).bind fun ahead (stands : ahead.StandsIn text) => ?_
    refine (ih.expression _ stands.unbroken).bind ?_
    rintro ⟨inner, ahead⟩ (stands : ahead.StandsIn text)
    exact (gives_afterSymbol? stands.unbroken .closeGroup .anything).bind fun ahead stands =>
      .some stands
  · exact (gives_ahead? .listStart _ stands.rest).bind fun ahead (stands : ahead.StandsIn text) =>
      ih.list _ stands.unbroken
  · exact next.bind fun ahead (stands : ahead.StandsIn text) => ih.object _ stands.unbroken
  · exact .none

private theorem named_keeps (ih : Orderly text fuel) (name : String) :
    Keeps text (named (fuel + 1) name) := by
  intro ahead (stands : ahead.StandsIn text)
  simp only [Hcl.named]
  refine .ite (fun _ => ?call) fun _ => .ite (fun _ => ?spaced) fun _ => .some stands
  case call =>
    exact (gives_ahead? .operand _ stands.rest).bind fun ahead (stands : ahead.StandsIn text) =>
      ih.call _ _ stands.unbroken
  case spaced =>
    refine (gives_ahead? .binder _ stands.rest).bind fun ahead stands => ?_
    refine (gives_nameHere? stands .anything).bind ?_
    rintro ⟨second, ahead⟩ (stands : ahead.StandsIn text)
    refine (gives_afterSymbol? stands .colons .binder).bind fun ahead stands => ?_
    refine (gives_nameHere? stands .anything).bind ?_
    rintro ⟨third, ahead⟩ (stands : ahead.StandsIn text)
    exact (gives_afterSymbol? stands .openGroup .operand).bind
      fun ahead (stands : ahead.StandsIn text) => ih.call _ _ stands.unbroken

private theorem call_keeps (ih : Orderly text fuel) (path : List String) :
    Keeps text (call (fuel + 1) path) := by
  intro ahead (stands : ahead.StandsIn text)
  simp only [Hcl.call]
  refine .ite (fun _ => ?_) fun _ => ?_
  · exact (gives_ahead? .anything _ stands.rest).bind fun ahead stands => .some stands
  · refine (ih.arguments _ stands).bind ?_
    rintro ⟨arguments, spread, ahead⟩ (stands : ahead.StandsIn text)
    exact (gives_afterSymbol? stands.unbroken .closeGroup .anything).bind fun ahead stands =>
      .some stands

private theorem arguments_keeps (ih : Orderly text fuel) : Keeps text (arguments (fuel + 1)) := by
  intro ahead stands
  simp only [Hcl.arguments]
  refine (ih.expression _ stands).bind ?_
  rintro ⟨argument, ahead⟩ (stands : ahead.StandsIn text)
  refine .ite (fun _ => ?_) fun _ => .ite (fun _ => ?_) fun _ => .some stands
  · exact (gives_ahead? .anything _ stands.rest).bind fun ahead stands => .some stands
  · refine (gives_ahead? .operand _ stands.rest).bind fun next (stands : next.StandsIn text) => ?_
    refine .ite (fun _ => .some stands) fun _ => ?_
    refine (ih.arguments _ stands.unbroken).bind ?_
    rintro ⟨more, spread, ahead⟩ stands
    exact .some stands

private theorem list_keeps (ih : Orderly text fuel) : Keeps text (list (fuel + 1)) := by
  intro ahead (stands : ahead.StandsIn text)
  simp only [Hcl.list]
  refine .ite (fun _ => ?_) fun _ => ?_
  · refine (gives_ahead? .binder _ stands.rest).bind fun ahead stands => ?_
    refine (ih.forIntroduction _ stands).bind ?_
    rintro ⟨binders, source, ahead⟩ stands
    refine (ih.expression _ stands).bind ?_
    rintro ⟨value, ahead⟩ (stands : ahead.StandsIn text)
    refine (ih.forCondition _ stands.unbroken).bind ?_
    rintro ⟨condition, ahead⟩ (stands : ahead.StandsIn text)
    exact (gives_afterSymbol? stands.unbroken .closeList .anything).bind fun ahead stands =>
      .some stands
  · refine (ih.items _ stands).bind ?_
    rintro ⟨items, ahead⟩ stands
    exact .some stands

private theorem items_keeps (ih : Orderly text fuel) : Keeps text (items (fuel + 1)) := by
  intro ahead (stands : ahead.StandsIn text)
  simp only [Hcl.items]
  refine .ite (fun _ => ?_) fun _ => ?_
  · exact (gives_ahead? .anything _ stands.rest).bind fun ahead stands => .some stands
  · refine (ih.expression _ stands).bind ?_
    rintro ⟨item, ahead⟩ (stands : ahead.StandsIn text)
    refine .ite (fun _ => ?_) fun _ => ?_
    · refine (gives_ahead? .operand _ stands.rest).bind fun ahead (stands : ahead.StandsIn text) => ?_
      refine (ih.items _ stands.unbroken).bind ?_
      rintro ⟨more, ahead⟩ stands
      exact .some stands
    · exact (gives_afterSymbol? stands.unbroken .closeList .anything).bind fun ahead stands =>
        .some stands

private theorem object_keeps (ih : Orderly text fuel) : Keeps text (object (fuel + 1)) := by
  intro ahead (stands : ahead.StandsIn text)
  simp only [Hcl.object]
  refine .ite (fun _ => ?_) fun _ => ?_
  · refine (gives_ahead? .binder _ stands.rest).bind fun next stands => ?_
    refine .ite (fun _ => ?_) fun _ => ?_
    · refine (ih.field _ _ stands).bind ?_
      rintro ⟨fields, ahead⟩ stands
      exact .some stands
    · refine (ih.forIntroduction _ stands).bind ?_
      rintro ⟨binders, source, ahead⟩ stands
      refine (ih.expression _ stands).bind ?_
      rintro ⟨key, ahead⟩ (stands : ahead.StandsIn text)
      refine (gives_afterSymbol? stands .arrow .operand).bind
        fun ahead (stands : ahead.StandsIn text) => ?_
      refine (ih.expression _ stands.unbroken).bind ?_
      rintro ⟨value, ahead⟩ (stands : ahead.StandsIn text)
      refine .ite_bind (gives_ahead? .anything _ stands.rest) (.some stands.unbroken)
        fun ahead (stands : ahead.StandsIn text) => ?_
      refine (ih.forCondition _ stands.unbroken).bind ?_
      rintro ⟨condition, ahead⟩ (stands : ahead.StandsIn text)
      exact (gives_afterSymbol? stands.unbroken .closeBrace .anything).bind fun ahead stands =>
        .some stands
  · refine (ih.fields _ stands).bind ?_
    rintro ⟨fields, ahead⟩ stands
    exact .some stands

private theorem fields_keeps (ih : Orderly text fuel) : Keeps text (fields (fuel + 1)) := by
  intro ahead (stands : ahead.StandsIn text)
  have next : Gives text (ahead? .anything ahead.rest) := gives_ahead? .anything _ stands.rest
  simp only [Hcl.fields]
  refine .ite (fun _ => next.bind fun ahead stands => .some stands) fun _ => ?_
  split
  · exact next.bind fun ahead stands => ih.field _ _ stands
  · refine (ih.expression _ stands).bind ?_
    rintro ⟨key, ahead⟩ stands
    exact ih.field _ _ stands

private theorem field_keeps (ih : Orderly text fuel) (key : Expr) :
    Keeps text (field (fuel + 1) key) := by
  intro ahead (stands : ahead.StandsIn text)
  simp only [Hcl.field]
  refine .ite (fun _ => ?_) fun _ => .none
  refine (gives_ahead? .operand _ stands.rest).bind fun ahead stands => ?_
  refine (ih.expression _ stands).bind ?_
  rintro ⟨value, ahead⟩ (stands : ahead.StandsIn text)
  refine .ite_bind (gives_ahead? .anything _ stands.rest) (.some stands.unbroken)
    fun ahead (stands : ahead.StandsIn text) => ?_
  refine (ih.fields _ stands.unbroken).bind ?_
  rintro ⟨more, ahead⟩ stands
  exact .some stands

private theorem forIntroduction_keeps (ih : Orderly text fuel) :
    Keeps text (forIntroduction (fuel + 1)) := by
  intro ahead (stands : ahead.StandsIn text)
  simp only [Hcl.forIntroduction]
  refine (keeps_binders? _ stands.unbroken).bind ?_
  rintro ⟨binders, ahead⟩ (stands : ahead.StandsIn text)
  refine (gives_afterKeyword? stands.unbroken .inWord .operand).bind
    fun ahead (stands : ahead.StandsIn text) => ?_
  refine (ih.expression _ stands.unbroken).bind ?_
  rintro ⟨source, ahead⟩ (stands : ahead.StandsIn text)
  exact (gives_afterSymbol? stands.unbroken .colon .operand).bind
    fun ahead (stands : ahead.StandsIn text) => .some stands.unbroken

private theorem forCondition_keeps (ih : Orderly text fuel) :
    Keeps text (forCondition (fuel + 1)) := by
  intro ahead stands
  have after := gives_afterKeyword? stands .ifWord .operand
  simp only [Hcl.forCondition]
  split
  · rename_i next found
    have stands : next.StandsIn text := after next found
    refine (ih.expression _ stands.unbroken).bind ?_
    rintro ⟨condition, ahead⟩ stands
    exact .some stands
  · exact .some stands

private theorem string_keeps (ih : Orderly text fuel) : Keeps text (string (fuel + 1)) := by
  intro start inside
  simp only [Hcl.string]
  refine (ih.parts _ inside).bind ?_
  rintro ⟨parts, rest⟩ inside
  exact .ite (fun _ => .some inside) fun _ => .none

theorem keeps_escapedOpening? : Keeps text escapedOpening? := by
  rintro start (inside : start <:+ text) ⟨characters, rest⟩ found
  obtain ⟨opening, _, here⟩ := List.exists_of_findSome?_eq_some found
  obtain ⟨behind, opened, here⟩ := Option.bind_eq_some_iff.mp here
  obtain ⟨⟨inner, left⟩, cut, same⟩ := Option.bind_eq_some_iff.mp here
  obtain ⟨_, rfl⟩ := Prod.mk.inj (Option.some.inj same)
  refine List.IsSuffix.trans ⟨opening ++ (inner ++ ['}']), ?_⟩ inside
  rw [after?_eq_some_iff.mp opened, eq_of_cutAt? cut]
  simp

theorem keeps_plainCharacter? : Keeps text plainCharacter? := by
  intro start (inside : start <:+ text)
  unfold plainCharacter?
  refine .ite (fun _ => .none) fun _ => ?_
  split
  · exact .none
  · exact .none
  · rename_i c rest _
    refine .ite (fun _ => .none) fun _ => .some ?_
    exact List.IsSuffix.trans ⟨['\\', c], rfl⟩ inside
  · exact .none
  · exact .some ((List.suffix_cons _ _).trans inside)

private theorem parts_keeps (ih : Orderly text fuel) : Keeps text (parts (fuel + 1)) := by
  intro start (inside : start <:+ text)
  have further (characters : List Char) {rest : List Char} (left : rest <:+ text) :
      Gives text (parts fuel rest >>= fun read => some (consText characters read.1, read.2)) := by
    refine (ih.parts _ left).bind ?_
    rintro ⟨more, rest⟩ inside
    exact .some inside
  simp only [Hcl.parts]
  split
  · rename_i characters rest found
    exact further characters (keeps_escapedOpening? _ inside _ found)
  · split
    · rename_i characters rest found
      exact further characters (keeps_plainCharacter? _ inside _ found)
    · split
      · exact .some ((List.suffix_cons _ _).trans inside)
      · rename_i rest _ _
        have within : rest <:+ text := List.IsSuffix.trans ⟨['$', '{'], rfl⟩ inside
        refine (gives_ahead? .operand _ within).bind fun ahead stands => ?_
        refine (ih.expression _ stands).bind ?_
        rintro ⟨inner, ahead⟩ (stands : ahead.StandsIn text)
        refine .ite (fun _ => ?_) fun _ => .none
        refine (ih.parts _ stands.rest).bind ?_
        rintro ⟨more, rest⟩ inside
        exact .some inside
      · rename_i rest _ _
        have within : rest <:+ text := List.IsSuffix.trans ⟨['%', '{'], rfl⟩ inside
        refine (ih.directive _ within).bind ?_
        rintro ⟨part, rest⟩ inside
        refine (ih.parts _ inside).bind ?_
        rintro ⟨more, rest⟩ inside
        exact .some inside
      · exact .none

theorem keeps_directiveWord? : Keeps text directiveWord? := by
  rintro start (inside : start <:+ text) ⟨word, rest⟩ found
  obtain ⟨keyword, _, here⟩ := List.exists_of_findSome?_eq_some found
  obtain ⟨behind, opened, same⟩ := Option.map_eq_some_iff.mp here
  obtain ⟨_, rfl⟩ := Prod.mk.inj same
  exact List.IsSuffix.trans ⟨keyword.text.toList, (after?_eq_some_iff.mp opened).symm⟩ inside

private theorem directive_keeps (ih : Orderly text fuel) : Keeps text (directive (fuel + 1)) := by
  intro start (inside : start <:+ text)
  have within : start.dropWhile isGap <:+ text := (List.dropWhile_suffix isGap).trans inside
  simp only [Hcl.directive]
  refine (keeps_directiveWord? _ ?opened).bind ?_
  case opened =>
    split
    · rename_i rest mark
      refine (List.dropWhile_suffix isGap).trans (List.IsSuffix.trans ⟨['~'], ?_⟩ within)
      exact (after?_eq_some_iff.mp mark).symm
    · exact within
  rintro ⟨word, rest⟩ (inside : rest <:+ text)
  dsimp only
  split
  · refine (gives_ahead? .operand _ inside).bind fun ahead stands => ?_
    refine (ih.expression _ stands).bind ?_
    rintro ⟨condition, ahead⟩ stands
    refine (keeps_directiveEnd? _ stands).bind ?_
    rintro ⟨after, rest⟩ inside
    exact .some inside
  · refine (gives_ahead? .binder _ inside).bind fun ahead stands => ?_
    refine (keeps_binders? _ stands).bind ?_
    rintro ⟨binders, ahead⟩ stands
    refine (gives_afterKeyword? stands .inWord .operand).bind fun ahead stands => ?_
    refine (ih.expression _ stands).bind ?_
    rintro ⟨source, ahead⟩ stands
    refine (keeps_directiveEnd? _ stands).bind ?_
    rintro ⟨after, rest⟩ inside
    exact .some inside
  · refine (gives_ahead? .anything _ inside).bind fun ahead stands => ?_
    refine (keeps_directiveEnd? _ stands).bind ?_
    rintro ⟨after, rest⟩ inside
    split
    · exact .some inside
    · exact .some inside
    · exact .some inside
    · exact .none

theorem orderly (text : List Char) (fuel : Nat) : Orderly text fuel := by
  have out {α β : Type} [Leaves α] [Leaves β] : Keeps text fun _ : α => (none : Option β) :=
    fun _ _ => .none
  induction fuel with
  | zero =>
    exact ⟨out, fun _ => out, out, out, fun _ => out, out, fun _ => out, fun _ => out, out, out, out,
      out, out, fun _ => out, out, out, out, out, out⟩
  | succ fuel ih =>
    exact ⟨expression_keeps ih, operators_keeps ih, operand_keeps ih, term_keeps ih, steps_keeps ih,
      atom_keeps ih, named_keeps ih, call_keeps ih, arguments_keeps ih, list_keeps ih, items_keeps ih,
      object_keeps ih, fields_keeps ih, field_keeps ih, forIntroduction_keeps ih,
      forCondition_keeps ih, string_keeps ih, parts_keeps ih, directive_keeps ih⟩

/-- The functions that read the statements of a body go on with an end of the text. -/
structure OrderlyBody (text : List Char) (fuel : Nat) : Prop where
  statements : Keeps text (statements fuel)
  statement : ∀ name, Keeps text (statement fuel name)
  labels : Keeps text (labels fuel)

private theorem statements_keeps (ih : OrderlyBody text fuel) : Keeps text (statements (fuel + 1)) := by
  intro ahead (stands : ahead.StandsIn text)
  simp only [Hcl.statements]
  split
  · exact .some stands.unbroken
  · refine (gives_ahead? .anything _ stands.rest).bind fun ahead stands => ?_
    refine (ih.statement _ _ stands).bind ?_
    rintro ⟨statement, ahead⟩ stands
    refine (ih.statements _ stands).bind ?_
    rintro ⟨more, ahead⟩ stands
    exact .some stands

private theorem statement_keeps (ih : OrderlyBody text fuel) (name : String) :
    Keeps text (statement (fuel + 1) name) := by
  intro ahead (stands : ahead.StandsIn text)
  simp only [Hcl.statement]
  refine .ite (fun _ => ?assignment) fun _ => ?block
  case assignment =>
    refine (gives_ahead? .operand _ stands.rest).bind fun ahead stands => ?_
    refine ((orderly text fuel).expression _ stands).bind ?_
    rintro ⟨value, ahead⟩ stands
    exact .some stands
  case block =>
    refine (ih.labels _ stands).bind ?_
    rintro ⟨labels, ahead⟩ (stands : ahead.StandsIn text)
    refine (gives_afterSymbol? stands.unbroken .openBrace .anything).bind fun ahead stands => ?_
    refine (ih.statements _ stands).bind ?_
    rintro ⟨body, ahead⟩ stands
    exact (gives_afterSymbol? stands .closeBrace .anything).bind fun ahead stands => .some stands

private theorem labels_keeps (ih : OrderlyBody text fuel) : Keeps text (labels (fuel + 1)) := by
  intro ahead (stands : ahead.StandsIn text)
  simp only [Hcl.labels]
  refine .ite (fun _ => .some stands) fun _ => ?_
  split
  · refine (gives_ahead? .anything _ stands.rest).bind fun ahead stands => ?_
    refine (ih.labels _ stands).bind ?_
    rintro ⟨more, ahead⟩ stands
    exact .some stands
  · refine ((orderly text fuel).string _ stands.rest).bind ?_
    rintro ⟨parts, rest⟩ inside
    refine (gives_ahead? .anything _ inside).bind fun ahead stands => ?_
    refine (ih.labels _ stands).bind ?_
    rintro ⟨more, ahead⟩ stands
    exact .some stands
  · exact .some stands

theorem orderlyBody (text : List Char) (fuel : Nat) : OrderlyBody text fuel := by
  induction fuel with
  | zero => exact ⟨fun _ _ => .none, fun _ _ _ => .none, fun _ _ => .none⟩
  | succ fuel ih => exact ⟨statements_keeps ih, statement_keeps ih, labels_keeps ih⟩

end InfraPins.Hcl
