import InfraPins.Hcl.Value
import InfraPins.Proofs.Datum
import InfraPins.Proofs.Hcl.Strings

/-! Plain documents: blocks with one quoted label, and in their bodies nothing but literals, each assigned
on a line of its own. The reader goes over such a document a line at a time, and what the document says
is what is written. -/

namespace InfraPins.Hcl

open Text

/-- A name that is read whole. -/
def IsName (name : List Char) : Prop :=
  ∃ first more, name = first :: more ∧ startsName first = true ∧ ∀ c ∈ more, continuesName c = true

/-- Spaces, tabs and line ends. -/
def IsLead (lead : List Char) : Prop :=
  ∀ c ∈ lead, c = ' ' ∨ c = '\t' ∨ c = '\n'

/-- A literal assigned to a name. -/
structure PlainField where
  name : List Char
  value : List Char
  named : IsName name
  plain : ∀ c ∈ value, isPlainChar c = true

namespace PlainField

/-- The text of a field from behind its name on. -/
def assigned (field : PlainField) : List Char :=
  ' ' :: '=' :: ' ' :: '"' :: (field.value ++ ['"'])

def statement (field : PlainField) : Statement :=
  .assignment (String.ofList field.name) (.quoted (consPlain field.value []))

/-- The value of a field: its literal with the quotes. -/
def datum (field : PlainField) : Datum :=
  .text (String.ofList (inQuotes field.value))

end PlainField

/-- The text of a body from behind its opening brace on: each literal on a line of its own, and the
closing brace on the last. -/
def bodyText (fields : List PlainField) : List Char :=
  fields.flatMap (fun field => '\n' :: ' ' :: ' ' :: (field.name ++ field.assigned)) ++ ['\n', '}']

/-- A block with one label and literals in its body. -/
structure PlainBlock where
  kind : List Char
  label : List Char
  fields : List PlainField
  named : IsName kind
  plain : ∀ c ∈ label, isPlainChar c = true

namespace PlainBlock

/-- The text of a block from behind its kind on. -/
def labelled (block : PlainBlock) : List Char :=
  ' ' :: '"' :: (block.label ++ '"' :: ' ' :: '{' :: bodyText block.fields)

def text (block : PlainBlock) : List Char :=
  block.kind ++ block.labelled

def statement (block : PlainBlock) : Statement :=
  .block (String.ofList block.kind) [.quoted (consPlain block.label [])]
    (block.fields.map PlainField.statement)

/-- The fields that the body of a block has, before it is marked as one. -/
def data (block : PlainBlock) : List (Datum × Datum) :=
  block.fields.foldl (fun done field =>
    Datum.insert (.text (String.ofList field.name)) field.datum done) []

/-- The value of a block: its marked body under its label. -/
def datum (block : PlainBlock) : Datum :=
  .object [(.text (String.ofList (inQuotes block.label)),
    .object (Datum.insert (.text "__is_block__") (.bool true) block.data))]

end PlainBlock

/-- The text of blocks with something before each, and of what stands behind them. -/
def blocksText (blocks : List (List Char × PlainBlock)) (ending : List Char) : List Char :=
  blocks.flatMap (fun placed => placed.1 ++ placed.2.text) ++ ending

/-- A text at the start of which nothing is passed over before a token. -/
def Solid (text : List Char) : Prop :=
  ∀ c, text.head? = some c → isGap c = false ∧ c ∉ ['\n', '#', '/']

variable {lead text rest : List Char}

theorem Solid.dropWhile_isGap (solid : Solid text) : text.dropWhile isGap = text := by
  cases text with
  | nil => rfl
  | cons c text => simp [(solid c rfl).1]

theorem Solid.break?_eq_none (solid : Solid text) : break? text = none := by
  cases text with
  | nil => rfl
  | cons c text =>
    have starts := (solid c rfl).2
    simp only [List.mem_cons, List.not_mem_nil, or_false, not_or] at starts
    unfold break?
    split <;> simp_all

theorem skipBreaks_dropWhile {accept : Char → Bool} (gap : ∀ c, accept c = true → isGap c = true)
    (text : List Char) : skipBreaks (text.dropWhile accept) = skipBreaks text := by
  have same : (text.dropWhile accept).dropWhile isGap = text.dropWhile isGap := by
    induction text with
    | nil => rfl
    | cons c text ih =>
      by_cases accepted : accept c = true
      · simp [accepted, gap c accepted, ih]
      · simp [accepted]
  rw [skipBreaks.eq_def, skipBreaks.eq_def text, same]

/-- The reader passes over spaces, tabs and line ends, and hears whether there were line ends. -/
theorem skipBreaks_lead (blank : IsLead lead) (solid : Solid text) :
    ∃ breaks, skipBreaks (lead ++ text) = (breaks, text) ∧ (breaks = [] ↔ '\n' ∉ lead) := by
  induction lead with
  | nil =>
    refine ⟨[], ?_, by simp⟩
    have here : break? (text.dropWhile isGap) = none := by
      rw [solid.dropWhile_isGap, solid.break?_eq_none]
    rw [List.nil_append, skipBreaks_nil here, solid.dropWhile_isGap]
  | cons c lead ih =>
    obtain ⟨first, blank⟩ := List.forall_mem_cons.mp blank
    obtain ⟨breaks, passed, unbroken⟩ := ih blank
    by_cases feed : c = '\n'
    · subst feed
      let indent (c : Char) := c == ' ' || c == '\t'
      have found : break? (('\n' :: (lead ++ text)).dropWhile isGap) =
          some ('\n' :: (lead ++ text).takeWhile indent, (lead ++ text).dropWhile indent) := rfl
      have onward : skipBreaks ((lead ++ text).dropWhile indent) = (breaks, text) := by
        rw [← passed]
        apply skipBreaks_dropWhile
        intro c accepted
        simp only [indent, Bool.or_eq_true, beq_iff_eq] at accepted
        rcases accepted with rfl | rfl <;> rfl
      refine ⟨('\n' :: (lead ++ text).takeWhile indent) :: breaks, ?_, by simp⟩
      rw [List.cons_append, skipBreaks_cons found, onward]
    · have gap : isGap c = true := by
        rcases first with rfl | rfl | rfl
        · rfl
        · rfl
        · exact absurd rfl feed
      refine ⟨breaks, ?_, by simp [unbroken, Ne.symm feed]⟩
      rw [← passed, ← skipBreaks_dropWhile (fun _ gap => gap) (c :: lead ++ text),
        ← skipBreaks_dropWhile (fun _ gap => gap) (lead ++ text)]
      simp [gap]

/-- The token behind spaces, tabs and line ends. -/
theorem ahead?_lead {token : Token} (blank : IsLead lead) (solid : Solid text)
    (found : token? .anything text = some (token, rest)) (apart : token.joinsLines = false) :
    ∃ ahead, ahead? .anything (lead ++ text) = some ahead ∧ ahead.token = token ∧
      ahead.rest = rest ∧ (ahead.broken = true ↔ '\n' ∈ lead) := by
  obtain ⟨breaks, passed, unbroken⟩ := skipBreaks_lead blank solid
  refine ⟨⟨breaks, token, rest⟩, ?_, rfl, rfl, ?_⟩
  · rw [ahead?_eq, passed]
    simp [found, apart]
  · rw [← not_iff_not, ← unbroken]
    simp [Ahead.broken]

/-- The token behind spaces, whatever is expected, where it does not hang on that. -/
theorem ahead?_spaces {expected : Expectation} {token : Token} (blank : ∀ c ∈ lead, c = ' ')
    (solid : Solid text) (found : token? expected text = some (token, rest)) :
    ahead? expected (lead ++ text) = some ⟨[], token, rest⟩ := by
  have spaces : IsLead lead := fun c member => .inl (blank c member)
  have unbroken : '\n' ∉ lead := by
    intro member
    cases blank _ member
  obtain ⟨breaks, passed, none⟩ := skipBreaks_lead spaces solid
  obtain rfl := none.mpr unbroken
  rw [ahead?_eq, passed]
  simp [found]

theorem solid_cons {c : Char} (starts : isGap c = false ∧ c ∉ ['\n', '#', '/']) (text : List Char) :
    Solid (c :: text) := by
  intro d same
  obtain rfl := Option.some.inj same
  exact starts

theorem single_space : ∀ c ∈ [' '], c = ' ' :=
  fun _ => List.mem_singleton.mp

theorem solid_of_startsName {c : Char} (starts : startsName c = true) (text : List Char) :
    Solid (c :: text) := by
  intro d same
  obtain rfl := Option.some.inj same
  constructor
  · cases gap : isGap c with
    | false => rfl
    | true =>
      simp only [isGap, Bool.or_eq_true, beq_iff_eq, or_assoc] at gap
      rcases gap with rfl | rfl | rfl <;> revert starts <;> decide
  · simp only [List.mem_cons, List.not_mem_nil, or_false]
    rintro (rfl | rfl | rfl) <;> revert starts <;> decide

theorem IsName.ne_nil {name : List Char} (named : IsName name) : name ≠ [] := by
  obtain ⟨first, more, rfl, -⟩ := named
  exact List.cons_ne_nil first more

theorem IsName.solid {name : List Char} (named : IsName name) (text : List Char) :
    Solid (name ++ text) := by
  obtain ⟨first, more, rfl, starts, -⟩ := named
  exact solid_of_startsName starts (more ++ text)

/-- A word names a statement, whether it is special elsewhere or not. -/
theorem statementWord?_wordToken (expected : Expectation) (word : String) :
    (wordToken expected word).statementWord? = some word := by
  unfold wordToken
  split
  · rename_i keyword found
    have same : keyword.text = word := by
      cases expected
      case anything => simpa using List.find?_some found
      case listStart =>
        simp only [keyword?, beq_iff_eq] at found
        split at found
        · rename_i same
          obtain rfl := Option.some.inj found
          exact same.symm
        · cases found
      all_goals cases found
    simp only [Token.statementWord?, same]
  · split
    · rename_i constant found
      have same : constant.text = word := by
        cases expected
        case binder => cases found
        all_goals simpa using List.find?_some found
      simp only [Token.statementWord?, same]
    · rfl

theorem joinsLines_wordToken (expected : Expectation) (word : String) :
    (wordToken expected word).joinsLines = false := by
  unfold wordToken
  split
  · rfl
  · split <;> rfl

theorem IsName.token? {name : List Char} (named : IsName name) (expected : Expectation)
    (space : text.head? = some ' ') :
    token? expected (name ++ text) = some (wordToken expected (String.ofList name), text) := by
  obtain ⟨first, more, rfl, starts, continues⟩ := named
  obtain ⟨behind, rfl⟩ := List.head?_eq_some_iff.mp space
  have ends : continuesName ' ' = false := by decide
  have taken : (more ++ ' ' :: behind).takeWhile continuesName = more := by
    simp [List.takeWhile_append_of_pos continues, ends]
  have left : (more ++ ' ' :: behind).dropWhile continuesName = ' ' :: behind := by
    simp [List.dropWhile_append_of_pos continues, ends]
  rw [List.cons_append, Hcl.token?]
  simp only [starts, if_true, spanWhile, taken, left]

/-- A name behind spaces and line ends is the word of a statement. -/
theorem IsName.ahead? {name : List Char} (named : IsName name) (blank : IsLead lead)
    (space : text.head? = some ' ') :
    ∃ ahead, ahead? .anything (lead ++ (name ++ text)) = some ahead ∧
      ahead.token.statementWord? = some (String.ofList name) ∧ ahead.rest = text ∧
      (ahead.broken = true ↔ '\n' ∈ lead) := by
  obtain ⟨ahead, found, token, rest, broken⟩ := ahead?_lead blank (named.solid text)
    (named.token? .anything space) (joinsLines_wordToken _ _)
  exact ⟨ahead, found, by rw [token, statementWord?_wordToken], rest, broken⟩

theorem token?_quote (expected : Expectation) (text : List Char) :
    token? expected ('"' :: text) = some (.symbol .quote, text) := by
  cases expected <;> rfl

theorem token?_openBrace (text : List Char) :
    token? .anything ('{' :: text) = some (.symbol .openBrace, text) := rfl

theorem token?_closeBrace (text : List Char) :
    token? .anything ('}' :: text) = some (.symbol .closeBrace, text) := rfl

theorem token?_assign (text : List Char) :
    token? .anything ('=' :: ' ' :: text) = some (.symbol .assign, ' ' :: text) := rfl

variable {plain : List Char} {fuel : Nat} {next : Ahead}

theorem directivesClose_consPlain (plain : List Char) : directivesClose (consPlain plain []) = true := by
  cases plain with
  | nil => rfl
  | cons c plain =>
    rw [consPlain_cons]
    rfl

/-- A literal is read up to its closing quote. -/
theorem string_plain (chars : ∀ c ∈ plain, isPlainChar c = true) (enough : plain.length + 2 ≤ fuel)
    (text : List Char) : string fuel (plain ++ '"' :: text) = some (consPlain plain [], text) := by
  obtain ⟨fuel, rfl⟩ := Nat.exists_eq_add_of_le' enough
  have read : parts (fuel + plain.length + 1) (plain ++ '"' :: text) =
      some (consPlain plain [], text) := by
    refine (parts_append_eq_some chars).mpr ⟨fuel + 1, [], by omega, ?_, rfl⟩
    exact parts_quote.mpr ⟨Nat.succ_pos fuel, rfl, rfl⟩
  rw [show fuel + (plain.length + 2) = fuel + plain.length + 1 + 1 by omega, string, read]
  simp [directivesClose_consPlain]

theorem not_isSymbol_of_broken (broken : next.broken = true) (symbol : Symbol) :
    next.isSymbol symbol = false := by
  simp [Ahead.isSymbol, broken]

theorem steps_of_broken (broken : next.broken = true) (subject : Expr) :
    steps (fuel + 1) subject next = some (subject, next) := by
  simp [steps, not_isSymbol_of_broken broken]

theorem operators_of_broken (broken : next.broken = true) (limit : Nat) :
    operators (fuel + 1) limit next = some ([], next) := by
  simp [operators, broken]

/-- A literal that a line end follows is a whole expression. -/
theorem expression_literal (chars : ∀ c ∈ plain, isPlainChar c = true)
    (enough : plain.length + 6 ≤ fuel) {text : List Char}
    (onward : ahead? .anything text = some next) (broken : next.broken = true) :
    expression fuel ⟨[], .symbol .quote, plain ++ '"' :: text⟩ =
      some (.quoted (consPlain plain []), next) := by
  obtain ⟨fuel, rfl⟩ : ∃ less, fuel = less + 4 := ⟨fuel - 4, by omega⟩
  have literal : string fuel (plain ++ '"' :: text) = some (consPlain plain [], text) :=
    string_plain chars (by omega) text
  have here : atom (fuel + 1) ⟨[], .symbol .quote, plain ++ '"' :: text⟩ =
      some (.quoted (consPlain plain []), next) := by
    simp [atom, Ahead.broken, literal, onward]
  have whole : operand (fuel + 3) ⟨[], .symbol .quote, plain ++ '"' :: text⟩ =
      some (.quoted (consPlain plain []), next) := by
    simp [operand, term, Ahead.isSymbol, Ahead.broken, here, steps_of_broken broken]
  rw [expression, whole]
  simp only [Option.bind_eq_bind, Option.bind_some, operators_of_broken broken,
    not_isSymbol_of_broken broken]
  rfl

/-- The assignment of a literal is a statement, up to the line end behind it. -/
theorem PlainField.statement_eq (field : PlainField) (enough : field.value.length + 7 ≤ fuel)
    (onward : ahead? .anything text = some next) (broken : next.broken = true) :
    ∃ ahead, ahead? .anything (field.assigned ++ text) = some ahead ∧
      Hcl.statement fuel (String.ofList field.name) ahead = some (field.statement, next) := by
  obtain ⟨fuel, rfl⟩ : ∃ less, fuel = less + 1 := ⟨fuel - 1, by omega⟩
  have assign := @ahead?_spaces _ _ _ .anything _ single_space
    (solid_cons (by decide) _) (token?_assign ('"' :: (field.value ++ '"' :: text)))
  have quote := @ahead?_spaces _ _ _ .operand _ single_space
    (solid_cons (by decide) _) (token?_quote .operand (field.value ++ '"' :: text))
  have value := @expression_literal _ fuel _ field.plain (by omega) text onward broken
  rw [List.singleton_append] at quote
  refine ⟨_, by simpa [assigned] using assign, ?_⟩
  simp [Hcl.statement, Ahead.isSymbol, Ahead.broken, quote, value, PlainField.statement]

theorem bodyText_cons (field : PlainField) (fields : List PlainField) :
    bodyText (field :: fields) =
      ['\n', ' ', ' '] ++ (field.name ++ (field.assigned ++ bodyText fields)) := by
  simp [bodyText]

/-- A body of literals is read a line at a time, up to its closing brace. -/
theorem statements_body (fields : List PlainField) (rest : List Char)
    (enough : (bodyText fields).length + 6 ≤ fuel) :
    ∃ ahead, ahead? .anything (bodyText fields ++ rest) = some ahead ∧ ahead.broken = true ∧
      statements fuel ahead =
        some (fields.map PlainField.statement, ⟨[], .symbol .closeBrace, rest⟩) := by
  induction fields generalizing fuel with
  | nil =>
    obtain ⟨fuel, rfl⟩ : ∃ less, fuel = less + 1 := ⟨fuel - 1, by omega⟩
    have blank : IsLead ['\n'] := fun c member => .inr (.inr (List.mem_singleton.mp member))
    obtain ⟨⟨breaks, token, behind⟩, found, rfl, rfl, broken⟩ :=
      ahead?_lead blank (solid_cons (by decide) rest) (token?_closeBrace rest) rfl
    refine ⟨_, found, broken.mpr List.mem_cons_self, ?_⟩
    simp [statements, Token.statementWord?, Ahead.unbroken]
  | cons field fields ih =>
    rw [bodyText_cons] at enough ⊢
    simp only [List.length_append, List.length_cons, List.length_nil, PlainField.assigned] at enough
    obtain ⟨fuel, rfl⟩ : ∃ less, fuel = less + 1 := ⟨fuel - 1, by omega⟩
    obtain ⟨next, onward, broken', read⟩ := @ih fuel (by omega)
    obtain ⟨second, assigned, first⟩ := @PlainField.statement_eq _ fuel _ field (by omega) onward broken'
    have blank : IsLead ['\n', ' ', ' '] := by
      intro c member
      simp only [List.mem_cons, List.not_mem_nil, or_false] at member
      rcases member with rfl | rfl | rfl <;> simp
    obtain ⟨ahead, found, word, behind, broken⟩ :=
      @IsName.ahead? _ (field.assigned ++ (bodyText fields ++ rest)) _ field.named blank rfl
    refine ⟨ahead, ?_, broken.mpr List.mem_cons_self, ?_⟩
    · rw [← found]
      simp only [List.append_assoc]
    · simp [statements, word, behind, assigned, first, read]

/-- A block of literals is a statement, up to its closing brace. -/
theorem PlainBlock.statement_eq (block : PlainBlock) (enough : block.labelled.length + 3 ≤ fuel)
    (onward : ahead? .anything text = some next) :
    ∃ ahead, ahead? .anything (block.labelled ++ text) = some ahead ∧
      Hcl.statement fuel (String.ofList block.kind) ahead = some (block.statement, next) := by
  simp only [labelled, List.length_cons, List.length_append] at enough
  obtain ⟨fuel, rfl⟩ : ∃ less, fuel = less + 3 := ⟨fuel - 3, by omega⟩
  obtain ⟨inner, opened, broken, body⟩ :=
    @statements_body (fuel + 2) block.fields text (by omega)
  have quote := @ahead?_spaces _ _ _ .anything _ single_space (solid_cons (by decide) _)
    (token?_quote .anything (block.label ++ '"' :: ' ' :: '{' :: (bodyText block.fields ++ text)))
  have brace := @ahead?_spaces _ _ _ .anything _ single_space (solid_cons (by decide) _)
    (token?_openBrace (bodyText block.fields ++ text))
  have label := @string_plain _ (fuel + 1) block.plain (by omega)
    (' ' :: '{' :: (bodyText block.fields ++ text))
  rw [List.singleton_append] at brace
  refine ⟨_, by simpa [labelled] using quote, ?_⟩
  simp [Hcl.statement, labels, Ahead.isSymbol, Ahead.broken, Token.statementWord?, label, brace,
    Ahead.afterSymbol?, Ahead.unbroken, opened, body, onward, PlainBlock.statement]

/-- Blocks of literals are read one after another, up to the end of the text. -/
theorem statements_blocks (blocks : List (List Char × PlainBlock))
    (apart : ∀ placed ∈ blocks, IsLead placed.1) {ending : List Char} (ends : IsLead ending)
    (enough : (blocksText blocks ending).length + 3 ≤ fuel) :
    ∃ ahead last, ahead? .anything (blocksText blocks ending) = some ahead ∧
      statements fuel ahead = some (blocks.map fun placed => placed.2.statement, last) ∧
      last.token = .finish := by
  induction blocks generalizing fuel with
  | nil =>
    obtain ⟨fuel, rfl⟩ : ∃ less, fuel = less + 1 := ⟨fuel - 1, by omega⟩
    obtain ⟨ahead, found, token, rest, broken⟩ :=
      ahead?_lead ends (nofun : Solid []) (show token? .anything [] = some (.finish, []) from rfl) rfl
    refine ⟨ahead, ahead.unbroken, ?_, ?_, token⟩
    · simpa [blocksText] using found
    · simp [statements, token, Token.statementWord?]
  | cons placed blocks ih =>
    obtain ⟨gap, block⟩ := placed
    obtain ⟨lead, apart⟩ := List.forall_mem_cons.mp apart
    have split : blocksText ((gap, block) :: blocks) ending =
        gap ++ (block.kind ++ (block.labelled ++ blocksText blocks ending)) := by
      simp [blocksText, PlainBlock.text]
    rw [split] at enough ⊢
    simp only [List.length_append] at enough
    have word : 0 < block.kind.length := List.length_pos_of_ne_nil block.named.ne_nil
    obtain ⟨fuel, rfl⟩ : ∃ less, fuel = less + 1 := ⟨fuel - 1, by omega⟩
    obtain ⟨next, last, onward, read, finish⟩ := @ih fuel apart (by omega)
    obtain ⟨second, labelled, statement⟩ :=
      @PlainBlock.statement_eq _ fuel _ block (by omega) onward
    obtain ⟨ahead, found, word, behind, -⟩ :=
      @IsName.ahead? _ (block.labelled ++ blocksText blocks ending) _ block.named lead rfl
    refine ⟨ahead, last, found, ?_, finish⟩
    simp [statements, word, behind, labelled, statement, read]

theorem document?_blocks (blocks : List (List Char × PlainBlock))
    (apart : ∀ placed ∈ blocks, IsLead placed.1) {ending : List Char} (ends : IsLead ending)
    {content : String} (written : content.toList = blocksText blocks ending) :
    document? content = some (blocks.map fun placed => placed.2.statement) := by
  have line : IsLead (ending ++ ['\n']) := by
    intro c member
    rcases List.mem_append.mp member with inside | last
    · exact ends c inside
    · exact .inr (.inr (List.mem_singleton.mp last))
  have whole : content.toList ++ ['\n'] = blocksText blocks (ending ++ ['\n']) := by
    rw [written, blocksText, blocksText, List.append_assoc]
  obtain ⟨ahead, last, found, read, finish⟩ := @statements_blocks
    (16 * (blocksText blocks (ending ++ ['\n'])).length + 16) blocks apart _ line (by omega)
  unfold document?
  rw [whole]
  simp [found, read, finish]

/-- A literal has its text for its value, with the quotes. -/
theorem quoted_consPlain (plain : List Char) :
    "\"" ++ printParts (consPlain plain []) ++ "\"" = String.ofList (inQuotes plain) := by
  apply String.toList_inj.mp
  simp [inQuotes, printParts_consPlain, printParts]

theorem value_literal (plain : List Char) :
    (Expr.quoted (consPlain plain [])).value = .text (String.ofList (inQuotes plain)) := by
  rw [Expr.value, quoted_consPlain]

/-- Literals are put among the fields one after another. -/
theorem bodyFields_literals (fields : List PlainField) (assigned : List String)
    (done : List (Datum × Datum)) :
    bodyFields assigned done (fields.map PlainField.statement) =
      some (fields.foldl (fun done field =>
        Datum.insert (.text (String.ofList field.name)) field.datum done) done) := by
  induction fields generalizing assigned done with
  | nil => rfl
  | cons field fields ih =>
    rw [List.map_cons, PlainField.statement, bodyFields, value_literal, ih]
    rfl

theorem blockValue_block (block : PlainBlock) :
    blockValue block.statement = some (String.ofList block.kind, block.datum) := by
  rw [PlainBlock.statement, blockValue, bodyFields_literals]
  simp [wrapLabels, Label.print, quoted_consPlain, PlainBlock.datum, PlainBlock.data]

/-- One more block of a kind stands behind those before it. -/
theorem bodyFields_block (block : PlainBlock) (done : List (Datum × Datum)) (rest : List Statement) :
    bodyFields [] done (block.statement :: rest) =
      bodyFields [] (addBlock (String.ofList block.kind) block.datum done) rest := by
  have step : bodyFields [] done (block.statement :: rest) =
      (blockValue block.statement).bind fun found =>
        if ([] : List String).contains found.1 then none
        else bodyFields [] (addBlock found.1 found.2 done) rest := rfl
  rw [step, blockValue_block]
  rfl

/-- Blocks of one kind make one list, in order. -/
theorem bodyFields_plain {kind : List Char} (blocks : List (List Char × PlainBlock))
    (alike : ∀ placed ∈ blocks, placed.2.kind = kind) (values : List Datum) :
    bodyFields [] [(.text (String.ofList kind), .list values)]
        (blocks.map fun placed => placed.2.statement) =
      some [(.text (String.ofList kind), .list (values ++ blocks.map fun placed => placed.2.datum))] := by
  induction blocks generalizing values with
  | nil => simp [bodyFields]
  | cons placed blocks ih =>
    obtain ⟨here, alike⟩ := List.forall_mem_cons.mp alike
    have added : addBlock (String.ofList kind) placed.2.datum
        [(.text (String.ofList kind), .list values)] =
          [(.text (String.ofList kind), .list (values ++ [placed.2.datum]))] := by
      simp [addBlock, Datum.lookup?, Datum.insert, Datum.sameKey_text]
    rw [List.map_cons, bodyFields_block, here, added, ih alike]
    simp

/-- A text of blocks of one kind says what the blocks are, in order. -/
theorem read?_blocks {kind : List Char} {blocks : List (List Char × PlainBlock)} (some : blocks ≠ [])
    (alike : ∀ placed ∈ blocks, placed.2.kind = kind) (apart : ∀ placed ∈ blocks, IsLead placed.1)
    {ending : List Char} (ends : IsLead ending) {content : String}
    (written : content.toList = blocksText blocks ending) :
    read? content = .some [(.text (String.ofList kind), .list (blocks.map fun placed => placed.2.datum))]
    := by
  obtain ⟨placed, blocks, rfl⟩ := List.exists_cons_of_ne_nil some
  obtain ⟨here, alike⟩ := List.forall_mem_cons.mp alike
  rw [read?, document?_blocks _ apart ends written, Option.bind_some, List.map_cons, bodyFields_block,
    here]
  exact bodyFields_plain blocks alike [placed.2.datum]

/-- A name that no later field has keeps its value. -/
theorem lookup?_foldl_of_ne {name : String} (fields : List PlainField)
    (others : ∀ field ∈ fields, name ≠ String.ofList field.name) (done : List (Datum × Datum)) :
    Datum.lookup? (.text name) (fields.foldl (fun done field =>
        Datum.insert (.text (String.ofList field.name)) field.datum done) done) =
      Datum.lookup? (.text name) done := by
  induction fields generalizing done with
  | nil => rfl
  | cons field fields ih =>
    obtain ⟨here, others⟩ := List.forall_mem_cons.mp others
    rw [List.foldl_cons, ih others, Datum.lookup?_insert_of_ne here]

/-- The first field of a block is found under its name, if no other has it. -/
theorem PlainBlock.lookup?_data {block : PlainBlock} {first : PlainField} {fields : List PlainField}
    (split : block.fields = first :: fields) (others : ∀ field ∈ fields, first.name ≠ field.name) :
    Datum.lookup? (.text (String.ofList first.name)) block.data = some first.datum := by
  have apart : ∀ field ∈ fields, String.ofList first.name ≠ String.ofList field.name := by
    intro field member same
    exact others field member (String.ofList_inj.mp same)
  rw [data, split, List.foldl_cons, lookup?_foldl_of_ne fields apart, Datum.lookup?_insert_self]

end InfraPins.Hcl
