import InfraPins.Proofs.Hcl.Number
import InfraPins.Proofs.Hcl.Places
import InfraPins.Proofs.Repin.Modules
import InfraPins.Proofs.Scan.Agreement
import InfraPins.Proofs.Scan.Assignments
import Mathlib.Order.Bounds.Basic

/-! Lines of the modules of a document. The line of a module is looked for in the text, not in the
document: it is the first that begins with a header of the module's name, wherever that header stands,
and zero where no line does. It is the line of the block that the module was read from exactly when that
line begins with a header of the name and no line above it does. -/

namespace InfraPins.Scan

open Text Result

/-- A text that starts with a module header of a name: the keyword, white space and the quoted name. -/
def Header (name text : List Char) : Prop :=
  ∃ gap rest, gap ≠ [] ∧ (∀ c ∈ gap, isBlank c = true) ∧
    text = "module".toList ++ (gap ++ (inQuotes name ++ rest))

/-- A place with nothing but spaces and tabs before it on its line. -/
def Indented (before : List Char) : Prop :=
  ∃ front indent, LineStart front ∧ (∀ c ∈ indent, c = ' ' ∨ c = '\t') ∧ before = front ++ indent

/-- A line of a text that begins with a header of a name. -/
def HeaderOn (content name : List Char) (line : Nat) : Prop :=
  ∃ before rest, content = before ++ rest ∧ Indented before ∧ Header name rest ∧ lineAfter before = line

variable {content name text before : List Char} {path : String}

theorem header_iff : Header name text ↔ (namedHere? name text).isSome := by
  rw [namedHere?, headed?, Option.bind_assoc]
  constructor
  · rintro ⟨gap, rest, some, blank, rfl⟩
    have quote : isBlank '"' = false := by decide
    have taken : (gap ++ (inQuotes name ++ rest)).takeWhile isBlank = gap := by
      rw [List.takeWhile_append_of_pos blank]
      simp [inQuotes, quote]
    have left : (gap ++ (inQuotes name ++ rest)).dropWhile isBlank = inQuotes name ++ rest := by
      rw [List.dropWhile_append_of_pos blank]
      simp [inQuotes, quote]
    have opened : after? ['"'] (inQuotes name ++ rest) = .some (name ++ ['"'] ++ rest) :=
      after?_eq_some_iff.mpr (by simp [inQuotes])
    rw [after?_eq_some_iff.mpr rfl, Option.bind_some, taken, left, if_neg (by simpa using some), opened,
      Option.bind_some, after?_eq_some_iff.mpr rfl]
    rfl
  · intro found
    obtain ⟨rest, found⟩ := Option.isSome_iff_exists.mp found
    obtain ⟨behind, keyword, found⟩ := Option.bind_eq_some_iff.mp found
    obtain ⟨inner, opened, named⟩ := Option.bind_eq_some_iff.mp found
    split at opened
    · cases opened
    · rename_i gap
      refine ⟨behind.takeWhile isBlank, rest, by simpa using gap, fun c => List.mem_takeWhile_imp, ?_⟩
      have quoted : behind.dropWhile isBlank = inQuotes name ++ rest := by
        rw [after?_eq_some_iff.mp opened, after?_eq_some_iff.mp named]
        simp [inQuotes]
      rw [← quoted, List.takeWhile_append_dropWhile]
      exact after?_eq_some_iff.mp keyword

private def isIndent (c : Char) : Bool :=
  c == ' ' || c == '\t'

theorem lineStart_iff : LineStart before ↔
    precededBy none before = none ∨ precededBy none before = some '\n' := by
  rw [precededBy, Option.or_none, List.getLast?_eq_none_iff, List.getLast?_eq_some_iff]
  rfl

theorem lineAfter_append_of_notMem {front back : List Char} (unbroken : '\n' ∉ back) :
    lineAfter (front ++ back) = lineAfter front := by
  rw [lineAfter, List.count_append, List.count_eq_zero.mpr unbroken]
  rfl

theorem notMem_of_indent {indent : List Char} (blank : ∀ c ∈ indent, c = ' ' ∨ c = '\t') :
    '\n' ∉ indent := by
  intro member
  rcases blank _ member with same | same <;> cases same

/-- What the search recognises at the start of a line is a header behind an indent. -/
theorem namedHeaderHere?_iff : (namedHeaderHere? name (precededBy none before) text).isSome ↔
    LineStart before ∧ ∃ indent rest, (∀ c ∈ indent, c = ' ' ∨ c = '\t') ∧ text = indent ++ rest ∧
      Header name rest := by
  rw [namedHeaderHere?_eq, lineStart_iff]
  split
  · rename_i starts
    rw [Option.isSome_map, ← header_iff, and_iff_right starts]
    constructor
    · intro header
      refine ⟨text.takeWhile isIndent, text.dropWhile isIndent, ?_, ?_, header⟩
      · intro c member
        simpa [isIndent] using List.mem_takeWhile_imp member
      · rw [List.takeWhile_append_dropWhile]
    · rintro ⟨indent, rest, blank, rfl, header⟩
      have behind : (indent ++ rest).dropWhile isIndent = rest := by
        rw [List.dropWhile_append_of_pos (by simpa [isIndent] using blank)]
        obtain ⟨gap, behind, _, _, rfl⟩ := header
        rfl
      exact behind.symm ▸ header
  · rename_i inside
    simp [inside]

/-- A line begins with a header where the search recognises one. -/
theorem headerOn_iff {line : Nat} : HeaderOn content name line ↔ ∃ front text, content = front ++ text ∧
    (namedHeaderHere? name (precededBy none front) text).isSome ∧ lineAfter front = line := by
  constructor
  · rintro ⟨_, rest, rfl, ⟨front, indent, starts, blank, rfl⟩, header, rfl⟩
    refine ⟨front, indent ++ rest, by rw [List.append_assoc], ?_, ?_⟩
    · exact namedHeaderHere?_iff.mpr ⟨starts, indent, rest, blank, rfl, header⟩
    · exact (lineAfter_append_of_notMem (notMem_of_indent blank)).symm
  · rintro ⟨front, text, rfl, here, rfl⟩
    obtain ⟨starts, indent, rest, blank, rfl, header⟩ := namedHeaderHere?_iff.mp here
    exact ⟨front ++ indent, rest, by rw [List.append_assoc], ⟨_, _, starts, blank, rfl⟩, header,
      lineAfter_append_of_notMem (notMem_of_indent blank)⟩

/-- The search goes to the first line that begins with a header of the name. -/
theorem headerLine_cases (content name : List Char) :
    IsLeast {line | HeaderOn content name line} (headerLine content name) ∨
      headerLine content name = 0 ∧ ∀ line, ¬ HeaderOn content name line := by
  unfold headerLine
  split
  · rename_i found here
    obtain ⟨text, split, recognised, _⟩ := findFirst_eq_some_iff.mp here
    left
    constructor
    · exact headerOn_iff.mpr
        ⟨found.before, text, split, Option.isSome_of_eq_some recognised, rfl⟩
    · intro line header
      obtain ⟨front, back, split, recognised, rfl⟩ := headerOn_iff.mp header
      exact lineAfter_mono (prefix_of_findFirst here split recognised)
  · rename_i missed
    refine .inr ⟨rfl, fun line header => ?_⟩
    obtain ⟨front, back, split, recognised, _⟩ := headerOn_iff.mp header
    rw [findFirst_eq_none_iff.mp missed front back split] at recognised
    cases recognised

/-- The line that is found is a given one exactly when that is the first to begin with a header. -/
theorem headerLine_eq_iff {line : Nat} (counted : 0 < line) :
    headerLine content name = line ↔ IsLeast {line | HeaderOn content name line} line := by
  constructor
  · rintro rfl
    rcases headerLine_cases content name with first | ⟨zero, _⟩
    · exact first
    · exact absurd zero counted.ne'
  · intro first
    rcases headerLine_cases content name with found | ⟨_, nowhere⟩
    · exact found.unique first
    · exact absurd first.1 (nowhere line)

/-- A line that begins with a header of the name is not above the one that is found. -/
theorem headerLine_of_headerOn {line : Nat} (header : HeaderOn content name line) :
    0 < headerLine content name ∧ headerLine content name ≤ line := by
  rcases headerLine_cases content name with first | ⟨_, nowhere⟩
  · obtain ⟨_, _, _, _, _, same⟩ := first.1
    exact ⟨by rw [← same]; exact Nat.succ_pos _, first.2 header⟩
  · exact absurd header (nowhere line)

/-- The module blocks of a document, each with the text behind its keyword. -/
def moduleBlocks (content : String) : List Hcl.Placed :=
  ((Hcl.placements content).getD []).filter fun placed => placed.statement.word == "module"

/-- A dependency with the line of the first header of its name, or zero where there is none. -/
def FirstHeader (content : List Char) (dependency : Dependency) : Prop :=
  IsLeast {line | HeaderOn content dependency.name.toList line} dependency.line ∨
    dependency.line = 0 ∧ ∀ line, ¬ HeaderOn content dependency.name.toList line

/-- A dependency of a block whose keyword stands between two texts. It has the line of the keyword
exactly when that is the first line to begin with a header of its name; and where the block begins its
line with such a header itself, it has that line or one above. -/
structure KeywordLine (before behind : List Char) (dependency : Dependency) : Prop where
  line_iff : dependency.line = lineAfter before ↔
    IsLeast {line | HeaderOn (before ++ ("module".toList ++ behind)) dependency.name.toList line}
      (lineAfter before)
  bounded : Indented before → Header dependency.name.toList ("module".toList ++ behind) →
    0 < dependency.line ∧ dependency.line ≤ lineAfter before

structure BlockLines (content : List Char) (path : String) (block : Hcl.Placed)
    (dependencies : List Dependency) : Prop where
  read : ∃ value modules, Hcl.blockValue block.statement = some ("module", value) ∧
    blockModules value = .ok modules ∧ dependencies = modules.filterMap (located? content path)
  lines : ∃ before behind, block.behind = behind ++ ['\n'] ∧
    content = before ++ ("module".toList ++ behind) ∧
    ∀ dependency ∈ dependencies, KeywordLine before behind dependency

theorem line_of_located? {module : ModuleSource} {dependency : Dependency}
    (found : located? content path module = some dependency) :
    dependency.line = headerLine content dependency.name.toList := by
  unfold located? moduleDependency? at found
  dsimp only at found
  split at found
  · obtain rfl := Option.some.inj found
    rw [String.toList_ofList]
  · cases found

theorem keywordLine_of_headerLine {behind : List Char} {dependency : Dependency}
    (line : dependency.line =
      headerLine (before ++ ("module".toList ++ behind)) dependency.name.toList) :
    KeywordLine before behind dependency := by
  constructor
  · rw [line]
    exact headerLine_eq_iff (Nat.succ_pos _)
  · intro indented header
    rw [line]
    exact headerLine_of_headerOn ⟨before, _, rfl, indented, header, rfl⟩

/-- The module blocks of a document stand in its text, each behind those before it. -/
theorem inOrder_moduleBlocks (content : String) :
    Hcl.InOrder (content.toList ++ ['\n']) (moduleBlocks content) := by
  unfold moduleBlocks
  cases read : Hcl.placements content with
  | none => exact ⟨nofun, .nil⟩
  | some placed =>
    obtain ⟨stands, ordered⟩ := Hcl.inOrder_of_placements read
    exact ⟨fun block member => stands block (List.mem_filter.mp member).1, ordered.filter _⟩

/-- The keyword of a module block stands in the text of the document, before the line end that is added
to it. -/
theorem keyword_of_mem_moduleBlocks {content : String} {block : Hcl.Placed}
    (member : block ∈ moduleBlocks content) :
    ∃ before behind, block.behind = behind ++ ['\n'] ∧
      content.toList = before ++ ("module".toList ++ behind) := by
  obtain ⟨before, whole⟩ := (inOrder_moduleBlocks content).1 block member
  rw [Hcl.Placed.text, beq_iff_eq.mp (List.mem_filter.mp member).2] at whole
  rcases List.eq_nil_or_concat' block.behind with nothing | ⟨behind, last, same⟩
  · rw [nothing, List.append_nil] at whole
    have last := congrArg List.getLast? whole
    rw [List.getLast?_append_of_ne_nil _ (by simp), List.getLast?_concat] at last
    cases last
  · rw [same, ← List.append_assoc, ← List.append_assoc] at whole
    obtain ⟨keyword, ended⟩ := List.append_inj' whole rfl
    obtain rfl := (List.cons.inj ended).1
    exact ⟨before, behind, same, by rw [← keyword, List.append_assoc]⟩

theorem modulesByDocument_eq_ok {content : String} {found : List Dependency}
    (scanned : modulesByDocument content path = .ok (.ok found)) :
    ∃ modules, documentModules content = .ok (.ok modules) ∧
      found = modules.filterMap (located? content.toList path) := by
  rw [modulesByDocument_eq, map_eq_ok] at scanned
  obtain ⟨modules?, read, scanned⟩ := scanned
  obtain ⟨modules, rfl, same⟩ := map_eq_ok.mp scanned
  exact ⟨modules, read, same.symm⟩

/-- The modules of a document are those of its module blocks, in order, where no attribute of it has the
name of the keyword. -/
theorem modules_of_blocks {content : String} {modules : List ModuleSource}
    (blocks : Repin.ModulesAreBlocks content)
    (read : documentModules content = .ok (.ok modules)) :
    ∃ lists, modules = lists.flatten ∧ List.Forall₂ (fun block modules => ∃ value,
      Hcl.blockValue block.statement = some ("module", value) ∧ blockModules value = .ok modules)
        (moduleBlocks content) lists := by
  unfold documentModules at read
  split at read
  · cases read
  · rename_i fields document
    obtain ⟨body, parsed, built⟩ := Option.bind_eq_some_iff.mp document
    obtain ⟨values, built, holds⟩ :=
      Hcl.holds_of_bodyFields (blocks body parsed) (show Hcl.Holds "module" [] [] from rfl) built
    rw [Hcl.Holds] at holds
    rw [holds] at read
    obtain ⟨lists, each, same⟩ := bind_eq_ok.mp (Except.ok.inj read)
    obtain rfl := Except.ok.inj same
    refine ⟨lists, rfl, ?_⟩
    have placed : body.filter (fun statement => statement.word == "module") =
        (moduleBlocks content).map Hcl.Placed.statement := by
      rw [Hcl.document?_eq] at parsed
      obtain ⟨placed, found, rfl⟩ := Option.map_eq_some_iff.mp parsed
      rw [moduleBlocks, found, List.filter_map]
      rfl
    rw [placed, List.forall₂_map_left_iff] at built
    exact forall₂_trans (fun _ value _ here there => ⟨value, here, there⟩) built (mapM_eq_ok.mp each)

/-- Lines of modules: every dependency of a document has the line of the first header of its name in the
text, or zero. The dependencies are those of the module blocks, which stand in the text one behind
another; each has the line of its block's keyword exactly when that line begins with a header of its name
and no line above it does. -/
theorem modules_lines {content : String} {found : List Dependency}
    (scanned : modulesByDocument content path = .ok (.ok found)) :
    (∀ dependency ∈ found, FirstHeader content.toList dependency) ∧
      (Repin.ModulesAreBlocks content →
        ((moduleBlocks content).Pairwise fun first second => second.text <:+ first.behind) ∧
        ∃ lists, found = lists.flatten ∧
          List.Forall₂ (BlockLines content.toList path) (moduleBlocks content) lists) := by
  obtain ⟨modules, read, rfl⟩ := modulesByDocument_eq_ok scanned
  constructor
  · intro dependency member
    obtain ⟨module, _, here⟩ := List.mem_filterMap.mp member
    rw [FirstHeader, line_of_located? here]
    exact headerLine_cases content.toList dependency.name.toList
  · intro blocks
    obtain ⟨lists, rfl, each⟩ := modules_of_blocks blocks read
    refine ⟨(inOrder_moduleBlocks content).2, lists.map (List.filterMap (located? content.toList path)),
      List.filterMap_flatten, ?_⟩
    rw [List.forall₂_map_right_iff]
    have stands := (List.forall₂_and_left _ _).mpr
      ⟨fun block member => keyword_of_mem_moduleBlocks member, each⟩
    refine stands.imp fun block modules here => ?_
    obtain ⟨⟨before, behind, ended, whole⟩, value, block, given⟩ := here
    refine ⟨⟨value, modules, block, given, rfl⟩, before, behind, ended, whole, ?_⟩
    intro dependency member
    obtain ⟨module, _, here⟩ := List.mem_filterMap.mp member
    apply keywordLine_of_headerLine
    rw [← whole]
    exact line_of_located? here

/-- A document with a line of comment above its one module. -/
private def commented (comment : String) : String :=
  comment ++ "module \"a\" \x7b source = \"git::https://h/net?ref=v1\" \x7d\n"

private def commentedModule : Dependency :=
  ⟨"a", "git::https://h/net", "v1", "main.tf", 2, .module⟩

private def commentedFields : List (Datum × Datum) :=
  [(.text "module", .list [.object [(.text "\"a\"", .ofFields
    [("source", .text "\"git::https://h/net?ref=v1\""), ("__is_block__", .bool true)])]])]

theorem modules_lines_sample :
    let content := commented "# module \"a\"\n"
    modulesByDocument content "main.tf" = .ok (.ok [commentedModule]) ∧
      IsLeast {line | HeaderOn content.toList ['a'] line} 2 ∧ Repin.ModulesAreBlocks content ∧
      ∃ lists, [commentedModule] = lists.flatten ∧
        List.Forall₂ (BlockLines content.toList "main.tf") (moduleBlocks content) lists := by
  have document : Hcl.read? (commented "# module \"a\"\n") = some commentedFields := by
    decide +kernel
  have scanned : modulesByDocument (commented "# module \"a\"\n") "main.tf" =
      .ok (.ok [commentedModule]) := by
    rw [modulesByDocument, document]
    rfl
  have blocks : Repin.ModulesAreBlocks (commented "# module \"a\"\n") := by decide +kernel
  obtain ⟨first, each⟩ := modules_lines scanned
  refine ⟨scanned, ?_, blocks, (each blocks).2⟩
  rcases first _ List.mem_cons_self with first | ⟨zero, _⟩
  · exact first
  · cases zero

/-- A header in a comment is taken for that of the block below it. -/
theorem not_modules_lines :
    ¬ ∀ (content path : String) (found : List Dependency),
      modulesByDocument content path = .ok (.ok found) → ∀ dependency ∈ found,
        ∃ block ∈ moduleBlocks content, ∃ before, content.toList ++ ['\n'] = before ++ block.text ∧
          dependency.line = lineAfter before := by
  intro reported
  have document : Hcl.read? (commented "/*\nmodule \"a\" \x7b\n*/\n") = some commentedFields := by
    decide +kernel
  have scanned : modulesByDocument (commented "/*\nmodule \"a\" \x7b\n*/\n") "main.tf" =
      .ok (.ok [commentedModule]) := by
    rw [modulesByDocument, document]
    rfl
  have only : (moduleBlocks (commented "/*\nmodule \"a\" \x7b\n*/\n")).map Hcl.Placed.text =
      [(commented "").toList ++ ['\n']] := by decide +kernel
  obtain ⟨block, member, before, whole, line⟩ := reported _ _ _ scanned _ List.mem_cons_self
  have text := List.mem_map_of_mem (f := Hcl.Placed.text) member
  rw [only, List.mem_singleton] at text
  have above : before = "/*\nmodule \"a\" \x7b\n*/\n".toList := by
    apply (List.append_left_inj block.text).mp
    rw [← whole, text]
    rfl
  rw [above] at line
  exact absurd line (by decide)

end InfraPins.Scan
