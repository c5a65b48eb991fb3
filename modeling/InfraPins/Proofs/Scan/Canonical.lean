import InfraPins.Proofs.Hcl.Plain
import InfraPins.Proofs.Scan.Headers
import InfraPins.Proofs.Scan.Modules
import InfraPins.Proofs.Text.Lines
import InfraPins.Proofs.Version.Characters

/-! Canonical files: module blocks of different names, each with its source on the first line of its body
and a literal on each further line. The document and the patterns of such a file show the same modules,
though the one is read token by token and asked for lines by name, and the other is searched for blocks:
each module that is pinned, in order and on the line of its header. -/

namespace InfraPins.Scan

open Text Hcl Result

def isLiteralChar (c : Char) : Bool :=
  c.isAlphanum || ['_', '-', '.', ':', '/', '?', '&', '=', '@', '+'].contains c

/-- A literal under a word of small letters that is not `source`. -/
structure CanonicalEntry where
  word : List Char
  literal : List Char
  worded : ∃ first more, word = first :: more ∧ first.isLower = true ∧
    ∀ c ∈ more, c.isLower = true ∨ c = '_'
  other : word ≠ "source".toList
  chars : ∀ c ∈ literal, isLiteralChar c = true

/-- A module block with a source and further literals. -/
structure CanonicalBlock where
  name : List Char
  source : List Char
  entries : List CanonicalEntry
  named : name ≠ []
  name_chars : ∀ c ∈ name, continuesName c = true
  sourced : source ≠ []
  source_chars : ∀ c ∈ source, isLiteralChar c = true

namespace CanonicalBlock

def lines (block : CanonicalBlock) : List (List Char) :=
  ("module \"".toList ++ block.name ++ "\" \x7b".toList) ::
    ("  source = \"".toList ++ block.source ++ ['"']) ::
    (block.entries.map fun entry =>
      "  ".toList ++ entry.word ++ " = \"".toList ++ entry.literal ++ ['"']) ++ [['}']]

/-- The dependency of a block whose header stands on a line: that of a pinned Git source. -/
def dependency? (block : CanonicalBlock) (path : String) (line : Nat) : Option Dependency :=
  if Source.isGit block.source = true ∧ Source.version block.source ≠ [] then
    some {
      name := String.ofList block.name
      source := String.ofList (Source.withoutVersion block.source)
      current := String.ofList (Source.version block.source)
      path
      line
      kind := .module }
  else none

end CanonicalBlock

/-- The dependencies of blocks with blank lines above each, from a line on. -/
def canonicalDependencies (path : String) (line : Nat) :
    List (List (List Char) × CanonicalBlock) → List Dependency
  | [] => []
  | (blank, block) :: rest =>
    let header := line + blank.length
    (block.dependency? path header).toList ++
      canonicalDependencies path (header + block.lines.length) rest

/-- A file of module blocks, with blank lines above each and at the end. -/
structure CanonicalFile where
  blocks : List (List (List Char) × CanonicalBlock)
  trailing : List (List Char)
  some : blocks ≠ []
  blank : ∀ placed ∈ blocks, ∀ line ∈ placed.1, ∀ c ∈ line, c = ' ' ∨ c = '\t'
  trailing_blank : ∀ line ∈ trailing, ∀ c ∈ line, c = ' ' ∨ c = '\t'
  distinct : (blocks.map fun placed => placed.2.name).Nodup

namespace CanonicalFile

/-- The text of a file: its lines, with a line end between each two. -/
def text (file : CanonicalFile) : List Char :=
  join ['\n'] (file.blocks.flatMap (fun placed => placed.1 ++ placed.2.lines) ++ file.trailing)

def dependencies (file : CanonicalFile) (path : String) : List Dependency :=
  canonicalDependencies path 1 file.blocks

end CanonicalFile

theorem plain_of_isLiteralChar {c : Char} (literal : isLiteralChar c = true) :
    isPlainChar c = true ∧ isBlank c = false := by
  simp only [isLiteralChar, Bool.or_eq_true, List.contains_iff_mem] at literal
  rcases literal with letter | mark
  · have word := isWord_of_isAlphanum letter
    constructor
    · cases plain : isPlainChar c with
      | true => rfl
      | false =>
        simp only [isPlainChar, Bool.not_eq_false', Bool.or_eq_true, beq_iff_eq, or_assoc] at plain
        rcases plain with rfl | rfl | rfl | rfl | rfl <;> revert letter <;> decide
    · cases blank : isBlank c with
      | false => rfl
      | true =>
        rw [isWord_of_isBlank blank] at word
        cases word
  · simp only [List.mem_cons, List.not_mem_nil, or_false] at mark
    rcases mark with rfl | rfl | rfl | rfl | rfl | rfl | rfl | rfl | rfl | rfl <;> decide

theorem isLiteralChar_of_continuesName {c : Char} (continues : continuesName c = true) :
    isLiteralChar c = true := by
  simp only [continuesName, Bool.or_eq_true, beq_iff_eq, or_assoc] at continues
  rcases continues with letter | rfl | rfl
  · simp [isLiteralChar, letter]
  · rfl
  · rfl

/-- The field of a further literal. -/
def CanonicalEntry.field (entry : CanonicalEntry) : PlainField where
  name := entry.word
  value := entry.literal
  named := by
    obtain ⟨first, more, same, small, rest⟩ := entry.worded
    have letter {c : Char} (small : c.isLower = true) : c.isAlpha = true :=
      Bool.or_eq_true_iff.mpr (.inr small)
    refine ⟨first, more, same, ?_, ?_⟩
    · simp [startsName, letter small]
    · intro c member
      rcases rest c member with small | rfl
      · simp [continuesName, Char.isAlphanum, letter small]
      · rfl
  plain c member := (plain_of_isLiteralChar (entry.chars c member)).1

namespace CanonicalBlock

def sourceField (block : CanonicalBlock) : PlainField where
  name := "source".toList
  value := block.source
  named := ⟨'s', "ource".toList, rfl, by decide, List.all_eq_true.mp (by decide)⟩
  plain c member := (plain_of_isLiteralChar (block.source_chars c member)).1

/-- The fields behind the source. -/
def fields (block : CanonicalBlock) : List PlainField :=
  block.entries.map CanonicalEntry.field

def plain (block : CanonicalBlock) : PlainBlock where
  kind := "module".toList
  label := block.name
  fields := block.sourceField :: block.fields
  named := ⟨'m', "odule".toList, rfl, by decide, List.all_eq_true.mp (by decide)⟩
  plain c member :=
    (plain_of_isLiteralChar (isLiteralChar_of_continuesName (block.name_chars c member))).1

def text (block : CanonicalBlock) : List Char :=
  block.plain.text

/-- The text of a block is its lines. -/
theorem text_eq_lines (block : CanonicalBlock) :
    block.lines.flatMap (['\n'] ++ ·) = '\n' :: block.text := by
  simp [lines, text, plain, PlainBlock.text, PlainBlock.labelled, bodyText, sourceField,
    PlainField.assigned, fields, CanonicalEntry.field, List.flatMap_map]

theorem free_of_mem_lines (block : CanonicalBlock) {line : List Char} (member : line ∈ block.lines) :
    '\n' ∉ line := by
  have literal {chars : List Char} (all : ∀ c ∈ chars, isLiteralChar c = true) : '\n' ∉ chars := by
    intro inside
    exact absurd (all '\n' inside) (by decide)
  have name : '\n' ∉ block.name := by
    intro inside
    exact absurd (block.name_chars '\n' inside) (by decide)
  simp only [lines, List.cons_append, List.mem_cons, List.mem_append, List.mem_map,
    List.not_mem_nil, or_false] at member
  rcases member with rfl | rfl | ⟨entry, _, rfl⟩ | rfl
  · simp [name]
  · simp [literal block.source_chars]
  · have word : '\n' ∉ entry.word := by
      obtain ⟨first, more, same, small, rest⟩ := entry.worded
      rw [same, List.mem_cons]
      rintro (rfl | inside)
      · exact absurd small (by decide)
      · rcases rest _ inside with small | same
        · exact absurd small (by decide)
        · cases same
    simp [word, literal entry.chars]
  · decide

end CanonicalBlock

/-- Lines behind a line end each have as many line ends as they are. -/
theorem count_lines {lines : List (List Char)} (free : ∀ line ∈ lines, '\n' ∉ line) :
    (lines.flatMap (['\n'] ++ ·)).count '\n' = lines.length := by
  induction lines with
  | nil => rfl
  | cons line lines ih =>
    obtain ⟨here, onward⟩ := List.forall_mem_cons.mp free
    rw [List.flatMap_cons, List.count_append, ih onward, List.count_append,
      List.count_eq_zero.mpr here]
    simp [Nat.add_comm]

theorem CanonicalBlock.count_text (block : CanonicalBlock) :
    block.text.count '\n' + 1 = block.lines.length := by
  have count := count_lines fun _ => block.free_of_mem_lines
  rw [block.text_eq_lines, List.count_cons_self] at count
  exact count

/-- The text above a block from the end of the line before it on. -/
def gapText (blank : List (List Char)) : List Char :=
  blank.flatMap (['\n'] ++ ·) ++ ['\n']

/-- Blocks with the text before each of them. -/
def places (passed : List Char) : List (List Char × CanonicalBlock) → List (Match CanonicalBlock)
  | [] => []
  | (gap, block) :: rest => ⟨passed ++ gap, block⟩ :: places (passed ++ gap ++ block.text) rest

/-- The text of blocks with something before each, and of what stands behind them. -/
def placedText (placed : List (List Char × CanonicalBlock)) (ending : List Char) : List Char :=
  blocksText (placed.map fun placed => (placed.1, placed.2.plain)) ending

theorem placedText_cons (gap : List Char) (block : CanonicalBlock)
    (rest : List (List Char × CanonicalBlock)) (ending : List Char) :
    placedText ((gap, block) :: rest) ending = gap ++ (block.text ++ placedText rest ending) := by
  simp [placedText, blocksText, CanonicalBlock.text]

/-- Blocks behind the first, with the text above them. -/
def placeBehind (blocks : List (List (List Char) × CanonicalBlock)) :
    List (List Char × CanonicalBlock) :=
  blocks.map fun placed => (gapText placed.1, placed.2)

theorem placeBehind_cons (blank : List (List Char)) (block : CanonicalBlock)
    (rest : List (List (List Char) × CanonicalBlock)) :
    placeBehind ((blank, block) :: rest) = (gapText blank, block) :: placeBehind rest := rfl

theorem placedText_behind (blocks : List (List (List Char) × CanonicalBlock))
    (trailing : List (List Char)) :
    placedText (placeBehind blocks) (trailing.flatMap (['\n'] ++ ·)) =
      (blocks.flatMap (fun placed => placed.1 ++ placed.2.lines) ++ trailing).flatMap
        (['\n'] ++ ·) := by
  induction blocks with
  | nil => simp [placedText, blocksText, placeBehind]
  | cons placed blocks ih =>
    obtain ⟨blank, block⟩ := placed
    rw [placeBehind_cons, placedText_cons, ih, List.flatMap_cons]
    simp only [List.flatMap_append, List.append_assoc, block.text_eq_lines, gapText]
    simp

private theorem filterMap_places_cons {path : String} {line : Nat} {passed gap : List Char}
    {blank : List (List Char)} {block : CanonicalBlock} {placed : List (List Char × CanonicalBlock)}
    {rest : List (List (List Char) × CanonicalBlock)}
    (header : lineAfter (passed ++ gap) = line + blank.length)
    (behind : (places (passed ++ gap ++ block.text) placed).filterMap
        (fun place => place.value.dependency? path (lineAfter place.before)) =
      canonicalDependencies path (lineAfter (passed ++ gap ++ block.text) + 1) rest) :
    (places passed ((gap, block) :: placed)).filterMap
        (fun place => place.value.dependency? path (lineAfter place.before)) =
      canonicalDependencies path line ((blank, block) :: rest) := by
  have closing : lineAfter (passed ++ gap ++ block.text) + 1 =
      line + blank.length + block.lines.length := by
    rw [← header, ← block.count_text, lineAfter, List.count_append, lineAfter]
    omega
  rw [closing] at behind
  rw [places, List.filterMap_cons, header, behind, canonicalDependencies]
  cases block.dependency? path (line + blank.length) <;> rfl

private theorem filterMap_places_behind (path : String)
    (blocks : List (List (List Char) × CanonicalBlock))
    (blank : ∀ placed ∈ blocks, ∀ line ∈ placed.1, '\n' ∉ line) (passed : List Char) :
    (places passed (placeBehind blocks)).filterMap
        (fun place => place.value.dependency? path (lineAfter place.before)) =
      canonicalDependencies path (lineAfter passed + 1) blocks := by
  induction blocks generalizing passed with
  | nil => rfl
  | cons placed blocks ih =>
    obtain ⟨blanks, block⟩ := placed
    obtain ⟨here, onward⟩ := List.forall_mem_cons.mp blank
    apply filterMap_places_cons
    · rw [lineAfter, List.count_append, gapText, List.count_append, count_lines here, lineAfter]
      simp
      omega
    · exact ih onward _

theorem isLead_lines {lines : List (List Char)} (blank : ∀ line ∈ lines, ∀ c ∈ line, c = ' ' ∨ c = '\t') :
    IsLead (lines.flatMap (['\n'] ++ ·)) := by
  intro c member
  obtain ⟨line, inside, member⟩ := List.mem_flatMap.mp member
  rcases List.mem_cons.mp member with rfl | member
  · exact .inr (.inr rfl)
  · rcases blank line inside c member with same | same
    · exact .inl same
    · exact .inr (.inl same)

theorem isLead_gapText {lines : List (List Char)}
    (blank : ∀ line ∈ lines, ∀ c ∈ line, c = ' ' ∨ c = '\t') : IsLead (gapText lines) := by
  intro c member
  rcases List.mem_append.mp member with inside | last
  · exact isLead_lines blank c inside
  · exact .inr (.inr (List.mem_singleton.mp last))

namespace CanonicalFile

variable (file : CanonicalFile)

/-- The blocks of a file with the text above each of them. -/
def placed : List (List Char × CanonicalBlock) :=
  match file.blocks with
  | [] => []
  | (blank, block) :: rest => ((gapText blank).tail, block) :: placeBehind rest

/-- The text behind the last block. -/
def ending : List Char :=
  file.trailing.flatMap (['\n'] ++ ·)

private theorem gapText_eq (blank : List (List Char)) : gapText blank = '\n' :: (gapText blank).tail := by
  cases blank <;> rfl

theorem text_eq_placedText : file.text = placedText file.placed file.ending := by
  obtain ⟨⟨blank, block⟩, rest, blocks⟩ := List.exists_cons_of_ne_nil file.some
  have shown : file.placed = ((gapText blank).tail, block) :: placeBehind rest := by
    rw [placed, blocks]
  have line : '\n' :: placedText file.placed file.ending =
      placedText (placeBehind file.blocks) file.ending := by
    rw [shown, blocks, placeBehind_cons, placedText_cons, placedText_cons, gapText_eq blank,
      List.cons_append, List.tail_cons]
  have joined {lines : List (List Char)} (some : lines ≠ []) :
      '\n' :: join ['\n'] lines = lines.flatMap (['\n'] ++ ·) := by
    obtain ⟨first, others, rfl⟩ := List.exists_cons_of_ne_nil some
    rw [join_cons, List.flatMap_cons]
    rfl
  have some : file.blocks.flatMap (fun placed => placed.1 ++ placed.2.lines) ++ file.trailing ≠ [] := by
    simp [blocks, CanonicalBlock.lines]
  have both := line.trans (placedText_behind file.blocks file.trailing)
  rw [← joined some] at both
  exact (List.cons.inj both).2.symm

private theorem unbroken_of_blank {lines : List (List Char)}
    (blank : ∀ line ∈ lines, ∀ c ∈ line, c = ' ' ∨ c = '\t') : ∀ line ∈ lines, '\n' ∉ line := by
  intro line member inside
  rcases blank line member _ inside with same | same <;> cases same

/-- The dependencies of a file are those of its blocks, each on the line behind what stands above it. -/
theorem filterMap_placed (path : String) :
    (places [] file.placed).filterMap
        (fun place => place.value.dependency? path (lineAfter place.before)) =
      file.dependencies path := by
  obtain ⟨⟨blank, block⟩, rest, blocks⟩ := List.exists_cons_of_ne_nil file.some
  obtain ⟨here, onward⟩ := List.forall_mem_cons.mp (blocks ▸ file.blank)
  rw [placed, dependencies, blocks]
  apply filterMap_places_cons
  · have count : (gapText blank).count '\n' = blank.length + 1 := by
      rw [gapText, List.count_append, count_lines (unbroken_of_blank here)]
      rfl
    rw [gapText_eq, List.count_cons_self] at count
    rw [List.nil_append, lineAfter, Nat.add_right_cancel count, Nat.add_comm]
  · exact filterMap_places_behind path rest
      (fun placed member => unbroken_of_blank (onward placed member)) _

theorem isLead_of_mem_placed {gap : List Char} {block : CanonicalBlock}
    (member : (gap, block) ∈ file.placed) : IsLead gap := by
  obtain ⟨⟨blank, first⟩, rest, blocks⟩ := List.exists_cons_of_ne_nil file.some
  obtain ⟨here, onward⟩ := List.forall_mem_cons.mp (blocks ▸ file.blank)
  rw [placed, blocks] at member
  rcases List.mem_cons.mp member with same | member
  · obtain ⟨rfl, -⟩ := Prod.mk.inj same
    intro c inside
    exact isLead_gapText here c (List.mem_of_mem_tail inside)
  · obtain ⟨other, inside, same⟩ := List.mem_map.mp member
    obtain ⟨rfl, -⟩ := Prod.mk.inj same
    exact isLead_gapText (onward other inside)

theorem isLead_ending : IsLead file.ending :=
  isLead_lines file.trailing_blank

theorem map_name_placed : file.placed.map (fun placed => placed.2.name) =
    file.blocks.map fun placed => placed.2.name := by
  obtain ⟨⟨blank, block⟩, rest, blocks⟩ := List.exists_cons_of_ne_nil file.some
  simp [placed, blocks, placeBehind]

end CanonicalFile

end InfraPins.Scan
