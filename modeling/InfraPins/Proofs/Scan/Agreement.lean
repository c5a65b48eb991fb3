import InfraPins.Proofs.Scan.Canonical

namespace InfraPins.Scan

open Text Hcl Result

variable {rest : List Char}

theorem not_isBlank_of_continuesName {c : Char} (continues : continuesName c = true) :
    isBlank c = false :=
  (plain_of_isLiteralChar (isLiteralChar_of_continuesName continues)).2

theorem not_isBlank_of_isName {name : List Char} (named : IsName name) : ∀ c ∈ name, isBlank c = false := by
  obtain ⟨first, more, rfl, starts, continues⟩ := named
  intro c member
  apply not_isBlank_of_continuesName
  rcases List.mem_cons.mp member with rfl | member
  · simp only [startsName, Bool.or_eq_true, beq_iff_eq] at starts
    rcases starts with letter | rfl
    · simp [continuesName, Char.isAlphanum, letter]
    · rfl
  · exact continues c member

theorem quiet_lead {lead : List Char} (blank : IsLead lead) (text : List Char) :
    Quiet headed? lead text := by
  apply quiet_of_notMem
  intro member
  rcases blank 'm' member with same | same | same <;> cases same

/-- A quoted literal opens no module. -/
theorem quiet_literal {literal : List Char} (solid : ∀ c ∈ literal, isBlank c = false)
    (text : List Char) : Quiet headed? (literal ++ ['"']) text := by
  apply Quiet.append
  · exact quiet_word solid (by decide) nofun
  · exact quiet_of_notMem (by decide) text

/-- The further lines of a block open no module. -/
theorem quiet_body {fields : List PlainField}
    (solid : ∀ field ∈ fields, ∀ c ∈ field.value, isBlank c = false) (text : List Char) :
    Quiet headed? (bodyText fields) text := by
  induction fields with
  | nil => exact quiet_of_notMem (by decide) text
  | cons field fields ih =>
    obtain ⟨here, onward⟩ := List.forall_mem_cons.mp solid
    have assigned : field.assigned = [' ', '=', ' ', '"'] ++ (field.value ++ ['"']) := rfl
    have name : Quiet headed? field.name (field.assigned ++ (bodyText fields ++ text)) :=
      quiet_word (not_isBlank_of_isName field.named) (by decide) fun _ => rfl
    have value : Quiet headed? field.assigned (bodyText fields ++ text) := by
      rw [assigned]
      exact (quiet_of_notMem (by decide) _).append (quiet_literal here _)
    rw [bodyText_cons]
    apply Quiet.append
    · exact quiet_of_notMem (by decide) _
    · apply Quiet.append
      · rw [List.append_assoc]
        exact name
      · exact value.append (ih onward)

namespace CanonicalBlock

variable (block : CanonicalBlock)

/-- No literal of a block has white space in it. -/
theorem solid_fields : ∀ field ∈ block.plain.fields, ∀ c ∈ field.value, isBlank c = false := by
  intro field member c inside
  rcases List.mem_cons.mp member with rfl | member
  · exact (plain_of_isLiteralChar (block.source_chars c inside)).2
  · obtain ⟨entry, _, rfl⟩ := List.mem_map.mp member
    exact (plain_of_isLiteralChar (entry.chars c inside)).2

/-- The text of a block up to the end of its source. -/
def opening : List Char :=
  "module".toList ++ ' ' :: '"' :: (block.name ++ '"' :: ' ' :: '{' ::
    '\n' :: ' ' :: ' ' :: ("source".toList ++ block.sourceField.assigned))

theorem text_eq_opening : block.text = block.opening ++ bodyText block.fields := by
  simp [text, plain, PlainBlock.text, PlainBlock.labelled, bodyText_cons, opening, sourceField]

/-- The header of a block is one. -/
theorem headed?_opening : headed? (block.opening ++ rest) =
    some (block.name ++ '"' :: ' ' :: '{' ::
      '\n' :: ' ' :: ' ' :: ("source".toList ++ (block.sourceField.assigned ++ rest))) := by
  have whole : block.opening ++ rest = "module".toList ++ (' ' :: '"' :: (block.name ++
      '"' :: ' ' :: '{' :: '\n' :: ' ' :: ' ' ::
        ("source".toList ++ (block.sourceField.assigned ++ rest)))) := by
    simp [opening]
  have space : isBlank ' ' = true := by decide
  have quote : isBlank '"' = false := by decide
  rw [headed?, after?_eq_some_iff.mpr whole]
  simp [space, quote, after?]

theorem quote_notMem_name : '"' ∉ block.name := by
  intro member
  exact absurd (block.name_chars '"' member) (by decide)

theorem quote_notMem_source : '"' ∉ block.source := by
  intro member
  exact absurd (block.source_chars '"' member) (by decide)

/-- The source of a block is found behind its indent. -/
theorem sourceWithin?_sourceField : sourceWithin?
    ('\n' :: ' ' :: ' ' :: ("source".toList ++ (block.sourceField.assigned ++ rest))) =
      some (block.source, rest) := by
  have key : "source".toList = 's' :: "ource".toList := rfl
  have outside {c : Char} (other : 's' ≠ c) (text : List Char) : sourceHere? (c :: text) = none := by
    rw [sourceHere?_eq, key]
    simp [after?, other]
  have space : ∀ c ∈ [' '], isBlank c = true := List.forall_mem_singleton.mpr rfl
  have assigned := afterAssign?_of_eq space space (block.source ++ '"' :: rest)
  have split : block.sourceField.assigned ++ rest =
      [' '] ++ '=' :: ([' '] ++ '"' :: (block.source ++ '"' :: rest)) := by
    simp [PlainField.assigned, sourceField]
  have found : sourceHere? ("source".toList ++ (block.sourceField.assigned ++ rest)) =
      some (block.source, rest) := by
    rw [sourceHere?_eq, after?_eq_some_iff.mpr rfl, Option.bind_some, split, assigned,
      Option.bind_some, quotedHere?_eq]
    simp [after?, cutAt?_of_notMem block.quote_notMem_source, block.sourced]
  rw [sourceWithin?_cons, outside (by decide), sourceWithin?_cons, outside (by decide),
    sourceWithin?_cons, outside (by decide)]
  rw [key, List.cons_append] at found ⊢
  rw [sourceWithin?_cons, found]
  rfl

/-- A block is found at its header, and read up to the end of its source. -/
theorem blockHere?_opening : blockHere? (block.opening ++ rest) =
    some ((block.name, block.source), rest) := by
  have space : isBlank ' ' = true := by decide
  have brace : isBlank '{' = false := by decide
  have within := @sourceWithin?_sourceField rest block
  rw [blockHere?_eq, headerHere?_eq_headed, headed?_opening, Option.bind_some,
    cutAt?_of_notMem block.quote_notMem_name, Option.bind_some, if_neg (by simpa using block.named),
    Option.bind_some, trimStart]
  simpa [space, brace, after?] using within

theorem namedHere?_text : namedHere? block.name (block.text ++ rest) =
    some (' ' :: '{' :: '\n' :: ' ' :: ' ' ::
      ("source".toList ++ (block.sourceField.assigned ++ (bodyText block.fields ++ rest)))) := by
  rw [block.text_eq_opening, List.append_assoc, namedHere?, block.headed?_opening, Option.bind_some]
  apply after?_eq_some_iff.mpr
  simp

/-- A block opens a module of its own name only. -/
theorem quiet_named {name : List Char} (quoteless : '"' ∉ name) (other : name ≠ block.name) :
    Quiet (namedHere? name) block.text rest := by
  have apart : namedHere? name (block.text ++ rest) = none := by
    rw [block.text_eq_opening, List.append_assoc, namedHere?, block.headed?_opening, Option.bind_some,
      after?_eq_none_iff]
    rintro ⟨back, same⟩
    apply other
    exact eq_before quoteless block.quote_notMem_name (by simpa using same)
  have split : block.text = 'm' :: ("odule \"".toList ++ ((block.name ++ ['"']) ++ ([' ', '{'] ++
      bodyText block.plain.fields))) := by
    simp [text, plain, PlainBlock.text, PlainBlock.labelled]
  have label : Quiet headed? (block.name ++ ['"']) ([' ', '{'] ++ bodyText block.plain.fields ++ rest) :=
    quiet_literal (fun c member => not_isBlank_of_continuesName (block.name_chars c member)) _
  have body : Quiet headed? (bodyText block.plain.fields) rest := quiet_body block.solid_fields rest
  have behind : Quiet headed? ("odule \"".toList ++ ((block.name ++ ['"']) ++ ([' ', '{'] ++
      bodyText block.plain.fields))) rest :=
    (quiet_of_notMem (by decide) _).append (label.append ((quiet_of_notMem (by decide) _).append body))
  rw [split] at apart ⊢
  exact quiet_cons_iff.mpr ⟨apart, behind.imp (namedHere?_eq_none name)⟩

end CanonicalBlock

/-- The search for blocks finds those of a file, each behind the text above it. -/
theorem findAll_places {placed : List (List Char × CanonicalBlock)}
    (apart : ∀ above ∈ placed, IsLead above.1) {ending : List Char} (ends : IsLead ending)
    (passed : List Char) :
    findAll blockHere? passed (placedText placed ending) =
      (places passed.reverse placed).map fun place =>
        ⟨place.before, (place.value.name, place.value.source)⟩ := by
  induction placed generalizing passed with
  | nil =>
    have quiet := (quiet_lead ends []).imp blockHere?_eq_none
    have nothing := findAll_append passed quiet
    rw [List.append_nil, findAll_nil] at nothing
    simpa [placedText, blocksText, places] using nothing
  | cons first placed ih =>
    obtain ⟨gap, block⟩ := first
    obtain ⟨lead, apart⟩ := List.forall_mem_cons.mp apart
    have taken : block.opening ≠ [] := by simp [CanonicalBlock.opening]
    have above := (quiet_lead lead (block.text ++ placedText placed ending)).imp blockHere?_eq_none
    have further : ∀ field ∈ block.fields, ∀ c ∈ field.value, isBlank c = false :=
      fun field member => block.solid_fields field (List.mem_cons_of_mem _ member)
    have inside := (quiet_body further (placedText placed ending)).imp blockHere?_eq_none
    rw [placedText_cons, findAll_append passed above, block.text_eq_opening, List.append_assoc,
      findAll_of_some _ block.blockHere?_opening taken, findAll_append _ inside, ih apart, places,
      List.map_cons]
    simp [block.text_eq_opening]

theorem map_value_places (placed : List (List Char × CanonicalBlock)) (passed : List Char) :
    (places passed placed).map Match.value = placed.map Prod.snd := by
  induction placed generalizing passed with
  | nil => rfl
  | cons first placed ih => rw [places, List.map_cons, List.map_cons, ih]

def LineStart (before : List Char) : Prop :=
  before = [] ∨ ∃ front, before = front ++ ['\n']

/-- The line of a name is that of the block behind a text in which nothing has it. -/
theorem headerLine_of_quiet {front : List Char} (block : CanonicalBlock) (starts : LineStart front)
    (quiet : Quiet (namedHere? block.name) front (block.text ++ rest)) :
    headerLine (front ++ (block.text ++ rest)) block.name = lineAfter front := by
  have here : namedHeaderHere? block.name (precededBy none front) (block.text ++ rest) = some () := by
    have line : precededBy none front = none ∨ precededBy none front = some '\n' := by
      rcases starts with rfl | ⟨front, rfl⟩
      · exact .inl rfl
      · exact .inr (by simp [precededBy])
    have unindented : (block.text ++ rest).dropWhile (fun c => c == ' ' || c == '\t') =
        block.text ++ rest := rfl
    rw [namedHeaderHere?_eq, if_pos line, unindented, block.namedHere?_text]
    rfl
  have earlier : ∀ before middle, front = before ++ middle → middle ≠ [] →
      namedHeaderHere? block.name (precededBy none before) (middle ++ (block.text ++ rest)) = none := by
    intro before middle split some
    -- What stands before the block ends with a line end, so that no indent reaches up to the block.
    obtain ⟨inner, rfl⟩ : ∃ inner, middle = inner ++ ['\n'] := by
      rcases starts with rfl | ⟨front, rfl⟩
      · exact absurd (List.append_eq_nil_iff.mp split.symm).2 some
      · obtain ⟨inner, c, rfl⟩ := (List.eq_nil_or_concat middle).resolve_left some
        have last := congrArg List.getLast? split
        exact ⟨inner, by simpa using last.symm⟩
    have unindented := @dropWhile_append_cons '\n' (fun c => c == ' ' || c == '\t') inner
      (block.text ++ rest) (by decide)
    obtain ⟨indent, whole⟩ := List.dropWhile_suffix (fun c => c == ' ' || c == '\t') (l := inner)
    have nothing := quiet (inner.dropWhile (fun c => c == ' ' || c == '\t') ++ ['\n'])
      ⟨before ++ indent, by rw [split, List.append_assoc, ← List.append_assoc indent, whole]⟩ (by simp)
    rw [namedHeaderHere?_eq, List.append_assoc, List.singleton_append, unindented]
    rw [List.append_assoc, List.singleton_append] at nothing
    rw [nothing]
    split <;> rfl
  have found := findFirst_eq_some_iff.mpr ⟨block.text ++ rest, rfl, here, earlier⟩
  rw [headerLine, found]

/-- Each block of a file is found on its own line. -/
theorem headerLine_of_mem_places {placed : List (List Char × CanonicalBlock)}
    (apart : ∀ above ∈ placed, IsLead above.1)
    (distinct : (placed.map fun above => above.2.name).Nodup) {ending passed : List Char}
    {place : Match CanonicalBlock} (member : place ∈ places passed placed)
    (starts : LineStart place.before)
    (quiet : Quiet (namedHere? place.value.name) passed (placedText placed ending)) :
    headerLine (passed ++ placedText placed ending) place.value.name = lineAfter place.before := by
  induction placed generalizing passed with
  | nil => cases member
  | cons first placed ih =>
    obtain ⟨gap, block⟩ := first
    obtain ⟨lead, apart⟩ := List.forall_mem_cons.mp apart
    obtain ⟨fresh, distinct⟩ := List.nodup_cons.mp distinct
    rw [placedText_cons] at quiet ⊢
    have above := (quiet_lead lead (block.text ++ placedText placed ending)).imp
      (namedHere?_eq_none place.value.name)
    have reached := quiet.append above
    rcases List.mem_cons.mp member with rfl | later
    · rw [← List.append_assoc]
      exact headerLine_of_quiet block starts reached
    · have inside : place.value ∈ placed.map Prod.snd := by
        rw [← map_value_places]
        exact List.mem_map_of_mem later
      obtain ⟨other, within, same⟩ := List.mem_map.mp inside
      have apart' : place.value.name ≠ block.name := by
        intro equal
        exact fresh (List.mem_map.mpr ⟨other, within, by rw [same, equal]⟩)
      have onward := reached.append (block.quiet_named place.value.quote_notMem_name apart')
      have line := ih apart distinct later onward
      rw [← line]
      simp

theorem CanonicalBlock.literalSource_data (block : CanonicalBlock) :
    literalSource (Datum.insert (.text "__is_block__") (.bool true) block.plain.data) =
      .ok (some block.source) := by
  have others : ∀ field ∈ block.fields, block.sourceField.name ≠ field.name := by
    intro field member
    obtain ⟨entry, _, rfl⟩ := List.mem_map.mp member
    exact entry.other.symm
  have found : Datum.lookup? (.text "source")
      (Datum.insert (.text "__is_block__") (.bool true) block.plain.data) =
        some block.sourceField.datum := by
    rw [Datum.lookup?_insert_of_ne (by decide)]
    exact @PlainBlock.lookup?_data block.plain _ _ rfl others
  have literal : occurs interpolationMark block.source = false := by
    rw [← Bool.not_eq_true, occurs_iff]
    intro inside
    have dollar := block.source_chars '$' (inside.subset List.mem_cons_self)
    revert dollar
    decide
  rw [literalSource, found]
  simp [PlainField.datum, sourceField, unquote_inQuotes, literal]

/-- The value of a block gives one module. -/
theorem CanonicalBlock.blockModules_datum (block : CanonicalBlock) :
    blockModules block.plain.datum = .ok [⟨block.name, block.source⟩] := by
  have label : labelName (.text (String.ofList (inQuotes block.plain.label))) = block.name := by
    simp [labelName, unquote_inQuotes, plain]
  have body : labelledModule? (.text (String.ofList (inQuotes block.plain.label)))
      (.object (Datum.insert (.text "__is_block__") (.bool true) block.plain.data)) =
        .ok (some ⟨block.name, block.source⟩) := by
    rw [labelledModule?, block.literalSource_data, label]
    rfl
  rw [PlainBlock.datum, blockModules, List.mapM_cons, body]
  rfl

private theorem lineStart_behind {rest : List (List (List Char) × CanonicalBlock)}
    {passed : List Char} {place : Match CanonicalBlock}
    (member : place ∈ places passed (placeBehind rest)) : LineStart place.before := by
  induction rest generalizing passed with
  | nil => cases member
  | cons first rest ih =>
    obtain ⟨blank, block⟩ := first
    rcases List.mem_cons.mp member with rfl | later
    · exact .inr ⟨passed ++ blank.flatMap (['\n'] ++ ·), (List.append_assoc ..).symm⟩
    · exact ih later

namespace CanonicalFile

variable (file : CanonicalFile)

theorem lineStart_of_mem_places {place : Match CanonicalBlock}
    (member : place ∈ places [] file.placed) : LineStart place.before := by
  obtain ⟨⟨blank, block⟩, rest, blocks⟩ := List.exists_cons_of_ne_nil file.some
  rw [placed, blocks] at member
  rcases List.mem_cons.mp member with rfl | later
  · cases blank with
    | nil => exact .inl rfl
    | cons line blank => exact .inr ⟨line ++ blank.flatMap (['\n'] ++ ·), rfl⟩
  · exact lineStart_behind later

/-- The document of a file has the modules of its blocks, in order. -/
theorem documentModules_text : documentModules (String.ofList file.text) =
    .ok (.ok (file.placed.map fun above => ⟨above.2.name, above.2.source⟩)) := by
  have some : (file.placed.map fun above => (above.1, above.2.plain)) ≠ [] := by
    obtain ⟨⟨blank, block⟩, rest, blocks⟩ := List.exists_cons_of_ne_nil file.some
    simp [placed, blocks]
  have alike : ∀ above ∈ file.placed.map fun above => (above.1, above.2.plain),
      above.2.kind = "module".toList := by
    intro above member
    obtain ⟨other, _, rfl⟩ := List.mem_map.mp member
    rfl
  have apart : ∀ above ∈ file.placed.map fun above => (above.1, above.2.plain), IsLead above.1 := by
    intro above member
    obtain ⟨other, inside, rfl⟩ := List.mem_map.mp member
    exact file.isLead_of_mem_placed inside
  have written : (String.ofList file.text).toList =
      blocksText (file.placed.map fun above => (above.1, above.2.plain)) file.ending := by
    rw [String.toList_ofList]
    exact file.text_eq_placedText
  have each (placed : List (List Char × CanonicalBlock)) :
      (placed.map fun above => above.2.plain.datum).mapM blockModules =
        .ok (placed.map fun above => [⟨above.2.name, above.2.source⟩]) := by
    rw [mapM_eq_ok, List.forall₂_map_left_iff, List.forall₂_map_right_iff, List.forall₂_same]
    intro above _
    exact above.2.blockModules_datum
  have said := read?_blocks some alike apart file.isLead_ending written
  rw [List.map_map, String.ofList_toList] at said
  have listed (items : List Datum) :
      Datum.lookup? (.text "module") [(.text "module", .list items)] = .some (.list items) := by
    simp [Datum.lookup?, Datum.sameKey_text]
  unfold documentModules
  rw [said]
  simp only [listed, Option.getD_some, Datum.elements, Function.comp_def]
  show Except.ok _ = Except.ok _
  rw [each]
  show Except.ok (Except.ok _) = Except.ok (Except.ok _)
  rw [← List.flatMap_def, ← List.map_eq_flatMap]

end CanonicalFile

theorem moduleDependency?_eq (block : CanonicalBlock) (path : String) (line : Nat) :
    moduleDependency? block.name block.source path line = block.dependency? path line := by
  unfold moduleDependency? CanonicalBlock.dependency?
  by_cases git : Source.isGit block.source = true
  · by_cases pinned : Source.version block.source = []
    · simp [git, pinned]
    · simp [git, pinned]
  · simp [git]

/-- The document and the patterns of a canonical file show the same: each pinned module, in order and on
the line of its header. -/
theorem document_and_pattern_agree (file : CanonicalFile) (path : String) :
    modulesByDocument (String.ofList file.text) path = .ok (.ok (file.dependencies path)) ∧
      modulesByPattern file.text path = file.dependencies path := by
  have apart : ∀ above ∈ file.placed, IsLead above.1 := by
    rintro ⟨gap, block⟩ member
    exact file.isLead_of_mem_placed member
  have distinct : (file.placed.map fun above => above.2.name).Nodup := by
    rw [file.map_name_placed]
    exact file.distinct
  constructor
  · have lines : ∀ place ∈ places [] file.placed,
        headerLine file.text place.value.name = lineAfter place.before := by
      intro place member
      rw [file.text_eq_placedText]
      exact headerLine_of_mem_places apart distinct member (file.lineStart_of_mem_places member)
        quiet_nil
    have modules : (file.placed.map fun above => (⟨above.2.name, above.2.source⟩ : ModuleSource)) =
        (places [] file.placed).map fun place => ⟨place.value.name, place.value.source⟩ := by
      have blocks := congrArg
        (List.map fun block : CanonicalBlock => (⟨block.name, block.source⟩ : ModuleSource))
        (map_value_places file.placed [])
      rw [List.map_map, List.map_map] at blocks
      exact blocks.symm
    rw [modulesByDocument_eq, file.documentModules_text, modules, ← file.filterMap_placed,
      String.toList_ofList]
    refine congrArg (fun found => Except.ok (Except.ok found)) ?_
    rw [List.filterMap_map]
    apply List.filterMap_congr
    intro place member
    rw [Function.comp_apply, located?, lines place member]
    exact moduleDependency?_eq place.value path (lineAfter place.before)
  · rw [modulesByPattern, file.text_eq_placedText, findAll_places apart file.isLead_ending,
      List.filterMap_map, ← file.filterMap_placed]
    apply List.filterMap_congr
    intro place _
    exact moduleDependency?_eq place.value path (lineAfter place.before)

/-- A block with a word for its name that opens a module, and a literal that could. -/
private def netBlock : CanonicalBlock where
  name := "module".toList
  source := "git::https://h/net?ref=v1&depth=1".toList
  entries := [{
    word := "module_source".toList
    literal := "module".toList
    worded := ⟨'m', "odule_source".toList, rfl, by decide, by simp⟩
    other := by decide
    chars := List.all_eq_true.mp (by decide) }]
  named := by decide
  name_chars := List.all_eq_true.mp (by decide)
  sourced := by decide
  source_chars := List.all_eq_true.mp (by decide)

private def dnsBlock : CanonicalBlock where
  name := "dns-2".toList
  source := "git@h:dns.git?ref=v2".toList
  entries := []
  named := by decide
  name_chars := List.all_eq_true.mp (by decide)
  sourced := by decide
  source_chars := List.all_eq_true.mp (by decide)

private def sampleFile : CanonicalFile where
  blocks := [([], netBlock), ([[], ['\t']], dnsBlock)]
  trailing := [[]]
  some := List.cons_ne_nil _ _
  blank := by simp
  trailing_blank := by simp
  distinct := by simp [netBlock, dnsBlock]

theorem document_and_pattern_agree_sample :
    let content := "module \"module\" \x7b\n  source = \"git::https://h/net?ref=v1&depth=1\"\n" ++
      "  module_source = \"module\"\n\x7d\n\n\t\n" ++
      "module \"dns-2\" \x7b\n  source = \"git@h:dns.git?ref=v2\"\n\x7d\n"
    let found : List Dependency :=
      [⟨"module", "git::https://h/net?depth=1", "v1", "main.tf", 1, .module⟩,
        ⟨"dns-2", "git@h:dns.git", "v2", "main.tf", 7, .module⟩]
    modulesByDocument content "main.tf" = .ok (.ok found) ∧
      modulesByPattern content.toList "main.tf" = found := by
  intro content found
  have text : content.toList = sampleFile.text := by decide +kernel
  have dependencies : sampleFile.dependencies "main.tf" = found := by decide +kernel
  have agree := document_and_pattern_agree sampleFile "main.tf"
  rw [← text, String.ofList_toList, dependencies] at agree
  exact agree

end InfraPins.Scan
