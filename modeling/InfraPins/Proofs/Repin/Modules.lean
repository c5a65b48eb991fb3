import InfraPins.Proofs.Repin.Document
import InfraPins.Proofs.Scan.Modules

namespace InfraPins.Repin

open Text Hcl Scan

variable {repin : Repin}

/-- Results before and after: both fail, or both succeed with something alike. -/
inductive AlikeResult {ε α β : Type} (relation : α → β → Prop) : Except ε α → Except ε β → Prop where
  | error (cause cause' : ε) : AlikeResult relation (.error cause) (.error cause')
  | ok {value : α} {value' : β} (related : relation value value') :
      AlikeResult relation (.ok value) (.ok value')

namespace AlikeResult

variable {ε α β γ δ : Type} {relation : α → β → Prop} {image : γ → δ → Prop}

theorem bind {first : Except ε α} {second : Except ε β} {next : α → Except ε γ}
    {next' : β → Except ε δ} (here : AlikeResult relation first second)
    (onward : ∀ a b, relation a b → AlikeResult image (next a) (next' b)) :
    AlikeResult image (first >>= next) (second >>= next') := by
  cases here with
  | error => exact .error _ _
  | ok related => exact onward _ _ related

theorem mapM {items : List α} {items' : List β} {act : α → Except ε γ} {act' : β → Except ε δ}
    (alike : List.Forall₂ (fun a b => AlikeResult image (act a) (act' b)) items items') :
    AlikeResult (List.Forall₂ image) (items.mapM act) (items'.mapM act') := by
  induction alike with
  | nil => exact .ok .nil
  | cons here _ ih =>
    rw [List.mapM_cons, List.mapM_cons]
    exact here.bind fun _ _ first => ih.bind fun _ _ rest => .ok (.cons first rest)

end AlikeResult

/-- Modules before and after. -/
structure AlikeModule (repin : Repin) (first second : ModuleSource) : Prop where
  name : Renewed repin first.name second.name
  source : AlikeSource repin first.source second.source

private theorem unquote_of_ne {text : List Char} (other : ∀ inner, text ≠ inQuotes inner) :
    unquote text = text := by
  unfold unquote
  split
  · rename_i rest
    split
    · rename_i inner reversed
      have same : rest = inner.reverse ++ ['"'] := by
        rw [← List.reverse_reverse rest, reversed, List.reverse_cons]
      exact absurd (by rw [same]; rfl) (other inner.reverse)
    · rfl
  · rfl

/-- Quotes stand around a text before exactly when they do after. -/
theorem Renewed.unquote_cases {first second : List Char} (pair : Renewed repin first second) :
    (∃ inner inner', first = inQuotes inner ∧ second = inQuotes inner' ∧
      Renewed repin inner inner') ∨ unquote first = first ∧ unquote second = second := by
  cases pair with
  | nil => exact .inr ⟨rfl, rfl⟩
  | @cons c first second pair =>
    by_cases quote : c = '"'
    · subst quote
      rcases pair.concat_cases (d := '"') (by decide) (by decide) with
        ⟨inner, inner', rfl, rfl, renewed⟩ | ⟨open', open''⟩
      · exact .inl ⟨inner, inner', rfl, rfl, renewed⟩
      · refine .inr ⟨unquote_of_ne fun inner same => ?_, unquote_of_ne fun inner same => ?_⟩
        · exact open' (by simp [(List.cons.inj same).2])
        · exact open'' (by simp [(List.cons.inj same).2])
    · exact .inr ⟨unquote_of_ne fun inner same => quote (List.cons.inj same).1,
        unquote_of_ne fun inner same => quote (List.cons.inj same).1⟩
  | version =>
    have other {version text inner : List Char} :
        Source.refKey ++ (version ++ text) ≠ inQuotes inner := by simp [Source.refKey, inQuotes]
    exact .inr ⟨unquote_of_ne fun _ => other, unquote_of_ne fun _ => other⟩

theorem Renewed.unquote {first second : List Char} (pair : Renewed repin first second) :
    Renewed repin (unquote first) (unquote second) := by
  rcases pair.unquote_cases with ⟨inner, inner', rfl, rfl, renewed⟩ | ⟨same, same'⟩
  · rwa [unquote_inQuotes, unquote_inQuotes]
  · rwa [same, same']

/-- A plain source is a text between quotes. -/
theorem Quoted.source {first second : List Char} (quoted : Quoted repin first second)
    (pair : Renewed repin first second) :
    AlikeSource repin (Scan.unquote first) (Scan.unquote second) := by
  rcases pair.unquote_cases with ⟨inner, _, rfl, _⟩ | ⟨same, _⟩
  · obtain ⟨inner', rfl, alike⟩ := quoted.stands inner rfl
    rwa [unquote_inQuotes, unquote_inQuotes]
  · rw [same]
    intro plain
    obtain ⟨c, member, marked⟩ := quoted.marked
    rw [plain c member] at marked
    cases marked

private def only (value : Datum) : Datum :=
  match value with
  | .list [only] => only
  | value => value

private def sourceOf (value : Datum) : Except Distrust (Option (List Char)) :=
  match value with
  | .text text =>
    let source := unquote text.toList
    if occurs interpolationMark source then .error .sourceNotLiteral else .ok (some source)
  | _ => .error .sourceNotText

private theorem literalSource_eq (fields : List (Datum × Datum)) :
    literalSource fields = match Datum.lookup? (.text "source") fields with
      | none => .ok none
      | some value => sourceOf (only value) := rfl

private theorem only_alike {value value' : Datum} (renewed : RenewedDatum repin value value') :
    RenewedDatum repin (only value) (only value') := by
  cases renewed with
  | scalar plain =>
    unfold only
    split
    · exact absurd rfl (plain "" _).2
    · exact .scalar plain
  | text renewed quoted => exact .text renewed quoted
  | list items =>
    cases items with
    | nil => exact .list .nil
    | cons here rest =>
      cases rest with
      | nil => exact here
      | cons there rest => exact .list (.cons here (.cons there rest))
  | object => exact .object

private theorem sourceOf_alike {value value' : Datum} (renewed : RenewedDatum repin value value') :
    AlikeResult (Option.Rel (AlikeSource repin)) (sourceOf value) (sourceOf value') := by
  cases renewed with
  | scalar plain =>
    unfold sourceOf
    split
    · exact absurd rfl (plain _ []).1
    · exact .error _ _
  | @text first second renewed quoted =>
    have same : occurs interpolationMark (unquote first.toList) =
        occurs interpolationMark (unquote second.toList) := by
      rw [Bool.eq_iff_iff, occurs_iff, occurs_iff]
      exact renewed.unquote.infix_iff (by decide) (by decide)
    simp only [sourceOf, same]
    split
    · exact .error _ _
    · exact .ok (.some (quoted.source renewed))
  | list => exact .error _ _
  | object => exact .error _ _

private theorem literalSource_alike {fields fields' : List (Datum × Datum)}
    (alike : AlikeFields repin fields fields') :
    AlikeResult (Option.Rel (AlikeSource repin)) (literalSource fields) (literalSource fields') := by
  rw [literalSource_eq, literalSource_eq]
  have found := alike.lookup? (.text "source")
  generalize Datum.lookup? (.text "source") fields = value at found ⊢
  generalize Datum.lookup? (.text "source") fields' = value' at found ⊢
  cases found with
  | none => exact .ok .none
  | some renewed => exact sourceOf_alike (only_alike renewed)

private theorem literalSource_label {first second : String} {inner inner' : List (Datum × Datum)}
    (renewed : RenewedText repin first second) :
    AlikeResult (Option.Rel (AlikeSource repin))
      (literalSource [(.text first, .object inner)])
      (literalSource [(.text second, .object inner')]) := by
  have lookup (name : String) (fields : List (Datum × Datum)) :
      Datum.lookup? (.text "source") [(.text name, .object fields)] =
        if name = "source" then some (.object fields) else none := by
    by_cases same : name = "source"
    · subst same
      rfl
    · simp [Datum.lookup?, Datum.sameKey_text, same]
  have same : first = "source" ↔ second = "source" := by
    rw [← String.toList_inj, ← String.toList_inj]
    exact renewed.eq_left_iff (by decide)
  rw [literalSource_eq, literalSource_eq, lookup, lookup]
  by_cases here : second = "source"
  · simp only [same.mpr here, here, if_true]
    exact .error _ _
  · simp only [mt same.mp here, here, if_false]
    exact .ok .none

private theorem labelledModule?_alike {label label' : String} {fields fields' : List (Datum × Datum)}
    (renewed : RenewedText repin label label')
    (sources : AlikeResult (Option.Rel (AlikeSource repin)) (literalSource fields)
      (literalSource fields')) :
    AlikeResult (Option.Rel (AlikeModule repin))
      (labelledModule? (.text label) (.object fields))
      (labelledModule? (.text label') (.object fields')) := by
  refine sources.bind fun source source' alike => .ok ?_
  exact rel_map alike fun _ _ same => ⟨renewed.unquote, same⟩

private theorem blockModules_single (label : String) (fields : List (Datum × Datum)) :
    blockModules (.object [(.text label, .object fields)]) =
      (labelledModule? (.text label) (.object fields)).map Option.toList := by
  simp only [blockModules, List.mapM_cons, List.mapM_nil]
  cases labelledModule? (.text label) (.object fields) with
  | error => rfl
  | ok found => cases found <;> rfl

private theorem mapM_labelledModule?_flag {fields : List (Datum × Datum)} {key : Datum}
    (member : (key, .bool true) ∈ fields) :
    ∃ cause, (fields.mapM fun field => labelledModule? field.1 field.2) = .error cause := by
  cases read : fields.mapM fun field => labelledModule? field.1 field.2 with
  | error cause => exact ⟨cause, rfl⟩
  | ok found =>
    have pairs := Result.mapM_eq_ok.mp read
    obtain ⟨_, _, here⟩ := Result.exists_of_mem_left pairs member
    cases here

private theorem blockModules_flag {fields : List (Datum × Datum)} {key : Datum}
    (member : (key, .bool true) ∈ fields) : ∃ cause, blockModules (.object fields) = .error cause := by
  obtain ⟨cause, failed⟩ := mapM_labelledModule?_flag member
  exact ⟨cause, by simp only [blockModules, failed]; rfl⟩

private theorem blockModules_alike {block block' : Datum} (alike : AlikeBlock repin block block') :
    AlikeResult (List.Forall₂ (AlikeModule repin)) (blockModules block) (blockModules block') := by
  obtain ⟨labels, labels', fields, fields', rfl, rfl, marked, alike, key, flag⟩ := alike
  cases marked with
  | nil =>
    -- A block without a label has its own mark among its bodies.
    obtain ⟨field', member, same, renewed⟩ := Result.exists_of_mem_left alike flag
    have flag' : (key, Datum.bool true) ∈ fields' := by
      obtain ⟨key', value'⟩ := field'
      obtain rfl : key = key' := same
      cases renewed
      exact member
    obtain ⟨cause, failed⟩ := blockModules_flag flag
    obtain ⟨cause', failed'⟩ := blockModules_flag flag'
    show AlikeResult _ (blockModules (.object fields)) (blockModules (.object fields'))
    rw [failed, failed']
    exact .error _ _
  | @cons label label' labels labels' here rest =>
    have body : ∃ inner inner', wrapLabels labels (.object fields) = .object inner ∧
        wrapLabels labels' (.object fields') = .object inner' ∧
        AlikeResult (Option.Rel (AlikeSource repin)) (literalSource inner)
          (literalSource inner') := by
      cases rest with
      | nil => exact ⟨fields, fields', rfl, rfl, literalSource_alike alike⟩
      | @cons second second' labels labels' there rest =>
        obtain ⟨inner, same⟩ := wrapLabels_eq_object labels fields
        obtain ⟨inner', same'⟩ := wrapLabels_eq_object labels' fields'
        refine ⟨[(.text second.print, .object inner)], [(.text second'.print, .object inner')],
          ?_, ?_, literalSource_label there⟩
        · rw [← same]
          rfl
        · rw [← same']
          rfl
    obtain ⟨inner, inner', same, same', sources⟩ := body
    show AlikeResult _ (blockModules (.object [(_, wrapLabels labels _)]))
      (blockModules (.object [(_, wrapLabels labels' _)]))
    rw [same, same', blockModules_single, blockModules_single]
    have modules := labelledModule?_alike here sources
    generalize labelledModule? (.text label.print) (.object inner) = found at modules ⊢
    generalize labelledModule? (.text label'.print) (.object inner') = found' at modules ⊢
    cases modules with
    | error => exact .error _ _
    | ok related =>
      cases related with
      | none => exact .ok .nil
      | some alike => exact .ok (.cons alike .nil)

/-- No attribute of a document has the name `module`: its modules are blocks. -/
def ModulesAreBlocks (content : String) : Prop :=
  ∀ body, document? content = some body → ∀ value, .assignment "module" value ∉ body

/-- Whether a statement gives a value to the attribute of a name. -/
def assigns (name : String) : Statement → Bool
  | .assignment other _ => other == name
  | .block _ _ _ => false

theorem modulesAreBlocks_iff {content : String} : ModulesAreBlocks content ↔
    (document? content).all (fun body => body.all fun statement => !assigns "module" statement) := by
  rw [Option.all_eq_true]
  refine forall₂_congr fun body read => ?_
  rw [List.all_eq_true]
  constructor
  · intro blocks statement member
    cases statement with
    | assignment name value =>
      have other : name ≠ "module" := fun same => blocks value (same ▸ member)
      simpa [assigns] using other
    | block kind labels body => rfl
  · intro free value member
    simpa [assigns] using free _ member

instance (content : String) : Decidable (ModulesAreBlocks content) :=
  decidable_of_iff' _ modulesAreBlocks_iff

/-- What is a block before is one after. -/
theorem ModulesAreBlocks.repinned {content content' : String} (blocks : ModulesAreBlocks content)
    (old : content.toList ++ ['\n'] = repin.text repin.old)
    (new : content'.toList ++ ['\n'] = repin.text repin.new) : ModulesAreBlocks content' := by
  intro body' read' value' member
  have documents := document?_alike old new
  rw [read'] at documents
  cases read : document? content with
  | none => rw [read] at documents; cases documents
  | some body =>
    rw [read] at documents
    cases documents with
    | some alike =>
      obtain ⟨statement, inside, here⟩ := Result.exists_of_mem_left alike.flip member
      cases here
      exact blocks body read _ inside

/-- The modules of a document before and after. -/
theorem documentModules_alike {content content' : String} (blocks : ModulesAreBlocks content)
    (old : content.toList ++ ['\n'] = repin.text repin.old)
    (new : content'.toList ++ ['\n'] = repin.text repin.new) :
    ∃ found found', documentModules content = .ok found ∧ documentModules content' = .ok found' ∧
      AlikeResult (List.Forall₂ (AlikeModule repin)) found found' := by
  have documents := read?_alike old new
  unfold documentModules
  cases read : read? content with
  | none =>
    rw [read] at documents
    cases read' : read? content' with
    | none => exact ⟨_, _, rfl, rfl, .error _ _⟩
    | some _ => rw [read'] at documents; cases documents
  | some fields =>
    rw [read] at documents
    cases read' : read? content' with
    | none => rw [read'] at documents; cases documents
    | some fields' =>
      have found := read?_blocks old new blocks read read'
      dsimp only
      rcases found with ⟨none, none'⟩ | ⟨items, items', some, some', alike⟩
      · rw [none, none']
        exact ⟨_, _, rfl, rfl, .ok .nil⟩
      · rw [some, some']
        refine ⟨_, _, rfl, rfl, ?_⟩
        refine (AlikeResult.mapM (alike.imp fun _ _ => blockModules_alike)).bind fun _ _ same => ?_
        exact .ok (List.rel_flatten same)

end InfraPins.Repin
