import InfraPins.Proofs.Hcl.Blocks
import InfraPins.Proofs.Repin.Body

namespace InfraPins.Repin

open Text Hcl

variable {repin : Repin}

private theorem document?_forward {content content' : String}
    {body : Body} (old : content.toList ++ ['\n'] = repin.text repin.old)
    (new : content'.toList ++ ['\n'] = repin.text repin.new)
    (found : document? content = some body) :
    ∃ body', document? content' = some body' ∧
      List.Forall₂ (AlikeStatement repin) body body' := by
  obtain ⟨ahead, begun, found⟩ := Option.bind_eq_some_iff.mp found
  obtain ⟨⟨inside, last⟩, read, found⟩ := Option.bind_eq_some_iff.mp found
  have starts := ahead?_aligned .anything (Aligned.before (List.suffix_refl repin.before))
  rw [← text, ← text, ← old, ← new, begun] at starts
  obtain ⟨ahead', begun', aligned⟩ : ∃ ahead', ahead? .anything (content'.toList ++ ['\n']) =
      some ahead' ∧ AlignedAhead repin ahead ahead' := by
    generalize ahead? .anything (content'.toList ++ ['\n']) = found at starts ⊢
    cases starts with
    | some related => exact ⟨_, rfl, related⟩
  obtain ⟨⟨inside', last'⟩, ⟨alike, ends⟩, _, runs⟩ :=
    (faithfulBody _).statements ahead ahead' aligned _ read
  have short := size_le_of_ahead? begun'
  have read' : statements (16 * (content'.toList ++ ['\n']).length + 16) ahead' =
      some (inside', last') := runs _ (by omega)
  refine ⟨inside', ?_, ?_⟩
  · have finished : (last'.token == .finish) = true := by
      rw [← ends.token.beq .finish fun _ => by simp]
      dsimp only at found
      split at found
      · assumption
      · cases found
    unfold document?
    dsimp only
    rw [begun']
    show (statements (16 * (content'.toList ++ ['\n']).length + 16) ahead').bind _ = _
    rw [read']
    simpa using finished
  · dsimp only at found
    split at found
    · exact Option.some.inj found ▸ alike
    · cases found

/-- A document can be read before exactly when it can be read after, with statements alike. -/
theorem document?_alike {content content' : String}
    (old : content.toList ++ ['\n'] = repin.text repin.old)
    (new : content'.toList ++ ['\n'] = repin.text repin.new) :
    Option.Rel (List.Forall₂ (AlikeStatement repin)) (document? content) (document? content') := by
  cases found : document? content with
  | some body =>
    obtain ⟨body', found', alike⟩ := document?_forward old new found
    rw [found']
    exact .some alike
  | none =>
    cases found' : document? content' with
    | none => exact .none
    | some body' =>
      obtain ⟨_, again, _⟩ := @document?_forward repin.swap _ _ _ new old found'
      rw [found] at again
      cases again

/-- Fields before and after, under the same keys. -/
def AlikeFields (repin : Repin) : List (Datum × Datum) → List (Datum × Datum) → Prop :=
  List.Forall₂ fun field field' => field.1 = field'.1 ∧ RenewedDatum repin field.2 field'.2

theorem AlikeFields.insert {fields fields' : List (Datum × Datum)} {value value' : Datum}
    (alike : AlikeFields repin fields fields') (key : Datum)
    (values : RenewedDatum repin value value') :
    AlikeFields repin (Datum.insert key value fields) (Datum.insert key value' fields') := by
  induction alike with
  | nil => exact .cons ⟨rfl, values⟩ .nil
  | @cons field field' _ _ here rest ih =>
    simp only [Datum.insert]
    rw [here.1]
    split
    · exact .cons ⟨rfl, values⟩ rest
    · exact .cons here ih

theorem AlikeFields.lookup? {fields fields' : List (Datum × Datum)}
    (alike : AlikeFields repin fields fields') (key : Datum) :
    Option.Rel (RenewedDatum repin) (Datum.lookup? key fields) (Datum.lookup? key fields') := by
  induction alike with
  | nil => exact .none
  | @cons field field' _ _ here _ ih =>
    simp only [Datum.lookup?, List.find?_cons] at ih ⊢
    rw [here.1]
    split
    · exact .some here.2
    · exact ih

/-- Blocks before and after: one object for each label, around the fields of the body. -/
def AlikeBlock (repin : Repin) (first second : Datum) : Prop :=
  ∃ labels labels' fields fields', first = wrapLabels labels (.object fields) ∧
    second = wrapLabels labels' (.object fields') ∧
    List.Forall₂ (AlikeLabel repin) labels labels' ∧ AlikeFields repin fields fields' ∧
    ∃ key, (key, Datum.bool true) ∈ fields

theorem wrapLabels_eq_object (labels : List Label) (fields : List (Datum × Datum)) :
    ∃ outer, wrapLabels labels (.object fields) = .object outer := by
  cases labels with
  | nil => exact ⟨fields, rfl⟩
  | cons label labels => exact ⟨_, rfl⟩

theorem AlikeBlock.renewed {first second : Datum} (alike : AlikeBlock repin first second) :
    RenewedDatum repin first second := by
  obtain ⟨labels, labels', fields, fields', rfl, rfl, _⟩ := alike
  obtain ⟨outer, same⟩ := wrapLabels_eq_object labels fields
  obtain ⟨outer', same'⟩ := wrapLabels_eq_object labels' fields'
  rw [same, same']
  exact .object

private theorem mem_insert_self (key value : Datum) (fields : List (Datum × Datum)) :
    ∃ key', (key', value) ∈ Datum.insert key value fields := by
  induction fields with
  | nil => exact ⟨key, List.mem_cons_self⟩
  | cons field fields ih =>
    simp only [Datum.insert]
    split
    · exact ⟨field.1, List.mem_cons_self⟩
    · obtain ⟨key', member⟩ := ih
      exact ⟨key', List.mem_cons_of_mem _ member⟩

private theorem addBlock_alike {kind : String} {block block' : Datum}
    {fields fields' : List (Datum × Datum)} (blocks : RenewedDatum repin block block')
    (alike : AlikeFields repin fields fields') :
    AlikeFields repin (addBlock kind block fields) (addBlock kind block' fields') := by
  have single := alike.insert (.text kind) (.list (.cons blocks .nil))
  unfold addBlock
  have found := alike.lookup? (.text kind)
  generalize Datum.lookup? (.text kind) fields = value at found ⊢
  generalize Datum.lookup? (.text kind) fields' = value' at found ⊢
  cases found with
  | none => exact single
  | some related =>
    cases related with
    | list items => exact alike.insert _ (.list (List.rel_append items (.cons blocks .nil)))
    | text => exact single
    | object => exact single
    | scalar plain =>
      rename_i datum
      cases datum with
      | list items => exact absurd rfl (plain default items).2
      | _ => exact single

mutual

theorem bodyFields_alike (body : List Statement) {body' : List Statement} (assigned : List String)
    {done done' : List (Datum × Datum)} (alike : List.Forall₂ (AlikeStatement repin) body body')
    (fields : AlikeFields repin done done') :
    Option.Rel (AlikeFields repin) (bodyFields assigned done body)
      (bodyFields assigned done' body') := by
  cases alike with
  | nil => exact .some fields
  | @cons statement statement' rest _ here behind =>
    cases here with
    | assignment name value =>
      simp only [bodyFields]
      exact bodyFields_alike rest _ behind (fields.insert _ value.value)
    | block kind marked inside =>
      simp only [bodyFields]
      refine rel_bind (blockValue_alike _ (.block kind marked inside)) ?_
      rintro ⟨kind, block⟩ ⟨_, block'⟩ ⟨rfl, blocks⟩
      dsimp only
      split
      · exact .none
      · exact bodyFields_alike rest _ behind (addBlock_alike blocks.renewed fields)
termination_by sizeOf body

theorem blockValue_alike (statement : Statement) {statement' : Statement}
    (alike : AlikeStatement repin statement statement') :
    Option.Rel (fun found found' => found.1 = found'.1 ∧ AlikeBlock repin found.2 found'.2)
      (blockValue statement) (blockValue statement') := by
  cases alike with
  | assignment => exact .none
  | @block labels labels' body body' kind marked inside =>
    simp only [blockValue]
    refine rel_bind (bodyFields_alike body [] inside .nil) fun fields fields' alike => ?_
    exact .some ⟨rfl, labels, labels', _, _, rfl, rfl, marked,
      alike.insert _ (.scalar fun _ _ => ⟨nofun, nofun⟩), mem_insert_self ..⟩
termination_by sizeOf statement

end

/-- The blocks of a type before and after, if there are any. -/
def AlikeBlocks (repin : Repin) (first second : Option Datum) : Prop :=
  (first = none ∧ second = none) ∨ ∃ blocks blocks', first = some (.list blocks) ∧
    second = some (.list blocks') ∧ List.Forall₂ (AlikeBlock repin) blocks blocks'

private theorem lookup?_addBlock_self {kind : String} {block block' : Datum}
    {fields fields' : List (Datum × Datum)} (alike : AlikeBlock repin block block')
    (blocks : AlikeBlocks repin (Datum.lookup? (.text kind) fields)
      (Datum.lookup? (.text kind) fields')) :
    AlikeBlocks repin (Datum.lookup? (.text kind) (addBlock kind block fields))
      (Datum.lookup? (.text kind) (addBlock kind block' fields')) := by
  unfold addBlock
  rcases blocks with ⟨none, none'⟩ | ⟨earlier, earlier', some, some', blocks⟩
  · rw [none, none', Datum.lookup?_insert_self, Datum.lookup?_insert_self]
    exact .inr ⟨_, _, rfl, rfl, .cons alike .nil⟩
  · rw [some, some', Datum.lookup?_insert_self, Datum.lookup?_insert_self]
    exact .inr ⟨_, _, rfl, rfl, List.rel_append blocks (.cons alike .nil)⟩

/-- Where no assignment has the name of a block type, its blocks are alike. -/
theorem bodyFields_blocks {kind : String} {body body' : List Statement} {assigned : List String}
    {done done' fields fields' : List (Datum × Datum)}
    (alike : List.Forall₂ (AlikeStatement repin) body body')
    (unassigned : ∀ value, .assignment kind value ∉ body)
    (blocks : AlikeBlocks repin (Datum.lookup? (.text kind) done)
      (Datum.lookup? (.text kind) done'))
    (read : bodyFields assigned done body = some fields)
    (read' : bodyFields assigned done' body' = some fields') :
    AlikeBlocks repin (Datum.lookup? (.text kind) fields)
      (Datum.lookup? (.text kind) fields') := by
  induction alike generalizing assigned done done' with
  | nil =>
    simp only [bodyFields, Option.some.injEq] at read read'
    rwa [← read, ← read']
  | @cons _ _ body body' here rest ih =>
    have others : ∀ value, Statement.assignment kind value ∉ body := fun value member =>
      unassigned value (List.mem_cons_of_mem _ member)
    cases here with
    | @assignment value value' name =>
      have different : kind ≠ name := by
        rintro rfl
        exact unassigned value List.mem_cons_self
      simp only [bodyFields] at read read'
      refine ih others ?_ read read'
      rwa [Datum.lookup?_insert_of_ne different, Datum.lookup?_insert_of_ne different]
    | block other marked inside =>
      simp only [bodyFields] at read read'
      obtain ⟨⟨type, block⟩, value, read⟩ := Option.bind_eq_some_iff.mp read
      obtain ⟨⟨type', block'⟩, value', read'⟩ := Option.bind_eq_some_iff.mp read'
      have values := blockValue_alike _ (AlikeStatement.block other marked inside)
      rw [value, value'] at values
      obtain ⟨rfl, related⟩ : type = type' ∧ AlikeBlock repin block block' := by
        cases values with
        | some related => exact related
      dsimp only at read read'
      split at read
      · cases read
      · split at read'
        · cases read'
        · refine ih others ?_ read read'
          by_cases same : kind = type
          · subst same
            exact lookup?_addBlock_self related blocks
          · rwa [lookup?_addBlock_of_ne same, lookup?_addBlock_of_ne same]

/-- The text is a document before exactly when it is one after. -/
theorem read?_alike {content content' : String}
    (old : content.toList ++ ['\n'] = repin.text repin.old)
    (new : content'.toList ++ ['\n'] = repin.text repin.new) :
    Option.Rel (AlikeFields repin) (read? content) (read? content') :=
  rel_bind (document?_alike old new) fun _ _ alike => bodyFields_alike _ [] alike .nil

/-- The blocks of a type in a document are alike where no assignment has its name. -/
theorem read?_blocks {content content' kind : String}
    {fields fields' : List (Datum × Datum)}
    (old : content.toList ++ ['\n'] = repin.text repin.old)
    (new : content'.toList ++ ['\n'] = repin.text repin.new)
    (unassigned : ∀ body, document? content = some body → ∀ value, .assignment kind value ∉ body)
    (read : read? content = some fields) (read' : read? content' = some fields') :
    AlikeBlocks repin (Datum.lookup? (.text kind) fields)
      (Datum.lookup? (.text kind) fields') := by
  obtain ⟨body, found, read⟩ := Option.bind_eq_some_iff.mp read
  obtain ⟨body', found', read'⟩ := Option.bind_eq_some_iff.mp read'
  have alike := document?_alike old new
  rw [found, found'] at alike
  cases alike with
  | some alike =>
    exact bodyFields_blocks alike (unassigned body found) (.inl ⟨rfl, rfl⟩) read read'

end InfraPins.Repin
