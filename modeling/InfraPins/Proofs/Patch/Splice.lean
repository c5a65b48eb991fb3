import InfraPins.Proofs.Patch.Block

namespace InfraPins.Patch

open Text Source

/-- A text that leads up to the value of a `ref`. -/
def LeadsToRef (before : List Char) : Prop :=
  '?' :: refKey <:+ before ∨ '&' :: refKey <:+ before

/-- A text that leads up to the version of a dependency. -/
def LeadsToVersion (dependency : Dependency) (before : List Char) : Prop :=
  match dependency.kind with
  | .module => LeadsToRef before
  | .image => dependency.source.toList ++ [':'] <:+ before

structure Place.Pins (place : Place) (version text : List Char) : Prop where
  split : text = place.before ++ version ++ place.after
  leads : LeadsToRef place.before

variable {name version text content : List Char} {place : Place}

theorem LeadsToRef.behind {before : List Char} (leads : LeadsToRef before) (opening : List Char) :
    LeadsToRef (opening ++ before) :=
  leads.imp (·.trans (List.suffix_append _ _)) (·.trans (List.suffix_append _ _))

theorem LeadsToRef.toVersion {dependency : Dependency} {before : List Char} (leads : LeadsToRef before)
    (module : dependency.kind = .module) : LeadsToVersion dependency before := by
  rw [LeadsToVersion, module]
  exact leads

theorem leadsToVersion_of_image {dependency : Dependency} (image : dependency.kind = .image)
    (opening : List Char) :
    LeadsToVersion dependency (opening ++ (dependency.source.toList ++ [':'])) := by
  rw [LeadsToVersion, image]
  exact List.suffix_append _ _

theorem leadsToRef_of_marked {mark : Char} (marked : mark = '?' ∨ mark = '&') (opening : List Char) :
    LeadsToRef (opening ++ mark :: refKey) := by
  rcases marked with rfl | rfl
  · exact .inl (List.suffix_append _ _)
  · exact .inr (List.suffix_append _ _)

theorem Place.Pins.behind (pins : place.Pins version text) (opening : List Char) :
    (place.behind opening).Pins version (opening ++ text) where
  split := by
    rw [pins.split]
    simp [Place.behind]
  leads := pins.leads.behind opening

theorem pins_of_refInString? (found : refInString? version text = some place) :
    place.Pins version text ∧ place.after.head?.any endsRef = true := by
  obtain ⟨front, mark, marked, _, before, split, ended⟩ := eq_of_refInString? found
  refine ⟨⟨?_, before ▸ leadsToRef_of_marked marked front⟩, ended⟩
  rw [split, before]
  simp

theorem pins_of_sourceRefHere? (found : sourceRefHere? version text = some place) :
    place.Pins version text ∧ place.after.head?.any endsRef = true := by
  cases opened : openSource? text with
  | none =>
    rw [sourceRefHere?_of_none opened] at found
    cases found
  | some inner =>
    obtain ⟨lead, _, rfl, refs⟩ := @sourceRefHere?_of_some version _ _ opened
    rw [refs] at found
    obtain ⟨inside, here, rfl⟩ := Option.map_eq_some_iff.mp found
    obtain ⟨pins, ended⟩ := pins_of_refInString? here
    have behind := pins.behind (lead ++ ['"'])
    rw [List.append_assoc, List.singleton_append] at behind
    exact ⟨behind, ended⟩

theorem pins_of_sourceRefWithin? (found : sourceRefWithin? version text = some place) :
    place.Pins version text ∧ place.after.head?.any endsRef = true := by
  induction text generalizing place with
  | nil => cases found
  | cons c text ih =>
    rw [sourceRefWithin?_cons, Option.or_eq_some_iff] at found
    rcases found with here | ⟨_, within⟩
    · exact pins_of_sourceRefHere? here
    · split at within
      · cases within
      · obtain ⟨inside, later, rfl⟩ := Option.map_eq_some_iff.mp within
        obtain ⟨pins, ended⟩ := ih later
        exact ⟨pins.behind [c], ended⟩

theorem pins_of_blockRefHere? {previous : Option Char}
    (found : blockRefHere? name version previous text = some place) :
    place.Pins version text ∧ place.after.head?.any endsRef = true := by
  cases headed : bodyHere? name text with
  | none =>
    rw [blockRefHere?_of_none headed] at found
    cases found
  | some body =>
    obtain ⟨header, rfl, refs⟩ := @blockRefHere?_of_some name version _ _ previous headed
    rw [refs] at found
    obtain ⟨inside, here, rfl⟩ := Option.map_eq_some_iff.mp found
    obtain ⟨pins, ended⟩ := pins_of_sourceRefWithin? here
    exact ⟨pins.behind header, ended⟩

theorem pins_of_findInBlock? (found : findInBlock? name version content = some place) :
    place.Pins version content ∧ place.after.head?.any endsRef = true := by
  obtain ⟨⟨before, inside⟩, located, rfl⟩ := Option.map_eq_some_iff.mp found
  obtain ⟨text, rfl, here, _⟩ := findFirst_eq_some_iff.mp located
  obtain ⟨pins, ended⟩ := pins_of_blockRefHere? here
  exact ⟨pins.behind before, ended⟩

theorem pins_of_findLoose? (found : findLoose? version content = some place) :
    place.Pins version content ∧ place.after.head?.all endsRef = true := by
  obtain ⟨⟨before, inside⟩, located, rfl⟩ := Option.map_eq_some_iff.mp found
  obtain ⟨text, rfl, here, _⟩ := findFirst_eq_some_iff.mp located
  obtain ⟨mark, marked, opening, split, ended⟩ := eq_of_refHere? here
  have pins : inside.Pins version text := by
    refine ⟨?_, opening ▸ leadsToRef_of_marked marked []⟩
    rw [split, opening]
    simp
  exact ⟨pins.behind before, ended⟩

theorem LeadsToRef.eq {before : List Char} (leads : LeadsToRef before) :
    ∃ front mark, (mark = '?' ∨ mark = '&') ∧ before = front ++ mark :: refKey := by
  rcases leads with ⟨front, rfl⟩ | ⟨front, rfl⟩
  · exact ⟨front, '?', .inl rfl, rfl⟩
  · exact ⟨front, '&', .inr rfl, rfl⟩

/-- The loose tier finds nothing only where no `ref` has the version. -/
theorem not_pins_of_findLoose? (missed : findLoose? version content = none)
    (pins : place.Pins version content) : place.after.head?.all endsRef = false := by
  obtain ⟨front, mark, marked, before⟩ := pins.leads.eq
  have split : content = front ++ mark :: (refKey ++ (version ++ place.after)) := by
    rw [pins.split, before]
    simp
  rw [findLoose?, Option.map_eq_none_iff, findFirst_eq_none_iff] at missed
  have nothing := missed front _ split
  by_contra ended
  rw [refHere?_of_eq marked (by simpa using ended)] at nothing
  cases nothing

/-- A text with one version in the place of another behind what leads up to it. -/
def Splices (dependency : Dependency) (version content content' : List Char) : Prop :=
  ∃ before after, content = before ++ dependency.current.toList ++ after ∧
    content' = before ++ version ++ after ∧ LeadsToVersion dependency before

theorem withVersion_of_plain {source : List Char} (plain : ¬ refMark <:+: source) :
    ∃ opening, LeadsToRef opening ∧ ∀ version, withVersion source version = opening ++ version := by
  have apart : occurs refMark source = false :=
    Bool.eq_false_iff.mpr fun inside => plain (occurs_iff.mp inside)
  by_cases queried : '?' ∈ source
  · refine ⟨source ++ '&' :: refKey, leadsToRef_of_marked (.inr rfl) source, fun version => ?_⟩
    simp [withVersion, apart, queried]
  · refine ⟨source ++ refMark, leadsToRef_of_marked (.inl rfl) source, fun version => ?_⟩
    simp [withVersion, apart, queried]

def SplicesWhole (dependency : Dependency) (version content content' : List Char) : Prop :=
  ∃ before after, content = before ++ dependency.current.toList ++ after ∧
    content' = before ++ version ++ after ∧ LeadsToVersion dependency before ∧
    after.head?.any isVersionChar = false

theorem SplicesWhole.splices {dependency : Dependency} {content' : List Char}
    (whole : SplicesWhole dependency version content content') :
    Splices dependency version content content' := by
  obtain ⟨before, after, split, split', leads, _⟩ := whole
  exact ⟨before, after, split, split', leads⟩

theorem isRefChar_eq (c : Char) : isRefChar c = !endsRef c := rfl

theorem all_of_any {next : Option Char} {accept : Char → Bool}
    (any : next.any accept = true) : next.all accept = true := by
  cases next with
  | none => rfl
  | some c => exact any

theorem not_goes_on_of_endsRef {next : Option Char} (ended : next.all endsRef = true) :
    next.any isVersionChar = false := by
  cases next with
  | none => rfl
  | some c =>
    have ends : endsRef c = true := ended
    refine Bool.eq_false_iff.mpr fun pinned => ?_
    have read := Address.isRefChar_of_isVersionChar pinned
    rw [isRefChar_eq, ends] at read
    cases read

theorem patchModule_splicesWhole {dependency : Dependency} (kind : dependency.kind = .module)
    (plain : ¬ refMark <:+: dependency.source.toList) :
    (patchModule content dependency version).content = content ∧
        findLoose? dependency.current.toList content = none ∨
      SplicesWhole dependency version content (patchModule content dependency version).content := by
  unfold patchModule
  simp only
  cases whole : findWhole? (withVersion dependency.source.toList dependency.current.toList) content with
  | some place =>
    right
    obtain ⟨split, _, ended⟩ := findWhole?_split whole
    obtain ⟨opening, marked, put⟩ := withVersion_of_plain plain
    refine ⟨place.before ++ opening, place.after, ?_, ?_, (marked.behind _).toVersion kind, ended⟩
    · rw [split, put]
      simp
    · simp [Place.fill, put]
  | none =>
    cases block : findInBlock? dependency.name.toList dependency.current.toList content with
    | some place =>
      right
      obtain ⟨pins, ended⟩ := pins_of_findInBlock? block
      exact ⟨place.before, place.after, pins.split, rfl, pins.leads.toVersion kind,
        not_goes_on_of_endsRef (all_of_any ended)⟩
    | none =>
      cases loose : findLoose? dependency.current.toList content with
      | some place =>
        right
        obtain ⟨pins, ended⟩ := pins_of_findLoose? loose
        exact ⟨place.before, place.after, pins.split, rfl, pins.leads.toVersion kind,
          not_goes_on_of_endsRef ended⟩
      | none => exact .inl ⟨rfl, rfl⟩

theorem patchImage_splicesWhole {dependency : Dependency} (kind : dependency.kind = .image) :
    (patchImage content dependency version).content = content ∨
      SplicesWhole dependency version content (patchImage content dependency version).content := by
  unfold patchImage
  simp only
  cases whole : findWhole? (tagged dependency.source.toList dependency.current.toList) content with
  | none => exact .inl rfl
  | some place =>
    right
    obtain ⟨split, _, ended⟩ := findWhole?_split whole
    refine ⟨place.before ++ (dependency.source.toList ++ [':']), place.after, ?_, ?_,
      leadsToVersion_of_image kind _, ended⟩
    · rw [split]
      simp [tagged]
    · simp [Place.fill, tagged]

/-- An image with its tag, in quotes and assigned to a variable that stands here as a word: it could
also be looked for so. -/
def assignedHere? (name image tag : List Char) (previous : Option Char) (text : List Char) :
    Option Place := do
  if previous.any isWord = text.head?.any isWord then none
  else
    let rest ← after? name text
    let (gap, rest) := spanWhile isBlank rest
    let rest ← after? ['='] rest
    let (gap', rest) := spanWhile isBlank rest
    let rest ← after? ('"' :: image ++ [':']) rest
    let rest ← after? tag rest
    if rest.head? = some '"' then
      some ⟨name ++ gap ++ '=' :: gap' ++ '"' :: image ++ [':'], rest⟩
    else none

def findAssigned? (name image tag content : List Char) : Option Place :=
  (findFirst (assignedHere? name image tag) none content).map fun found =>
    found.value.behind found.before

theorem standsWhole_of_assignedHere? {name image tag : List Char} {previous : Option Char}
    (found : assignedHere? name image tag previous text = some place) :
    ∃ lead rest, text = lead ++ '"' :: (tagged image tag ++ '"' :: rest) := by
  unfold assignedHere? at found
  split at found
  · cases found
  · obtain ⟨behind, variableName, found⟩ := Option.bind_eq_some_iff.mp found
    obtain ⟨value, mark, found⟩ := Option.bind_eq_some_iff.mp found
    obtain ⟨tail, opening, found⟩ := Option.bind_eq_some_iff.mp found
    obtain ⟨rest, token, found⟩ := Option.bind_eq_some_iff.mp found
    split at found
    · rename_i closed
      obtain ⟨rest, rfl⟩ := List.head?_eq_some_iff.mp closed
      have gap := List.takeWhile_append_dropWhile (p := isBlank) (l := behind)
      have gap' := List.takeWhile_append_dropWhile (p := isBlank) (l := value)
      have assigned : behind.dropWhile isBlank = ['='] ++ value := after?_eq_some_iff.mp mark
      have quoted : value.dropWhile isBlank = ('"' :: image ++ [':']) ++ tail :=
        after?_eq_some_iff.mp opening
      refine ⟨name ++ behind.takeWhile isBlank ++ '=' :: value.takeWhile isBlank, rest, ?_⟩
      calc
        text = name ++ (behind.takeWhile isBlank ++ (['='] ++ value)) := by
          rw [after?_eq_some_iff.mp variableName, ← assigned, gap]
        _ = name ++ (behind.takeWhile isBlank ++ (['='] ++ (value.takeWhile isBlank ++
              (('"' :: image ++ [':']) ++ (tag ++ '"' :: rest))))) := by
          rw [← after?_eq_some_iff.mp token, ← quoted, gap']
        _ = _ := by simp [tagged]
    · cases found

/-- Where an image does not stand whole, it is not assigned either. -/
theorem findAssigned?_eq_none {name image tag : List Char}
    (missed : findWhole? (tagged image tag) content = none) :
    findAssigned? name image tag content = none := by
  rw [findAssigned?, Option.map_eq_none_iff, findFirst_eq_none_iff]
  intro before text split
  cases here : assignedHere? name image tag (precededBy none before) text with
  | none => rfl
  | some place =>
    exfalso
    obtain ⟨lead, rest, rfl⟩ := standsWhole_of_assignedHere? here
    apply findWhole?_eq_none_iff.mp missed
    refine ⟨before ++ lead ++ ['"'], '"' :: rest, ?_, ?_, not_isVersionChar_quote⟩
    · rw [split]
      simp
    · rw [List.getLast?_concat]
      exact not_isNameChar_quote

/-- To look for the variable of an image as well would change nothing. -/
theorem patchImage_eq (content : List Char) (dependency : Dependency) (version : List Char) :
    patchImage content dependency version =
      let image := dependency.source.toList
      let tag := dependency.current.toList
      match findWhole? (tagged image tag) content with
      | some place => ⟨place.fill (tagged image version), some .whole⟩
      | none => match findAssigned? dependency.name.toList image tag content with
        | some place => ⟨place.fill version, some .block⟩
        | none => ⟨content, none⟩ := by
  unfold patchImage
  simp only
  cases whole : findWhole? (tagged dependency.source.toList dependency.current.toList) content with
  | some place => rfl
  | none => rw [findAssigned?_eq_none whole]

/-- One task changes one version and nothing else. A module is left as it is only where no `ref` in
the text has its version, or where its new version is the one that it has. -/
theorem patch_splices_version {content : List Char} {task : UpgradeTask}
    (plain : task.kind = .module → ¬ refMark <:+: task.dependency.source.toList) :
    ((patch content task).content = content ∨
        Splices task.dependency task.newVersion.toList content (patch content task).content) ∧
      (task.kind = .module → (patch content task).content = content →
        (∀ before after, content = before ++ task.dependency.current.toList ++ after →
          LeadsToRef before → after.head?.all endsRef = false) ∨
        task.newVersion = task.dependency.current) := by
  cases kind : task.kind with
  | image =>
    refine ⟨?_, nofun⟩
    rw [patch, kind]
    exact (patchImage_splicesWhole kind).imp_right SplicesWhole.splices
  | module =>
    have spliced := (@patchModule_splicesWhole task.newVersion.toList content _ kind
      (plain kind)).imp_right SplicesWhole.splices
    rw [patch, kind]
    refine ⟨spliced.imp_left And.left, fun _ same => ?_⟩
    rcases spliced with ⟨_, missed⟩ | ⟨before, after, split, split', _⟩
    · left
      intro before after split leads
      exact @not_pins_of_findLoose? _ content ⟨before, after⟩ missed ⟨split, leads⟩
    · right
      rw [same, split] at split'
      have token := List.append_cancel_left (List.append_cancel_right split')
      exact String.toList_inj.mp token.symm

/-- A module whose name and version are full of signs, with a map before its source. -/
private def signedModule (version : String) : String :=
  "module \"a.*(b)\" \x7b\n  tags = \x7b\x7d\n  source = \"git::https://h/a?depth=1&ref=" ++ version
    ++ "\"\n\x7d\n"

private def signedTask : UpgradeTask where
  dependency := ⟨"a.*(b)", "git::https://h/a?depth=1&x=0", "v1.0+\\1", "main.tf", 1, .module⟩
  newVersion := "v2\\g<1>"
  content := signedModule "v1.0+\\1"

theorem patch_splices_version_sample :
    ¬ refMark <:+: signedTask.dependency.source.toList ∧
      String.ofList (patch signedTask.content.toList signedTask).content = signedModule "v2\\g<1>" ∧
      Splices signedTask.dependency signedTask.newVersion.toList signedTask.content.toList
        (patch signedTask.content.toList signedTask).content := by
  have plain : ¬ refMark <:+: signedTask.dependency.source.toList := by decide
  have changed : String.ofList (patch signedTask.content.toList signedTask).content =
      signedModule "v2\\g<1>" := by decide +kernel
  obtain ⟨kept | spliced, _⟩ :=
    @patch_splices_version signedTask.content.toList signedTask fun _ => plain
  · rw [kept] at changed
    exact absurd changed (by decide +kernel)
  · exact ⟨plain, changed, spliced⟩

end InfraPins.Patch
