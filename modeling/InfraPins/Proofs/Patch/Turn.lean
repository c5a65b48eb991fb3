import InfraPins.Proofs.Patch.Block
import InfraPins.Proofs.Patch.Renewal
import InfraPins.Proofs.Scan.Images
import InfraPins.Proofs.Scan.Report

namespace InfraPins.Patch

open Text Scan Source Repin

/-- A version as tags write it: a semantic one, without white space. -/
structure TagVersion (version : String) : Prop where
  semantic : Version.isSemanticLike version.toList = .ok true
  tight : ∀ c ∈ version.toList, isBlank c = false

theorem TagVersion.pinned {version : String} (tag : TagVersion version) :
    ∀ c ∈ version.toList, isVersionChar c = true := by
  intro c member
  rcases Version.isVersionChar_of_isSemanticLike tag.semantic member with pinned | blank
  · exact pinned
  · rw [tag.tight c member] at blank
    cases blank

def referenceText (dependency : Dependency) : List Char :=
  match dependency.kind with
  | .module => withVersion dependency.source.toList dependency.current.toList
  | .image => tagged dependency.source.toList dependency.current.toList

/-- A reference is located as it is written: its exact text stands first between quotes or, if it is
that of a module, it is in reach of its block. -/
inductive Locates (content : List Char) (dependency : Dependency) : Prop where
  | text {place : Place} (found : findWhole? (referenceText dependency) content = some place)
    (opened : place.before.getLast? = some '"') (closed : place.after.head? = some '"')
  | block (module : dependency.kind = .module) (within : InBlock content dependency)

def Referable (kind : DependencyKind) (source version : List Char) : Prop :=
  match kind with
  | .module => ∃ address : Address, source = address.bare ∧ version = address.version
  | .image => (∀ c ∈ source, isImageChar c = true) ∧ source.head?.any Char.isAlphanum = true ∧
      Version.isSemanticLike version = .ok true ∧ '"' ∉ version

/-- A file before and after one task: one reference is quoted in place of another, and scanning finds
the same but for versions of that source. -/
structure Turns (format : FileFormat) (path source old new : String) (content content' : List Char)
    (found : List Dependency) : Prop where
  requotes : Requotes format.kind content content' source.toList old.toList new.toList
  tidy : format = .terraform → Tidy (String.ofList content')
  rescanned : ∃ report', report (String.ofList content') path format = .ok report' ∧
    List.Forall₂ (fun first second => Upgrades source old new first.pin second.pin) found
      report'.dependencies ∧
    ∀ dependency ∈ report'.dependencies,
      (dependency.source.toList, dependency.current.toList) ∈ quotedReferences format.kind content'

variable {content : List Char} {path version : String} {scanned : Report} {dependency : Dependency}

private theorem patchModule_requotes {address : Address} (tag : TagVersion version)
    (module : dependency.kind = .module) (source : dependency.source.toList = address.bare)
    (current : dependency.current.toList = address.version) (located : Locates content dependency) :
    let patched := (patchModule content dependency version.toList).content
    (∃ repin, Unlike repin.tail ∧
      Edits repin content patched address.bare address.version version.toList) ∧
      Requotes .module content patched address.bare address.version version.toList := by
  have versioned := Version.ne_nil_of_isSemanticLike tag.semantic
  cases located with
  | block _ within =>
    have edits := edits_of_block tag.pinned versioned within
    rwa [source, current] at edits
  | @text place found opened closed =>
    simp only [referenceText, module, source, current] at found
    have whole : (patchModule content dependency version.toList).content =
        place.fill (withVersion address.bare version.toList) := by
      simp only [patchModule, source, current, found]
    simp only [whole]
    obtain ⟨repin, tail, edits⟩ := edits_of_whole tag.pinned versioned found (by simp [closed])
    refine ⟨⟨repin, ?_, edits⟩, ?_⟩
    · rw [Unlike, tail, closed]
      simp
      decide
    · have old := address.withVersion_bare_eq_text address.pinned address.versioned
      have new := address.withVersion_bare_eq_text tag.pinned versioned
      refine ⟨_, _, swaps_of_whole found opened closed ?_ ?_, ?_, ?_⟩
      · exact old ▸ Address.quote_notMem_text _
      · exact new ▸ Address.quote_notMem_text _
      · rw [old, reference?, Address.withoutVersion_text, Address.version_text]
        exact congrArg some (Prod.ext address.bare_normal rfl)
      · rw [new, reference?, Address.withoutVersion_text, Address.version_text]
        exact congrArg some (Prod.ext address.bare_normal rfl)

/-- The turn of a task in a tidy file of modules. -/
theorem module_turns (tidy : Tidy (String.ofList content))
    (scan : report (String.ofList content) path .terraform = .ok scanned) (tag : TagVersion version)
    (module : dependency.kind = .module)
    (referable : Referable .module dependency.source.toList dependency.current.toList)
    (located : Locates content dependency) :
    Turns .terraform path dependency.source dependency.current version content
      (patchModule content dependency version.toList).content scanned.dependencies := by
  obtain ⟨address, source, current⟩ := referable
  obtain ⟨⟨repin, unlike, edits⟩, requotes⟩ :=
    patchModule_requotes tag module source current located
  generalize (patchModule content dependency version.toList).content = patched at edits requotes ⊢
  have edits' : Edits repin (String.ofList content).toList (String.ofList patched).toList address.bare
      address.version version.toList := by simpa using edits
  have free : Apart repin := ⟨edits.ends, .inr unlike, .inr unlike⟩
  obtain ⟨tidy', found, found', read, read', addressed, renews⟩ := tidy.renew edits' tag.pinned free
  obtain ⟨scanned', before, pins⟩ := @report_of_modules _ path found read
  obtain rfl := Except.ok.inj (scan.symm.trans before)
  obtain ⟨rescanned, after, pins'⟩ := @report_of_modules _ path found' read'
  refine ⟨by rwa [source, current], fun _ => tidy', rescanned, after, ?_, ?_⟩
  · have upgrades := pins_renew addressed renews
    rw [← pins, ← pins', List.forall₂_map_left_iff, List.forall₂_map_right_iff] at upgrades
    simpa [← source, ← current] using upgrades
  · intro dependency member
    obtain ⟨again, same, addressed'⟩ := tidy'.addressed
    obtain rfl := Except.ok.inj (read'.symm.trans same)
    obtain ⟨address', ⟨module, inside, whole⟩, source', current'⟩ :=
      address_of_mem addressed' pins' member
    have stands := tidy'.quoted edits' free read' module inside
    rw [whole, String.toList_ofList] at stands
    refine mem_quotedReferences address'.quote_notMem_text stands ?_
    show some (withoutVersion address'.text, Source.version address'.text) = _
    rw [address'.withoutVersion_text, address'.version_text, source', current']

private theorem report_of_images {text : String} {options : List (Option Pin)}
    (read : (values imageHere? text.toList).mapM ImageAssignment.pin? = .ok options) :
    ∃ report', report text path .terragrunt = .ok report' ∧
      report'.dependencies.map Dependency.pin = options.filterMap id := by
  have pins := images_pins text.toList path
  rw [read] at pins
  cases found : images text.toList path with
  | error fault => rw [found] at pins; cases pins
  | ok dependencies =>
    rw [found] at pins
    refine ⟨⟨none, dependencies⟩, ?_, Except.ok.inj pins⟩
    simp only [report, found]
    rfl

private theorem images_of_report {text : String}
    (scan : report text path .terragrunt = .ok scanned) :
    ∃ options, (values imageHere? text.toList).mapM ImageAssignment.pin? = .ok options ∧
      scanned.dependencies.map Dependency.pin = options.filterMap id := by
  cases read : (values imageHere? text.toList).mapM ImageAssignment.pin? with
  | ok options =>
    obtain ⟨report', again, pins⟩ := @report_of_images path text options read
    obtain rfl := Except.ok.inj (scan.symm.trans again)
    exact ⟨options, rfl, pins⟩
  | error fault =>
    have pins := images_pins text.toList path
    rw [read] at pins
    cases found : images text.toList path with
    | ok dependencies => rw [found] at pins; cases pins
    | error cause =>
      simp only [report, found] at scan
      cases scan

private theorem assignment_of_mem {text : String}
    (scan : report text path .terragrunt = .ok scanned)
    (member : dependency ∈ scanned.dependencies) :
    ∃ found ∈ values imageHere? text.toList, dependency.source.toList = found.image ∧
      dependency.current.toList = found.tag ∧ Version.isSemanticLike found.tag = .ok true := by
  obtain ⟨options, read, pins⟩ := images_of_report scan
  have inside : dependency.pin ∈ options.filterMap id := by
    rw [← pins]
    exact List.mem_map_of_mem member
  obtain ⟨option, here, same⟩ := List.mem_filterMap.mp inside
  obtain ⟨found, present, pinned⟩ := Result.mem_of_mapM_eq_ok read here
  obtain ⟨semantic, decided, given⟩ := Result.map_eq_ok.mp pinned
  cases semantic with
  | false => subst given; cases same
  | true =>
    obtain rfl : some _ = option := given
    obtain ⟨-, source, current⟩ := Pin.mk.inj (Option.some.inj same)
    exact ⟨found, present, by simp [← source], by simp [← current], decided⟩

private theorem reference?_tagged {image tag : List Char}
    (named : ∀ c ∈ image, isImageChar c = true) :
    reference? .image (tagged image tag) = some (image, tag) := by
  refine cutAt?_of_notMem (fun member => ?_) tag
  have char := named ':' member
  revert char
  decide

private theorem quote_notMem_tagged {image tag : List Char}
    (named : ∀ c ∈ image, isImageChar c = true) (closed : '"' ∉ tag) : '"' ∉ tagged image tag := by
  intro member
  rcases List.mem_append.mp member with member | member
  · have char := named '"' member
    revert char
    decide
  · rcases List.mem_cons.mp member with same | member
    · revert same
      decide
    · exact closed member

private theorem image_quoted {text : String} (scan : report text path .terragrunt = .ok scanned)
    (member : dependency ∈ scanned.dependencies) :
    Referable .image dependency.source.toList dependency.current.toList ∧
      (dependency.source.toList, dependency.current.toList) ∈
        quotedReferences .image text.toList := by
  obtain ⟨found, present, source, current, semantic⟩ := assignment_of_mem scan member
  obtain ⟨here, rest, within, recognised⟩ :=
    exists_of_mem_values (fun _ _ _ => suffix_of_imageHere?) present
  obtain ⟨⟨front, split⟩, named, opened, closed, _⟩ := eq_of_imageHere? recognised
  rw [source, current]
  refine ⟨⟨named, opened, semantic, closed⟩, ?_⟩
  have stands : inQuotes (tagged found.image found.tag) <:+: text.toList :=
    List.IsInfix.trans ⟨front, rest, by simp [inQuotes, tagged, split]⟩ within.isInfix
  exact mem_quotedReferences (quote_notMem_tagged named closed) stands (reference?_tagged named)

private theorem retag_pins {image old new : List Char} {found found' : List ImageAssignment}
    {options : List (Option Pin)} (semantic : Version.isSemanticLike old = .ok true)
    (semantic' : Version.isSemanticLike new = .ok true)
    (retags : List.Forall₂ (Retags image old new) found found')
    (read : found.mapM ImageAssignment.pin? = .ok options) :
    ∃ options', found'.mapM ImageAssignment.pin? = .ok options' ∧
      List.Forall₂ (Upgrades (String.ofList image) (String.ofList old) (String.ofList new))
        (options.filterMap id) (options'.filterMap id) := by
  induction retags generalizing options with
  | nil =>
    obtain rfl := Except.ok.inj read
    exact ⟨[], rfl, .nil⟩
  | @cons first second found found' here _ ih =>
    rw [List.mapM_cons] at read
    obtain ⟨option, decided, read⟩ := Result.bind_eq_ok.mp read
    obtain ⟨rest, others, read⟩ := Result.bind_eq_ok.mp read
    obtain rfl := Except.ok.inj read
    obtain ⟨rest', others', upgrades⟩ := ih others
    have whole (pin : Option Pin) (here : second.pin? = .ok pin) :
        (second :: found').mapM ImageAssignment.pin? = .ok (pin :: rest') := by
      rw [List.mapM_cons, here, others']
      rfl
    obtain ⟨name, tag, version⟩ := first
    obtain ⟨name', tag', version'⟩ := second
    obtain ⟨rfl, rfl, change⟩ := here
    rcases change with rfl | ⟨rfl, rfl, rfl⟩
    · refine ⟨option :: rest', whole option decided, ?_⟩
      cases option with
      | none => exact upgrades
      | some pin => exact .cons ⟨rfl, rfl, .inl rfl⟩ upgrades
    · obtain rfl := Except.ok.inj (decided.symm.trans
        (ImageAssignment.pin?_of_isSemanticLike semantic))
      refine ⟨_, whole _ (ImageAssignment.pin?_of_isSemanticLike semantic'), ?_⟩
      exact .cons ⟨rfl, rfl, .inr ⟨rfl, rfl, rfl⟩⟩ upgrades

private theorem notMem_of_isSemanticLike {tag : List Char} {c : Char}
    (semantic : Version.isSemanticLike tag = .ok true) (unpinned : isVersionChar c = false)
    (filled : isBlank c = false) : c ∉ tag := by
  intro member
  rcases Version.isVersionChar_of_isSemanticLike semantic member with pinned | blank
  · rw [unpinned] at pinned
    cases pinned
  · rw [filled] at blank
    cases blank

/-- The turn of a task in a file of images. -/
theorem image_turns (scan : report (String.ofList content) path .terragrunt = .ok scanned)
    (tag : TagVersion version) (image : dependency.kind = .image)
    (referable : Referable .image dependency.source.toList dependency.current.toList)
    (located : Locates content dependency) :
    Turns .terragrunt path dependency.source dependency.current version content
      (patchImage content dependency version.toList).content scanned.dependencies := by
  obtain ⟨named, opens, semantic, closed⟩ := referable
  have unquoted : '"' ∉ version.toList := fun member => by
    have pinned := tag.pinned '"' member
    rw [not_isVersionChar_quote] at pinned
    cases pinned
  cases located with
  | block module => rw [image] at module; cases module
  | @text place found opened closes =>
    simp only [referenceText, image] at found
    have whole : (patchImage content dependency version.toList).content =
        place.fill (tagged dependency.source.toList version.toList) := by
      simp only [patchImage, found]
    rw [whole]
    have swaps := swaps_of_whole found opened closes (quote_notMem_tagged named closed)
      (quote_notMem_tagged named unquoted)
    obtain ⟨before, after, split, split'⟩ := swaps.stands
    obtain ⟨options, read, pins⟩ := images_of_report scan
    have retags := values_retag named opens
      ⟨Version.ne_nil_of_isSemanticLike semantic, Version.ne_nil_of_isSemanticLike tag.semantic⟩
      ⟨closed, unquoted⟩ ⟨notMem_of_isSemanticLike semantic (by decide) (by decide),
        notMem_of_isSemanticLike tag.semantic (by decide) (by decide)⟩ before after
    have text (tag : List Char) : before ++ '"' :: (tagged dependency.source.toList tag ++ '"' :: after) =
        before ++ '"' :: (dependency.source.toList ++ ':' :: (tag ++ '"' :: after)) := by
      simp [tagged]
    rw [← text, ← text, ← split, ← split'] at retags
    rw [String.toList_ofList] at read
    obtain ⟨options', read', upgrades⟩ := retag_pins semantic tag.semantic retags read
    rw [← String.toList_ofList (l := place.fill _)] at read'
    obtain ⟨rescanned, after', pins'⟩ := @report_of_images path _ options' read'
    refine ⟨⟨_, _, swaps, reference?_tagged named, reference?_tagged named⟩, nofun, rescanned, after',
      ?_, fun dependency member => ?_⟩
    · rw [← pins, ← pins', List.forall₂_map_left_iff, List.forall₂_map_right_iff] at upgrades
      simpa using upgrades
    · have quoted := (image_quoted after' member).2
      rwa [String.toList_ofList] at quoted

theorem task_turns {format : FileFormat} {task : UpgradeTask}
    (tidy : format = .terraform → Tidy (String.ofList content))
    (scan : report (String.ofList content) path format = .ok scanned)
    (tag : TagVersion task.newVersion) (kind : task.kind = format.kind)
    (referable : Referable format.kind task.dependency.source.toList
      task.dependency.current.toList)
    (located : Locates content task.dependency) :
    Turns format path task.dependency.source task.dependency.current task.newVersion content
      (patch content task).content scanned.dependencies := by
  unfold patch
  rw [kind]
  cases format with
  | terraform => exact module_turns (tidy rfl) scan tag kind referable located
  | terragrunt => exact image_turns scan tag kind referable located

/-- What scanning finds in a file can be referred to. -/
theorem referable_of_mem {format : FileFormat} {text : String} (tidy : format = .terraform → Tidy text)
    (scan : report text path format = .ok scanned) (member : dependency ∈ scanned.dependencies) :
    Referable format.kind dependency.source.toList dependency.current.toList := by
  cases format with
  | terraform =>
    obtain ⟨found, read, addressed⟩ := (tidy rfl).addressed
    obtain ⟨scanned', again, pins⟩ := @report_of_modules _ path found read
    obtain rfl := Except.ok.inj (scan.symm.trans again)
    obtain ⟨address, _, source, current⟩ := address_of_mem addressed pins member
    exact ⟨address, source, current⟩
  | terragrunt => exact (image_quoted scan member).1

end InfraPins.Patch
