import InfraPins.Proofs.Patch.Splice
import InfraPins.Proofs.Patch.Turn

/-! Complete versions. The `ref` of a block and a `ref` anywhere are edited only where a reader of the
`ref` reads the version and nothing else. A reference that is found by its exact text ends where no
character of a version follows, which is not always where a reader stops: `v1` stands whole in
`v1/x` and in `v1~2`. Where it does stop there, only complete versions are edited. -/

namespace InfraPins.Patch

open Text Source

/-- A character that a reader of versions goes on with: in a module all but `&`, the double quote and
white space, in an image all but the double quote and white space. -/
def isRead (kind : DependencyKind) (c : Char) : Bool :=
  match kind with
  | .module => isRefChar c
  | .image => !(c == '"' || isBlank c)

/-- What a reader takes for the version that stands first in a text. -/
def readFrom (kind : DependencyKind) (text : List Char) : List Char :=
  text.takeWhile (isRead kind)

/-- A text with the version of a dependency changed at some places, at each of which a reader reads
just that version. -/
inductive EditsComplete (dependency : Dependency) (version : List Char) :
    List Char → List Char → Prop where
  | same (content : List Char) : EditsComplete dependency version content content
  | change {before after after' : List Char} (leads : LeadsToVersion dependency before)
    (complete : readFrom dependency.kind (dependency.current.toList ++ after) =
      dependency.current.toList)
    (onward : EditsComplete dependency version after after') :
    EditsComplete dependency version (before ++ (dependency.current.toList ++ after))
      (before ++ (version ++ after'))

variable {dependency : Dependency} {version content content' after : List Char}

theorem LeadsToVersion.behind {before : List Char} (leads : LeadsToVersion dependency before)
    (opening : List Char) : LeadsToVersion dependency (opening ++ before) := by
  unfold LeadsToVersion at leads ⊢
  split at leads
  · exact LeadsToRef.behind leads opening
  · exact leads.trans (List.suffix_append _ _)

theorem EditsComplete.behind (edits : EditsComplete dependency version content content')
    (opening : List Char) :
    EditsComplete dependency version (opening ++ content) (opening ++ content') := by
  cases edits with
  | same => exact .same _
  | change leads complete onward =>
    rw [← List.append_assoc, ← List.append_assoc opening]
    exact .change (leads.behind opening) complete onward

/-- A version is read completely where nothing goes on behind it. -/
theorem readFrom_append {kind : DependencyKind} {current : List Char}
    (readable : ∀ c ∈ current, isRead kind c = true)
    (ends : ∀ c ∈ after.head?, isRead kind c = false) :
    readFrom kind (current ++ after) = current := by
  rw [readFrom, List.takeWhile_append_of_pos readable]
  cases after with
  | nil => simp
  | cons c after => simp [ends c rfl]

theorem isRead_of_ends {kind : DependencyKind} (module : kind = .module)
    (ended : after.head?.all endsRef = true) : ∀ c ∈ after.head?, isRead kind c = false := by
  intro c head
  rw [head] at ended
  have ends : endsRef c = true := ended
  rw [module, isRead, isRefChar_eq, ends]
  rfl

theorem replaceRefs_of_some {text rest : List Char} (found : afterLeadingRef? text = some rest) :
    replaceRefs version text = refMark ++ version ++ replaceRefs version rest := by
  rw [replaceRefs]
  split
  · rename_i other same
    rw [Option.some.inj (found.symm.trans same)]
  · rename_i missed
    rw [found] at missed
    cases missed

theorem replaceRefs_of_none {c : Char} {text : List Char}
    (missed : afterLeadingRef? (c :: text) = none) :
    replaceRefs version (c :: text) = c :: replaceRefs version text := by
  rw [replaceRefs]
  split
  · rename_i rest found
    rw [missed] at found
    cases found
  · rfl

theorem replaceRefs_nil : replaceRefs version [] = [] := by
  rw [replaceRefs]
  rfl

/-- Behind the value of a `?ref=` no character of it goes on. -/
theorem ends_of_afterLeadingRef? {text rest : List Char} (found : afterLeadingRef? text = some rest) :
    ∀ c ∈ rest.head?, isRefChar c = false := by
  unfold afterLeadingRef? at found
  split at found
  · rename_i value _
    split at found
    · cases found
    · obtain rfl := Option.some.inj found
      intro c head
      have stops := List.head?_dropWhile_not isRefChar value
      rw [head] at stops
      exact stops
  · cases found

/-- A text whose first character does not go on starts as before when versions are put into it. -/
theorem head?_replaceRefs {text : List Char} (ends : ∀ c ∈ text.head?, isRefChar c = false) :
    (replaceRefs version text).head? = text.head? := by
  cases text with
  | nil => rw [replaceRefs_nil]
  | cons c text =>
    -- The mark of a `ref` starts with a character of versions, which this one is not.
    have unmarked : '?' ≠ c := by
      rintro rfl
      exact absurd (ends '?' rfl) (by decide)
    have missed : afterLeadingRef? (c :: text) = none := by
      simp [afterLeadingRef?, refMark, after?, unmarked]
    rw [replaceRefs_of_none missed]
    rfl

/-- What stands behind a version that is put into a text does not go on with it. -/
theorem ends_replaceRefs {text : List Char} (module : dependency.kind = .module)
    (starts : ∀ c ∈ text.head?, isRefChar c = false)
    (ends : ∀ c ∈ after.head?, isRead dependency.kind c = false) :
    ∀ c ∈ (replaceRefs version text ++ after).head?, isRead dependency.kind c = false := by
  cases text with
  | nil =>
    rw [replaceRefs_nil]
    exact ends
  | cons d text =>
    intro c head
    have first : (replaceRefs version (d :: text)).head? = some d := head?_replaceRefs starts
    rw [List.head?_append, first] at head
    rw [module]
    exact starts c head

theorem replaceRefs_edits {text : List Char} (module : dependency.kind = .module)
    (readable : ∀ c ∈ dependency.current.toList, isRead dependency.kind c = true)
    (ends : ∀ c ∈ after.head?, isRead dependency.kind c = false) :
    EditsComplete dependency version (replaceRefs dependency.current.toList text ++ after)
      (replaceRefs version text ++ after) := by
  -- The induction is that of the replacement: behind each version stands what is made of the rest.
  induction text using replaceRefs.induct with
  | case1 text rest found ih =>
    have leads : LeadsToVersion dependency refMark :=
      LeadsToRef.toVersion (.inl List.suffix_rfl) module
    have behind := @ends_replaceRefs dependency dependency.current.toList after rest module
      (ends_of_afterLeadingRef? found) ends
    have edits := EditsComplete.change leads (readFrom_append readable behind) ih
    rw [replaceRefs_of_some found, replaceRefs_of_some found]
    simpa using edits
  | case2 missed =>
    rw [replaceRefs_nil, replaceRefs_nil]
    exact .same _
  | case3 c text missed ih =>
    rw [replaceRefs_of_none missed, replaceRefs_of_none missed]
    exact ih.behind [c]

theorem EditsComplete.once {before : List Char} (leads : LeadsToVersion dependency before)
    (readable : ∀ c ∈ dependency.current.toList, isRead dependency.kind c = true)
    (ends : ∀ c ∈ after.head?, isRead dependency.kind c = false) :
    EditsComplete dependency version (before ++ dependency.current.toList ++ after)
      (before ++ version ++ after) := by
  rw [List.append_assoc, List.append_assoc]
  exact .change leads (readFrom_append readable ends) (.same after)

/-- A character that a locator cannot go on with: white space or a quote. -/
def isApart (c : Char) : Bool :=
  isBlank c || c == '"' || c == '\''

/-- Wherever the text of a reference stands, the bounds that it is looked for with are those of its
readers: what could go on with a version is a character of versions, and what stands before a
locator is a character of locators or sets them apart. -/
structure SameBounds (dependency : Dependency) (content : List Char) : Prop where
  closing : ∀ before after, content = before ++ referenceText dependency ++ after →
    ∀ c ∈ after.head?, isRead dependency.kind c = true → isVersionChar c = true
  opening : dependency.kind = .module →
    ∀ before after, content = before ++ referenceText dependency ++ after →
      ∀ c ∈ before.getLast?, isNameChar c = true ∨ isApart c = true

/-- The edit of the exact text: one reference in the place of another, with nothing before it that a
locator could go on with. -/
def EditsWhole (dependency : Dependency) (version : String) (content content' : List Char) : Prop :=
  ∃ before after, content = before ++ referenceText dependency ++ after ∧
    content' = before ++ referenceText { dependency with current := version } ++ after ∧
    ∀ c ∈ before.getLast?, isApart c = true

theorem SameBounds.ends {place : Place} (bounds : SameBounds dependency content)
    (found : findWhole? (referenceText dependency) content = some place) :
    ∀ c ∈ place.after.head?, isRead dependency.kind c = false := by
  obtain ⟨split, _, goes⟩ := findWhole?_split found
  intro c head
  rw [head] at goes
  have stops : isVersionChar c = false := goes
  by_contra read
  rw [bounds.closing _ _ split c head (by simpa using read)] at stops
  cases stops

theorem SameBounds.apart {place : Place} (bounds : SameBounds dependency content)
    (module : dependency.kind = .module)
    (found : findWhole? (referenceText dependency) content = some place) :
    ∀ c ∈ place.before.getLast?, isApart c = true := by
  obtain ⟨split, named, _⟩ := findWhole?_split found
  intro c last
  rw [last] at named
  have starts : isNameChar c = false := named
  apply (bounds.opening module _ _ split c last).resolve_left
  rw [starts]
  exact Bool.false_ne_true

/-- A source with one version in the place of another. -/
theorem withVersion_edits {before : List Char} (module : dependency.kind = .module)
    (readable : ∀ c ∈ dependency.current.toList, isRead dependency.kind c = true)
    (ends : ∀ c ∈ after.head?, isRead dependency.kind c = false) :
    EditsComplete dependency version
      (before ++ withVersion dependency.source.toList dependency.current.toList ++ after)
      (before ++ withVersion dependency.source.toList version ++ after) := by
  cases marked : occurs refMark dependency.source.toList with
  | true =>
    simp only [withVersion, marked, if_true, List.append_assoc]
    exact (replaceRefs_edits module readable ends).behind before
  | false =>
    have plain : ¬ refMark <:+: dependency.source.toList := fun inside =>
      Bool.eq_false_iff.mp marked (occurs_iff.mpr inside)
    obtain ⟨opening, leads, put⟩ := withVersion_of_plain plain
    rw [put, put, ← List.append_assoc, ← List.append_assoc]
    exact .once ((leads.behind before).toVersion module) readable ends

theorem patchModule_completes {version : String} (module : dependency.kind = .module)
    (readable : ∀ c ∈ dependency.current.toList, isRead dependency.kind c = true)
    (bounds : SameBounds dependency content) :
    let patched := patchModule content dependency version.toList
    EditsComplete dependency version.toList content patched.content ∧
      (patched.tier = some .whole → EditsWhole dependency version content patched.content) := by
  have text : referenceText dependency =
      withVersion dependency.source.toList dependency.current.toList := by
    rw [referenceText, module]
  have text' : referenceText { dependency with current := version } =
      withVersion dependency.source.toList version.toList := by
    rw [referenceText, module]
  have pinned {place : Place} (pins : place.Pins dependency.current.toList content)
      (ended : place.after.head?.all endsRef = true) :
      EditsComplete dependency version.toList content (place.fill version.toList) := by
    rw [pins.split]
    exact .once (pins.leads.toVersion module) readable (isRead_of_ends module ended)
  unfold patchModule
  simp only
  cases whole :
    findWhole? (withVersion dependency.source.toList dependency.current.toList) content with
  | some place =>
    rw [← text] at whole
    obtain ⟨split, _, _⟩ := findWhole?_split whole
    constructor
    · have edits := @withVersion_edits dependency version.toList place.after place.before module
        readable (bounds.ends whole)
      rwa [← text, ← split] at edits
    · intro _
      refine ⟨place.before, place.after, split, ?_, bounds.apart module whole⟩
      rw [text']
      rfl
  | none =>
    cases block : findInBlock? dependency.name.toList dependency.current.toList content with
    | some place =>
      obtain ⟨pins, ended⟩ := pins_of_findInBlock? block
      refine ⟨pinned pins (all_of_any ended), fun other => ?_⟩
      cases other
    | none =>
      cases loose : findLoose? dependency.current.toList content with
      | some place =>
        obtain ⟨pins, ended⟩ := pins_of_findLoose? loose
        refine ⟨pinned pins ended, fun other => ?_⟩
        cases other
      | none =>
        refine ⟨.same content, fun other => ?_⟩
        cases other

theorem patchImage_completes {version : String} (image : dependency.kind = .image)
    (readable : ∀ c ∈ dependency.current.toList, isRead dependency.kind c = true)
    (bounds : SameBounds dependency content) :
    EditsComplete dependency version.toList content
      (patchImage content dependency version.toList).content := by
  have text : referenceText dependency =
      tagged dependency.source.toList dependency.current.toList := by
    rw [referenceText, image]
  unfold patchImage
  simp only
  cases whole : findWhole? (tagged dependency.source.toList dependency.current.toList) content with
  | none => exact .same content
  | some place =>
    rw [← text] at whole
    obtain ⟨split, _, _⟩ := findWhole?_split whole
    have edits := @EditsComplete.once dependency version.toList place.after _
      (leadsToVersion_of_image image place.before) readable (bounds.ends whole)
    rw [split, text]
    simpa [tagged, Place.fill] using edits

/-- Where the patch looks for the bounds that readers look for, it edits only complete versions that
are just the current one, and by its exact text only a locator that is no part of a longer one. -/
theorem patch_edits_complete_versions {content : List Char} {task : UpgradeTask}
    (readable : ∀ c ∈ task.dependency.current.toList, isRead task.kind c = true)
    (bounds : SameBounds task.dependency content) :
    EditsComplete task.dependency task.newVersion.toList content (patch content task).content ∧
      (task.kind = .module → (patch content task).tier = some .whole →
        EditsWhole task.dependency task.newVersion content (patch content task).content) := by
  cases kind : task.kind with
  | image =>
    refine ⟨?_, nofun⟩
    rw [patch, kind]
    exact patchImage_completes kind readable bounds
  | module =>
    obtain ⟨complete, whole⟩ := patchModule_completes kind readable bounds
    rw [patch, kind]
    exact ⟨complete, fun _ => whole⟩

/-- Whether the bounds are the same next to a reference that stands behind so many characters, if one
does. -/
def sameBoundsAt (dependency : Dependency) (content : List Char) (count : Nat) : Bool :=
  match after? (referenceText dependency) (content.drop count) with
  | none => true
  | some after =>
    after.head?.all (fun c => !isRead dependency.kind c || isVersionChar c) &&
      (content.take count).getLast?.all fun c => isNameChar c || isApart c

theorem sameBounds_of_places
    (same : (List.range content.length.succ).all (sameBoundsAt dependency content) = true) :
    SameBounds dependency content := by
  have here {before after : List Char}
      (split : content = before ++ referenceText dependency ++ after) :
      (∀ c ∈ after.head?, isRead dependency.kind c = true → isVersionChar c = true) ∧
        ∀ c ∈ before.getLast?, isNameChar c = true ∨ isApart c = true := by
    have inside : before.length ∈ List.range content.length.succ := by
      rw [List.mem_range, split]
      simp only [List.length_append]
      omega
    have placed := List.all_eq_true.mp same before.length inside
    have found : after? (referenceText dependency) (content.drop before.length) = some after := by
      rw [after?_eq_some_iff, split, List.append_assoc, List.drop_left]
    have front : content.take before.length = before := by
      rw [split, List.append_assoc, List.take_left]
    rw [sameBoundsAt, found, front, Bool.and_eq_true] at placed
    obtain ⟨closing, opening⟩ := placed
    constructor
    · intro c head read
      rw [head] at closing
      simpa [read] using closing
    · intro c last
      rw [last] at opening
      simpa using opening
  exact ⟨fun _ _ split => (here split).1, fun _ _ _ split => (here split).2⟩

private def twoBlocks (first second : String) : String :=
  "module \"a\" \x7b source = \"git::h/net?ref=" ++ first ++ "\" \x7d\n" ++
    "module \"b\" \x7b source = \"git::h/net?ref=" ++ second ++ "\" \x7d\n"

private def secondBlock (first : String) : UpgradeTask where
  dependency := ⟨"b", "git::h/net", "v1", "main.tf", 2, .module⟩
  newVersion := "v2"
  content := twoBlocks first "v1"

theorem patch_edits_complete_versions_sample :
    (∀ c ∈ (secondBlock "v1.0").dependency.current.toList,
        isRead (secondBlock "v1.0").kind c = true) ∧
      SameBounds (secondBlock "v1.0").dependency (secondBlock "v1.0").content.toList ∧
      (patch (secondBlock "v1.0").content.toList (secondBlock "v1.0")).content =
        (twoBlocks "v1.0" "v2").toList ∧
      EditsComplete (secondBlock "v1.0").dependency ['v', '2'] (secondBlock "v1.0").content.toList
        (twoBlocks "v1.0" "v2").toList ∧
      EditsWhole (secondBlock "v1.0").dependency "v2" (secondBlock "v1.0").content.toList
        (twoBlocks "v1.0" "v2").toList := by
  have readable : ∀ c ∈ (secondBlock "v1.0").dependency.current.toList,
      isRead (secondBlock "v1.0").kind c = true := List.all_eq_true.mp (by decide)
  have bounds : SameBounds (secondBlock "v1.0").dependency (secondBlock "v1.0").content.toList :=
    sameBounds_of_places (by decide +kernel)
  have patched : patch (secondBlock "v1.0").content.toList (secondBlock "v1.0") =
      ⟨(twoBlocks "v1.0" "v2").toList, some .whole⟩ := by decide +kernel
  obtain ⟨complete, whole⟩ := patch_edits_complete_versions readable bounds
  rw [patched] at complete whole
  rw [patched]
  exact ⟨readable, bounds, rfl, complete, whole rfl rfl⟩

/-- A change starts at a first place, at which a complete version stands. -/
theorem EditsComplete.first (edits : EditsComplete dependency version content content')
    (changed : content' ≠ content) :
    ∃ count ≤ content.length, LeadsToVersion dependency (content.take count) ∧
      readFrom dependency.kind (content.drop count) = dependency.current.toList ∧
      content.take count ++ version <+: content' := by
  cases edits with
  | same => exact absurd rfl changed
  | @change before after after' leads complete onward =>
    refine ⟨before.length, ?_, ?_, ?_, ?_⟩
    · simp
    · rwa [List.take_left]
    · rwa [List.drop_left]
    · rw [List.take_left, ← List.append_assoc]
      exact List.prefix_append _ _

instance (before : List Char) : Decidable (LeadsToRef before) :=
  inferInstanceAs (Decidable (_ ∨ _))

/-- A version that another one goes on with after a slash is edited in its place: `v1` in `v1/x`,
although the version to be changed stands complete in the block of the module. -/
theorem not_patch_edits_complete_versions :
    ¬ ∀ (content : List Char) (task : UpgradeTask), task.newVersion ≠ task.dependency.current →
      EditsComplete task.dependency task.newVersion.toList content (patch content task).content := by
  intro complete
  have edited : (patch (secondBlock "v1/x").content.toList (secondBlock "v1/x")).content =
      (twoBlocks "v2/x" "v1").toList := by decide +kernel
  have edits := complete (secondBlock "v1/x").content.toList (secondBlock "v1/x") (by decide)
  rw [edited] at edits
  -- The second block does have the version, but the two texts differ before it.
  obtain ⟨count, within, leads, read, starts⟩ := edits.first (by decide +kernel)
  have nowhere : ∀ count ≤ (secondBlock "v1/x").content.toList.length,
      LeadsToRef ((secondBlock "v1/x").content.toList.take count) →
      ¬ (secondBlock "v1/x").content.toList.take count ++ ['v', '2'] <+:
        (twoBlocks "v2/x" "v1").toList ∨
      readFrom .module ((secondBlock "v1/x").content.toList.drop count) ≠ ['v', '1'] := by
    decide +kernel
  exact (nowhere count within leads).elim (· starts) (· read)

end InfraPins.Patch
