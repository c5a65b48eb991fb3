import InfraPins.Proofs.Patch.Block
import InfraPins.Proofs.Patch.Renewal

namespace InfraPins.Patch

open Text Scan Source Repin

/-- The reference of a module is reached as it is written: by its exact text, with no further
parameter behind it, or, where that stands nowhere, by its block. -/
inductive Reached (content : List Char) (dependency : Dependency) : Prop where
  | text {place : Place}
    (found : findWhole? (withVersion dependency.source.toList dependency.current.toList) content =
      some place) (single : place.after.head? ≠ some '&')
  | block (within : InBlock content dependency)

/-- A version that can be put into an address. -/
structure Settable (version : String) : Prop where
  pinned : ∀ c ∈ version.toList, isVersionChar c = true
  nonempty : version.toList ≠ []
  apart : endsKeyword version.toList = false

/-- The upgrade of a dependency that is reached edits its source. -/
theorem patchModule_edits {content version : List Char} {dependency : Dependency} {address : Address}
    (pinned : ∀ c ∈ version, isVersionChar c = true) (versioned : version ≠ [])
    (source : dependency.source.toList = address.bare)
    (current : dependency.current.toList = address.version)
    (reached : Reached content dependency) :
    ∃ repin, Edits repin content (patchModule content dependency version).content address.bare
      address.version version := by
  cases reached with
  | @text place found single =>
    rw [source, current] at found
    have whole : (patchModule content dependency version).content =
        place.fill (withVersion address.bare version) := by
      simp only [patchModule, source, current, found]
    obtain ⟨repin, _, edits⟩ := edits_of_whole pinned versioned found single
    exact ⟨repin, whole ▸ edits⟩
  | block within =>
    obtain ⟨⟨repin, _, edits⟩, _⟩ := edits_of_block pinned versioned within
    rw [source, current] at edits
    exact ⟨repin, edits⟩

/-- In a tidy file, the upgrade of a dependency that is reached as it is written touches only
dependencies with its source: scanning the result finds every other one with the name, the source
and the version that it had. -/
theorem patchModule_upgrades {content path : String} {scanned : Report} {dependency : Dependency}
    {version : String} (tidy : Tidy content) (terraform : FileFormat.ofPath? path = some .terraform)
    (scan : reportAs content path none = .ok scanned)
    (member : dependency ∈ scanned.dependencies)
    (apart : endsKeyword dependency.current.toList = false) (settable : Settable version)
    (reached : Reached content.toList dependency) :
    ∃ rescanned, reportAs (String.ofList (patchModule content.toList dependency
        version.toList).content) path none = .ok rescanned ∧
      List.Forall₂ (fun old new =>
        Upgrades dependency.source dependency.current version old.pin new.pin)
        scanned.dependencies rescanned.dependencies := by
  have format (text : String) : reportAs text path none = report text path .terraform := by
    simp only [reportAs, Option.none_or, terraform]
  obtain ⟨found, read, addressed⟩ := tidy.addressed
  obtain ⟨scanned', report, pins⟩ := @report_of_modules content path found read
  obtain rfl := Except.ok.inj ((format content ▸ scan).symm.trans report)
  obtain ⟨address, _, source, current⟩ := address_of_mem addressed pins member
  obtain ⟨repin, edits⟩ :=
    patchModule_edits settable.pinned settable.nonempty source current reached
  generalize (patchModule content.toList dependency version.toList).content = patched at edits ⊢
  have edits' : Edits repin content.toList (String.ofList patched).toList address.bare address.version
      version.toList := by simpa using edits
  have free : Apart repin := ⟨edits.ends, .inl (edits.old_eq ▸ current ▸ apart),
    .inl (edits.new_eq ▸ settable.apart)⟩
  obtain ⟨_, first, found', same, read', _, renews⟩ := tidy.renew edits' settable.pinned free
  obtain rfl := Except.ok.inj (read.symm.trans same)
  obtain ⟨rescanned, report', pins'⟩ := @report_of_modules _ path found' read'
  refine ⟨rescanned, (format _).trans report', ?_⟩
  have upgrades := pins_renew addressed renews
  rw [← pins, ← pins', List.forall₂_map_left_iff, List.forall₂_map_right_iff] at upgrades
  simpa [← source, ← current] using upgrades

deriving instance DecidableEq for Scan.Report

private def secondModule : Dependency :=
  ⟨"a", "git::https://h/a?depth=1", "v1", "main.tf", 2, .module⟩

private theorem secondModule_inBlock : InBlock twoModules.toList secondModule := by
  let address := sampleAddress "git::https://h/a".toList [] ["depth=1".toList] (by decide)
  refine inBlock_of_tails address ?_ ?_ ?_ ?_ ?_ <;> decide +kernel

theorem patchModule_upgrades_sample :
    ∃ rescanned, reportAs (String.ofList (patchModule twoModules.toList secondModule
        "v2".toList).content) "main.tf" none = .ok rescanned ∧
      List.Forall₂ (fun old new =>
        Upgrades secondModule.source secondModule.current "v2" old.pin new.pin)
        [⟨"x", "git::https://h/x", "v1", "main.tf", 1, .module⟩, secondModule]
        rescanned.dependencies := by
  have scan : reportAs twoModules "main.tf" none = .ok ⟨none,
      [⟨"x", "git::https://h/x", "v1", "main.tf", 1, .module⟩, secondModule]⟩ := by decide +kernel
  have settable : Settable "v2" := ⟨List.all_eq_true.mp (by decide), by decide, by decide⟩
  exact patchModule_upgrades twoModules_tidy (by decide) scan (by simp) (by decide) settable
    (.block secondModule_inBlock)

/-- Two modules, of which the second has a map before its source and its `ref` not last. -/
private def mappedModule : String :=
  "module \"x\" \x7b source = \"git::https://h/x?ref=v1\" \x7d\n"
    ++ "module \"a\" \x7b\n tags = \x7b\x7d\n source = \"git::https://h/a?ref=v1&depth=1\"\n\x7d\n"

private def mappedModuleAfter : String :=
  "module \"x\" \x7b source = \"git::https://h/x?ref=v2\" \x7d\n"
    ++ "module \"a\" \x7b\n tags = \x7b\x7d\n source = \"git::https://h/a?ref=v1&depth=1\"\n\x7d\n"

private def mappedDependency : Dependency :=
  ⟨"a", "git::https://h/a?depth=1", "v1", "main.tf", 2, .module⟩

/-- A module that is not reached by its text or its block is looked for by its version alone, and
then another module is upgraded in its place. -/
theorem not_patchModule_upgrades :
    ¬ ∀ (content path version : String) (found : List ModuleSource) (scanned : Report)
        (dependency : Dependency),
      modules content = .ok found →
      (∀ module ∈ found, ∃ address : Address, module.source = address.text) →
      FileFormat.ofPath? path = some .terraform → reportAs content path none = .ok scanned →
      dependency ∈ scanned.dependencies → Version.isSemanticLike version.toList = .ok true →
      ∃ rescanned, reportAs (String.ofList (patchModule content.toList dependency
          version.toList).content) path none = .ok rescanned ∧
        List.Forall₂ (fun old new => old.source = dependency.source ∨ new.pin = old.pin)
          scanned.dependencies rescanned.dependencies := by
  intro claimed
  have read : modules mappedModule = .ok [⟨"x".toList, "git::https://h/x?ref=v1".toList⟩,
      ⟨"a".toList, "git::https://h/a?ref=v1&depth=1".toList⟩] := by decide +kernel
  have addressed : ∀ module ∈ [(⟨"x".toList, "git::https://h/x?ref=v1".toList⟩ : ModuleSource),
      ⟨"a".toList, "git::https://h/a?ref=v1&depth=1".toList⟩],
      ∃ address : Address, module.source = address.text := by
    simp only [List.forall_mem_cons, List.not_mem_nil, false_implies, implies_true, and_true]
    exact ⟨⟨sampleAddress "git::https://h/x".toList [] [] (by decide), by decide⟩,
      ⟨sampleAddress "git::https://h/a".toList [] ["depth=1".toList] (by decide), by decide⟩⟩
  have scan : reportAs mappedModule "main.tf" none = .ok ⟨none,
      [⟨"x", "git::https://h/x", "v1", "main.tf", 1, .module⟩, mappedDependency]⟩ := by decide +kernel
  have patched : String.ofList (patchModule mappedModule.toList mappedDependency
      "v2".toList).content = mappedModuleAfter := by decide +kernel
  have rescan : reportAs mappedModuleAfter "main.tf" none = .ok ⟨none,
      [⟨"x", "git::https://h/x", "v2", "main.tf", 1, .module⟩, mappedDependency]⟩ := by decide +kernel
  obtain ⟨rescanned, again, same⟩ := claimed mappedModule "main.tf" "v2" _ _ mappedDependency
    read addressed (by decide) scan (by simp) (by decide +kernel)
  rw [patched] at again
  obtain rfl := Except.ok.inj (rescan.symm.trans again)
  cases same with
  | cons first _ => revert first; decide

end InfraPins.Patch
