import InfraPins.Proofs.Scan.Modules
import InfraPins.Proofs.Scan.Report
import InfraPins.Proofs.Source.Version

/-! Versions of scanned modules. A module that is found has a version, which stands in the text of its
source behind `ref=`. Its source is that text without the parameter, and has no version unless what
stays of the text has one: a `ref=` that an ampersand introduces before any question mark, or one that
a further question mark introduces, is read as a version but is no parameter of the query. -/

namespace InfraPins.Scan

open Text Source Result

variable {content path : String} {format? : Option FileFormat} {found : Report}
  {dependency : Dependency}

private theorem module_of_mem (scanned : reportAs content path format? = .ok found)
    (member : dependency ∈ found.dependencies) (module : dependency.kind = .module) :
    ∃ read, modules content = .ok read ∧ ∃ source ∈ read, source.pin? = some dependency.pin := by
  unfold reportAs at scanned
  split at scanned
  · rename_i format _
    have terraform : format = .terraform := by
      have kind := (report_kind scanned member).symm.trans module
      cases format with
      | terraform => rfl
      | terragrunt => cases kind
    subst terraform
    have pins := report_pins content path
    rw [scanned] at pins
    obtain ⟨read, given, same⟩ := map_eq_ok.mp pins.symm
    have inside : dependency.pin ∈ read.filterMap ModuleSource.pin? := by
      rw [same]
      exact List.mem_map_of_mem member
    obtain ⟨source, here, pin⟩ := List.mem_filterMap.mp inside
    exact ⟨read, mapError_eq_ok.mp given, source, here, pin⟩
  · obtain rfl := Except.ok.inj scanned
    cases member

private theorem eq_of_pin? {source : ModuleSource} (pin : source.pin? = some dependency.pin) :
    dependency.name.toList = source.name ∧
      dependency.source.toList = withoutVersion source.source ∧
      dependency.current.toList = Source.version source.source ∧
      Source.version source.source ≠ [] := by
  unfold ModuleSource.pin? at pin
  dsimp only at pin
  split at pin
  · rename_i pinned
    obtain ⟨name, locator, current⟩ := Pin.ext_iff.mp (Option.some.inj pin)
    have filled : Source.version source.source ≠ [] := by simpa using (Bool.and_eq_true_iff.mp pinned).2
    refine ⟨?_, ?_, ?_, filled⟩
    · simpa [Dependency.pin] using (congrArg String.toList name).symm
    · simpa [Dependency.pin] using (congrArg String.toList locator).symm
    · simpa [Dependency.pin] using (congrArg String.toList current).symm
  · cases pin

/-- Every module that is found in a file is one that was read from it, with the version that stands in
the text of its source behind a mark and `ref=`; its source carries no version exactly when nothing that
stays of the text without its `ref` parameter does, as where the text has one query at most. -/
theorem modules_versions (scanned : reportAs content path format? = .ok found)
    (member : dependency ∈ found.dependencies) (module : dependency.kind = .module) :
    ∃ read, modules content = .ok read ∧ ∃ source ∈ read,
      dependency.name.toList = source.name ∧ dependency.current ≠ "" ∧
      (∃ mark, (mark = '?' ∨ mark = '&') ∧
        mark :: (refKey ++ dependency.current.toList) <:+: source.source) ∧
      dependency.source.toList = withoutVersion source.source ∧
      (Source.version dependency.source.toList = [] ↔
        ∀ piece ∈ staying source.source, Source.version piece = []) ∧
      (source.source.count '?' ≤ 1 → '&' ∉ locator source.source →
        Source.version dependency.source.toList = []) := by
  obtain ⟨read, given, source, here, pin⟩ := module_of_mem scanned member module
  obtain ⟨name, stripped, current, filled⟩ := eq_of_pin? pin
  refine ⟨read, given, source, here, name, ?_, ?_, stripped, ?_, fun single unmarked => ?_⟩
  · intro empty
    rw [empty] at current
    exact filled current.symm
  · rw [current]
    exact introduced_of_version filled
  · rw [stripped]
    exact version_withoutVersion_eq_nil_iff
  · obtain ⟨plain, left⟩ := withoutVersion_eq_written single unmarked
    rw [stripped, left]
    exact plain.version_written.1

private def oneModule (source : String) : String :=
  "module \"a\" \x7b source = \"" ++ source ++ "\" \x7d\n"

private def oneModuleFields (source : String) : List (Datum × Datum) :=
  [(.text "module", .list [.object [(.text "\"a\"",
    .ofFields [("source", .text ("\"" ++ source ++ "\"")), ("__is_block__", .bool true)])]])]

private def foundModule (source current : String) : Report :=
  ⟨none, [⟨"a", source, current, "main.tf", 1, .module⟩]⟩

theorem modules_versions_sample :
    reportAs (oneModule "git::h/net?myref=v0&ref=v1&depth=1") "main.tf" none =
        .ok (foundModule "git::h/net?myref=v0&depth=1" "v1") ∧
      modules (oneModule "git::h/net?myref=v0&ref=v1&depth=1") =
        .ok [⟨['a'], "git::h/net?myref=v0&ref=v1&depth=1".toList⟩] ∧
      Source.version "git::h/net?myref=v0&depth=1".toList = [] := by
  have document : Hcl.read? (oneModule "git::h/net?myref=v0&ref=v1&depth=1") =
      some (oneModuleFields "git::h/net?myref=v0&ref=v1&depth=1") := by decide +kernel
  have scanned : reportAs (oneModule "git::h/net?myref=v0&ref=v1&depth=1") "main.tf" none =
      .ok (foundModule "git::h/net?myref=v0&depth=1" "v1") := by
    show report _ "main.tf" .terraform = _
    rw [report, modulesByDocument, document]
    rfl
  have sources : modules (oneModule "git::h/net?myref=v0&ref=v1&depth=1") =
      .ok [⟨['a'], "git::h/net?myref=v0&ref=v1&depth=1".toList⟩] := by
    rw [modules, documentModules, document]
    rfl
  obtain ⟨read, given, source, here, _, _, _, _, _, bare⟩ :=
    modules_versions scanned List.mem_cons_self rfl
  obtain rfl := Except.ok.inj (sources.symm.trans given)
  obtain rfl := List.mem_singleton.mp here
  exact ⟨scanned, sources, bare (by decide) (by decide)⟩

/-- A `ref=` that an ampersand introduces without a query is read as a version, but stays: in
`git::h/net&ref=v1` it is no parameter. -/
theorem not_modules_versions :
    ¬ ∀ (content path : String) (format? : Option FileFormat) (found : Report),
      reportAs content path format? = .ok found → ∀ dependency ∈ found.dependencies,
        dependency.kind = .module → Source.version dependency.source.toList = [] := by
  intro bare
  have document : Hcl.read? (oneModule "git::https://h/net&ref=v1") =
      some (oneModuleFields "git::https://h/net&ref=v1") := by decide +kernel
  have scanned : reportAs (oneModule "git::https://h/net&ref=v1") "main.tf" none =
      .ok (foundModule "git::https://h/net&ref=v1" "v1") := by
    show report _ "main.tf" .terraform = _
    rw [report, modulesByDocument, document]
    rfl
  have none := bare _ _ _ _ scanned _ List.mem_cons_self rfl
  have some : Source.version "git::https://h/net&ref=v1".toList = ['v', '1'] := by decide
  cases none.symm.trans some

end InfraPins.Scan
