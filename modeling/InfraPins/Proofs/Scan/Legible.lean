import InfraPins.Proofs.Result
import InfraPins.Proofs.Version.Legible
import InfraPins.Scan.Basic

namespace InfraPins.Scan

open Result

/-- A text whose document, if it has anything under `module`, has something with elements there. -/
def ModulesListed (content : String) : Prop :=
  ∀ document value, Hcl.read? content = some document →
    Datum.lookup? (.text "module") document = some value → ∃ items, value.elements = .ok items

/-- A text whose pinned versions are legible. -/
structure Legible (content : String) : Prop where
  images : ∀ found ∈ findAll imageHere? [] content.toList, Version.Legible found.value.tag
  modules : ∀ path found, report content path .terraform = .ok found →
    ∀ dependency ∈ found.dependencies, Version.Legible dependency.current.toList

variable {content : String}

private theorem imageDependency?_of_legible (path : String) {found : Match ImageAssignment}
    (legible : Version.Legible found.value.tag) :
    ∃ image, imageDependency? path found = .ok image ∧
      ∀ dependency, image = some dependency → Version.Legible dependency.current.toList := by
  have told := legible.isSemanticLike_eq
  generalize (Version.version? found.value.tag).isSome = semantic at told
  cases semantic with
  | false => exact ⟨none, by simp only [imageDependency?, told]; rfl, nofun⟩
  | true =>
    refine ⟨_, by simp only [imageDependency?, told]; rfl, fun dependency same => ?_⟩
    obtain rfl := Option.some.inj same
    simpa using legible

theorem images_of_legible (legible : Legible content) (path : String) :
    ∃ found, images content.toList path = .ok found ∧
      ∀ dependency ∈ found, Version.Legible dependency.current.toList := by
  obtain ⟨options, found, good⟩ := mapM_of_forall fun found member =>
    imageDependency?_of_legible path (legible.images found member)
  refine ⟨options.filterMap id, by simp only [images, found]; rfl, ?_⟩
  intro dependency member
  obtain ⟨option, inside, same⟩ := List.mem_filterMap.mp member
  exact good option inside dependency same

theorem modulesByDocument_of_listed (listed : ModulesListed content) (path : String) :
    ∃ found, modulesByDocument content path = .ok found := by
  unfold modulesByDocument
  cases read : Hcl.read? content with
  | none => exact ⟨_, rfl⟩
  | some document =>
    have items : ∃ items,
        ((Datum.lookup? (.text "module") document).getD (.list [])).elements = .ok items := by
      cases found : Datum.lookup? (.text "module") document with
      | none => exact ⟨[], rfl⟩
      | some value => exact listed document value read found
    obtain ⟨items, elements⟩ := items
    exact ⟨_, by simp only [elements]; rfl⟩

theorem Legible.of_report (legible : Legible content) {path : String} {format : FileFormat}
    {found : Report} (scanned : report content path format = .ok found) :
    ∀ dependency ∈ found.dependencies, Version.Legible dependency.current.toList := by
  cases format with
  | terraform => exact legible.modules path found scanned
  | terragrunt =>
    obtain ⟨images, given, good⟩ := images_of_legible legible path
    have only : report content path .terragrunt = .ok ⟨none, images⟩ := by
      simp only [report, Failure.ofVersion, given, Except.mapError]
      rfl
    obtain rfl := Except.ok.inj (only.symm.trans scanned)
    exact good

theorem report_of_legible (legible : Legible content) (listed : ModulesListed content)
    (path : String) (format : FileFormat) :
    ∃ found, report content path format = .ok found ∧
      ∀ dependency ∈ found.dependencies, Version.Legible dependency.current.toList := by
  have scanned : ∃ found, report content path format = .ok found := by
    cases format with
    | terragrunt =>
      obtain ⟨found, given, _⟩ := images_of_legible legible path
      exact ⟨⟨none, found⟩, by simp only [report, Failure.ofVersion, given, Except.mapError]; rfl⟩
    | terraform =>
      obtain ⟨trusted, given⟩ := modulesByDocument_of_listed listed path
      simp only [report, Failure.ofMisuse, given, Except.mapError]
      cases trusted <;> exact ⟨_, rfl⟩
  obtain ⟨found, scanned⟩ := scanned
  exact ⟨found, scanned, legible.of_report scanned⟩

end InfraPins.Scan
