import InfraPins.Proofs.Result
import InfraPins.Scan.Basic

namespace InfraPins

def FileFormat.kind : FileFormat → DependencyKind
  | .terraform => .module
  | .terragrunt => .image

namespace Scan

open Result

private structure Stems (path : String) (kind : DependencyKind) (dependency : Dependency) : Prop where
  path : dependency.path = path
  kind : dependency.kind = kind

private theorem moduleDependency?_stems {name source : List Char} {path : String} {line : Nat}
    {dependency : Dependency} (found : moduleDependency? name source path line = some dependency) :
    Stems path .module dependency := by
  simp only [moduleDependency?] at found
  split at found
  · cases found
    exact ⟨rfl, rfl⟩
  · cases found

private theorem labelledDependency?_stems {content : List Char} {path : String} {label body : Datum}
    {dependency : Dependency}
    (found : labelledDependency? content path label body = .ok (some dependency)) :
    Stems path .module dependency := by
  unfold labelledDependency? at found
  split at found
  · obtain ⟨source, _, found⟩ := bind_eq_ok.mp found
    cases source with
    | none => cases found
    | some source => exact moduleDependency?_stems (Except.ok.inj found)
  · cases found

private theorem blockDependencies_stems {content : List Char} {path : String} {block : Datum}
    {modules : List Dependency} (found : blockDependencies content path block = .ok modules)
    {dependency : Dependency} (member : dependency ∈ modules) : Stems path .module dependency := by
  unfold blockDependencies at found
  split at found
  · obtain ⟨options, read, same⟩ := bind_eq_ok.mp found
    obtain rfl := Except.ok.inj same
    obtain ⟨option, inside, rfl⟩ := List.mem_filterMap.mp member
    obtain ⟨_, _, here⟩ := mem_of_mapM_eq_ok read inside
    exact labelledDependency?_stems here
  · cases found

private theorem modulesByDocument_stems {content path : String} {modules : List Dependency}
    (found : modulesByDocument content path = .ok (.ok modules)) {dependency : Dependency}
    (member : dependency ∈ modules) : Stems path .module dependency := by
  unfold modulesByDocument at found
  split at found
  · cases found
  · obtain ⟨blocks, _, trusted⟩ := bind_eq_ok.mp found
    obtain ⟨lists, read, same⟩ := bind_eq_ok.mp (Except.ok.inj trusted)
    obtain rfl := Except.ok.inj same
    obtain ⟨list, inside, listed⟩ := List.mem_flatten.mp member
    obtain ⟨block, _, here⟩ := mem_of_mapM_eq_ok read inside
    exact blockDependencies_stems here listed

private theorem modulesByPattern_stems {content : List Char} {path : String} {dependency : Dependency}
    (member : dependency ∈ modulesByPattern content path) : Stems path .module dependency := by
  obtain ⟨_, _, found⟩ := List.mem_filterMap.mp member
  exact moduleDependency?_stems found

private theorem images_stems {content : List Char} {path : String} {images : List Dependency}
    (found : Scan.images content path = .ok images) {dependency : Dependency}
    (member : dependency ∈ images) : Stems path .image dependency := by
  obtain ⟨options, read, same⟩ := bind_eq_ok.mp found
  obtain rfl := Except.ok.inj same
  obtain ⟨option, inside, rfl⟩ := List.mem_filterMap.mp member
  obtain ⟨assignment, _, here⟩ := mem_of_mapM_eq_ok read inside
  obtain ⟨semantic, _, given⟩ := bind_eq_ok.mp here
  cases semantic with
  | false => cases given
  | true =>
    cases given
    exact ⟨rfl, rfl⟩

private theorem report_stems {content path : String} {format : FileFormat} {found : Report}
    (scanned : report content path format = .ok found) {dependency : Dependency}
    (member : dependency ∈ found.dependencies) : Stems path format.kind dependency := by
  cases format with
  | terragrunt =>
    obtain ⟨images, given, same⟩ := bind_eq_ok.mp scanned
    obtain rfl := Except.ok.inj same
    exact images_stems (mapError_eq_ok.mp given) member
  | terraform =>
    obtain ⟨document, given, same⟩ := bind_eq_ok.mp scanned
    cases document with
    | ok modules =>
      obtain rfl := Except.ok.inj same
      exact modulesByDocument_stems (mapError_eq_ok.mp given) member
    | error distrust =>
      obtain rfl := Except.ok.inj same
      exact modulesByPattern_stems member

theorem report_path {content path : String} {format : FileFormat} {found : Report}
    (scanned : report content path format = .ok found) {dependency : Dependency}
    (member : dependency ∈ found.dependencies) : dependency.path = path :=
  (report_stems scanned member).path

theorem report_kind {content path : String} {format : FileFormat} {found : Report}
    (scanned : report content path format = .ok found) {dependency : Dependency}
    (member : dependency ∈ found.dependencies) : dependency.kind = format.kind :=
  (report_stems scanned member).kind

end Scan

end InfraPins
