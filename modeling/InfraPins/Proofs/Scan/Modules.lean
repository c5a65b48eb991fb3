import InfraPins.Proofs.Result
import InfraPins.Proofs.Search
import InfraPins.Scan.Basic

namespace InfraPins

/-- What a dependency says, apart from where it stands. -/
@[ext]
structure Pin where
  name : String
  source : String
  current : String
  deriving DecidableEq

def Dependency.pin (dependency : Dependency) : Pin :=
  ⟨dependency.name, dependency.source, dependency.current⟩

namespace Scan

open Text Result

/-- A module as it is read: its name and the text of its source. -/
structure ModuleSource where
  name : List Char
  source : List Char
  deriving DecidableEq

def ModuleSource.pin? (module : ModuleSource) : Option Pin :=
  let version := Source.version module.source
  if Source.isGit module.source && !version.isEmpty then
    some ⟨String.ofList module.name, String.ofList (Source.withoutVersion module.source),
      String.ofList version⟩
  else none

def labelName (label : Datum) : List Char :=
  match label with
  | .text text => unquote text.toList
  | _ => []

theorem unquote_inQuotes (inner : List Char) : unquote (inQuotes inner) = inner := by
  simp [unquote, inQuotes]

def labelledModule? (label body : Datum) : Except Distrust (Option ModuleSource) :=
  match body with
  | .object fields => do
    let source ← literalSource fields
    return source.map (⟨labelName label, ·⟩)
  | _ => .error .bodyShape

def blockModules (block : Datum) : Except Distrust (List ModuleSource) :=
  match block with
  | .object fields => do
    let found ← fields.mapM fun field => labelledModule? field.1 field.2
    return found.filterMap id
  | _ => .error .blockShape

def documentModules (content : String) : Except Misuse (Except Distrust (List ModuleSource)) :=
  match Hcl.read? content with
  | none => .ok (.error .unreadable)
  | some document => do
    let blocks ← ((Datum.lookup? (.text "module") document).getD (.list [])).elements
    return (do
      let found ← blocks.mapM blockModules
      return found.flatten)

/-- The modules that the shape of a text shows. -/
def patternModules (content : List Char) : List ModuleSource :=
  (findAll blockHere? [] content).map fun found => ⟨found.value.1, found.value.2⟩

/-- The modules of a text: those of its document, or those of its shape when the document is not
trusted. -/
def modules (content : String) : Except Misuse (List ModuleSource) := do
  match (← documentModules content) with
  | .ok modules => return modules
  | .error _ => return patternModules content.toList

def located? (content : List Char) (path : String) (module : ModuleSource) :
    Option Dependency :=
  moduleDependency? module.name module.source path (headerLine content module.name)

private theorem labelledDependency?_eq (content : List Char) (path : String) (label body : Datum) :
    labelledDependency? content path label body =
      (labelledModule? label body).map fun module => module.bind (located? content path) := by
  cases body with
  | object fields =>
    show (literalSource fields).bind _ = Except.map _ ((literalSource fields).bind _)
    cases literalSource fields with
    | error => rfl
    | ok source => cases source <;> rfl
  | _ => rfl

private theorem blockDependencies_eq (content : List Char) (path : String) (block : Datum) :
    blockDependencies content path block =
      (blockModules block).map (List.filterMap (located? content path)) := by
  cases block with
  | object fields =>
    simp only [blockDependencies, blockModules, labelledDependency?_eq, mapM_map_result]
    cases fields.mapM fun field => labelledModule? field.1 field.2 with
    | error => rfl
    | ok found =>
      show Except.ok _ = Except.ok _
      rw [List.filterMap_map, List.filterMap_filterMap]
      rfl
  | _ => rfl

theorem modulesByDocument_eq (content path : String) :
    modulesByDocument content path = (documentModules content).map fun modules =>
      modules.map (List.filterMap (located? content.toList path)) := by
  unfold modulesByDocument documentModules
  cases Hcl.read? content with
  | none => rfl
  | some document =>
    dsimp only
    cases ((Datum.lookup? (.text "module") document).getD (.list [])).elements with
    | error => rfl
    | ok blocks =>
      have each : blockDependencies content.toList path = fun block =>
          (blockModules block).map (List.filterMap (located? content.toList path)) :=
        funext (blockDependencies_eq _ _)
      show Except.ok _ = Except.ok _
      rw [each, mapM_map_result]
      cases blocks.mapM blockModules with
      | error => rfl
      | ok found =>
        show Except.ok (Except.ok _) = Except.ok (Except.ok _)
        rw [List.filterMap_flatten]

private theorem pin_moduleDependency? (module : ModuleSource) (path : String) (line : Nat) :
    (moduleDependency? module.name module.source path line).map Dependency.pin = module.pin? := by
  unfold moduleDependency? ModuleSource.pin?
  dsimp only
  split <;> rfl

/-- The dependencies of a text are the pins of its modules. -/
theorem report_pins (content path : String) :
    ((report content path .terraform).map fun found => found.dependencies.map Dependency.pin) =
      (Failure.ofMisuse (modules content)).map (List.filterMap ModuleSource.pin?) := by
  have pins (found : List ModuleSource) (line : ModuleSource → Nat) :
      (found.filterMap fun module =>
        moduleDependency? module.name module.source path (line module)).map Dependency.pin =
        found.filterMap ModuleSource.pin? := by
    simp only [List.map_filterMap, pin_moduleDependency?]
  unfold report modules
  rw [modulesByDocument_eq]
  cases documentModules content with
  | error => rfl
  | ok trusted =>
    cases trusted with
    | ok found => exact congrArg Except.ok (pins found _)
    | error distrust =>
      refine congrArg Except.ok ?_
      simp only [modulesByPattern, patternModules, List.filterMap_map, List.map_filterMap]
      refine List.filterMap_congr fun found _ => ?_
      exact pin_moduleDependency? ⟨found.value.1, found.value.2⟩ path _

end Scan

end InfraPins
