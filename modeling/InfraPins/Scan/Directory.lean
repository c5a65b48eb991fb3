import InfraPins.Files.Machine
import InfraPins.Scan.Basic

/-! The dependencies that the files below a directory declare. Files come by suffix and then by
name, so that the order does not hang on that of the file system, and paths are relative to the
directory. -/

namespace InfraPins.Scan

variable {σ : Type}

/-- The directories that hold copies of modules and no sources of their own. -/
def skippedNames : List String :=
  [".terraform", ".terragrunt-cache", ".git"]

/-- The suffixes of the files that are scanned, in order. -/
def localSuffixes : List String :=
  [".tf", ".hcl"]

/-- The names that lead from a place to what stands below it and ends with a suffix, in order. -/
def filesWithSuffix (files : FileTree) (place : List String) (suffix : String) :
    List (List String) :=
  let wanted := (files.filesBelow place).filter fun names => (names.getLast?.getD "").endsWith suffix
  wanted.mergeSort fun first second => !decide (second < first)

/-- The dependencies of one file below a directory. A file that cannot be read has none. -/
def localFile (machine : Machine) (root : Path) (names : List String) :
    Act σ (List Dependency) := do
  let path := { root with parts := root.parts ++ names }
  if !(← Act.lift ((machine.isFile path).mapError .file)) || names.any skippedNames.contains then
    return []
  else match machine.readText path with
    | .error fault =>
      Act.log .warning ("Failed to read " ++ path.text ++ ": " ++ fault.message path.text)
      return []
    | .ok content => dependencies content ("/".intercalate names) none

/-- The dependencies of the files below a directory. -/
def directory (machine : Machine) (root : Path) : Act σ (List Dependency) := do
  match machine.find root with
  | .error _ => return []
  | .ok (place, _) =>
    let files := localSuffixes.flatMap (filesWithSuffix machine.files place)
    return (← files.mapM (localFile machine root)).flatten

end InfraPins.Scan
