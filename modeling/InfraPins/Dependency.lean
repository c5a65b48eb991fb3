namespace InfraPins

/-- How a dependency is pinned: by the `ref` of a module source, or by the tag of an image. -/
inductive DependencyKind where
  | module
  | image
  deriving DecidableEq, Repr, Inhabited

def DependencyKind.name : DependencyKind → String
  | .module => "module"
  | .image => "image"

/-- A versioned reference in a file. The source does not carry the version. -/
structure Dependency where
  name : String
  source : String
  current : String
  path : String
  line : Nat
  kind : DependencyKind
  deriving DecidableEq, Repr

/-- A dependency together with the text of its file. -/
structure ScanResult where
  dependency : Dependency
  content : String
  deriving DecidableEq, Repr

/-- One planned upgrade of a dependency, with the text of its file. -/
structure UpgradeTask where
  dependency : Dependency
  newVersion : String
  content : String
  deriving DecidableEq, Repr

def UpgradeTask.kind (task : UpgradeTask) : DependencyKind :=
  task.dependency.kind

end InfraPins
