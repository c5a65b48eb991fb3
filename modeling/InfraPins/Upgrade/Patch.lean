import InfraPins.Dependency
import InfraPins.Journal
import InfraPins.Scan.Pattern

/-! Patches. An upgrade changes one version token of a file and leaves all else as it is. A module
is looked for in three ways, each more permissive than the last: by its whole source, by the `ref`
in its block, by any `ref` with its version. An image is looked for by its name and tag. -/

namespace InfraPins.Patch

open Text

/-- A place in a text where a token stands: the text from a start up to the token, and the text
after it. -/
structure Place where
  before : List Char
  after : List Char
  deriving DecidableEq, Repr

/-- The place with more text before the token. -/
def Place.behind (place : Place) (opening : List Char) : Place :=
  { place with before := opening ++ place.before }

def Place.fill (place : Place) (token : List Char) : List Char :=
  place.before ++ token ++ place.after

/-- A character that a locator or an image name goes on with to the left. -/
def isNameChar (c : Char) : Bool :=
  isWord c || c == '.' || c == '-' || c == '/' || c == ':'

/-- A character that a version goes on with. -/
def isVersionChar (c : Char) : Bool :=
  isWord c || c == '.' || c == '+' || c == '-'

/-- A character that ends the value of a `ref`. -/
def endsRef (c : Char) : Bool :=
  c == '&' || c == '"' || isBlank c

/-- A whole reference that stands here: no name goes on before it and no version after it. -/
def wholeHere? (reference : List Char) (previous : Option Char) (text : List Char) :
    Option (List Char) :=
  if previous.any isNameChar then none
  else match after? reference text with
    | some rest => if rest.head?.any isVersionChar then none else some rest
    | none => none

/-- The first whole occurrence of a reference. -/
def findWhole? (reference content : List Char) : Option Place :=
  (findFirst (wholeHere? reference) none content).map fun found => ⟨found.before, found.value⟩

/-- A `ref` parameter with a version that stands here: its mark, and the text after the version.
What follows the version has to pass a test. -/
def refHere? (version : List Char) (ends : Option Char → Bool) (text : List Char) : Option Place :=
  match text with
  | mark :: rest =>
    if mark == '?' || mark == '&' then do
      let rest ← after? Source.refKey rest
      let rest ← after? version rest
      if ends rest.head? then some ⟨mark :: Source.refKey, rest⟩ else none
    else none
  | [] => none

/-- The first `ref` parameter with a version before the closing quote of a string. -/
def refInString? (version : List Char) : List Char → Option Place
  | [] => none
  | c :: rest =>
    match refHere? version (·.any endsRef) (c :: rest) with
    | some place => some place
    | none =>
      if c == '"' then none else (refInString? version rest).map (·.behind [c])

def sourceRefHere? (version text : List Char) : Option Place := do
  let keyword := "source".toList
  let rest ← after? keyword text
  let (gap, rest) := spanWhile isBlank rest
  let rest ← after? ['='] rest
  let (gap', rest) := spanWhile isBlank rest
  let rest ← after? ['"'] rest
  let place ← refInString? version rest
  return place.behind (keyword ++ gap ++ '=' :: gap' ++ ['"'])

/-- The first source with a version in a block, before any closing brace. -/
def sourceRefWithin? (version : List Char) : List Char → Option Place
  | [] => none
  | c :: rest =>
    match sourceRefHere? version (c :: rest) with
    | some place => some place
    | none => if c == '}' then none else (sourceRefWithin? version rest).map (·.behind [c])

/-- The block of a module that stands here and whose source has a version. -/
def blockRefHere? (name version : List Char) (_previous : Option Char) (text : List Char) :
    Option Place := do
  let keyword := "module".toList
  let rest ← after? keyword text
  let (gap, rest) := spanWhile isBlank rest
  if gap.isEmpty then none
  else
    let label := '"' :: name ++ ['"']
    let rest ← after? label rest
    let (gap', rest) := spanWhile isBlank rest
    let rest ← after? ['{'] rest
    let place ← sourceRefWithin? version rest
    return place.behind (keyword ++ gap ++ label ++ gap' ++ ['{'])

/-- The first block of a module whose source has a version. -/
def findInBlock? (name version content : List Char) : Option Place :=
  (findFirst (blockRefHere? name version) none content).map fun found =>
    found.value.behind found.before

/-- The first `ref` parameter with a version anywhere. -/
def findLoose? (version content : List Char) : Option Place :=
  let ends (next : Option Char) : Bool := next.all endsRef
  (findFirst (fun _ text => refHere? version ends text) none content).map fun found =>
    found.value.behind found.before

/-- How a reference was found. -/
inductive Tier where
  | whole
  | block
  | loose
  deriving DecidableEq, Repr

/-- A patched text, and how the reference was found, if it was. -/
structure Patched where
  content : List Char
  tier : Option Tier
  deriving DecidableEq, Repr

/-- A text with the version of one module changed. -/
def patchModule (content : List Char) (dependency : Dependency) (newVersion : List Char) : Patched :=
  let source := dependency.source.toList
  let current := dependency.current.toList
  match findWhole? (Source.withVersion source current) content with
  | some place => ⟨place.fill (Source.withVersion source newVersion), some .whole⟩
  | none => match findInBlock? dependency.name.toList current content with
    | some place => ⟨place.fill newVersion, some .block⟩
    | none => match findLoose? current content with
      | some place => ⟨place.fill newVersion, some .loose⟩
      | none => ⟨content, none⟩

def tagged (image tag : List Char) : List Char :=
  image ++ ':' :: tag

/-- A text with the tag of one image changed. -/
def patchImage (content : List Char) (dependency : Dependency) (newVersion : List Char) : Patched :=
  let image := dependency.source.toList
  match findWhole? (tagged image dependency.current.toList) content with
  | some place => ⟨place.fill (tagged image newVersion), some .whole⟩
  | none => ⟨content, none⟩

/-- A text with one task applied. -/
def patch (content : List Char) (task : UpgradeTask) : Patched :=
  match task.kind with
  | .image => patchImage content task.dependency task.newVersion.toList
  | .module => patchModule content task.dependency task.newVersion.toList

/-- What is logged about the way a reference was found. -/
def records (dependency : Dependency) (tier : Option Tier) : List (Level × String) :=
  match dependency.kind, tier with
  | .module, some .loose =>
    [(.debug, "Used loose ref match for module " ++ dependency.name ++ " in " ++ dependency.path)]
  | .module, none =>
    [(.warning, "Could not locate module " ++ dependency.name ++ "@" ++ dependency.current ++ " in "
      ++ dependency.path)]
  | .image, none =>
    [(.warning, "Could not locate image " ++ dependency.source ++ ":" ++ dependency.current ++ " in "
      ++ dependency.path)]
  | _, _ => []

/-- The text of a file while tasks are applied to it: as the first task gave it, and as it is now.
-/
structure Buffer where
  path : String
  seed : List Char
  current : List Char
  deriving DecidableEq, Repr

/-- Files under change, in the order of their first tasks, with the tasks that changed something and
what was logged, each in task order. -/
structure Batch where
  buffers : List Buffer
  applied : List UpgradeTask
  records : List (Level × String)

/-- The buffers with one text changed. -/
def setCurrent (path : String) (content : List Char) (buffers : List Buffer) : List Buffer :=
  buffers.map fun buffer => if buffer.path = path then { buffer with current := content } else buffer

/-- A batch after one more task. The first task of a path brings the text of the file; a later one
sees what the tasks before it left. -/
def Batch.apply (batch : Batch) (task : UpgradeTask) : Batch :=
  let path := task.dependency.path
  let (buffers, current) := match batch.buffers.find? (·.path = path) with
    | some buffer => (batch.buffers, buffer.current)
    | none =>
      let seed := task.content.toList
      (batch.buffers ++ [⟨path, seed, seed⟩], seed)
  let patched := patch current task
  { buffers := setCurrent path patched.content buffers
    applied := if patched.content = current then batch.applied else batch.applied ++ [task]
    records := batch.records ++ Patch.records task.dependency patched.tier }

/-- All tasks applied, in order. -/
def applyAll (tasks : List UpgradeTask) : Batch :=
  tasks.foldl Batch.apply ⟨[], [], []⟩

/-- The files that a batch leaves different from what they were. -/
def Batch.changes (batch : Batch) : List FileChange :=
  (batch.buffers.filter fun buffer => buffer.current ≠ buffer.seed).map fun buffer =>
    { path := buffer.path, content := String.ofList buffer.current }

end InfraPins.Patch
