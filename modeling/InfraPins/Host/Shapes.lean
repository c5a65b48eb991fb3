import InfraPins.Wire.Client

namespace InfraPins.Shapes

/-- A branch name without its opening; the name has to be a text. -/
def branchOf (branch : Datum) : Act Wire String := do
  return stripHeads (← Act.use branch.textMember)

/-- The default branch of a repository. -/
def defaultBranch (repository : Repository) : Act Wire String :=
  branchOf repository.defaultBranch

/-- Whether a node's path ends with a suffix; every path ends with the empty one. -/
def endsWith (suffix : String) (node : Datum) : Except Misuse Bool := do
  if suffix.isEmpty then return true
  else
    let path ← (← node.field "path").textMember
    return suffix.toList.isSuffixOf path.toList

def entryOf (objectField : String) (node : Datum) : Except Misuse TreeEntry := do
  let path ← node.field "path"
  let objectId ← node.fieldOr objectField (.text "")
  let type ← node.fieldOr "type" .null
  return { path, objectId, isDirectory := .bool (type = .text "tree") }

/-- The entry that a node describes, unless its path has another suffix. -/
def entryWithSuffix? (objectField suffix : String) (node : Datum) :
    Except Misuse (Option TreeEntry) := do
  if (← endsWith suffix node) then return some (← entryOf objectField node) else return none

/-- What a reply says about a pull request in fields of its own choice: the title, the address and
the status, with what is known without it where it says nothing. -/
def pullRequestFields (input : PullRequestInput) (urlField statusField opened : String) (reply : Datum) :
    Except Misuse (Datum × Datum × Datum) := do
  let title ← reply.fieldOr "title" (.text input.title)
  let url ← reply.fieldOr urlField (.text "")
  let status ← reply.fieldOr statusField (.text opened)
  return (title, url, status)

end InfraPins.Shapes
