import InfraPins.Host.Basic
import InfraPins.Source

/-! Finding the tags of a source. A source names a repository of the same organization; the listing
of the organization is fetched once, and the tags of each repository once. A failed fetch is
remembered as one that found nothing. -/

namespace InfraPins

/-- What has been fetched: the listing of the organization, nothing if that failed, and the tags of
repositories by name. -/
structure TagMemo where
  listing : Option (Option (List Repository))
  tags : List (String × List Datum)
  deriving DecidableEq

/-- The memo that nothing has been fetched into. -/
def TagMemo.empty : TagMemo := ⟨none, []⟩

namespace Resolve

variable {σ : Type} (host : Host σ) (organization : String)

/-- The listing of the organization: the remembered one, or a fetched one that the memo keeps. -/
def listing (memo : TagMemo) : Act σ (Option (List Repository) × TagMemo) :=
  match memo.listing with
  | some known => pure (known, memo)
  | none => do
    match (← (host.askDiscover organization).attempt Failure.hostMessage?) with
    | .ok repositories =>
      return (some repositories, { memo with listing := some (some repositories) })
    | .error message =>
      Act.log .debug ("Could not list repositories in " ++ organization ++ ": " ++ message)
      return (none, { memo with listing := some none })

/-- The tags of a repository: the remembered ones, or fetched ones that the memo keeps. -/
def tagsOf (repository : Repository) (name : String) (memo : TagMemo) :
    Act σ (List Datum × TagMemo) :=
  match memo.tags.lookup name with
  | some known => pure (known, memo)
  | none => do
    match (← (host.askTags repository).attempt Failure.hostMessage?) with
    | .ok tags => return (tags, { memo with tags := (name, tags) :: memo.tags })
    | .error message =>
      Act.log .debug ("Could not list tags for " ++ repository.fullName ++ ": " ++ message)
      return ([], { memo with tags := (name, []) :: memo.tags })

/-- The tags of a source, newest first; none when its repository is not in the organization. Only a
repository of exactly the source's name counts. -/
def resolve (source : String) (memo : TagMemo) : Act σ (List Datum × TagMemo) := do
  let name := String.ofList (Source.repositoryName source.toList)
  if name.isEmpty then return ([], memo)
  else
    let (repositories, memo) ← listing host organization memo
    match repositories with
    | none => return ([], memo)
    | some [] => return ([], memo)
    | some repositories =>
      match repositories.find? (·.name = .text name) with
      | some repository => tagsOf host repository name memo
      | none =>
        Act.log .debug ("No repository named " ++ Text.quoted name ++ " in " ++ organization)
        return ([], memo)

/-- The tags of a source, fetched for it alone. -/
def resolveOnce (source : String) : Act σ (List Datum) := do
  return (← resolve host organization source TagMemo.empty).1

def resolveWithMemo (source : String) : StateT TagMemo (Act σ) (List Datum) :=
  resolve host organization source

end Resolve

end InfraPins
