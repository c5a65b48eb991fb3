import InfraPins.Proofs.Host.Dialect
import InfraPins.Proofs.Patch.Batch
import InfraPins.Proofs.Plan
import InfraPins.Proofs.Scan.Report
import InfraPins.Update

namespace InfraPins.Update

open Act

/-- What an update makes of the text of a file: upgrades of it, or entries of a changelog. -/
inductive Edit (path text : String) : String → Prop where
  | upgraded (tasks : List UpgradeTask) (here : ∀ task ∈ tasks, task.dependency.path = path) :
    Edit path text (String.ofList (Patch.sweep text.toList tasks).1)
  | noted (entries : List Changelog.Line) (changelog : path = Changelog.path) :
    Edit path text (String.ofList (Changelog.insertEntries text.toList entries))

variable {host : Host Wire} {dialect : Dialect} {repository : Repository}

/-- Whether a text was read as the content of a file of the default branch. -/
def Read (dialect : Dialect) (repository : Repository) (known : List Exchange)
    (path text : String) : Prop :=
  ∃ branch, repository.defaultBranch = .text branch ∧
    dialect.Obtained (stripHeads branch) path text known

/-- Whether a change is an edit of a text that was read. -/
def Grounded (dialect : Dialect) (repository : Repository) (known : List Exchange)
    (change : FileChange) : Prop :=
  ∃ text, Read dialect repository known change.path text ∧ Edit change.path text change.content

theorem Read.onward {known more : List Exchange} {path text : String}
    (read : Read dialect repository known path text) :
    Read dialect repository (known ++ more) path text := by
  obtain ⟨branch, default, request, reply, member, rest⟩ := read
  exact ⟨branch, default, request, reply, List.mem_append_left _ member, rest⟩

theorem Grounded.onward {known more : List Exchange} {change : FileChange}
    (grounded : Grounded dialect repository known change) :
    Grounded dialect repository (known ++ more) change := by
  obtain ⟨text, read, edit⟩ := grounded
  exact ⟨text, read.onward, edit⟩

variable {known : List Exchange}

private def AllRead (dialect : Dialect) (repository : Repository) (all : List Exchange)
    (results : List ScanResult) : Prop :=
  ∀ result ∈ results, Read dialect repository all result.dependency.path result.content

private theorem AllRead.onward {all more : List Exchange} {results : List ScanResult}
    (read : AllRead dialect repository all results) :
    AllRead dialect repository (all ++ more) results :=
  fun result member => (read result member).onward

private theorem AllRead.flatten {all : List Exchange} {lists : List (List ScanResult)}
    (read : ∀ results ∈ lists, AllRead dialect repository all results) :
    AllRead dialect repository all lists.flatten := by
  intro result member
  obtain ⟨results, inside, here⟩ := List.mem_flatten.mp member
  exact read results inside result here

/-- The name of the branch that an update goes into, by the name of the default branch. -/
def baseName (options : UpdateOptions) (default : String) : String :=
  if options.targetBranch.isEmpty then default else options.targetBranch

/-- What holds of a request that puts files into a commit: each of them is an edit of a text read
from the default branch, and the commit starts from the branch that the update goes into. -/
def Sound (dialect : Dialect) (repository : Repository) (options : UpdateOptions)
    (known : List Exchange) (request : Request) : Prop :=
  request.names dialect.commitField → ∃ default changes,
    repository.defaultBranch = .text default ∧ dialect.carries changes request ∧
      (∀ change ∈ changes, ∃ text,
        dialect.Obtained (stripHeads default) change.path text known ∧
          Edit change.path text change.content) ∧
      dialect.Based (stripHeads (baseName options default)) known request

variable {options : UpdateOptions}

end InfraPins.Update
