import InfraPins.Host.Memory
import InfraPins.Main
import InfraPins.Proofs.Patch.Rollout
import InfraPins.Proofs.Update.BaseBranch
import InfraPins.Proofs.Hcl.Number
import InfraPins.Proofs.Hcl.Token
import InfraPins.Proofs.Repin.Ahead
import InfraPins.Proofs.Repin.Body
import InfraPins.Proofs.Repin.Document
import InfraPins.Proofs.Repin.Modules
import InfraPins.Proofs.Run.Independent
import InfraPins.Proofs.Run.Listing
import InfraPins.Proofs.Update.History
import InfraPins.Proofs.Patch.Block
import InfraPins.Proofs.Patch.Locality
import InfraPins.Proofs.Patch.Outcome
import InfraPins.Proofs.Plan.Newest
import InfraPins.Proofs.Run.Failures
import InfraPins.Proofs.Run.Restraint
import InfraPins.Proofs.Host.Success
import InfraPins.Proofs.Host.Failures
import InfraPins.Proofs.Resolve.Memo
import InfraPins.Proofs.Patch.Files
import InfraPins.Proofs.Patch.Splice
import InfraPins.Proofs.Patch.Complete
import InfraPins.Proofs.Machine
import InfraPins.Proofs.Config.Failures
import InfraPins.Proofs.Patch.Ascent
import InfraPins.Proofs.Changelog.Section
import InfraPins.Proofs.Update.Edits
import InfraPins.Proofs.Changelog.Accumulation
import InfraPins.Proofs.Changelog.Rows
import InfraPins.Proofs.Scan.Versions
import InfraPins.Proofs.Scan.Assignments
import InfraPins.Proofs.Scan.Agreement
import InfraPins.Proofs.Plan.Asking
import InfraPins.Proofs.Source.Repository
import InfraPins.Proofs.Version.Grammar
import InfraPins.Proofs.Scan.Lines
import InfraPins.Proofs.Host.Pages
import InfraPins.Proofs.Host.Creation
import InfraPins.Proofs.Host.Projects
import InfraPins.Proofs.Run.Bumps
import InfraPins.Proofs.Config.Discretion
