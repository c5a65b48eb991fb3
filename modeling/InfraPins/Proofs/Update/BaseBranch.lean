import InfraPins.Proofs.Host.AzureDevOps
import InfraPins.Proofs.Host.GitHub
import InfraPins.Proofs.Host.GitLab
import InfraPins.Proofs.Update.Provenance

namespace InfraPins

/-- The hosting services that are spoken to over HTTP. -/
inductive Service where
  | gitHub
  | gitLab
  | azureDevOps
  deriving DecidableEq, Repr

namespace Service

def host (client : Client) : Service → Host Wire
  | .gitHub => GitHub.host client
  | .gitLab => GitLab.host client
  | .azureDevOps => AzureDevOps.host client

def dialect (client : Client) (repository : Repository) : Service → Dialect
  | .gitHub => GitHub.dialect client repository
  | .gitLab => GitLab.dialect client repository
  | .azureDevOps => AzureDevOps.dialect client

theorem spoken (service : Service) (client : Client) (repository : Repository) :
    (service.dialect client repository).Spoken (service.host client) repository := by
  cases service with
  | gitHub => exact GitHub.host_spoken client repository
  | gitLab => exact GitLab.host_spoken client repository
  | azureDevOps => exact AzureDevOps.host_spoken client repository

end Service

namespace Update

variable (service : Service) (client : Client) (repository : Repository) (options : UpdateOptions)

/-- The requests that an update sends when a script answers them. -/
def requests (wire : Wire) : List Request :=
  sent (createPullRequests (service.host client) repository options wire).events

end Update

end InfraPins
