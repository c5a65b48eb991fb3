import InfraPins.Host.AzureDevOps
import InfraPins.Host.Basic
import InfraPins.Host.GitHub
import InfraPins.Host.GitLab

namespace InfraPins

/-- A type of hosts: its name, the base of its addresses, the headers for a token, and the host of a
client. -/
structure HostType where
  name : String
  defaultBase : String
  headers : String → List (String × String)
  host : Client → Host Wire

namespace HostType

/-- The types that are built in, by name. -/
def builtin : List HostType :=
  [⟨"azuredevops", AzureDevOps.defaultBase, AzureDevOps.headers, AzureDevOps.host⟩,
    ⟨"github", GitHub.defaultBase, GitHub.headers, GitHub.host⟩,
    ⟨"gitlab", GitLab.defaultBase, GitLab.headers, GitLab.host⟩]

/-- A base of addresses without the slashes at its end. -/
def trimmedBase (base : String) : String :=
  String.ofList (base.toList.reverse.dropWhile (· == '/')).reverse

/-- What is said of a header that is not ASCII: where the first run of other characters stands in it. -/
def notAscii? (value : String) : Option String :=
  let isAscii (c : Char) : Bool := c.toNat < 0x80
  let (before, rest) := Text.spanWhile isAscii value.toList
  let first := before.length
  let place? := match rest.takeWhile (!isAscii ·) with
    | [] => none
    | [c] => some ("character '" ++ String.ofList (Text.hexEscape c.toNat) ++ "' in position "
        ++ toString first)
    | run => some ("characters in position " ++ toString first ++ "-"
        ++ toString (first + run.length - 1))
  place?.map fun place => "'ascii' codec can't encode " ++ place ++ ": ordinal not in range(128)"

def client (hostType : HostType) (token : String) (base : Option String) : Except Failure Client :=
  let headers := hostType.headers token
  match headers.findSome? (notAscii? ·.2) with
  | none => .ok ⟨hostType.name, trimmedBase (base.getD hostType.defaultBase), headers⟩
  | some message => .error (.tokenNotAscii message)

def opener (hostType : HostType) : Opener Wire := fun token base => do
  return hostType.host (← Act.lift (hostType.client token base))

def registry : Registry Wire :=
  builtin.map fun hostType => (hostType.name, hostType.opener)

def names : List String :=
  builtin.map (·.name)

def named (name : String) : Except Failure HostType :=
  match builtin.find? (·.name = name) with
  | some hostType => .ok hostType
  | none => .error (.unknownHost name)

end HostType

end InfraPins
