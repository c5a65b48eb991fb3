import InfraPins.Json.Printer
import InfraPins.Run

namespace InfraPins.Report

open Text

def requestLines (request : PullRequest) : List String :=
  ("- #" ++ request.id.plain ++ " " ++ request.title.plain) ::
    (if request.url.isTruthy then ["  - <" ++ request.url.plain ++ ">"] else [])

def summaryText (summary : RunSummary) : String :=
  let requests := if summary.pullRequests.isEmpty then []
    else "### ✓ PRs Created" :: summary.pullRequests.flatMap requestLines ++ [""]
  "\n".intercalate (["## Dependency Update Results", ""] ++ requests ++
    ["**Summary:** " ++ toString summary.repositories ++ " repositories, "
      ++ toString summary.pullRequests.length ++ " PRs created, " ++ toString summary.errors
      ++ " errors"])

def stateText (status : DependencyStatus) : String :=
  if status.needsUpgrade then
    (if status.bump.isEmpty then "version" else status.bump) ++ " update"
  else "up to date"

def columns : List String :=
  ["Organization", "Repository", "Module", "Source", "Current", "Latest", "Status"]

def maxColumnWidth : Nat := 40

/-- What a table of no dependencies says. -/
def emptyText : String := "No Terraform dependencies found."

def cells (status : DependencyStatus) : List Datum :=
  [.text status.organization, status.repository, .text status.name, .text status.source,
    .text status.current, status.latest.orElse (.text "N/A"), .text (stateText status)]

/-- A text cut to a width, with three dots in place of what is cut off. -/
def truncate (width : Nat) (text : List Char) : List Char :=
  if text.length ≤ width then text else text.take (width - 3) ++ ['.', '.', '.']

/-- A cell cut to the widest column. Only what has a length can be measured. -/
def truncateCell (cell : Datum) : Except Misuse Datum :=
  match cell with
  | .text text => .ok (.text (String.ofList (truncate maxColumnWidth text.toList)))
  | .list items => if items.length ≤ maxColumnWidth then .ok cell else .error .unsupported
  | .object fields => if fields.length ≤ maxColumnWidth then .ok cell else .error .unsupported
  | _ => .error .unsupported

/-- A text filled up with spaces to a width. -/
def padTo (width : Nat) (text : List Char) : List Char :=
  text ++ List.replicate (width - text.length) ' '

def tableLine (widths : List Nat) (row : List (List Char)) : String :=
  String.ofList (trimEnd (join [' ', ' '] (List.zipWith padTo widths row)))

def columnWidths (rows : List (List (List Char))) : List Nat :=
  rows.foldl (fun widths row => List.zipWith (fun width cell => max width cell.length) widths row)
    (columns.map String.length)

/-- The dependencies as a table in plain text. -/
def table (report : DependencyReport) : Except Misuse String :=
  if report.dependencies.isEmpty then .ok emptyText
  else do
    let measured ← report.dependencies.mapM fun status => (cells status).mapM truncateCell
    let rows ← measured.mapM fun row => row.mapM fun cell => cell.textMember.map String.toList
    let widths := columnWidths rows
    let rule := List.replicate (widths.foldl (· + ·) 0 + 2 * (widths.length - 1)) '-'
    return "\n".intercalate (
      [tableLine widths (columns.map String.toList), String.ofList rule]
        ++ rows.map (tableLine widths)
        ++ ["", "Total: " ++ toString report.dependencies.length ++ " dependencies, "
          ++ toString report.outdated ++ " outdated"])

def markdownRow (row : List String) : String :=
  "| " ++ " | ".intercalate row ++ " |"

/-- The dependencies as a table in Markdown. -/
def markdown (report : DependencyReport) : Except Misuse String :=
  if report.dependencies.isEmpty then .ok emptyText
  else do
    let rows ← report.dependencies.mapM fun status => (cells status).mapM Datum.textOperand
    return "\n".intercalate (
      [markdownRow columns, "|" ++ "|".intercalate (columns.map fun _ => "---") ++ "|"]
        ++ rows.map markdownRow)

def statusFields (status : DependencyStatus) : Datum :=
  Datum.ofFields [("organization", .text status.organization), ("repository", status.repository),
    ("name", .text status.name), ("source", .text status.source), ("kind", .text status.kind),
    ("current_version", .text status.current), ("latest_version", status.latest),
    ("file_path", .text status.path), ("needs_upgrade", .bool status.needsUpgrade),
    ("upgrade_kind", .text status.bump)]

def dependencyFields (dependency : Dependency) : Datum :=
  Datum.ofFields [("name", .text dependency.name), ("source", .text dependency.source),
    ("current_version", .text dependency.current), ("file_path", .text dependency.path),
    ("line", .int dependency.line), ("kind", .text dependency.kind.name)]

/-- The dependencies of visited repositories as JSON. -/
def statusJson (report : DependencyReport) : String :=
  Json.indented 0 (.list (report.dependencies.map statusFields))

def dependencyJson (dependencies : List Dependency) : String :=
  Json.indented 0 (.list (dependencies.map dependencyFields))

def dependencyLine (dependency : Dependency) : String :=
  dependency.path ++ ":" ++ toString dependency.line ++ "  "
    ++ String.ofList (padTo 6 dependency.kind.name.toList) ++ " " ++ dependency.name ++ "  "
    ++ dependency.source ++ " @ " ++ dependency.current

/-- The dependencies of a directory, one a line, with their number. -/
def dependencyLines (dependencies : List Dependency) : String :=
  if dependencies.isEmpty then emptyText
  else "\n".intercalate (dependencies.map dependencyLine
    ++ ["", "Found " ++ toString dependencies.length ++ " dependencies"])

end InfraPins.Report
