/-
# `ArchiveMount.Service.Report` — telling how the start went

Whoever starts a service may listen for one line: the address it serves on, or why it
failed.  A report is always a single line, whatever the message holds.
-/

namespace ArchiveMount

/-- How a start went. -/
inductive ReportStatus
  | success
  | failure
  deriving Repr, DecidableEq

namespace ReportStatus

def name : ReportStatus → String
  | .success => "SUCCESS"
  | .failure => "ERROR"

def all : List ReportStatus := [.success, .failure]

end ReportStatus

/-- A character of a message, with line breaks made blanks. -/
def flatChar (c : Char) : Char := if c = '\r' ∨ c = '\n' then ' ' else c

/-- The line that is sent. -/
def reportLine (status : ReportStatus) (message : String) : String :=
  status.name ++ "=" ++ message.map flatChar ++ "\n"

end ArchiveMount
