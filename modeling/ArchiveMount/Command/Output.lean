/-
# `ArchiveMount.Command.Output` — what the commands write

A command writes to its output and, if it fails, one line of error: the failure and
what lies behind it.
-/
import ArchiveMount.Command.Arguments
import ArchiveMount.Service.Lifecycle
import ArchiveMount.Tree.Open

namespace ArchiveMount

/-- What a command leaves behind. -/
structure CommandOutcome where
  exitCode : Nat := 0
  output : Bytes := []
  errors : List String := []

namespace Command

variable {σ : Type}

/-- A failure and its causes in one line. -/
def errorLine (parts : List String) : String := ": ".intercalate parts

/-- A command that failed. -/
def failed (parts : List String) : CommandOutcome where
  exitCode := 1
  errors := [errorLine parts]

/-- A text with blanks before it, to at least `width` characters. -/
def padLeft (width : Nat) (s : String) : String :=
  String.ofList (List.replicate (width - s.length) ' ') ++ s

/-- One line of a listing: the size, and the name with a slash after a directory's. -/
def listLine (e : TreeEntry) : String :=
  padLeft 12 (toString e.size) ++ "  " ++ e.name ++ (if e.isDir then "/" else "") ++ "\n"

/-- Index the archive of a command; a failure comes as its wording. -/
def openTree (stores : Locator → Except ObjectError (Store σ)) (uri : String) :
    Attempt (σ × Cache) (List String) (Store σ × Tree) := do
  let words (e : ObjectError) : List String := e.message :: e.causes
  let l ← Attempt.ofExcept ((Locator.parse uri).mapError words)
  let store ← Attempt.ofExcept ((stores l).mapError words)
  let tree ← (Tree.build store l).mapError fun e =>
    s!"cannot index {uri}" :: e.message :: e.causes
  return (store, tree)

/-- The wording of a tree's refusal. -/
def wordsOf (e : TreeError) : List String := e.message :: e.causes

/-- List what a path names: the content of a directory, or a file itself. -/
def listing (stores : Locator → Except ObjectError (Store σ)) (uri path : String) :
    Attempt (σ × Cache) (List String) Bytes := do
  let (_, t) ← openTree stores uri
  let e ← Attempt.ofExcept ((t.stat path).mapError wordsOf)
  let entries := if e.isDir then t.children e.path else [e]
  return Text.utf8 (String.join (entries.map listLine))

/-- Write a file out. -/
def content (stores : Locator → Except ObjectError (Store σ)) (uri path : String) :
    Attempt (σ × Cache) (List String) Bytes := do
  let (store, t) ← openTree stores uri
  let e ← Attempt.ofExcept ((t.stat path).mapError wordsOf)
  if e.isDir then Attempt.fail [s!"{e.path.render} is a directory"]
  (t.openPath store e.path).mapError wordsOf

/-- What a command that reads an archive does; serving is no such command. -/
def reading? (stores : Locator → Except ObjectError (Store σ)) :
    Command → Option (Attempt (σ × Cache) (List String) Bytes)
  | .list uri path => some (listing stores uri path)
  | .cat uri path => some (content stores uri path)
  | .serve .. => none

/-- The outcome of a command that writes bytes. -/
def outcomeOf (r : Except (List String) Bytes) : CommandOutcome :=
  match r with
  | .ok output => { output }
  | .error parts => failed parts

/-! ## Serving -/

/-- A log file that cannot be opened, and the system's reason. -/
def logFailure (path : String) (e : OsError) : String :=
  errorLine [s!"cannot open log file {path}", e.message]

/-- The failures that a service has noted. -/
def notedIn (events : List ServiceEvent) : List String :=
  events.filterMap fun
    | .noted text => some text
    | _ => none

/-- What a service writes about failures: those noted on the way, then its own. -/
def serviceOutcome (events : List ServiceEvent) (r : Except ServiceError Unit) :
    CommandOutcome :=
  match r with
  | .ok _ => { errors := notedIn events }
  | .error e =>
    { exitCode := 1, errors := notedIn events ++ [errorLine (e.message :: e.causes)] }

/-- Run the service of a command, with what happened on the way.  Its errors go to a
log file, if one is named; a log file that cannot be opened is reported like a start
that failed. -/
def runService (s : Surroundings) (openLog : String → Except OsError Unit) (c : ServiceConfig)
    (log : Option String) : CommandOutcome × List ServiceEvent :=
  let (events, r) := Service.run s c
  let outcome := serviceOutcome events r
  match log with
  | none => (outcome, events)
  | some path =>
    match openLog path with
    | .ok _ => ({ outcome with errors := [] }, events)
    | .error e =>
      let text := logFailure path e
      let events := ((Service.report s.toOutcomes c .failure text).run {}).2.events
      ({ exitCode := 1, errors := text :: notedIn events }, events)

end Command

end ArchiveMount
