/-
# `ArchiveMount.Main` — the command

`ls` and `cat` read an archive once; `mount-server` serves one until it is stopped.
-/
import ArchiveMount.Command.Machine

open ArchiveMount

namespace ArchiveMount.Machine

/-- The name the program was started by. -/
def programName : IO String := return (← IO.appPath).fileName.getD ""

/-- Write what a command leaves behind; errors go to `log`. -/
def finish (o : CommandOutcome) (log : IO.FS.Stream) : IO UInt32 := do
  let output ← IO.getStdout
  output.write ⟨o.output.toArray⟩
  output.flush
  let name ← programName
  for line in o.errors do log.putStrLn s!"{name}: {line}"
  return UInt32.ofNat o.exitCode

/-- Answer clients, if the service has come so far. -/
def answer (c : ServiceConfig) (means : Means) (world : ObjectWorld Unit)
    (stores : Locator → Except ObjectError (Store (ObjectWorld Unit))) : IO Unit := do
  match means.server, Locator.ofText c.uri with
  | some server, .ok l =>
    match (indexFrom stores l).run (world, means.cache) with
    | (.ok (store, t), w) =>
      let keep := if c.cacheDir.isSome then saveCache means.cacheDir else fun _ => pure ()
      keep w.2
      answerClients server store t keep w
    | (.error _, _) => return ()
  | _, _ => return ()

/-- Serve until the process is stopped, or say why that is not possible. -/
def serve (c : ServiceConfig) (log : Option String) : IO UInt32 := do
  match ← attempt (log.mapM fun path => IO.FS.Handle.mk path .append) with
  | .error e =>
    let run (s : Surroundings) := Command.runService s (fun _ => .error e) c log
    let sent ← deliver (run favourable).2
    finish (run { favourable with send := fun _ _ => sent }).1 (← IO.getStderr)
  | .ok handle =>
    let choose ← stores
    let world ← worldOf c.uri
    let means ← prepare c choose world
    let sent ← deliver (Service.run means.surroundings c).1
    let (events, r) := Service.run { means.surroundings with send := fun _ _ => sent } c
    if r.isOk then answer c means world choose
    if c.cacheDir.isNone && means.cacheDir ≠ "" then IO.FS.removeDirAll means.cacheDir
    let errors ← IO.getStderr
    finish (Command.serviceOutcome events r) ((handle.map IO.FS.Stream.ofHandle).getD errors)

/-- The commands in brief. -/
def usage : String :=
  "ls URI [PATH] | cat URI PATH | mount-server URI [--protocol nfs|webdav] [--listen ADDRESS]"
    ++ " [--cache-dir DIR] [--log FILE] [--callback-addr ADDRESS] [--handle-cache-size N]"

end ArchiveMount.Machine

/-- Run the command that the arguments ask for. -/
def main (arguments : List String) : IO UInt32 := do
  let errors ← IO.getStderr
  match Request.ofArguments arguments with
  | .usage =>
    errors.putStrLn s!"usage: {Machine.usage}"
    return 2
  | .help | .version =>
    IO.println Machine.usage
    return 0
  | .run (.serve config log) _ => Machine.serve config log
  | .run command _ =>
    match Command.reading? (← Machine.stores) command with
    | some x =>
      let uri := match command with
        | .list uri _ | .cat uri _ => uri
        | .serve config _ => config.uri
      Machine.finish (Command.outcomeOf (x.run (← Machine.worldOf uri, {})).1) errors
    | none => return 1
