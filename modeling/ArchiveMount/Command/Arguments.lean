/-
# `ArchiveMount.Command.Arguments` — the command line

There are three commands: `ls` lists a directory of an archive, `cat` writes one file
out, and `mount-server` serves until it is stopped.  Options stand anywhere after the
command they belong to, as `--name value`, `--name=value` or, with a short name,
`-n value`; `--` ends them.  No option may be given twice.
-/
import ArchiveMount.Quantity
import ArchiveMount.Service.Config
import ArchiveMount.Text.Pieces

namespace ArchiveMount

/-- What the command line asks for. -/
inductive Command
  | list (uri path : String)
  | cat (uri path : String)
  | serve (config : ServiceConfig) (log : Option String)
  deriving Repr, DecidableEq

/-- How a command line is understood. -/
inductive Request
  | run (command : Command) (verbose : Bool)
  | help
  | version
  /-- It is not understood. -/
  | usage
  deriving Repr, DecidableEq

namespace Command

/-- The options of `mount-server` that take a value. -/
inductive Setting
  | cacheDir
  | listen
  | protocol
  | log
  | callbackAddr
  | handleCacheSize
  deriving Repr, DecidableEq

def Setting.ofName? : String → Option Setting
  | "--cache-dir" => some .cacheDir
  | "--listen" | "-l" => some .listen
  | "--protocol" => some .protocol
  | "--log" => some .log
  | "--callback-addr" => some .callbackAddr
  | "--handle-cache-size" => some .handleCacheSize
  | _ => none

/-- Whether an option's value is a path, which cannot be empty. -/
def Setting.isPath (s : Setting) : Bool := s = .cacheDir ∨ s = .log

/-- What has been read of a command line after the command's name. -/
structure Reader where
  positional : List String := []
  settings : List (Setting × String) := []
  verbose : Bool := false

/-- Whether an argument looks like an option. -/
def isOption (argument : String) : Bool :=
  match argument.toList with
  | '-' :: _ :: _ => true
  | _ => false

/-- The name of an option and the value that is joined to it. -/
def splitOption (argument : String) : String × Option String :=
  match argument.toList with
  | '-' :: '-' :: _ =>
    match Text.cutAt? '=' argument.toList with
    | some (name, value) => (String.ofList name, some (String.ofList value))
    | none => (argument, none)
  | '-' :: c :: rest =>
    let value := if rest.head? = some '=' then rest.drop 1 else rest
    (String.ofList ['-', c], if rest.isEmpty then none else some (String.ofList value))
  | _ => (argument, none)

/-- Keep an option's value; it may not have one already. -/
def Reader.set (r : Reader) (setting : Setting) (value : String) : Option Reader :=
  if r.settings.any (·.1 = setting) ∨ (setting.isPath ∧ value = "") then none
  else some { r with settings := (setting, value) :: r.settings }

/-- Options of one letter that take no value can be joined: `-vh` is `-v -h`. -/
def spread : List Char → List String
  | c :: d :: rest =>
    if ['v', 'h', 'V'].contains c then String.ofList ['-', c] :: spread (d :: rest)
    else [String.ofList ('-' :: c :: d :: rest)]
  | cs => [String.ofList ('-' :: cs)]

/-- Take joined options apart, up to where options end. -/
def spreadAll : List String → List String
  | [] => []
  | "--" :: rest => "--" :: rest
  | argument :: rest =>
    match argument.toList with
    | '-' :: c :: cs =>
      (if c = '-' then [argument] else spread (c :: cs)) ++ spreadAll rest
    | _ => argument :: spreadAll rest

/-- Read the arguments after a command's name.  Help is asked for by an option
anywhere among them. -/
def Reader.read (takesSettings : Bool) : Reader → List String → Except Request Reader
  | r, [] => .ok r
  | r, argument :: rest =>
    if argument = "--" then .ok { r with positional := r.positional ++ rest }
    else if !isOption argument then
      Reader.read takesSettings { r with positional := r.positional ++ [argument] } rest
    else
      let (name, joined) := splitOption argument
      if argument = "-h" ∨ argument = "--help" then .error .help
      else if argument = "-v" ∨ argument = "--verbose" then
        if r.verbose then .error .usage
        else Reader.read takesSettings { r with verbose := true } rest
      else match Setting.ofName? name, joined with
        | some setting, some value =>
          if !takesSettings then .error .usage
          else match r.set setting value with
            | some r => Reader.read takesSettings r rest
            | none => .error .usage
        | some setting, none =>
          match rest with
          | [] => .error .usage
          | value :: rest =>
            if !takesSettings || isOption value then .error .usage
            else match r.set setting value with
              | some r => Reader.read takesSettings r rest
              | none => .error .usage
        | none, _ => .error .usage

/-- The configuration that options ask for. -/
def configOf (uri : String) (settings : List (Setting × String)) : Option ServiceConfig := do
  let get (s : Setting) : Option String := settings.lookup s
  let base : ServiceConfig := { uri }
  let handleCapacity ← match get .handleCacheSize with
    | none => some base.handleCapacity
    | some text => decimalWord? text.toList
  return { base with
    protocol := (get .protocol).getD base.protocol
    listen := (get .listen).getD base.listen
    cacheDir := get .cacheDir
    reportTo := get .callbackAddr
    handleCapacity }

/-- The command that a name and what follows it ask for. -/
def ofReader (name : String) (r : Reader) : Option Command :=
  match name, r.positional with
  | "ls", [uri] => some (.list uri "/")
  | "ls", [uri, path] => some (.list uri path)
  | "cat", [uri, path] => some (.cat uri path)
  | "mount-server", [uri] =>
    (configOf uri r.settings).map fun config => .serve config (r.settings.lookup .log)
  | _, _ => none

/-- The names of the commands. -/
def names : List String := ["ls", "cat", "mount-server"]

/-- Read a command line that has no joined options; `verbose` says that the option has
been seen. -/
def requestOf (verbose : Bool) : List String → Request
  | [] => .usage
  | argument :: rest =>
    if argument = "-v" ∨ argument = "--verbose" then
      if verbose then .usage else requestOf true rest
    else if argument = "-h" ∨ argument = "--help" ∨ argument = "help" then .help
    else if argument = "-V" ∨ argument = "--version" then .version
    else if !names.contains argument then .usage
    else
      match Reader.read (argument = "mount-server") { verbose } rest with
      | .error request => request
      | .ok r =>
        match ofReader argument r with
        | some command => .run command r.verbose
        | none => .usage

end Command

/-- Read a command line. -/
def Request.ofArguments (arguments : List String) : Request :=
  Command.requestOf false (Command.spreadAll arguments)

end ArchiveMount
