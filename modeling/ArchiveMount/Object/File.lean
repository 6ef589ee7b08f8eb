/-
# `ArchiveMount.Object.File` — local files

A locator without a host, or with `localhost` for one, names a file by the bytes its
path decodes to.  Files are found in a tree of directories the way the system finds
them: component by component, with the system's limits on names.
-/
import ArchiveMount.Locator.Percent
import ArchiveMount.Object.Store

namespace ArchiveMount

/-- A file or a directory. -/
inductive FileNode
  | file (content : Bytes)
  | directory (entries : List (Bytes × FileNode))

namespace FileNode

/-- The greatest length of a name. -/
def maxNameLen : Nat := 255

/-- The least length of a path that is too long. -/
def maxPathLen : Nat := 4096

/-- The length a directory is listed with. -/
def directoryLen : Nat := 4096

/-- Follow one component from the innermost of `trail`, a way down from the root. -/
def enter (trail : List FileNode) (name : Bytes) : Except OsError (List FileNode) :=
  match trail with
  | .directory entries :: above =>
    if name = [] ∨ name = [46] then .ok trail
    else if name = [46, 46] then .ok (if above.isEmpty then trail else above)
    else if maxNameLen < name.length then .error .nameTooLong
    else match entries.lookup name with
      | some node => .ok (node :: trail)
      | none => .error .noEntry
  | _ => .error .notDirectory

/-- The components of a path. -/
def components (path : Bytes) : List Bytes :=
  let r := path.foldr (fun b r => if b = 47 then ([], r.1 :: r.2) else (b :: r.1, r.2))
    (([], []) : Bytes × List Bytes)
  r.1 :: r.2

/-- What stands at an absolute path. -/
def lookup (root : FileNode) (path : Bytes) : Except OsError FileNode :=
  if path.contains 0 then .error .nulInName
  else if maxPathLen ≤ path.length then .error .nameTooLong
  else match (components path).foldlM enter [root] with
    | .ok trail => .ok (trail.headD root)
    | .error e => .error e

/-- Whether a directory is at a path or can be made there, with those above it. -/
def makeDirectory (root : FileNode) (path : Bytes) : Except OsError Unit :=
  match root.lookup path with
  | .ok (.directory _) | .error .noEntry => .ok ()
  | .ok (.file _) => .error .exists_
  | .error e => .error e

/-- Whether a file at a path can be written to, or made in the directory above. -/
def openForWriting (root : FileNode) (path : Bytes) : Except OsError Unit :=
  match root.lookup path with
  | .ok (.file _) => .ok ()
  | .ok (.directory _) => .error .isDirectory
  | .error .noEntry =>
    if path.getLast? = some 47 then .error .isDirectory
    else (root.lookup (path.reverse.dropWhile (· ≠ 47)).reverse).map fun _ => ()
  | .error e => .error e

end FileNode

/-- The file a locator names, as an absolute path.  A path that ends like a drive
letter gets a slash after it. -/
def localPath? (l : Locator) : Option Bytes :=
  if (l.container = "" ∨ l.container = "localhost") ∧ l.segments ≠ [] then
    let path := l.segments.flatMap fun s => 47 :: Percent.decode (Text.utf8 s)
    let isLetter (b : UInt8) : Bool := (65 ≤ b && b ≤ 90) || (97 ≤ b && b ≤ 122)
    match path.reverse with
    | c :: b :: _ :: _ => some (if (c = 58 || c = 124) && isLetter b then path ++ [47] else path)
    | _ => some path
  else none

namespace FileStore

/-- Length of the chunks a body is delivered in. -/
def chunkLen : Nat := 4 * 1024

/-- What a locator names. -/
def node (root : FileNode) (l : Locator) : Except ObjectError FileNode :=
  match localPath? l with
  | none => .error (.invalidLocator l.render .notLocalFile)
  | some path =>
    match root.lookup path with
    | .ok n => .ok n
    | .error .noEntry => .error (.notFound l.render)
    | .error e => .error (.io e)

/-- The bytes of a range.  A directory can be opened, but none of it can be read. -/
def serve (range : ByteRange) : FileNode → Body
  | .file content =>
    let span := range.resolve content.length
    { chunks := chunksOf (chunkLen - 1) (Bytes.slice content span.start span.len) }
  | .directory _ =>
    let span := range.resolve FileNode.directoryLen
    { chunks := [], failure := if span.len = 0 then none else some (.io .isDirectory) }

/-- Access to local files. -/
def store : Store FileNode where
  sizeOf l := do
    let root ← Attempt.get
    match ← node root l with
    | .file content => return content.length
    | .directory _ => return FileNode.directoryLen
  download l range := do
    let root ← Attempt.get
    let n ← node root l
    return serve range n

end FileStore

end ArchiveMount
