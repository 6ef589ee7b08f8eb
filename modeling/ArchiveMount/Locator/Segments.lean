/-
# `ArchiveMount.Locator.Segments` — the path of a locator

The path is cut into segments, each of which is percent-encoded.  A `.` segment
vanishes and a `..` segment takes the one before it away; at the end either leaves an
empty segment behind.  A segment that begins with a drive letter (`C:` or `C|`) is never
taken away, and one that begins the path of a local file is written with a colon.
-/
import ArchiveMount.Locator.Percent
import ArchiveMount.Text.Pieces

namespace ArchiveMount.Segments

/-- A letter and a colon or bar. -/
def isDriveLetter : List Char → Bool
  | [c, d] => c.isAlpha && (d = ':' || d = '|')
  | _ => false

/-- One dot, perhaps encoded. -/
def isDot (s : List Char) : Bool :=
  [".", "%2e", "%2E"].contains (String.ofList s)

/-- Two dots, each perhaps encoded. -/
def isDotDot (s : List Char) : Bool :=
  ["..", "%2e%2e", "%2e%2E", "%2E%2e", "%2E%2E", "%2e.", "%2E.", ".%2e", ".%2E"].contains
    (String.ofList s)

/-- Whether a segment is a drive letter, or begins with one and a backslash. -/
def beginsWithDriveLetter (s : List Char) : Bool :=
  isDriveLetter (s.take 2) && (s.drop 2).head?.all (· = '\\')

/-- Leave the innermost of the segments, unless it begins with a drive letter. -/
def leave : List (List Char) → List (List Char)
  | [] => []
  | s :: rest => if beginsWithDriveLetter s then s :: rest else rest

/-- Read one piece of a path; `done` are the segments before it, innermost first. -/
def read (done : List (List Char)) (piece : List Char) : List (List Char) :=
  if isDotDot piece then leave done
  else if isDot piece then done
  else Percent.encode Percent.inPath piece :: done

/-- Read the last piece, after which no separator stands. -/
def readLast (done : List (List Char)) (piece : List Char) : List (List Char) :=
  let next := read done piece
  if isDotDot piece || isDot piece then [] :: next else next

/-- Read all pieces. -/
def readAll : List (List Char) → List (List Char) → List (List Char)
  | done, [] => done
  | done, [piece] => readLast done piece
  | done, piece :: rest => readAll (read done piece) rest

/-- The path of a local file has no empty segments at its start. -/
def trimStart (segments : List (List Char)) : List (List Char) :=
  match segments.dropWhile List.isEmpty with
  | [] => [[]]
  | rest => rest

/-- The segments of a path.  `web` says that backslashes separate too. -/
def ofText (web : Bool) (s : List Char) : List String :=
  (readAll [] (Text.pieces (fun c => c = '/' || (web && c = '\\')) s)).reverse.map String.ofList

/-- The segments of a local file's path, and whether it begins with a drive letter. -/
def ofFileText (s : List Char) : List String × Bool :=
  let pieces := Text.pieces (fun c => c = '/' || c = '\\') s
  let drive := pieces.head?.any isDriveLetter
  let pieces := if drive then pieces.modifyHead (fun p => p.take 1 ++ [':']) else pieces
  ((trimStart (readAll [] pieces).reverse).map String.ofList, drive)

end ArchiveMount.Segments
