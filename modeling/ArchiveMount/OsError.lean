/-
# `ArchiveMount.OsError` — refusals of the operating system

The refusals that reading files, moving a cursor and opening sockets can meet, with
the wording and the number the system gives them.
-/

namespace ArchiveMount

/-- Why the operating system refused a request. -/
inductive OsError
  | noEntry
  | isDirectory
  | notDirectory
  | invalidArgument
  | exists_
  | nameTooLong
  | addressInUse
  | addressUnavailable
  | notSupported
  | connectionRefused
  /-- A file name with a NUL byte in it, which never reaches the system. -/
  | nulInName
  /-- A host name that could not be looked up. -/
  | unknownHost
  /-- An address without a port. -/
  | noPort
  | badPort
  deriving Repr, DecidableEq

def OsError.message : OsError → String
  | .noEntry => "No such file or directory (os error 2)"
  | .isDirectory => "Is a directory (os error 21)"
  | .notDirectory => "Not a directory (os error 20)"
  | .invalidArgument => "Invalid argument (os error 22)"
  | .exists_ => "File exists (os error 17)"
  | .nameTooLong => "File name too long (os error 36)"
  | .addressInUse => "Address already in use (os error 98)"
  | .addressUnavailable => "Cannot assign requested address (os error 99)"
  | .notSupported => "Operation not supported (os error 95)"
  | .connectionRefused => "Connection refused (os error 111)"
  | .nulInName => "file name contained an unexpected NUL byte"
  | .unknownHost => "failed to lookup address information: Name or service not known"
  | .noPort => "invalid socket address"
  | .badPort => "invalid port value"

end ArchiveMount
