/-
# `ArchiveMount.Archive.Timestamp` — modification times

An archive gives a modification time in one or two ways: an MS-DOS date and time,
two-second steps in local time, and possibly a count of seconds since 1970.  Both
become whole seconds since 1970-01-01T00:00:00Z, the DOS fields read as UTC.
-/

namespace ArchiveMount.Timestamp

/-- Whether February of this year has 29 days. -/
def isLeapYear (year : Nat) : Bool :=
  year % 4 = 0 && (year % 100 ≠ 0 || year % 400 = 0)

/-- Days in a month, counted from 1; none outside 1 to 12. -/
def daysInMonth (year month : Nat) : Nat :=
  match month with
  | 1 | 3 | 5 | 7 | 8 | 10 | 12 => 31
  | 4 | 6 | 9 | 11 => 30
  | 2 => if isLeapYear year then 29 else 28
  | _ => 0

/-- Days of the year before the given month begins. -/
def daysBeforeMonth (year : Nat) : Nat → Nat
  | 0 => 0
  | month + 1 => daysBeforeMonth year month + daysInMonth year month

/-- Days from 1970-01-01 to the first day of a year not before 1970. -/
def daysBeforeYear (year : Nat) : Nat :=
  let leaps (y : Nat) := y / 4 - y / 100 + y / 400
  (year - 1970) * 365 + leaps (year - 1) - leaps 1969

/-- 1980-01-01T00:00:00Z, which stands in for DOS fields that name no moment. -/
def dosEpoch : Nat := 315532800

/-- The moment a DOS date and time name, or the DOS epoch if they name none. -/
def ofDos (date time : Nat) : Nat :=
  let year := 1980 + date / 512
  let month := date / 32 % 16
  let day := date % 32
  let hour := time / 2048
  let minute := time / 32 % 64
  let second := time % 32 * 2
  if 1 ≤ day ∧ day ≤ daysInMonth year month ∧ hour < 24 ∧ minute < 60 ∧ second < 60 then
    (daysBeforeYear year + daysBeforeMonth year month + (day - 1)) * 86400
      + hour * 3600 + minute * 60 + second
  else dosEpoch

/-- A signed count of seconds, held at the epoch when it lies before it. -/
def ofUnixSeconds (secs : Int) : Nat := secs.toNat

end ArchiveMount.Timestamp
