/-
# `ArchiveMount.Cache.Basic` — local copies

A `Cache` holds complete records by the digests of their keys.  A record that is
missing is produced by whoever asks for it; what fails to be produced leaves nothing
behind, and what has been filed is never produced again.  Requests for one key that
come together wait for each other in the order they came.
-/
import ArchiveMount.Attempt
import ArchiveMount.Cache.Key

namespace ArchiveMount

/-- The records of a cache directory, by digest. -/
structure Cache where
  records : List (String × Bytes) := []

namespace Cache

variable {σ ε : Type}

/-- The record filed under a digest. -/
def find? (c : Cache) (digest : String) : Option Bytes := c.records.lookup digest

/-- The record of a key. -/
def get? (c : Cache) (k : CacheKey) : Option Bytes := c.find? k.digest

/-- File a record, in place of any other under the same digest. -/
def put (c : Cache) (digest : String) (data : Bytes) : Cache :=
  ⟨(digest, data) :: c.records.filter (·.1 ≠ digest)⟩

/-- Take a record away. -/
def erase (c : Cache) (digest : String) : Cache :=
  ⟨c.records.filter (·.1 ≠ digest)⟩

/-- Where the record of a digest lies below the directory of records. -/
def recordPath (digest : String) : String :=
  String.ofList (digest.toList.take 2 ++ '/' :: digest.toList.drop 2)

/-- The paths of all records below the directory of records, in order. -/
def recordPaths (c : Cache) : List String :=
  (c.records.map fun r => recordPath r.1).mergeSort fun a b => decide (a ≤ b)

/-- The record of a key; `produce` makes it if it is missing. -/
def fill (k : CacheKey) (produce : Attempt σ ε Bytes) : Attempt (σ × Cache) ε Bytes :=
  fun (s, c) =>
    match c.get? k with
    | some data => (.ok data, (s, c))
    | none =>
      match produce s with
      | (.ok data, s) => (.ok data, (s, c.put k.digest data))
      | (.error e, s) => (.error e, (s, c))

/-- What `callers` requests that wait in a queue are answered. -/
def fillQueue (k : CacheKey) (produce : Attempt σ ε Bytes) :
    (callers : Nat) → σ × Cache → List (Except ε Bytes) × σ × Cache
  | 0, s => ([], s)
  | n + 1, s =>
    let (r, s) := fill k produce s
    let (rs, s) := fillQueue k produce n s
    (r :: rs, s)

@[simp] theorem find?_put_self (c : Cache) (digest : String) (data : Bytes) :
    (c.put digest data).find? digest = some data := by
  simp [put, find?]

theorem lookup_filter_ne (records : List (String × Bytes)) {digest other : String}
    (h : other ≠ digest) :
    (records.filter (·.1 ≠ digest)).lookup other = records.lookup other := by
  induction records with
  | nil => rfl
  | cons r records ih =>
    obtain ⟨d, data⟩ := r
    by_cases hd : d = digest
    · have hb : (other == d) = false := by simpa [hd] using h
      rw [List.filter_cons_of_neg (by simp [hd]), List.lookup_cons, hb, ih]
    · rw [List.filter_cons_of_pos (by simp [hd]), List.lookup_cons, List.lookup_cons, ih]

theorem find?_put_of_ne (c : Cache) {digest other : String} (data : Bytes)
    (h : other ≠ digest) : (c.put digest data).find? other = c.find? other := by
  have hb : (other == digest) = false := by simpa using h
  simp only [put, find?, List.lookup_cons, hb]
  exact lookup_filter_ne c.records h

end Cache

end ArchiveMount
