/-
# `ArchiveMount.Object.Bucket` — objects in buckets

Each bucket is served from a region, which is looked up once and then kept.  With an
endpoint of its own a store needs no lookup: the configured region serves for every
bucket.  The client that talks to a bucket takes ranges as half-open intervals, which
`BucketRange.ofByteRange?` makes of inclusive ones.
-/
import ArchiveMount.Locator.Percent
import ArchiveMount.Object.Http
import ArchiveMount.Object.Routes
import ArchiveMount.Text.Pieces

namespace ArchiveMount

/-! ## Configuration -/

/-- How buckets are reached. -/
structure BucketConfig where
  /-- The region for buckets whose own is not looked up or not stated. -/
  defaultRegion : String := "us-east-1"
  endpoint : Option String := none
  /-- Whether the endpoint may be reached without encryption. -/
  allowHttp : Bool := false
  deriving Repr, DecidableEq

/-- The configuration two environment variables ask for.  The region counts only with
an endpoint. -/
def BucketConfig.ofEnvironment (endpoint region : Option String) : BucketConfig :=
  match endpoint with
  | none => {}
  | some "" => {}
  | some e => {
      defaultRegion := region.getD "us-east-1"
      endpoint := some e
      allowHttp := "http://".toList.isPrefixOf e.toList }

/-! ## Ranges -/

/-- The part of an object a bucket client is asked for. -/
inductive BucketRange
  | offset (start : Nat)
  /-- The last byte is not included. -/
  | bounded (start stop : Nat)
  | suffix (len : Nat)
  deriving Repr, DecidableEq

namespace BucketRange

/-- The same range for the client; there is none for the whole object. -/
def ofByteRange? : ByteRange → Option BucketRange
  | .whole => none
  | .onward start => some (.offset start)
  | .bounded first last => some (.bounded first (last + 1))
  | .suffix len => some (.suffix len)

/-- The bytes that are meant in an object of `size` bytes. -/
def resolve (size : Nat) : BucketRange → Span
  | .offset start => ⟨min start size, size⟩
  | .bounded start stop => ⟨min start size, min stop size⟩
  | .suffix len => ⟨size - len, size⟩

end BucketRange

/-! ## Keys -/

/-- Why bytes are not UTF-8: where the first ill-formed sequence stands and how long
it is; no length means that the bytes end inside a character. -/
def illFormedAt (b : Bytes) : Nat × Option Nat :=
  let valid := (List.range (b.length + 1)).foldl
    (fun best n => if (Text.ofUtf8? (b.take n)).isSome then n else best) 0
  let rest := b.drop valid
  let r := rest.foldl (fun (r : Option Text.Partial × Nat × Bool) x =>
    match r with
    | (p, n, true) => (p, n, true)
    | (none, 0, false) =>
      match Text.Lead.of x with
      | .begins p => (some p, 1, false)
      | _ => (none, 1, true)
    | (some p, n, false) =>
      if p.low ≤ x.toNat ∧ x.toNat ≤ p.high then
        (some ⟨p.missing - 1, 0x80, 0xBF, 0⟩, n + 1, false)
      else (some p, n, true)
    | (none, n, false) => (none, n, true)) (none, 0, false)
  (valid, if r.2.2 then some r.2.1 else none)

/-- The object key of a locator: its path decoded, without a slash at either end.
Inner segments cannot be empty, dots, or hold control characters. -/
def objectKey (l : Locator) : Except LocatorFault String :=
  if l.container = "" ∨ l.key = "" then .error .noBucketOrKey
  else
    let decoded := Percent.decode (Text.utf8 l.key)
    match Text.ofUtf8? decoded with
    | none =>
      let detail := match illFormedAt decoded with
        | (at_, some n) => s!"invalid utf-8 sequence of {n} bytes from index {at_}"
        | (at_, none) => s!"incomplete utf-8 byte sequence from index {at_}"
      .error (.keyNotUtf8 l.key detail)
    | some key =>
      let cs := if key.toList.head? = some '/' then key.toList.drop 1 else key.toList
      let stripped := if cs.getLast? = some '/' then cs.dropLast else cs
      let check (segment : List Char) : Except LocatorFault Unit :=
        if segment.isEmpty then .error (.emptyKeySegment key)
        else if segment = ['.'] ∨ segment = ['.', '.'] then
          .error (.badKeySegment key (String.ofList segment) (String.ofList segment))
        else match segment.find? (fun c => c.toNat < 32 || c.toNat = 127) with
          | some c => .error (.badKeySegment key c.toString (String.ofList segment))
          | none => .ok ()
      if cs.isEmpty then .ok ""
      else
        match (Text.pieces (· = '/') stripped).forM check with
        | .ok _ => .ok (String.ofList stripped)
        | .error e => .error e

/-! ## The store -/

/-- How a client of a bucket store failed. -/
inductive BucketFault
  | missing
  | other
  deriving Repr, DecidableEq

/-- The client that talks to the buckets of a region. -/
structure BucketClient (σ : Type) where
  head : (bucket region key : String) → Attempt σ BucketFault Nat
  get : (bucket region key : String) → Option BucketRange → Attempt σ BucketFault Body

namespace BucketStore

variable {σ : Type}

/-- The region an answer about a bucket names. -/
def regionOf (config : BucketConfig) (bucket : String) (r : HttpResponse) :
    Except ObjectError String :=
  if r.status = 404 then .error (.notFound s!"s3://{bucket}")
  else
    match (r.header? "x-amz-bucket-region").filter (!·.isEmpty) with
    | some region => .ok (String.ofList region)
    | none =>
      if 200 ≤ r.status ∧ r.status < 300 then .ok config.defaultRegion
      else .error (.store (.noRegion bucket r.status))

/-- Where the region of a bucket is asked for, as a URL in normal form. -/
def regionUrl (bucket : String) : String :=
  let text := s!"https://s3.amazonaws.com/{bucket}"
  match Locator.ofText text with
  | .ok l => l.render
  | .error _ => text

/-- Find the region of a bucket. -/
def findRegion (config : BucketConfig) (exchange : HttpExchange σ) (bucket : String) :
    Attempt σ ObjectError String :=
  if config.endpoint.isSome then pure config.defaultRegion
  else do
    let r ← (exchange ⟨.head, regionUrl bucket, none⟩).mapError .http
    regionOf config bucket r

/-- A failure of the client in terms of the object. -/
def ofFault (l : Locator) : BucketFault → ObjectError
  | .missing => .notFound l.render
  | .other => .bucketStore

/-- The region of a locator's bucket, then its key. -/
def route (config : BucketConfig) (exchange : HttpExchange σ) (l : Locator) :
    Attempt (σ × RouteCache String) ObjectError (String × String) := do
  let region ← RouteCache.resolve l.container (findRegion config exchange l.container)
  let key ← Attempt.ofExcept ((objectKey l).mapError (ObjectError.invalidLocator l.render))
  return (region, key)

/-- Access to objects in buckets. -/
def store (config : BucketConfig) (exchange : HttpExchange σ) (client : BucketClient σ) :
    Store (σ × RouteCache String) where
  sizeOf l := do
    let (region, key) ← route config exchange l
    ((client.head l.container region key).mapError (ofFault l)).zoom Prod.fst
      fun s part => (part, s.2)
  download l range := do
    let (region, key) ← route config exchange l
    ((client.get l.container region key (BucketRange.ofByteRange? range)).mapError
      (ofFault l)).zoom Prod.fst fun s part => (part, s.2)

end BucketStore

end ArchiveMount
