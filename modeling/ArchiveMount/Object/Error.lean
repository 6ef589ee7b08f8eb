/-
# `ArchiveMount.Object.Error` — why an object could not be read

Every store reports a missing container or object as `notFound`; all else is passed
through as it came.  The wording is in one `message` function for each layer.
-/
import ArchiveMount.Locator.Parser
import ArchiveMount.Object.Range
import ArchiveMount.OsError

namespace ArchiveMount

/-- A status code with its reason, as servers are known to use them. -/
def statusReason? : Nat → Option String
  | 100 => some "Continue" | 101 => some "Switching Protocols" | 102 => some "Processing"
  | 103 => some "Early Hints"
  | 200 => some "OK" | 201 => some "Created" | 202 => some "Accepted"
  | 203 => some "Non Authoritative Information" | 204 => some "No Content"
  | 205 => some "Reset Content" | 206 => some "Partial Content" | 207 => some "Multi-Status"
  | 208 => some "Already Reported" | 226 => some "IM Used"
  | 300 => some "Multiple Choices" | 301 => some "Moved Permanently" | 302 => some "Found"
  | 303 => some "See Other" | 304 => some "Not Modified" | 305 => some "Use Proxy"
  | 307 => some "Temporary Redirect" | 308 => some "Permanent Redirect"
  | _ => none

/-- A status the way messages show it. -/
def renderStatus (status : Nat) : String :=
  s!"{status} " ++ (statusReason? status).getD "<unknown status code>"

/-- Why an HTTP exchange failed. -/
inductive HttpFault
  /-- No answer came. -/
  | unreachable (url : String)
  /-- The host cannot stand in a request. -/
  | unsendable (url : String)
  | clientError (status : Nat) (reason url : String)
  | serverError (status : Nat) (reason url : String)
  /-- The body ended too soon. -/
  | body
  deriving Repr, DecidableEq

def HttpFault.message : HttpFault → String
  | .unreachable url => s!"error sending request for url ({url})"
  | .unsendable url => s!"builder error for url ({url})"
  | .clientError status reason url =>
    s!"HTTP status client error ({status} {reason}) for url ({url})"
  | .serverError status reason url =>
    s!"HTTP status server error ({status} {reason}) for url ({url})"
  | .body => "error decoding response body"

/-- Failures that a store finds by itself. -/
inductive StoreFault
  /-- The store was told to fail. -/
  | injected (locator : String)
  | noLength (locator : String)
  | unexpectedStatus (locator : String) (status : Nat) (range : ByteRange)
  | wrongSpan (locator : String) (first last : Nat) (range : ByteRange)
  | rangeIgnored (locator : String) (range : ByteRange) (status : Nat)
  | noRegion (bucket : String) (status : Nat)
  /-- A failure in the words of whoever resolved a route. -/
  | reported (text : String)
  deriving Repr, DecidableEq

def StoreFault.message : StoreFault → String
  | .injected locator => s!"{locator}: injected failure"
  | .noLength locator => s!"{locator}: response has no Content-Length"
  | .unexpectedStatus locator status range =>
    s!"{locator}: unexpected status {renderStatus status} for range {range.render}"
  | .wrongSpan locator first last range =>
    s!"{locator}: server returned bytes {first}-{last} for range {range.render}"
  | .rangeIgnored locator range status =>
    s!"{locator}: server ignored range {range.render}"
      ++ s!" (status {renderStatus status}, no Content-Range)"
  | .noRegion bucket status =>
    s!"could not resolve region for bucket {bucket}: HTTP {renderStatus status}"
  | .reported text => text

/-- Why an object could not be read. -/
inductive ObjectError
  | notFound (locator : String)
  | invalidLocator (text : String) (fault : LocatorFault)
  | unsupportedScheme (scheme : String)
  | invalidRange (bounds : InvertedBounds)
  | http (fault : HttpFault)
  /-- The client of a bucket store gave up. -/
  | bucketStore
  | io (fault : OsError)
  | store (fault : StoreFault)
  deriving Repr, DecidableEq

namespace ObjectError

def message : ObjectError → String
  | .notFound locator => s!"remote object not found: {locator}"
  | .invalidLocator text fault => s!"invalid remote locator: {text}: {fault.message}"
  | .unsupportedScheme scheme => s!"unsupported remote scheme: {scheme}"
  | .invalidRange b => s!"invalid byte range: start {b.first} is past end {b.last}"
  | .http fault => s!"http error: {fault.message}"
  | .bucketStore => "object store error"
  | .io fault => s!"IO error: {fault.message}"
  | .store fault => s!"backend error: {fault.message}"

/-- Whether the object, or what contains it, does not exist. -/
def isNotFound : ObjectError → Bool
  | .notFound _ => true
  | _ => false

end ObjectError

/-- Read a locator; a refusal names the text. -/
def Locator.parse (text : String) : Except ObjectError Locator :=
  (Locator.ofText text).mapError (.invalidLocator text)

end ArchiveMount
