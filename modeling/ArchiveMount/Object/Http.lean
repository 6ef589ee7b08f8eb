/-
# `ArchiveMount.Object.Http` — objects behind an HTTP server

The store sends `GET` with a range expression and `HEAD`, and believes an answer only
so far as its headers bear it out: a ranged request has to come back as exactly the
span that was asked for, which the `Content-Range` header states.  How requests
travel is left to an `HttpExchange`.
-/
import ArchiveMount.Object.Store
import ArchiveMount.Text.Pieces

namespace ArchiveMount

/-! ## Requests and answers -/

inductive HttpMethod
  | get
  | head
  deriving Repr, DecidableEq

structure HttpRequest where
  method : HttpMethod
  url : String
  /-- The `Range` header. -/
  range : Option String
  deriving Repr, DecidableEq

structure HttpResponse where
  status : Nat
  /-- The words after the status. -/
  reason : String
  headers : List (String × Bytes)
  body : Body

/-- How a request is answered. -/
abbrev HttpExchange (σ : Type) := HttpRequest → Attempt σ HttpFault HttpResponse

namespace HttpResponse

/-- The first header of a name, unless it has bytes that are not visible ASCII. -/
def header? (r : HttpResponse) (name : String) : Option (List Char) := do
  let (_, value) ← r.headers.find? fun h => h.1.map Char.toLower = name
  if value.all fun b => (32 ≤ b && b < 127) || b = 9 then
    some (value.map fun b => Char.ofNat b.toNat)
  else none

end HttpResponse

/-! ## Spans in headers -/

/-- The span a server says it sends, both ends included, and the object's size. -/
structure ContentRange where
  first : Nat
  last : Nat
  total : Option Nat
  deriving Repr, DecidableEq

namespace ContentRange

/-- Read a `Content-Range` header in bytes. -/
def ofText? (value : List Char) : Option ContentRange := do
  let value := Text.trimBlanks value
  let unit := "bytes ".toList
  if value.take unit.length ≠ unit then none
  let (span, total) ← Text.cutAt? '/' (value.drop unit.length)
  let (first, last) ← Text.cutAt? '-' span
  let total ← if Text.trimBlanks total = ['*'] then some none
    else (decimalWord? (Text.trimBlanks total)).map some
  let first ← decimalWord? (Text.trimBlanks first)
  let last ← decimalWord? (Text.trimBlanks last)
  if first ≤ last then some { first, last, total } else none

/-- The span without its last byte's place. -/
def span (c : ContentRange) : Span := ⟨c.first, addSat c.last 1⟩

/-- Whether the span is what the range means.  Where the object's size is not stated,
the end may have been cut. -/
def answers (c : ContentRange) (range : ByteRange) : Bool :=
  match c.total with
  | some total => c.span = range.resolve total
  | none =>
    match range with
    | .whole => true
    | .onward start => c.span.start = start
    | .bounded first last => c.span.start = first && c.span.stop ≤ addSat last 1
    | .suffix len => c.span.len ≤ len

end ContentRange

/-! ## The store -/

namespace HttpStore

/-- Whether the name and password before a host can be sent as a header: the name has to
be text, and so has the password if it is the only one of the two. -/
def hasCredentials (userinfo : String) : Bool :=
  let isText (s : List Char) : Bool :=
    (Text.ofUtf8? (Percent.decode (Text.utf8 (String.ofList s)))).isSome
  let name := userinfo.toList.takeWhile (· ≠ ':')
  let password := userinfo.toList.drop (name.length + 1)
  isText name && (!name.isEmpty || (!password.isEmpty && isText password))

/-- The locator that requests name.  Credentials travel in a header instead. -/
def target (l : Locator) : Locator :=
  { l with authority := l.authority.map fun a =>
      if hasCredentials a.userinfo then { a with userinfo := "" } else a }

/-- Characters a locator's host may have and that of a request may not. -/
def isUnsendable (c : Char) : Bool := "\"`\x7b\x7d".contains c

/-- A missing object has a status of its own; any other failure status is passed on. -/
def checkStatus (l : Locator) (r : HttpResponse) : Except ObjectError Unit :=
  if r.status = 404 ∨ r.status = 410 then .error (.notFound l.render)
  else if 400 ≤ r.status ∧ r.status < 500 then
    .error (.http (.clientError r.status r.reason (target l).render))
  else if 500 ≤ r.status ∧ r.status < 600 then
    .error (.http (.serverError r.status r.reason (target l).render))
  else .ok ()

/-- A ranged request has to come back as exactly what was asked for. -/
def checkPartial (l : Locator) (range : ByteRange) (r : HttpResponse) :
    Except ObjectError Unit :=
  if r.status ≠ 206 ∧ r.status ≠ 200 then
    .error (.store (.unexpectedStatus l.render r.status range))
  else match (r.header? "content-range").bind ContentRange.ofText? with
    | some served =>
      if served.answers range then .ok ()
      else .error (.store (.wrongSpan l.render served.first served.last range))
    | none => .error (.store (.rangeIgnored l.render range r.status))

/-- Send a request. -/
def send {σ : Type} (exchange : HttpExchange σ) (method : HttpMethod) (l : Locator)
    (range : Option String) : Attempt σ ObjectError HttpResponse :=
  let url := (target l).render
  if l.container.any isUnsendable then Attempt.fail (.http (.unsendable url))
  else (exchange ⟨method, url, range⟩).mapError .http

/-- Access to objects by way of an exchange. -/
def store {σ : Type} (exchange : HttpExchange σ) : Store σ where
  sizeOf l := do
    let r ← send exchange .head l none
    checkStatus l r
    match (r.header? "content-length").bind decimalWord? with
    | some n => return n
    | none => Attempt.fail (.store (.noLength l.render))
  download l range := do
    let r ← send exchange .get l range.expression?
    checkStatus l r
    if range ≠ .whole then checkPartial l range r
    return r.body

end HttpStore

end ArchiveMount
