/-
# `ArchiveMount.Locator.Fault` — what can be wrong with a locator

The first group of causes comes from reading the text of a locator; the others from a
store that cannot serve the locator it is given.
-/

namespace ArchiveMount

/-- Why a locator was refused. -/
inductive LocatorFault
  /-- There is no scheme. -/
  | relative
  | emptyHost
  | port
  | ipv4
  | ipv6
  | internationalName
  | domainCharacter
  /-- Nothing but a scheme and a text of its own. -/
  | rootless
  | notLocalFile
  | noBucketOrKey
  | emptyKeySegment (key : String)
  | badKeySegment (key illegal segment : String)
  | keyNotUtf8 (key detail : String)
  deriving Repr, DecidableEq

def LocatorFault.message : LocatorFault → String
  | .relative => "relative URL without a base"
  | .emptyHost => "empty host"
  | .port => "invalid port number"
  | .ipv4 => "invalid IPv4 address"
  | .ipv6 => "invalid IPv6 address"
  | .internationalName => "invalid international domain name"
  | .domainCharacter => "invalid domain character"
  | .rootless => "expected scheme://container/path"
  | .notLocalFile => "not a local file path"
  | .noBucketOrKey => "expected s3://bucket/key"
  | .emptyKeySegment key => s!"Path \"{key}\" contained empty path segment"
  | .badKeySegment key illegal segment =>
    s!"Error parsing Path \"{key}\": Encountered illegal character sequence \"{illegal}\""
      ++ s!" whilst parsing path segment \"{segment}\""
  | .keyNotUtf8 key detail => s!"Path \"{key}\" contained non-unicode characters: {detail}"

end ArchiveMount
