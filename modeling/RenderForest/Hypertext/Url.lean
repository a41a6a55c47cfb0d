import RenderForest.Hypertext.Host
/-!
# Url — which references may stay

A reference without a scheme may stay.  One with a scheme may stay if the scheme is known to be
harmless and the URL is well-formed.  This file defines:

* `Url.scheme?`, the scheme of a URL and what follows it;
* `Url.isAuthority`, whether user, host and service are well-formed;
* `Url.mayStay`.
-/

namespace RenderForest
namespace Hypertext
namespace Url

/-! ## Schemes -/

def schemes : List String :=
  ["bitcoin", "ftp", "ftps", "geo", "http", "https", "im", "irc", "ircs", "magnet", "mailto",
    "mms", "mx", "news", "nntp", "openpgp4fpr", "sip", "sms", "smsto", "ssh", "tel", "url",
    "webcal", "wtai", "xmpp"]

/-- The schemes whose URLs always name a host. -/
def hostSchemes : List String :=
  ["ftp", "http", "https"]

/-- A URL as it is read: without blanks and controls at its ends, tabs and line breaks. -/
def clean (s : List Char) : List Char :=
  let isEdge (c : Char) : Bool := decide (c ≤ ' ')
  let trimmed := ((s.dropWhile isEdge).reverse.dropWhile isEdge).reverse
  trimmed.filter fun c => c != '\t' && c != '\n' && c != '\r'

def isSchemeChar (c : Char) : Bool :=
  c.isAlphanum || c == '+' || c == '-' || c == '.'

/-- The scheme of a URL in small letters, and what follows the colon. -/
def scheme? (s : List Char) : Option (String × List Char) :=
  let name := s.takeWhile isSchemeChar
  match name, s.dropWhile isSchemeChar with
  | c :: _, ':' :: rest =>
    if c.isAlpha then some (String.ofList (name.map Char.toLower), rest) else none
  | _, _ => none

/-! ## User, host and service -/

/-- Whether a character ends the part with user, host and service number. -/
def endsAuthority (ofHost : Bool) (c : Char) : Bool :=
  c == '/' || c == '?' || c == '#' || (ofHost && c == '\\')

/-- The parts before and behind the last at sign. -/
def splitUser (s : List Char) : Option (List Char) × List Char :=
  let back := s.reverse
  let host := (back.takeWhile (· != '@')).reverse
  match back.dropWhile (· != '@') with
  | [] => (none, s)
  | _ :: user => (some user.reverse, host)

/-- The host, and what follows it from the colon on; colons in brackets belong to the host. -/
def splitService (inBrackets : Bool) : List Char → List Char × List Char
  | [] => ([], [])
  | c :: rest =>
    if c == ':' && !inBrackets then ([], c :: rest)
    else
      let inBrackets := if c == '[' then true else if c == ']' then false else inBrackets
      let (host, service) := splitService inBrackets rest
      (c :: host, service)

def maxService : Nat := 65535

/-- Whether a text is empty or a colon with a service number, which may be empty. -/
def isService (s : List Char) : Bool :=
  match s with
  | [] => true
  | _ :: digits => digits.all Char.isDigit && decide (Text.numeral 10 digits ≤ maxService)

def isAuthority (ofHost : Bool) (s : List Char) : Bool :=
  let part := s.takeWhile fun c => !endsAuthority ofHost c
  let (user, rest) := splitUser part
  let (host, service) := splitService false rest
  if ofHost then Host.isDomain host && isService service
  else if host.isEmpty then
    service.isEmpty && (match user with
      | none => true
      | some user => user.isEmpty && part.length == s.length)
  else Host.isName host && isService service

def isWellFormed (scheme : String) (s : List Char) : Bool :=
  if hostSchemes.contains scheme then
    isAuthority true (s.dropWhile fun c => c == '/' || c == '\\')
  else
    match s with
    | '/' :: '/' :: rest => isAuthority false rest
    | _ => true

def mayStay (url : String) : Bool :=
  match scheme? (clean url.toList) with
  | none => true
  | some (scheme, rest) => schemes.contains scheme && isWellFormed scheme rest

end Url
end Hypertext
end RenderForest
