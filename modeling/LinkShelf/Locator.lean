import LinkShelf.Text.Blank
import LinkShelf.Url.DotSegments
import LinkShelf.Url.Escapes
import LinkShelf.Url.Parts

/-!
Locators: URLs in a normal form, so that equivalent spellings name the same bookmark.
-/

namespace LinkShelf

/-- A URL that names a bookmark. -/
structure Locator where
  url : String
  deriving DecidableEq, Repr

namespace Url

open Text

/-- The port that a scheme implies. -/
def defaultPort? (scheme : List Char) : Option Nat :=
  if scheme = "http".toList then some 80
  else if scheme = "https".toList then some 443
  else none

/-- The schemes written without slashes, with their colons. -/
def opaqueSchemes : List (List Char) :=
  ["mailto:", "javascript:", "data:", "about:", "tel:"].map String.toList

/-- The authority in normal form: the user as it is written, the host in lower case and the port
only where it differs from the scheme's own. -/
def settledAuthority (p : Parts) (port : Option Nat) : List Char :=
  let host := lower p.hostname
  let place := match port with
    | some n =>
      if n = 0 ∨ defaultPort? p.scheme = some n then host else host ++ ':' :: Nat.toDigits 10 n
    | none => host
  let (user, password) := p.user
  if user.isEmpty then place
  else user ++ (if password.isEmpty then [] else ':' :: password) ++ '@' :: place

/-- The path in normal form, which is never empty. -/
def settledPath (path : List Char) : List Char :=
  match resolveDotSegments (decodeUnreserved path) with
  | [] => ['/']
  | resolved => resolved

/-- The parts of a web address in normal form. -/
def Parts.settle (p : Parts) (port : Option Nat) : Parts :=
  { p with
    authority := settledAuthority p port
    path := settledPath p.path
    query := decodeUnreserved p.query
    fragment := decodeUnreserved p.fragment }

/-- A web address in normal form. One whose port cannot be read stays as it is. -/
def normalizeWeb (url : List Char) : Except UrlFault (List Char) := do
  let p ← split url
  match p.port with
  | .unreadable => return url
  | .missing => return (p.settle none).join
  | .number n => return (p.settle (some n)).join

/-- Whether the text names its scheme. -/
def namesScheme (url : List Char) : Bool :=
  contains "://".toList url || opaqueSchemes.any fun s => s.isPrefixOf (lower url)

/-- Whether the text is a web address. -/
def isWeb (url : List Char) : Bool :=
  let start := lower (url.take 8)
  "http://".toList.isPrefixOf start || "https://".toList.isPrefixOf start

/-- The normal form of a URL without white space at its ends. -/
def normalizeStripped (url : List Char) : Except UrlFault (List Char) :=
  if url.isEmpty then .error .empty
  else
    let url := if namesScheme url then url else "http://".toList ++ url
    if isWeb url then normalizeWeb url else .ok url

/-- The normal form of a URL. White space at the ends is dropped, a URL without a scheme is a web
address, and URLs of other schemes stay as they are. -/
def normalize (url : List Char) : Except UrlFault (List Char) := normalizeStripped (strip url)

/-- The host that a URL names, in lower case. -/
def host? (url : List Char) : Option (List Char) :=
  match split url with
  | .ok p => if p.hostname.isEmpty then none else some (lower p.hostname)
  | .error _ => none

end Url

namespace Locator

/-- The locator of a URL. -/
def of (url : String) : Except UrlFault Locator :=
  (Url.normalize url.toList).map fun cs => ⟨String.ofList cs⟩

/-- The host of a locator, if its URL has one. -/
def host? (l : Locator) : Option String := (Url.host? l.url.toList).map String.ofList

/-- Locators are ordered as their URLs are. -/
instance : Ord Locator := ⟨fun a b => compare a.url b.url⟩

end Locator

end LinkShelf
