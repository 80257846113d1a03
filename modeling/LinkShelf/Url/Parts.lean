import LinkShelf.Text.Case
import LinkShelf.Url.Address
import LinkShelf.Url.Fault

/-!
A URL taken apart: scheme, authority, path, parameters, query and fragment, and the authority taken
apart into user, password, host and port.
-/

namespace LinkShelf.Url

open Text

/-- The parts of a URL, without the delimiters between them. -/
structure Parts where
  scheme : List Char
  authority : List Char
  path : List Char
  params : List Char
  query : List Char
  fragment : List Char
  deriving DecidableEq, Repr

/-- Controls and the space, which are dropped in front of a URL. -/
def isControlOrSpace (c : Char) : Bool := c.toNat ≤ 0x20

/-- Tabs and line ends, which are dropped anywhere in a URL. -/
def isLineOrTab (c : Char) : Bool := c = '\t' || c = '\n' || c = '\r'

def isSchemeChar (c : Char) : Bool := c.isAlphanum || c = '+' || c = '-' || c = '.'

/-- The scheme in lower case and what follows its colon, if the text begins with a scheme. -/
def scheme? (cs : List Char) : Option (List Char × List Char) :=
  match cutFirst (· == ':') cs with
  | some (name, rest) =>
    match name with
    | c :: _ => if c.isAlpha && name.all isSchemeChar then some (lower name, rest) else none
    | [] => none
  | none => none

/-- The characters that end an authority. -/
def endsAuthority (c : Char) : Bool := c = '/' || c = '?' || c = '#'

/-- Characters outside ASCII that other notations write as one of the characters that delimit the
parts of a URL. -/
def standsForDelimiter (c : Char) : Bool :=
  [0x2047, 0x2048, 0x2049, 0x2100, 0x2101, 0x2105, 0x2106, 0x2A74, 0xFE13, 0xFE16, 0xFE55, 0xFE56,
    0xFE5F, 0xFE6B, 0xFF03, 0xFF0F, 0xFF1A, 0xFF1F, 0xFF20].contains c.toNat

/-- Refuses a text between brackets that is no address of version 6 or later. -/
def checkBracketed (host : List Char) : Except UrlFault Unit :=
  if host.head? = some 'v' then
    if isFutureAddress host then .ok () else .error .badFutureAddress
  else if isVersion4 host then .error .bracketedVersion4
  else if isVersion6 host then .ok ()
  else .error (.notAnAddress (String.ofList host))

/-- What stands before and after the first `c`; without one, all stands before. -/
def cutAt (c : Char) (cs : List Char) : List Char × List Char :=
  match cutFirst (· == c) cs with
  | some parts => parts
  | none => (cs, [])

/-- The authority after the user information. -/
def hostAndPort (authority : List Char) : List Char :=
  match cutLast (· == '@') authority with
  | some (_, after) => after
  | none => authority

/-- The host as it is written and the text of the port, which is empty without one. -/
def cutHost (authority : List Char) : List Char × List Char :=
  let place := hostAndPort authority
  match cutFirst (· == '[') place with
  | some (_, inside) =>
    let (host, rest) := cutAt ']' inside
    (host, (cutAt ':' rest).2)
  | none => cutAt ':' place

/-- Whether nothing stands between a closing bracket and the port. -/
def isPortTail (cs : List Char) : Bool := cs.isEmpty || cs.head? = some ':'

/-- The host of an authority with brackets, which must be all that stands in front of the port. -/
def bracketedHost (authority : List Char) : Except UrlFault (List Char) :=
  let place := hostAndPort authority
  match cutFirst (· == '[') place with
  | some ([], inside) =>
    let (host, rest) := cutAt ']' inside
    if isPortTail rest then .ok host else .error .unbalancedBracket
  | some (_ :: _, _) => .error .unbalancedBracket
  | none => .ok (cutAt ':' place).1

/-- Refuses an authority with a bracket that has no partner or brackets around no address. -/
def checkBrackets (authority : List Char) : Except UrlFault Unit :=
  if authority.contains '[' != authority.contains ']' then .error .unbalancedBracket
  else if authority.contains '[' then do checkBracketed (← bracketedHost authority)
  else .ok ()

def checkDelimiters (authority : List Char) : Except UrlFault Unit :=
  if authority.any standsForDelimiter then .error (.ambiguousAuthority (String.ofList authority))
  else .ok ()

/-- The schemes whose paths may end in parameters after a semicolon. -/
def schemesWithParams : List (List Char) :=
  ["", "ftp", "hdl", "prospero", "http", "imap", "https", "shttp", "rtsp", "rtsps", "rtspu", "sip",
    "sips", "mms", "sftp", "tel"].map String.toList

/-- The path without its parameters, and the parameters: what follows the first semicolon of the
last segment. -/
def cutParams (path : List Char) : List Char × List Char :=
  let (front, last) := match cutLast (· == '/') path with
    | some (before, after) => (before ++ ['/'], after)
    | none => ([], path)
  match cutFirst (· == ';') last with
  | some (before, after) => (front ++ before, after)
  | none => (path, [])

/-- The authority after two slashes and the rest; without the slashes there is none. -/
def cutAuthority : List Char → List Char × List Char
  | '/' :: '/' :: rest => rest.span fun c => !endsAuthority c
  | cs => ([], cs)

/-- A URL taken apart. -/
def split (url : List Char) : Except UrlFault Parts := do
  let text := (url.dropWhile isControlOrSpace).filter fun c => !isLineOrTab c
  let (scheme, rest) := (scheme? text).getD ([], text)
  let (authority, rest) := cutAuthority rest
  checkBrackets authority
  let (rest, fragment) := cutAt '#' rest
  let (path, query) := cutAt '?' rest
  checkDelimiters authority
  let (path, params) :=
    if schemesWithParams.contains scheme then cutParams path else (path, [])
  return { scheme, authority, path, params, query, fragment }

/-- The host in lower case; a zone after a percent sign keeps its case. -/
def Parts.hostname (p : Parts) : List Char :=
  let host := (cutHost p.authority).1
  lower (host.takeWhile (· ≠ '%')) ++ host.dropWhile (· ≠ '%')

/-- The user and the password in front of the host; each is empty without one. -/
def Parts.user (p : Parts) : List Char × List Char :=
  match cutLast (· == '@') p.authority with
  | some (info, _) => cutAt ':' info
  | none => ([], [])

/-- The port of a URL. -/
inductive Port where
  | missing
  | number (n : Nat)
  /-- The text of the port is no number up to 65535. -/
  | unreadable
  deriving DecidableEq, Repr

/-- The most digits that a port is read with. -/
def maxPortDigits : Nat := 4300

def Parts.port (p : Parts) : Port :=
  let digits := (cutHost p.authority).2
  if digits.isEmpty then .missing
  else if digits.all Char.isDigit && digits.length ≤ maxPortDigits then
    let n := digits.foldl (fun n c => 10 * n + (c.toNat - '0'.toNat)) 0
    if n ≤ 65535 then .number n else .unreadable
  else .unreadable

/-- The text of a web address, with the delimiters of the parts that are not empty. Two slashes
announce the authority, unless it is empty and the path starts with two of its own. -/
def Parts.join (p : Parts) : List Char :=
  let path := if p.params.isEmpty then p.path else p.path ++ ';' :: p.params
  let place :=
    if p.authority.isEmpty && ['/', '/'].isPrefixOf path then path
    else
      let path := if path.isEmpty || path.head? = some '/' then path else '/' :: path
      '/' :: '/' :: p.authority ++ path
  p.scheme ++ ':' :: place ++
    (if p.query.isEmpty then [] else '?' :: p.query) ++
    (if p.fragment.isEmpty then [] else '#' :: p.fragment)

end LinkShelf.Url
