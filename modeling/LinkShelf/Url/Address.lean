import LinkShelf.Text.Pieces

/-!
Which texts between brackets are network addresses: the dotted form of version 4, the colon form of
version 6 with an optional zone after a percent sign, and the form kept for later versions.
-/

namespace LinkShelf.Url

open Text

/-- An ASCII hexadecimal digit. -/
def isHexDigit (c : Char) : Bool :=
  c.isDigit || ('a' ≤ c && c ≤ 'f') || ('A' ≤ c && c ≤ 'F')

/-- A number of a version 4 address: one to three digits, without a leading zero, at most 255. -/
def isOctet (cs : List Char) : Bool :=
  !cs.isEmpty && cs.all Char.isDigit && cs.length ≤ 3 && (cs == ['0'] || cs.head? != some '0') &&
    cs.foldl (fun n c => 10 * n + (c.toNat - '0'.toNat)) 0 ≤ 255

/-- Whether a text is a version 4 address. -/
def isVersion4 (cs : List Char) : Bool :=
  let octets := pieces (· == '.') cs
  octets.length == 4 && octets.all isOctet

/-- A number of a version 6 address; an empty one is zero where it is allowed to stand. -/
def isHextet (cs : List Char) : Bool := cs.all isHexDigit && cs.length ≤ 4

/-- The parts of a version 6 address with a trailing version 4 address counted as two parts. -/
def hextets? (parts : List (List Char)) : Option (List (List Char)) :=
  match parts.getLast? with
  | some last =>
    if last.contains '.' then
      if isVersion4 last then some (parts.dropLast ++ [['0'], ['0']]) else none
    else some parts
  | none => none

/-- Whether the parts between colons make up a version 6 address: eight numbers, or fewer around
one empty part that stands for the missing ones. -/
def areHextets (parts : List (List Char)) : Bool :=
  let inner := parts.tail.dropLast
  let first := parts.headD []
  let last := parts.getLastD []
  match inner.filter List.isEmpty with
  | [] =>
    parts.length == 8 && !first.isEmpty && !last.isEmpty && parts.all isHextet
  | [_] =>
    let before := 1 + (inner.takeWhile fun p => !p.isEmpty).length
    let after := parts.length - before - 1
    let high := if first.isEmpty then before - 1 else before
    let low := if last.isEmpty then after - 1 else after
    !(first.isEmpty && 0 < high) && !(last.isEmpty && 0 < low) && high + low < 8 &&
      (parts.take high).all isHextet && (parts.drop (parts.length - low)).all isHextet
  | _ => false

/-- Whether a text is a version 6 address, with or without a zone. -/
def isVersion6 (cs : List Char) : Bool :=
  let zoneIsFine := match cutFirst (· == '%') cs with
    | some (_, zone) => !zone.isEmpty && !zone.contains '%'
    | none => true
  let address := cs.takeWhile (· ≠ '%')
  let parts := pieces (· == ':') address
  !cs.contains '/' && zoneIsFine && 3 ≤ parts.length &&
    match hextets? parts with
    | some parts => parts.length ≤ 9 && areHextets parts
    | none => false

/-- Whether a text that starts with a `v` is an address of a later version: hexadecimal digits, a
full stop and more. -/
def isFutureAddress : List Char → Bool
  | 'v' :: cs =>
    match cutFirst (· == '.') cs with
    | some (version, rest) => !version.isEmpty && version.all isHexDigit && !rest.isEmpty
    | none => false
  | _ => false

end LinkShelf.Url
