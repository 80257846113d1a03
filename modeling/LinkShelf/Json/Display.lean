import LinkShelf.Json.Basic
import LinkShelf.Number.Integer
import LinkShelf.Number.Shortest
import LinkShelf.Text.Quoted

/-!
JSON values as messages show them: texts on their own bare, inside other values quoted.
-/

namespace LinkShelf.Json

open Text

mutual

/-- The value with texts quoted. -/
def quotedText : Json → List Char
  | .null => "None".toList
  | .bool true => "True".toList
  | .bool false => "False".toList
  | .int n => Number.integerText n
  | .float x => x.shortestText
  | .text s => quoted s.toList
  | .list items => '[' :: quotedItems items ++ [']']
  | .object members => '{' :: quotedMembers members ++ ['}']

def quotedItems : List Json → List Char
  | [] => []
  | [v] => quotedText v
  | v :: w :: rest => quotedText v ++ ',' :: ' ' :: quotedItems (w :: rest)

def quotedMembers : List (String × Json) → List Char
  | [] => []
  | [(name, v)] => quoted name.toList ++ ':' :: ' ' :: quotedText v
  | (name, v) :: m :: rest =>
    quoted name.toList ++ ':' :: ' ' :: quotedText v ++ ',' :: ' ' :: quotedMembers (m :: rest)

end

mutual

/-- Whether the value holds an integer of too many digits to be shown or written. -/
def hasOversized : Json → Bool
  | .int n => Number.isOversized n
  | .list items => anyOversized items
  | .object members => anyMemberOversized members
  | _ => false

def anyOversized : List Json → Bool
  | [] => false
  | v :: rest => hasOversized v || anyOversized rest

def anyMemberOversized : List (String × Json) → Bool
  | [] => false
  | (_, v) :: rest => hasOversized v || anyMemberOversized rest

end

/-- The value as it stands in a line of text. -/
def shown : Json → List Char
  | .text s => s.toList
  | v => quotedText v

end LinkShelf.Json
