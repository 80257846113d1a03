/-!
Texts as rows of words. Words stand between blanks; quotes keep blanks inside a word, and a
backslash keeps the character after it.
-/

namespace LinkShelf

/-- Why a text is not taken apart into words. -/
inductive QuotingFault where
  /-- A quotation does not end. -/
  | openQuotation
  /-- Nothing follows a backslash at the end. -/
  | openEscape
  deriving DecidableEq, Repr

def QuotingFault.message : QuotingFault → String
  | .openQuotation => "No closing quotation"
  | .openEscape => "No escaped character"

namespace Text

/-- Where in the words of a text a place lies. -/
inductive WordState where
  | between
  | word
  | single
  | double
  | escaped
  | doubleEscaped
  deriving DecidableEq, Repr

/-- The blanks that stand between words. -/
def isWordBlank (c : Char) : Bool := c = ' ' || c = '\t' || c = '\r' || c = '\n'

/-- The words of a text that is entered in a state; `word` holds the characters of the current word,
the last one first. Inside double quotes a backslash escapes only a double quote or a backslash. -/
def wordsFrom (state : WordState) (word : List Char) :
    List Char → Except QuotingFault (List (List Char))
  | [] =>
    match state with
    | .between => .ok []
    | .word => .ok [word.reverse]
    | .single | .double => .error .openQuotation
    | .escaped | .doubleEscaped => .error .openEscape
  | c :: cs =>
    match state with
    | .between =>
      if isWordBlank c then wordsFrom .between [] cs
      else if c = '\'' then wordsFrom .single [] cs
      else if c = '"' then wordsFrom .double [] cs
      else if c = '\\' then wordsFrom .escaped [] cs
      else wordsFrom .word [c] cs
    | .word =>
      if isWordBlank c then (wordsFrom .between [] cs).map fun words => word.reverse :: words
      else if c = '\'' then wordsFrom .single word cs
      else if c = '"' then wordsFrom .double word cs
      else if c = '\\' then wordsFrom .escaped word cs
      else wordsFrom .word (c :: word) cs
    | .single =>
      if c = '\'' then wordsFrom .word word cs else wordsFrom .single (c :: word) cs
    | .double =>
      if c = '"' then wordsFrom .word word cs
      else if c = '\\' then wordsFrom .doubleEscaped word cs
      else wordsFrom .double (c :: word) cs
    | .escaped => wordsFrom .word (c :: word) cs
    | .doubleEscaped =>
      if c = '\\' ∨ c = '"' then wordsFrom .double (c :: word) cs
      else wordsFrom .double (c :: '\\' :: word) cs

/-- The words of a text. -/
def words (cs : List Char) : Except QuotingFault (List (List Char)) := wordsFrom .between [] cs

end Text

end LinkShelf
