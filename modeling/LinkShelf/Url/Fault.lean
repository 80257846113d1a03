import LinkShelf.Text.Quoted

/-!
What can be wrong with a URL, and how it is worded.
-/

namespace LinkShelf

/-- Why a text is not taken as a URL. -/
inductive UrlFault where
  /-- Nothing is left when the white space is taken off. -/
  | empty
  /-- A bracket in the authority has no partner. -/
  | unbalancedBracket
  /-- The brackets hold an address of a future version that is not written as one. -/
  | badFutureAddress
  /-- The brackets hold an address of version 4. -/
  | bracketedVersion4
  /-- The brackets hold no address at all. -/
  | notAnAddress (host : String)
  /-- The authority has a character that stands for a delimiter in other notations. -/
  | ambiguousAuthority (authority : String)
  deriving DecidableEq, Repr

def UrlFault.message : UrlFault → String
  | .empty => "URL must not be empty"
  | .unbalancedBracket => "Invalid IPv6 URL"
  | .badFutureAddress => "IPvFuture address is invalid"
  | .bracketedVersion4 => "An IPv4 address cannot be in brackets"
  | .notAnAddress host => quote host ++ " does not appear to be an IPv4 or IPv6 address"
  | .ambiguousAuthority authority =>
    "netloc '" ++ authority ++ "' contains invalid characters under NFKC normalization"

end LinkShelf
