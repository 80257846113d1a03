import LinkShelf.Calendar.DayText
import LinkShelf.Calendar.Timestamp
import LinkShelf.Json.Compare
import LinkShelf.Json.Reader
import LinkShelf.Text.Words
import LinkShelf.Toml.Reader
import LinkShelf.Url.Fault

/-!
The causes for which an operation fails, and their wording.
-/

namespace LinkShelf

/-- Why a query is refused. -/
inductive QueryCause where
  | quoting (text : String) (fault : QuotingFault)
  | unknownAction (action : String)
  | unknownProperty (property : String)
  | badArgument (action argument : String)
  | notANumber (action argument : String)
  | negativeLimit (action argument : String)
  | unknownOrder (name : String)
  | badDay (fault : DayFault)
  | unknownComparison (shown : String)
  deriving DecidableEq, Repr

def QueryCause.message : QueryCause → String
  | .quoting text fault => "invalid query '" ++ text ++ "': " ++ fault.message
  | .unknownAction action => "invalid query action '" ++ action ++ "'"
  | .unknownProperty property => "invalid argument for 'is' query: '" ++ property ++ "'"
  | .badArgument action argument => "invalid " ++ action ++ " param '" ++ argument ++ "'"
  | .notANumber action argument =>
    "invalid " ++ action ++ " param '" ++ argument ++ "': not a number"
  | .negativeLimit action argument =>
    "invalid " ++ action ++ " param '" ++ argument ++ "': must not be negative"
  | .unknownOrder name => "invalid sort order '" ++ name ++ "'"
  | .badDay fault => fault.message
  | .unknownComparison shown => "invalid comparison operator '" ++ shown ++ "'"

/-- A refused query: the cause, and the term it lies in when that is known. -/
structure QueryFault where
  cause : QueryCause
  term : Option String
  deriving DecidableEq, Repr

def QueryFault.message (f : QueryFault) : String := f.cause.message

/-- A value of the wrong kind for what is done with it. -/
inductive KindFault where
  /-- A value that has no items was gone through. -/
  | notIterable (kind : String)
  /-- A value that holds nothing was searched. -/
  | notSearchable (kind : String)
  /-- A value that names no number was read as an integer. -/
  | notANumber (kind : String)
  | incomparable (comparison : Comparison) (left right : String)
  | notAPath (kind : String)
  | unknownField (name : String)
  | repeatedField (name : String)
  | keyNotText
  | notHashable (kind : String)
  /-- A value that is no text stands in a list whose texts are put together. -/
  | notJoinable (position : Nat) (kind : String)
  /-- A value that a configuration file cannot hold. -/
  | notWritable (kind : String)
  deriving DecidableEq, Repr

def KindFault.message : KindFault → String
  | .notIterable kind => "'" ++ kind ++ "' object is not iterable"
  | .notSearchable kind => "argument of type '" ++ kind ++ "' is not iterable"
  | .notANumber kind =>
    "int() argument must be a string, a bytes-like object or a real number, not '" ++ kind ++ "'"
  | .incomparable comparison left right =>
    "'" ++ comparison.symbol ++ "' not supported between instances of '" ++ left ++ "' and '" ++
      right ++ "'"
  | .notAPath kind => "expected str, bytes or os.PathLike object, not " ++ kind
  | .unknownField name => "got an unexpected keyword argument '" ++ name ++ "'"
  | .repeatedField name => "got multiple values for keyword argument '" ++ name ++ "'"
  | .keyNotText => "key must be a string"
  | .notHashable kind => "unhashable type: '" ++ kind ++ "'"
  | .notJoinable position kind =>
    "sequence item " ++ String.ofList (Nat.toDigits 10 position) ++ ": expected str instance, " ++
      kind ++ " found"
  | .notWritable kind => "Object of type '" ++ kind ++ "' is not TOML serializable"

/-- Why a file operation fails. -/
inductive FileFault where
  | missing (path : String)
  | present (path : String)
  | isDirectory (path : String)
  | notDirectory (path : String)
  | nameTooLong (path : String)
  /-- A path holds the character that ends every path. -/
  | pathWithEnd
  | missingConfig (path : String)
  /-- A failure of the device. -/
  | device (text : String)
  deriving DecidableEq, Repr

def FileFault.message : FileFault → String
  | .missing path => "[Errno 2] No such file or directory: " ++ quote path
  | .present path => "[Errno 17] File exists: " ++ quote path
  | .isDirectory path => "[Errno 21] Is a directory: " ++ quote path
  | .notDirectory path => "[Errno 20] Not a directory: " ++ quote path
  | .nameTooLong path => "[Errno 36] File name too long: " ++ quote path
  | .pathWithEnd => "embedded null byte"
  | .missingConfig path => "Config not found: " ++ path
  | .device text => text

/-- Why bytes are no text. -/
inductive EncodingFault where
  | invalidStart (byte position : Nat)
  | invalidContinuation (byte position : Nat)
  | invalidContinuations (first last : Nat)
  | unexpectedEnd (byte position : Nat)
  | unexpectedEnds (first last : Nat)
  deriving DecidableEq, Repr

def EncodingFault.message : EncodingFault → String
  | .invalidStart byte position => atByte byte position "invalid start byte"
  | .invalidContinuation byte position => atByte byte position "invalid continuation byte"
  | .invalidContinuations first last => atBytes first last "invalid continuation byte"
  | .unexpectedEnd byte position => atByte byte position "unexpected end of data"
  | .unexpectedEnds first last => atBytes first last "unexpected end of data"
where
  decimal (n : Nat) : String := String.ofList (Nat.toDigits 10 n)
  atByte (byte position : Nat) (reason : String) : String :=
    "'utf-8' codec can't decode byte 0x" ++ String.ofList (Text.hexPadded 2 byte) ++
      " in position " ++ decimal position ++ ": " ++ reason
  atBytes (first last : Nat) (reason : String) : String :=
    "'utf-8' codec can't decode bytes in position " ++ decimal first ++ "-" ++ decimal last ++
      ": " ++ reason

/-- The greatest version of a configuration that is understood. -/
def configVersion : Nat := 1

/-- Why an operation fails. -/
inductive Failure where
  | url (fault : UrlFault)
  | blankTag
  | color (shown : String)
  | timestamp (fault : TimestampFault)
  | day (fault : DayFault)
  | month (fault : MonthFault)
  | integer (text : String) (fault : IntegerFault)
  /-- What is not a number was read as an integer. -/
  | nanInteger
  /-- Infinity was read as an integer. -/
  | infiniteInteger
  | negativeVisits (shown : String)
  /-- An integer with too many digits was to be written. -/
  | oversizedInteger
  | json (fault : Json.ReadError)
  | toml (fault : Toml.ReadError)
  | encoding (fault : EncodingFault)
  | query (fault : QueryFault)
  | missingMember (name : String)
  | kind (fault : KindFault)
  /-- A value has no such operation. -/
  | noSuchOperation
  /-- A moment has no date in the time zone. -/
  | noLocalDate
  | file (fault : FileFault)
  | newerConfig (shown : String)
  | badLimit (path shown : String)
  | noHome
  /-- A failure that was asked for. -/
  | staged (name message : String)
  deriving DecidableEq, Repr

namespace Failure

def message : Failure → String
  | .url fault => fault.message
  | .blankTag => "Tag name must not be empty"
  | .color shown => "Invalid color (expected #rrggbb): " ++ shown
  | .timestamp fault => fault.message
  | .day fault => fault.message
  | .month (.year n) => "year " ++ String.ofList (Number.integerText n) ++ " is out of range"
  | .month .tooFar => "Python int too large to convert to C int"
  | .integer text .notInteger =>
    "invalid literal for int() with base 10: " ++ String.ofList ((Text.quoted text.toList).take 200)
  | .integer _ (.tooManyDigits count) => tooManyDigitsMessage count
  | .nanInteger => "cannot convert float NaN to integer"
  | .infiniteInteger => "cannot convert float infinity to integer"
  | .negativeVisits shown => "visit_count must be non-negative: " ++ shown
  | .oversizedInteger =>
    "Exceeds the limit (4300 digits) for integer string conversion; " ++
      "use sys.set_int_max_str_digits() to increase the limit"
  | .json (.malformed fault place) =>
    fault.message ++ ": line " ++ decimal place.line ++ " column " ++ decimal place.column ++
      " (char " ++ decimal place.offset ++ ")"
  | .json (.oversized digits) => tooManyDigitsMessage digits
  | .toml (.oversized digits) => tooManyDigitsMessage digits
  | .toml fault => fault.message
  | .encoding fault => fault.message
  | .query fault => fault.message
  | .missingMember name => quote name
  | .kind fault => fault.message
  | .noSuchOperation => "<attribute error>"
  | .noLocalDate => "date value out of range"
  | .file fault => fault.message
  | .newerConfig shown =>
    "Config version " ++ shown ++ " is newer than supported (" ++ decimal configVersion ++ ")"
  | .badLimit path shown => "Invalid query.limit in " ++ path ++ ": " ++ shown
  | .noHome => "Could not determine home directory."
  | .staged _ message => message
where
  decimal (n : Nat) : String := String.ofList (Nat.toDigits 10 n)

/-- The name of the kind of failure, as reports give it. -/
def name : Failure → String
  | .encoding _ => "UnicodeDecodeError"
  | .toml (.malformed _ _) => "TOMLDecodeError"
  | .query _ => "QueryError"
  | .missingMember _ => "KeyError"
  | .kind _ => "TypeError"
  | .noSuchOperation => "AttributeError"
  | .day .noYesterday | .month .tooFar | .noLocalDate | .infiniteInteger => "OverflowError"
  | .file (.missing _) | .file (.missingConfig _) => "FileNotFoundError"
  | .file (.present _) => "FileExistsError"
  | .file (.isDirectory _) => "IsADirectoryError"
  | .file (.notDirectory _) => "NotADirectoryError"
  | .file (.device _) | .file (.nameTooLong _) => "OSError"
  | .file .pathWithEnd => "ValueError"
  | .noHome => "RuntimeError"
  | .staged name _ => name
  | .url _ | .blankTag | .color _ | .timestamp _ | .day _ | .month _ | .integer _ _ | .nanInteger
  | .negativeVisits _ | .oversizedInteger | .json _ | .toml _ | .newerConfig _
  | .badLimit _ _ => "ValueError"

/-- Whether the failure lies in the value that was given: it has no acceptable form. -/
def isBadValue : Failure → Bool
  | .url _ | .blankTag | .color _ | .timestamp _ | .integer _ _ | .nanInteger
  | .negativeVisits _ | .oversizedInteger | .json _ | .toml _ | .encoding _ | .query _
  | .newerConfig _ | .badLimit _ _ | .file .pathWithEnd => true
  | .day fault => fault != .noYesterday
  | .month (.year _) => true
  | .month .tooFar => false
  | .missingMember _ | .kind _ | .noSuchOperation | .noLocalDate | .file _ | .infiniteInteger
  | .noHome | .staged _ _ => false

/-- Whether the failure says that a record cannot be read as it is: a bad value, a missing member,
or a value of the wrong kind. Other failures are not foreseen. -/
def isUnreadableRecord (f : Failure) : Bool :=
  f.isBadValue ||
    match f with
    | .missingMember _ => true
    | .kind _ => true
    | _ => false

def isFileFault : Failure → Bool
  | .file .pathWithEnd => false
  | .file _ => true
  | _ => false

end Failure

end LinkShelf
