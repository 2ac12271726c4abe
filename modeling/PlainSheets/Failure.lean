import PlainSheets.Moment.Iso
import PlainSheets.Moment.Shown
import PlainSheets.Text.Quoted

/-!
Everything that can go wrong, by cause, and the sentence that tells of it.
-/
namespace PlainSheets

inductive Failure where
  | sheetNotFound (sheet : String)
  | rowNotFound (sheet row : String)
  | noSuchFile (path : String)
  | unsupportedFile (path : String)
  | unknownFormat (name : String)
  /-- A moment leaves the calendar when it is carried to UTC. -/
  | dateOutOfRange
  | notIso (cause : IsoError)
  | dateNotText
  /-- An integer of more digits than are read or written; a literal tells how many. -/
  | integerTooLong (digits : Option Nat)
  /-- An integer beyond every finite double precision number. -/
  | integerTooLarge
  /-- Several values that are taken for one. -/
  | manyValues
  /-- Several values that are asked for one truth. -/
  | manyTruths
  /-- A comparison with a signalling value. -/
  | signalled
  | notJson
  /-- A value that row text has no form for. -/
  | unwritable (typeName : String)
  /-- A key that row text has no form for. -/
  | unwritableKey (typeName : String)
  /-- Row data that has no parts at all. -/
  | notIterable (typeName : String)
  /-- Row data with an item that has no parts. -/
  | notPair (index : Nat)
  /-- Row data with an item of more or fewer parts than two. -/
  | pairLength (index length : Nat)
  /-- Row data with a list or a map in the place of a key. -/
  | badKey (typeName : String)
  /-- A text that is read as a number and is none. -/
  | notNumeric (text : String)
  /-- A text that is read as an integer and is none. -/
  | notInteger (text : String)
  | notNumber (typeName : String)
  | missingKey (key : String)
  /-- A value that is asked for a key and has none. -/
  | notIndexed (typeName : String)
  /-- A value that is asked whether it has a key and cannot have one. -/
  | notContainer (typeName : String)
  | noLength (typeName : String)
  /-- A value that is used as a map and is none. -/
  | notMap (typeName : String)
  | badPattern (message : String)
  /-- A statistic that no values have. -/
  | noValues
  | noMiddle
  | unavailable (reason : String)
  /-- The model client failed, in its own words. -/
  | clientFailed (message : String)
  /-- The store failed, in its own words. -/
  | storeFailed (message : String)
  | readFailed (message : String)
  /-- An operation that a store does not have. -/
  | notOffered (operation : String)
  | unreadableDatabase (path : String)
  /-- A tag in text for the terminal that closes nothing. -/
  | badMarkup (tag : String)
  | endOfInput
  deriving DecidableEq

def IsoError.message : IsoError → String
  | .malformed text => "Invalid isoformat string: " ++ Text.quoted text
  | .year value => s!"year {value} is out of range"
  | .month => "month must be in 1..12"
  | .day => "day is out of range for month"
  | .hour => "hour must be in 0..23"
  | .minute => "minute must be in 0..59"
  | .second => "second must be in 0..59"
  | .offset micros =>
    "offset must be a timedelta strictly between -timedelta(hours=24) and timedelta(hours=24), not "
      ++ spanText micros ++ "."

namespace Failure

def message : Failure → String
  | sheetNotFound sheet => "Sheet not found: " ++ sheet
  | rowNotFound sheet row => "Row not found: " ++ row ++ " (sheet " ++ sheet ++ ")"
  | noSuchFile path => "No such file: " ++ path
  | unsupportedFile path => "Unsupported file type: " ++ path ++ " (expected .csv or .parquet)"
  | unknownFormat name => Text.quoted name
  | dateOutOfRange => "date value out of range"
  | notIso cause => cause.message
  | dateNotText => "fromisoformat: argument must be str"
  | integerTooLong digits =>
    "Exceeds the limit (4300 digits) for integer string conversion" ++
      ((digits.map fun n => s!": value has {n} digits").getD "") ++
      "; use sys.set_int_max_str_digits() to increase the limit"
  | integerTooLarge => "int too large to convert to float"
  | manyValues => "can only convert an array of size 1 to a Python scalar"
  | manyTruths => "The truth value of an array with more than one element is ambiguous. " ++
    "Use a.any() or a.all()"
  | signalled => "[<class 'decimal.InvalidOperation'>]"
  | notJson => "Expecting value"
  | unwritable typeName => "Object of type " ++ typeName ++ " is not JSON serializable"
  | unwritableKey typeName => "keys must be str, int, float, bool or None, not " ++ typeName
  | notIterable typeName => Text.quoted typeName ++ " object is not iterable"
  | notPair index =>
    s!"cannot convert dictionary update sequence element #{index} to a sequence"
  | pairLength index length =>
    s!"dictionary update sequence element #{index} has length {length}; 2 is required"
  | badKey typeName => "unhashable type: " ++ Text.quoted typeName
  | notNumeric text => "could not convert string to float: " ++ Text.quoted text
  | notInteger text => "invalid literal for int() with base 10: " ++ Text.quoted text
  | notNumber typeName =>
    "float() argument must be a string or a real number, not " ++ Text.quoted typeName
  | missingKey key => Text.quoted key
  | notIndexed typeName => Text.quoted typeName ++ " object is not subscriptable"
  | notContainer typeName => "argument of type " ++ Text.quoted typeName ++ " is not iterable"
  | noLength typeName => "object of type " ++ Text.quoted typeName ++ " has no len()"
  | notMap typeName => Text.quoted typeName ++ " object has no attribute 'get'"
  | badPattern message => message
  | noValues => "zero-size array to reduction operation minimum which has no identity"
  | noMiddle => "index 0 is out of bounds for axis 0 with size 0"
  | unavailable reason => reason
  | clientFailed message => message
  | storeFailed message => message
  | readFailed message => message
  | notOffered operation => "the store has no operation " ++ Text.quoted operation
  | unreadableDatabase path => "The file \"" ++ path ++ "\" holds no database"
  | badMarkup tag => "closing tag '[" ++ tag ++ "]' doesn't match any open tag"
  | endOfInput => "EOF when reading a line"

end Failure

/-- The longest integer that is read from a literal or written as text, in digits. -/
def maxIntegerDigits : Nat := 4300

def IsShort (n : Int) : Prop := (Nat.toDigits 10 n.natAbs).length ≤ maxIntegerDigits

instance : DecidablePred IsShort := fun _ => inferInstanceAs (Decidable (_ ≤ _))

end PlainSheets
