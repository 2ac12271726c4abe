/-!
The words of dates: months, days of the week, units and halves of the day, and words without meaning.
-/
namespace PlainSheets.Spoken

private def lowered (word : String) : String := String.ofList (word.toList.map Char.toLower)

private def row? (rows : List (List String)) (word : String) : Option Nat :=
  rows.findIdx? fun row => row.contains (lowered word)

def months : List (List String) :=
  [["jan", "january"], ["feb", "february"], ["mar", "march"], ["apr", "april"], ["may"],
    ["jun", "june"], ["jul", "july"], ["aug", "august"], ["sep", "sept", "september"],
    ["oct", "october"], ["nov", "november"], ["dec", "december"]]

def month? (word : String) : Option Nat := (row? months word).map (· + 1)

def weekdays : List (List String) :=
  [["mon", "monday"], ["tue", "tuesday"], ["wed", "wednesday"], ["thu", "thursday"],
    ["fri", "friday"], ["sat", "saturday"], ["sun", "sunday"]]

def weekday? (word : String) : Option Nat := row? weekdays word

inductive ClockUnit where
  | hours
  | minutes
  | seconds
  deriving DecidableEq

namespace ClockUnit

def finer? : ClockUnit → Option ClockUnit
  | hours => some minutes
  | minutes => some seconds
  | seconds => none

end ClockUnit

def unit? (word : String) : Option ClockUnit :=
  let word := lowered word
  if ["h", "hour", "hours"].contains word then some .hours
  else if ["m", "minute", "minutes"].contains word then some .minutes
  else if ["s", "second", "seconds"].contains word then some .seconds
  else none

def afternoon? (word : String) : Option Bool :=
  let word := lowered word
  if word = "am" ∨ word = "a" then some false
  else if word = "pm" ∨ word = "p" then some true
  else none

def isFiller (word : String) : Bool :=
  [" ", ".", ",", ";", "-", "/", "'", "at", "on", "and", "ad", "m", "t", "of", "st", "nd", "rd",
    "th"].contains (lowered word)

def isOf (word : String) : Bool := lowered word = "of"

def isUtc (name : String) : Bool := ["utc", "gmt", "z"].contains (lowered name)

def isZoneName (word : String) : Bool :=
  word.length ≤ 5 && (word = "z" || word.toList.all Char.isUpper)

end PlainSheets.Spoken
