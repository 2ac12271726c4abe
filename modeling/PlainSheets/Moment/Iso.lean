import PlainSheets.Moment.Basic

/-!
The ISO form of dates and moments: `2023-01-31T10:30:00.500000+02:00`. The reader also takes the
basic form without separators, week dates, any character between date and time, and shortened
times. Fields out of range are told apart from a text that is no ISO form at all.
-/
namespace PlainSheets

def padded (width n : Nat) : List Char :=
  let ds := Nat.toDigits 10 n
  List.replicate (width - ds.length) '0' ++ ds

namespace Date

def iso (d : Date) : List Char :=
  padded 4 d.year ++ '-' :: padded 2 d.month ++ '-' :: padded 2 d.day

end Date

namespace Clock

/-- Microseconds are written only if there are any. -/
def iso (c : Clock) : List Char :=
  padded 2 c.hour ++ ':' :: padded 2 c.minute ++ ':' :: padded 2 c.second ++
    if c.micro = 0 then [] else '.' :: padded 6 c.micro

end Clock

namespace Offset

def iso (o : Offset) : List Char :=
  let n := o.micros.natAbs
  let seconds := n / 1000000 % 60
  let micros := n % 1000000
  (if o.micros < 0 then '-' else '+') :: padded 2 (n / 3600000000) ++
    ':' :: padded 2 (n / 60000000 % 60) ++
    (if seconds = 0 ∧ micros = 0 then [] else ':' :: padded 2 seconds) ++
    if micros = 0 then [] else '.' :: padded 6 micros

end Offset

namespace Moment

def isoWith (separator : Char) (m : Moment) : List Char :=
  m.date.iso ++ separator :: m.clock.iso ++ (m.offset.map Offset.iso).getD []

def iso (m : Moment) : String := String.ofList (m.isoWith 'T')

end Moment

inductive IsoError where
  | malformed (text : String)
  | year (value : Int)
  | month
  | day
  | hour
  | minute
  | second
  | offset (micros : Int)
  deriving DecidableEq

namespace Iso

def digitValue? (c : Char) : Option Nat :=
  if '0' ≤ c ∧ c ≤ '9' then some (c.toNat - 48) else none

def takeNumber : Nat → List Char → Option (Nat × List Char) :=
  go 0
where
  go (value : Nat) : Nat → List Char → Option (Nat × List Char)
    | 0, cs => some (value, cs)
    | _ + 1, [] => none
    | n + 1, c :: rest =>
      match digitValue? c with
      | some d => go (10 * value + d) n rest
      | none => none

abbrev Fields := Nat × Nat × Nat

/-- Days from the start of year 1 to the Monday of the first week of a year, plus 7. -/
def firstMonday (year : Nat) : Nat :=
  let first := Date.daysBeforeYear year
  let weekday := first % 7
  if weekday ≤ 3 then first + 7 - weekday else first + 14 - weekday

def hasWeek53 (year : Nat) : Bool :=
  let weekday := Date.daysBeforeYear year % 7
  weekday == 3 || (weekday == 2 && isLeapYear year)

/-- The calendar date of a week date. The last week of the calendar runs into the year 10000, and the
year before the calendar has no months. -/
def weekDate? (year week day : Nat) : Option Fields :=
  if week = 0 ∨ 53 < week ∨ (week = 53 ∧ (year = 0 ∨ !hasWeek53 year)) ∨ day = 0 ∨ 7 < day then none
  else if year = 0 then some (1, 0, 1)
  else
    let days := firstMonday year + 7 * (week - 1) + (day - 1)
    match Date.ofDays? (days - 7) with
    | some d => if days < 7 then none else some (d.year, d.month, d.day)
    | none => some (10000, 1, 1)

def readDate (cs : List Char) : Option Fields := do
  let (year, cs) ← takeNumber 4 cs
  let (dashes, cs) := match cs with
    | '-' :: rest => (true, rest)
    | _ => (false, cs)
  match cs with
  | 'W' :: rest =>
    let (week, rest) ← takeNumber 2 rest
    match dashes, rest with
    | _, [] => weekDate? year week 1
    | true, '-' :: rest =>
      let (day, _) ← takeNumber 1 rest
      weekDate? year week day
    | false, rest =>
      let (day, _) ← takeNumber 1 rest
      weekDate? year week day
    | _, _ => none
  | _ =>
    let (month, cs) ← takeNumber 2 cs
    let cs ← if dashes then
        match cs with
        | '-' :: rest => some rest
        | _ => none
      else some cs
    let (day, _) ← takeNumber 2 cs
    some (year, month, day)

def byteChars (text : String) : List Char := text.toUTF8.data.toList.map fun b => Char.ofNat b.toNat

def bytesAfter (first : Char) : Nat :=
  if first.toNat < 0x80 then 0
  else if first.toNat < 0xE0 then 1
  else if first.toNat < 0xF0 then 2
  else 3

def dateLength (cs : List Char) : Nat :=
  let at? (i : Nat) := cs[i]?
  if cs.length = 7 then 7
  else if at? 4 = some '-' then
    if at? 5 = some 'W' then
      if at? 8 = some '-' then
        if ((at? 10).bind digitValue?).isSome then 8 else 10
      else 8
    else 10
  else if at? 4 = some 'W' then
    let digits := ((cs.drop 7).takeWhile fun c => (digitValue? c).isSome).length
    if digits < 2 then 7 + digits else if (7 + digits) % 2 = 0 then 7 else 8
  else 8

structure TimeFields where
  hour : Nat
  minute : Nat
  second : Nat
  micro : Nat

/-- A fraction of a second: up to six digits, and more digits that are dropped. Something else may
close it only if an offset follows. -/
def readFraction (offsetFollows : Bool) (cs : List Char) : Option Nat := do
  let n := min 6 cs.length
  let (value, rest) ← takeNumber n cs
  if offsetFollows || rest.all fun c => (digitValue? c).isSome then some (value * Nat.pow 10 (6 - n))
  else none

/-- At most the given number of two-digit fields, then a fraction. The separator after the first
field decides whether all are separated by colons. One character may close the last field only if an
offset follows. -/
def readFields (offsetFollows : Bool) : Nat → Option Bool → List Char → Option (List Nat × Nat)
  | 0, _, cs => (readFraction offsetFollows cs).map ([], ·)
  | n + 1, colons?, cs => do
    let (value, cs) ← takeNumber 2 cs
    match cs with
    | [] => some ([value], 0)
    | [_] => if offsetFollows then some ([value], 0) else none
    | c :: rest =>
      let colons := colons?.getD (c == ':')
      if colons && c == ':' then
        (readFields offsetFollows n (some colons) rest).map fun (vs, f) => (value :: vs, f)
      else if c = '.' ∨ c = ',' then
        (readFraction offsetFollows rest).map fun f => ([value], f)
      else if colons then none
      else (readFields offsetFollows n (some colons) (c :: rest)).map fun (vs, f) => (value :: vs, f)

def readTime (offsetFollows : Bool) (cs : List Char) : Option TimeFields :=
  (readFields offsetFollows 3 none cs).map fun (vs, f) =>
    ⟨vs[0]?.getD 0, vs[1]?.getD 0, vs[2]?.getD 0, f⟩

/-- An offset as written, in microseconds. A fraction alone makes no offset. -/
def readOffset (negative : Bool) (cs : List Char) : Option Int := do
  let t ← readTime false cs
  let seconds := (t.hour * 60 + t.minute) * 60 + t.second
  let n : Int := if seconds = 0 then 0 else seconds * 1000000 + t.micro
  some (if negative then -n else n)

def readClock (cs : List Char) : Option (TimeFields × Option Int) := do
  let time := cs.takeWhile fun c => !(c = '+' || c = '-' || c = 'Z')
  match cs.drop time.length with
  | [] =>
    let t ← readTime false time
    some (t, none)
  | 'Z' :: rest =>
    let t ← readTime true time
    if rest.isEmpty then some (t, some 0) else none
  | sign :: rest =>
    let t ← readTime true time
    let o ← readOffset (sign = '-') rest
    some (t, some o)

end Iso

namespace Moment

def ofFields (text : String) (date : Iso.Fields) (time : Iso.TimeFields)
    (offset : Option Int) : Except IsoError Moment :=
  let (year, month, day) := date
  let checked (o : Option Offset) : Except IsoError Moment :=
    if year = 0 ∨ 9999 < year then .error (.year year)
    else if month = 0 ∨ 12 < month then .error .month
    else if 24 ≤ time.hour ∧ (1 ≤ day ∧ day ≤ daysInMonth year month) then .error .hour
    else
      match Date.of? year month day with
      | none => .error .day
      | some d =>
        if 60 ≤ time.minute then .error .minute
        else if 60 ≤ time.second then .error .second
        else
          match Clock.of? time.hour time.minute time.second time.micro with
          | none => .error (.malformed text)
          | some c => .ok ⟨d, c, o⟩
  match offset with
  | none => checked none
  | some n =>
    match Offset.of? n with
    | none => .error (.offset n)
    | some o => checked (some o)

/-- Reads the ISO form of a moment, or of a date, which stands for its midnight. Only the character
between date and time may lie outside ASCII. -/
def ofIso (text : String) : Except IsoError Moment :=
  let bytes := Iso.byteChars text
  let n := Iso.dateLength bytes
  if text.length < 7 then .error (.malformed text)
  else
    match Iso.readDate (bytes.take n) with
    | none => .error (.malformed text)
    | some date =>
      match bytes.drop n with
      | [] => ofFields text date ⟨0, 0, 0, 0⟩ none
      | c :: rest =>
        match Iso.readClock (rest.drop (Iso.bytesAfter c)) with
        | none => .error (.malformed text)
        | some (t, o) => ofFields text date t o

end Moment

end PlainSheets
