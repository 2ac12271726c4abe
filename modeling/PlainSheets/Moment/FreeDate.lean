import PlainSheets.Binary64.Arithmetic
import PlainSheets.Binary64.Text
import PlainSheets.Moment.Spoken.Reader
import PlainSheets.Moment.YearFirst

/-!
Dates as people write them: from the year down, month and day first, as a quarter of a year, or in words.
Whatever has no such form, or names no day, is no date. Numbers that are no likely years are none, and a
time of day alone is none either.
-/
namespace PlainSheets.FreeDate

private def number? (cs : List Char) : Option Nat :=
  if !cs.isEmpty && cs.all fun c => '0' ≤ c && c ≤ '9' then some (Text.digitsValue cs) else none

/-- Day and month with a full year behind them, in any of the sizes that they can have; whether the text
has this form, and the date if there is one. The month comes first unless it could only be a day. -/
def delimited (cs : List Char) : Option (Option Date) :=
  let isDelimiter (i : Nat) : Bool :=
    match cs[i]? with
    | some c => c = ' ' || c = '/' || c = '-' || c = '.'
    | none => false
  let form (first second : Nat) : Option (Option Date) :=
    if isDelimiter first && isDelimiter (first + second + 1) then do
      let a ← number? (cs.take first)
      let b ← number? ((cs.drop (first + 1)).take second)
      let year ← number? (cs.drop (first + second + 2))
      if year < 1000 then none
      else some (if 12 < a then Date.of? year b a else Date.of? year a b)
    else none
  match cs.length with
  | 10 => form 2 2
  | 9 => if isDelimiter 1 then form 1 2 else form 2 1
  | 8 => form 1 1
  | 7 =>
    if isDelimiter 2 && cs[2]? != some '.' then do
      let month ← number? (cs.take 2)
      let year ← number? (cs.drop 3)
      if year < 1000 then none else some (Date.of? year month 1)
    else none
  | _ => none

/-- A quarter of a year, as in `2023Q1`, `23-Q1`, `1Q23`, `1Q-2023`: whether the text has such a form, and
the first day of the quarter if there is one. -/
def quarter (cs : List Char) : Option (Option Date) := do
  let before := cs.takeWhile fun c => c != 'Q' && c != 'q'
  let after := cs.drop (before.length + 1)
  let (before, after) := match before, after with
    | [a], '-' :: rest => ([a], rest)
    | before, after =>
      (if 2 < before.length ∧ before.getLast? = some '-' then before.dropLast else before, after)
  let a ← number? before
  let b ← number? after
  let (year, quarter) ←
    match before.length, after.length with
    | 1, 2 => some (2000 + b, a)
    | 1, 4 => some (b, a)
    | 2, 1 => some (2000 + a, b)
    | 4, 1 => some (a, b)
    | _, _ => none
  if 1 ≤ quarter ∧ quarter ≤ 4 then (Date.of? year (3 * quarter - 2) 1).map some else some none

def fourCharacters (cs : List Char) : Option Date :=
  if cs.length = 4 then
    match Binary64.takeSign (Text.trim cs) with
    | (true, _) => none
    | (false, rest) =>
      match Binary64.takeDigits rest with
      | ([], _) => none
      | (ds, []) => Date.of? (ds.foldl (fun n d => 10 * n + d) 0) 1 1
      | _ => none
  else none

private def notDates : List (List Char) :=
  [['a'], ['A'], ['m'], ['M'], ['d'], ['D'], ['p'], ['P'], ['t'], ['T']]

/-- Whether a text can be a date at all: a number can if it starts with a zero or is large enough to be
a year. -/
def isLikely (cs : List Char) : Bool :=
  if cs.head? = some '0' then true
  else if notDates.contains cs then false
  else
    let body := Text.trim cs
    let plain := body.all fun c => ('0' ≤ c && c ≤ '9') || ['+', '-', '.', 'e', 'E'].contains c
    match if plain then Binary64.ofText? (String.ofList body) else none with
    | none => true
    | some x => !x.lt (Binary64.ofNat 1000)

def startsWithTime (cs : List Char) : Bool :=
  let isNumber (i : Nat) : Bool := (cs[i]?.map fun c => '0' ≤ c && c ≤ '9').getD false
  if cs[1]? = some ':' then isNumber 0 && isNumber 2 && isNumber 3
  else cs[2]? = some ':' && isNumber 0 && isNumber 1 && isNumber 3 && isNumber 4

private def midnight (d : Date) : Written := ⟨d.year, d.month, d.day, Clock.midnight, none⟩

/-- The moment that a text names in a form other than that from the year down. A time of day needs a
whole date behind it. -/
def otherForm (thisYear : Nat) (cs : List Char) : Option Written :=
  if !isLikely cs then none
  else if startsWithTime cs then
    (Spoken.read thisYear cs).bind fun said => if said.isWholeDate then said.written? else none
  else
    match delimited cs, fourCharacters cs, quarter cs with
    | some d, _, _ => d.map midnight
    | none, some d, _ => some (midnight d)
    | none, none, some d => d.map midnight
    | none, none, none => (Spoken.read thisYear cs).bind Spoken.Said.written?

private def behindMinus (thisYear : Nat) (cs : List Char) : Option Written :=
  if cs.head? = some '-' then
    (Spoken.read thisYear cs).bind fun said => if said.isWholeDate then said.written? else none
  else none

/-- The moment that a text names. Behind a minus sign a whole date comes before a year that the calendar
does not have. -/
def written? (thisYear : Nat) (cs : List Char) : Option Written :=
  match behindMinus thisYear cs, YearFirst.read cs with
  | some w, _ => some w
  | none, some w => w
  | none, none => otherForm thisYear cs

def read (thisYear : Nat) (text : String) : Except OutOfCalendar (Option Moment) :=
  match written? thisYear text.toList with
  | none => .ok none
  | some w => w.utc.map some

end PlainSheets.FreeDate
