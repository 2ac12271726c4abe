import PlainSheets.Moment.Written
import PlainSheets.Text.Digit

/-!
Dates, times of day and time stamps in the cells of delimited text. Dates are read from the year down, or
else by one of a few layouts that share the separator of the first cell that looks like a date; cells that
a layout does not fit rule it out for all that follow.
-/
namespace PlainSheets.Delimited

def isSpace (c : Char) : Bool := c = ' ' || ('\t' ≤ c && c ≤ '\r')

def skipSpaces (cs : List Char) : List Char := cs.dropWhile isSpace

def number? (most : Nat) (cs : List Char) : Option (Nat × List Char) :=
  let ds := (cs.take most).takeWhile Char.isDigit
  if ds.isEmpty then none else some (Text.digitsValue ds, cs.drop ds.length)

def literal? (part cs : List Char) : Option (List Char) :=
  if part.isPrefixOf cs then some (cs.drop part.length) else none

/-- Year, month and day in a calendar that goes on beyond the year 9999. -/
structure Day where
  year : Nat
  month : Nat
  day : Nat

namespace Day

def isValid (d : Day) : Bool :=
  1 ≤ d.month && d.month ≤ 12 && 1 ≤ d.day &&
    d.day ≤ daysInMonth (Written.modelYear d.year) d.month

def valid? (d : Day) : Option Day := if d.isValid then some d else none

def written (d : Day) (clock : Clock) (offset : Option Int) : Written :=
  ⟨d.year, d.month, d.day, clock, offset⟩

def ofYearFirst? (cs : List Char) : Option (Day × List Char) := do
  let cs := skipSpaces cs
  let (year, rest) ← number? cs.length cs
  match rest with
  | [] => none
  | c :: rest =>
    if ['-', '/', '\\', ' '].contains c then
      let (month, rest) ← number? 2 rest
      let rest ← literal? [c] rest
      let (day, rest) ← number? 2 rest
      ((⟨year, month, day⟩ : Day).valid?).map (·, rest)
    else none

end Day

/-- Microseconds behind the point, if there is one. Further digits are dropped. -/
def fraction : List Char → Nat × List Char
  | '.' :: rest =>
    let ds := rest.takeWhile Char.isDigit
    (Text.digitsValue ((ds ++ List.replicate 6 '0').take 6), rest.drop ds.length)
  | cs => (0, cs)

/-- Hours and minutes set apart by a colon, and seconds behind another one; these may be missing where
that is allowed, but only at the end of the text. -/
def clock? (needsSeconds : Bool) (cs : List Char) : Option (Clock × List Char) := do
  let (hour, rest) ← number? 2 (skipSpaces cs)
  let rest ← literal? [':'] rest
  let (minute, rest) ← number? 2 rest
  if rest.isEmpty && !needsSeconds then (Clock.of? hour minute 0 0).map (·, [])
  else
    let rest ← literal? [':'] rest
    let (second, rest) ← number? 2 rest
    let (micro, rest) := fraction rest
    (Clock.of? hour minute second micro).map (·, rest)

def offset? : List Char → Option (Option Int × List Char)
  | 'Z' :: rest => some (some 0, rest)
  | '+' :: rest => hours 1 rest
  | '-' :: rest => hours (-1) rest
  | cs => some (none, cs)
where
  hours (sign : Int) (cs : List Char) : Option (Option Int × List Char) := do
    let (hour, rest) ← number? 2 cs
    let rest := match rest with
      | ':' :: rest => rest
      | rest => rest
    let (minute, rest) := (number? 2 rest).getD (0, rest)
    some (some (sign * (hour * 3600 + minute * 60)), rest)

def atEnd? {α : Type} : α × List Char → Option α
  | (a, rest) => if (skipSpaces rest).isEmpty then some a else none

def stampYearFirst? (cs : List Char) : Option Written := do
  let (day, rest) ← Day.ofYearFirst? cs
  match rest with
  | [] => some (day.written Clock.midnight none)
  | c :: rest' =>
    let rest := if c = ' ' ∨ c = 'T' then rest' else c :: rest'
    let (clock, rest) ← clock? false rest
    let (offset, rest) ← offset? rest
    (atEnd? (offset, rest)).map (day.written clock)

inductive DatePart where
  | shortYear
  | year
  | month
  | day
  deriving DecidableEq

inductive TimeStyle where
  | none
  | seconds
  | micros
  /-- Twelve hours before and after noon. -/
  | halves
  deriving DecidableEq

structure DateLayout where
  parts : List DatePart
  separator : List Char
  time : TimeStyle
  deriving DecidableEq

namespace DatePart

def put (part : DatePart) (n : Nat) (d : Day) : Day :=
  match part with
  | shortYear => { d with year := if n < 69 then 2000 + n else 1900 + n }
  | year => { d with year := n }
  | month => { d with month := n }
  | day => { d with day := n }

def digits : DatePart → Nat
  | year => 4
  | _ => 2

end DatePart

namespace DateLayout

def readParts (separator : List Char) : List DatePart → Day → List Char → Option (Day × List Char)
  | [], d, cs => some (d, cs)
  | p :: ps, d, cs => do
    let (n, rest) ← number? p.digits cs
    let rest ← if ps.isEmpty then some rest else literal? separator rest
    readParts separator ps (p.put n d) rest

def half? (cs : List Char) : Option (Bool × List Char) :=
  match (cs.take 2).map Char.toLower with
  | ['a', 'm'] => some (false, cs.drop 2)
  | ['p', 'm'] => some (true, cs.drop 2)
  | _ => none

def readTime (style : TimeStyle) (cs : List Char) : Option (Clock × List Char) := do
  let (hour, rest) ← number? 2 cs
  let rest ← literal? [':'] rest
  let (minute, rest) ← number? 2 rest
  let rest ← literal? [':'] rest
  let (second, rest) ← number? 2 rest
  match style with
  | .micros =>
    let rest ← literal? ['.'] rest
    let ds := (rest.take 6).takeWhile Char.isDigit
    let (micro, _) := fraction ('.' :: ds)
    if ds.isEmpty then none else (Clock.of? hour minute second micro).map (·, rest.drop ds.length)
  | .halves =>
    if rest.head? ≠ some ' ' ∨ hour = 0 ∨ 12 < hour then none
    else
      let (pastNoon, rest) ← half? (skipSpaces rest)
      (Clock.of? (hour % 12 + if pastNoon then 12 else 0) minute second 0).map (·, rest)
  | _ => (Clock.of? hour minute second 0).map (·, rest)

def read? (l : DateLayout) (cs : List Char) : Option Written := do
  let (d, rest) ← readParts l.separator l.parts ⟨0, 0, 0⟩ (skipSpaces cs)
  let d ← d.valid?
  if l.time = .none then (atEnd? (d, rest)).map (·.written Clock.midnight none)
  else if rest.head? ≠ some ' ' then none
  else
    let (clock, rest) ← readTime l.time (skipSpaces rest)
    (atEnd? (clock, rest)).map (d.written · none)

end DateLayout

def dateSeparator? (cs : List Char) : Option (List Char) :=
  let apart (cs : List Char) := cs.takeWhile fun c => !c.isDigit
  let rest := (skipSpaces cs).dropWhile Char.isDigit
  let first := apart rest
  let rest' := (rest.drop first.length).dropWhile Char.isDigit
  let second := apart rest'
  if (skipSpaces cs).head?.any Char.isDigit ∧ first ≠ [] ∧ second = first ∧
      second.length < rest'.length then
    some first
  else none

/-- The date layouts with a separator, in the order in which they are tried. The one from the year down
needs no layout. -/
def dateLayouts (separator : List Char) : List DateLayout :=
  let layouts : List DateLayout :=
    [[.shortYear, .month, .day], [.year, .month, .day], [.day, .month, .shortYear],
      [.day, .month, .year], [.month, .day, .shortYear], [.month, .day, .year]].map
      fun parts => ⟨parts, separator, .none⟩
  layouts.filter fun l => !(l.parts = [.year, .month, .day] && separator = ['-'])

def stampLayouts (separator : List Char) : List DateLayout :=
  let layouts : List DateLayout :=
    [⟨[.shortYear, .month, .day], separator, .seconds⟩, ⟨[.year, .month, .day], separator, .seconds⟩,
      ⟨[.day, .month, .shortYear], separator, .seconds⟩, ⟨[.day, .month, .year], separator, .seconds⟩,
      ⟨[.month, .day, .shortYear], separator, .halves⟩, ⟨[.month, .day, .year], separator, .halves⟩,
      ⟨[.year, .month, .day], separator, .micros⟩]
  layouts.filter fun l => !(l.parts = [.year, .month, .day] && separator = ['-'])

structure Layouts where
  left : List DateLayout
  fitted : Bool

namespace Layouts

/-- Rules out the layouts that do not fit a cell, unless that leaves none. The first cell that looks
like a date brings the layouts in. -/
def see (start : List Char → List DateLayout) (known : Option Layouts) (cell : List Char) :
    Option Layouts :=
  match dateSeparator? cell with
  | none => known
  | some separator =>
    let ls := known.getD ⟨start separator, false⟩
    match ls.left.dropWhile fun l => (l.read? cell).isNone with
    | [] => some ls
    | left => some ⟨left, true⟩

def read? (known : Option Layouts) (default : List Char → Option Written) (cell : List Char) :
    Option Written :=
  match known with
  | some ⟨l :: _, true⟩ => l.read? cell
  | _ => default cell

end Layouts

structure Calendar where
  dates : Option Layouts
  stamps : Option Layouts

namespace Calendar

def unknown : Calendar := ⟨none, none⟩

def date? (k : Calendar) (cell : List Char) : Option Written :=
  Layouts.read? k.dates
    (fun cs => ((Day.ofYearFirst? cs).bind atEnd?).map (·.written Clock.midnight none)) cell

def stamp? (k : Calendar) (cell : List Char) : Option Written :=
  Layouts.read? k.stamps stampYearFirst? cell

end Calendar

end PlainSheets.Delimited
