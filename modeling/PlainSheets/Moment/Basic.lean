/-!
Dates, times of day and moments in the calendar of the years 1 to 9999, and their order along one
time line. A moment without an offset counts as UTC.
-/
namespace PlainSheets

def isLeapYear (year : Nat) : Bool := year % 4 == 0 && (year % 100 != 0 || year % 400 == 0)

def daysInMonth (year month : Nat) : Nat :=
  if month = 2 then if isLeapYear year then 29 else 28
  else if month = 4 ∨ month = 6 ∨ month = 9 ∨ month = 11 then 30
  else 31

structure Date where
  year : Nat
  month : Nat
  day : Nat
  year_ok : 1 ≤ year ∧ year ≤ 9999
  month_ok : 1 ≤ month ∧ month ≤ 12
  day_ok : 1 ≤ day ∧ day ≤ daysInMonth year month
  deriving DecidableEq

namespace Date

def of? (year month day : Nat) : Option Date :=
  if hy : 1 ≤ year ∧ year ≤ 9999 then
    if hm : 1 ≤ month ∧ month ≤ 12 then
      if hd : 1 ≤ day ∧ day ≤ daysInMonth year month then some ⟨year, month, day, hy, hm, hd⟩
      else none
    else none
  else none

def daysBeforeYear (year : Nat) : Nat :=
  let y := year - 1
  365 * y + y / 4 - y / 100 + y / 400

def daysBeforeMonth (year : Nat) : Nat → Nat
  | 0 => 0
  | 1 => 0
  | m + 2 => daysBeforeMonth year (m + 1) + daysInMonth year (m + 1)

/-- Days since the first day of year 1. -/
def toDays (d : Date) : Nat :=
  daysBeforeYear d.year + daysBeforeMonth d.year d.month + (d.day - 1)

/-- The month of a day of a year, counted from zero, and the day within it; looks from `month` on
over the given number of months. -/
def monthFrom (year : Nat) : Nat → Nat → Nat → Nat × Nat
  | month, rest, 0 => (month, rest + 1)
  | month, rest, fuel + 1 =>
    if rest < daysInMonth year month then (month, rest + 1)
    else monthFrom year (month + 1) (rest - daysInMonth year month) fuel

def ofDays? (days : Nat) : Option Date :=
  let cycles := days / 146097
  let inCycle := days % 146097
  let centuries := min (inCycle / 36524) 3
  let inCentury := inCycle - 36524 * centuries
  let leaps := inCentury / 1461
  let inLeap := inCentury % 1461
  let years := min (inLeap / 365) 3
  let year := 400 * cycles + 100 * centuries + 4 * leaps + years + 1
  let (month, day) := monthFrom year 1 (inLeap - 365 * years) 11
  of? year month day

end Date

structure Clock where
  hour : Nat
  minute : Nat
  second : Nat
  micro : Nat
  hour_ok : hour < 24
  minute_ok : minute < 60
  second_ok : second < 60
  micro_ok : micro < 1000000
  deriving DecidableEq

namespace Clock

def of? (hour minute second micro : Nat) : Option Clock :=
  if h : hour < 24 ∧ minute < 60 ∧ second < 60 ∧ micro < 1000000 then
    some ⟨hour, minute, second, micro, h.1, h.2.1, h.2.2.1, h.2.2.2⟩
  else none

def midnight : Clock := ⟨0, 0, 0, 0, by decide, by decide, by decide, by decide⟩

def toMicros (c : Clock) : Nat := ((c.hour * 60 + c.minute) * 60 + c.second) * 1000000 + c.micro

def ofMicros (n : Nat) : Clock :=
  ⟨n / 3600000000 % 24, n / 60000000 % 60, n / 1000000 % 60, n % 1000000,
    Nat.mod_lt _ (by decide), Nat.mod_lt _ (by decide), Nat.mod_lt _ (by decide),
    Nat.mod_lt _ (by decide)⟩

end Clock

def microsPerDay : Nat := 86400000000

/-- How far a local clock is ahead of UTC, in microseconds; less than a day either way. -/
structure Offset where
  micros : Int
  small : micros.natAbs < microsPerDay
  deriving DecidableEq

namespace Offset

def utc : Offset := ⟨0, by decide⟩

def of? (micros : Int) : Option Offset :=
  if h : micros.natAbs < microsPerDay then some ⟨micros, h⟩ else none

end Offset

/-- A date and a time of day, with the offset of the clock they were read from, if it is known. -/
structure Moment where
  date : Date
  clock : Clock
  offset : Option Offset
  deriving DecidableEq

namespace Moment

/-- Microseconds from the start of year 1 in UTC. -/
def instant (m : Moment) : Int :=
  (m.date.toDays * microsPerDay + m.clock.toMicros : Nat) - ((m.offset.map Offset.micros).getD 0)

def ofInstant? (micros : Int) : Option Moment :=
  if micros < 0 then none
  else
    let n := micros.toNat
    (Date.ofDays? (n / microsPerDay)).map fun date =>
      ⟨date, Clock.ofMicros (n % microsPerDay), some Offset.utc⟩

def toUtc? (m : Moment) : Option Moment :=
  match m.offset with
  | none => some { m with offset := some Offset.utc }
  | some o => if o = Offset.utc then some m else ofInstant? m.instant

def ofDate (d : Date) : Moment := ⟨d, Clock.midnight, none⟩

def epoch : Moment :=
  ⟨⟨1970, 1, 1, by decide, by decide, by decide⟩, Clock.midnight, some Offset.utc⟩

end Moment

end PlainSheets
