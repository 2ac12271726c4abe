import PlainSheets.Moment.Basic

/-!
Moments as they are written, with years that the calendar need not have, and their place on a UTC clock.
-/
namespace PlainSheets

structure Written where
  year : Int
  month : Nat
  day : Nat
  clock : Clock
  /-- Seconds that the clock is ahead of UTC; none if that is not written. -/
  offset : Option Int

structure OutOfCalendar where
  year : Int
  deriving DecidableEq

namespace Written

def daysBefore (year : Int) : Int :=
  let y := year - 1
  365 * y + y.fdiv 4 - y.fdiv 100 + y.fdiv 400

def yearOfDay (days : Int) : Int :=
  let inCycle := (days.fmod 146097).toNat
  let centuries := min (inCycle / 36524) 3
  let inCentury := inCycle - 36524 * centuries
  let years := min (inCentury % 1461 / 365) 3
  400 * days.fdiv 146097 + 100 * centuries + 4 * (inCentury / 1461 : Nat) + years + 1

def modelYear (year : Int) : Nat := (year.fmod 400).toNat + 400

def instant (w : Written) : Int :=
  let days := daysBefore w.year + Date.daysBeforeMonth (modelYear w.year) w.month + w.day - 1
  days * microsPerDay + w.clock.toMicros - w.offset.getD 0 * 1000000

def utc (w : Written) : Except OutOfCalendar Moment :=
  match Moment.ofInstant? w.instant with
  | some m => .ok m
  | none => .error ⟨yearOfDay (w.instant.fdiv microsPerDay)⟩

end Written

end PlainSheets
