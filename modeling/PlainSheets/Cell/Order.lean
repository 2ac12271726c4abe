import PlainSheets.Cell.Writable
import PlainSheets.Moment.FreeDate

/-!
The order of cells of all kinds: numbers by value, dates along the time line, texts by code points,
false before true, and what is missing at the end.
-/
namespace PlainSheets

namespace Numeral

/-- Where a number stands: below, on or above the line of finite numbers, and on it in units of
2^-1074. -/
def place : Numeral → Int × Int
  | integer n => (0, n * Binary64.unit)
  | real (.finite s u _) _ => (0, Binary64.signed s u)
  | real (.infinite s) _ => (if s then -1 else 1, 0)
  | real .nan _ => (0, 0)

def order (a b : Numeral) : Ordering :=
  (compare a.place.1 b.place.1).then (compare a.place.2 b.place.2)

end Numeral

inductive SortKey where
  | number (n : Numeral)
  /-- A moment in UTC. -/
  | date (m : Moment)
  | text (s : String)
  | flag (b : Bool)
  | missing

namespace SortKey

/-- Kinds do not mix: each has its own place. -/
def rank : SortKey → Nat
  | number _ => 0
  | date _ => 1
  | text _ => 2
  | flag _ => 3
  | missing => 4

def order : SortKey → SortKey → Ordering
  | number a, number b => a.order b
  | date a, date b => compare a.instant b.instant
  | text a, text b => compare a b
  | flag a, flag b => compare a b
  | a, b => compare a.rank b.rank

def le (a b : SortKey) : Bool := a.order b != .gt

end SortKey

namespace Moment

def utc (m : Moment) : Except Failure Moment :=
  match m.toUtc? with
  | some u => .ok u
  | none => .error .dateOutOfRange

theorem utc_of_utc {m : Moment} (h : m.offset = some Offset.utc) : m.utc = .ok m := by
  rw [utc, toUtc?, h]
  rfl

end Moment

namespace Cell

/-- The UTC moment that a cell stands for: a date, or a text that names one in this year's reading. -/
def when? (thisYear : Nat) (c : Cell) : Except Failure (Option Moment) :=
  match c.kind? with
  | some .date =>
    match c.moment? with
    | some m => m.utc.map some
    | none => .ok none
  | some .text => do
    let text ← c.shown
    if Text.isAllBlank text.toList then .ok none
    else
      match FreeDate.read thisYear text with
      | .ok m => .ok m
      | .error out => .error (.notIso (.year out.year))
  | _ => .ok none

def sortKey (c : Cell) : Except Failure SortKey :=
  if c.isMissing then .ok .missing
  else
    match c.flag?, c.numeral?, c.moment? with
    | some b, _, _ => .ok (.flag b)
    | _, some n, _ => .ok (.number n)
    | _, _, some m => m.utc.map .date
    | _, _, _ => c.shown.map .text

end Cell

end PlainSheets
