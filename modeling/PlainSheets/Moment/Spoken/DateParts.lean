import PlainSheets.Moment.Basic

/-!
The numbers of a date in the order in which they were said, and which of them are day, month and year.
A month that was named and a year that was written in full are known; for the others the order and the
size decide.
-/
namespace PlainSheets.Spoken

structure DateParts where
  values : List Nat
  /-- Whether the year was written in full. -/
  fullYear : Bool
  /-- Where the year stands, if it is known. -/
  yearAt : Option Nat
  monthAt : Option Nat

structure SaidDate where
  year : Option Nat
  month : Option Nat
  day : Option Nat

namespace DateParts

def empty : DateParts := ⟨[], false, none, none⟩

def add (p : DateParts) (n : Nat) : DateParts := { p with values := p.values ++ [n] }

def addYear? (p : DateParts) (n : Nat) : Option DateParts :=
  if p.yearAt.isSome then none
  else some { p.add n with fullYear := true, yearAt := some p.values.length }

def addMonth? (p : DateParts) (n : Nat) : Option DateParts :=
  if p.monthAt.isSome then none else some { p.add n with monthAt := some p.values.length }

def known (p : DateParts) (at? : Option Nat) : Option Nat := at?.bind fun i => p.values[i]?

def mostDays (p : DateParts) : Nat :=
  match p.known p.monthAt with
  | none => 31
  | some m => daysInMonth ((p.known p.yearAt).getD 2000) m

private def leftOver (values : List Nat) (i j : Nat) : Option Nat :=
  ((List.range 3).find? fun k => k != i && k != j).bind fun k => values[k]?

private def bySize (p : DateParts) : Option SaidDate :=
  match p.values, p.monthAt with
  | [], _ => some ⟨none, none, none⟩
  | [a], none => some (if 31 < a then ⟨some a, none, none⟩ else ⟨none, none, some a⟩)
  | [a], some _ => some ⟨none, some a, none⟩
  | [a, b], some i =>
    let (month, other) := if i = 0 then (a, b) else (b, a)
    some (if 31 < other then ⟨some other, some month, none⟩ else ⟨none, some month, some other⟩)
  | [a, b], none =>
    some (if 31 < a then ⟨some a, some b, none⟩
      else if 31 < b then ⟨some b, some a, none⟩
      else ⟨none, some a, some b⟩)
  | [a, b, c], some 0 =>
    some (if 31 < b then ⟨some b, some a, some c⟩ else ⟨some c, some a, some b⟩)
  | [a, b, c], some 1 =>
    some (if 31 < a then ⟨some a, some b, some c⟩ else ⟨some c, some b, some a⟩)
  | [a, b, c], some _ =>
    some (if 31 < b then ⟨some b, some c, some a⟩ else ⟨some a, some c, some b⟩)
  | [a, b, c], none =>
    some (if 31 < a ∨ p.yearAt = some 0 then ⟨some a, some b, some c⟩
      else if 12 < a then ⟨some c, some b, some a⟩
      else ⟨some c, some a, some b⟩)
  | _, _ => none

def resolve (p : DateParts) : Option SaidDate :=
  match p.yearAt, p.monthAt, p.values.length with
  | some i, none, 1 => some ⟨p.values[i]?, none, none⟩
  | none, some j, 1 => some ⟨none, p.values[j]?, none⟩
  | some i, some j, 2 => some ⟨p.values[i]?, p.values[j]?, none⟩
  | some i, some j, 3 => some ⟨p.values[i]?, p.values[j]?, leftOver p.values i j⟩
  | _, _, _ => p.bySize

end DateParts

/-- A two-digit year is the one with these digits that is nearest to this year. -/
def century (thisYear year : Nat) : Nat :=
  if 100 ≤ year then year
  else
    let y := year + thisYear / 100 * 100
    if thisYear + 50 ≤ y then y - 100 else if y + 50 < thisYear then y + 100 else y

end PlainSheets.Spoken
