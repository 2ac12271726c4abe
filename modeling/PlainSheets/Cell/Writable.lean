import PlainSheets.Cell.Text
import PlainSheets.Failure

/-!
Which values have a text. An integer of more digits than are written has none, nor has anything that it is
part of.
-/
namespace PlainSheets

namespace Atom

def isWritable : Atom → Bool
  | integer n => decide (IsShort n)
  | sized (.integer _ n) => decide (IsShort n)
  | _ => true

def textFailure? (a : Atom) : Option Failure :=
  if a.isWritable then none else some (.integerTooLong none)

theorem isWritable_of_text {a : Atom} {s : String} (h : a.text? = some s) : a.isWritable = true := by
  cases a with
  | sized v => cases v <;> first | rfl | cases h
  | integer n => cases h
  | _ => rfl

end Atom

namespace Cell

mutual

def isWritable : Cell → Bool
  | atom a => a.isWritable
  | list items => areWritable items
  | record fs => fieldsAreWritable fs

def areWritable : List Cell → Bool
  | [] => true
  | c :: cs => isWritable c && areWritable cs

def fieldsAreWritable : List (Atom × Cell) → Bool
  | [] => true
  | (k, c) :: fs => k.isWritable && isWritable c && fieldsAreWritable fs

end

def shown (c : Cell) : Except Failure String :=
  if c.isWritable then .ok c.display else .error (.integerTooLong none)

theorem isWritable_of_isEmpty {c : Cell} (h : c.isEmpty) : c.isWritable := by
  match c with
  | .integer _ => cases h
  | .sized (.integer ..) => cases h
  | .list _ => cases h
  | .record _ => cases h
  | .sized (.real ..) | .sized (.flag _) | .sized (.text _) => rfl
  | .null | .flag _ | .real _ | .text _ | .moment _ | .date _ | .noMoment | .clock _ | .decimal _
  | .bytes _ | .bundle _ => rfl

end Cell

end PlainSheets
