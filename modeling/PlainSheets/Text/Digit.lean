import PlainSheets.Text.CharSet

/-!
Decimal digits of every script. The ten digits of a script are consecutive code points, so the
table lists the zeros.
-/
namespace PlainSheets.Text

private def zeros : List Nat :=
  [48, 1632, 1776, 1984, 2406, 2534, 2662, 2790, 2918, 3046, 3174, 3302,
   3430, 3558, 3664, 3792, 3872, 4160, 4240, 6112, 6160, 6470, 6608, 6784,
   6800, 6992, 7088, 7232, 7248, 42528, 43216, 43264, 43472, 43504, 43600, 44016,
   65296, 66720, 68912, 69734, 69872, 69942, 70096, 70384, 70736, 70864, 71248, 71360,
   71472, 71904, 72016, 72784, 73040, 73120, 92768, 92864, 93008, 120782, 120792, 120802,
   120812, 120822, 123200, 123632, 125264, 130032]

private def digitFrom : List Nat → Nat → Option Nat
  | [], _ => none
  | start :: rest, c =>
    if c < start then none else if c < start + 10 then some (c - start) else digitFrom rest c

def digit? (c : Char) : Option Nat := digitFrom zeros c.toNat

private theorem lt_of_digitFrom {c d : Nat} {starts : List Nat} (h : digitFrom starts c = some d) :
    d < 10 := by
  induction starts with
  | nil => cases h
  | cons start starts ih =>
    unfold digitFrom at h
    split at h
    · cases h
    · split at h
      · cases h
        omega
      · exact ih h

theorem digit_lt (c : Char) : (digit? c).getD 0 < 10 := by
  cases h : digit? c with
  | none => exact Nat.zero_lt_succ 9
  | some d => exact lt_of_digitFrom h

def isDigit (c : Char) : Bool := (digit? c).isSome

def digitsValue (cs : List Char) : Nat :=
  cs.foldl (fun n c => 10 * n + (digit? c).getD 0) 0

end PlainSheets.Text
