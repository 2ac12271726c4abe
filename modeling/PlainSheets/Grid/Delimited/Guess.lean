import PlainSheets.Binary64.Text
import PlainSheets.Failure
import PlainSheets.Grid.Basic
import PlainSheets.Grid.Delimited.DateLayout

/-!
What the cells of a column are guessed to be. A column may be anything at first; each cell rules out the
guesses in front that do not take it. Every guess takes gaps, and text takes everything.
-/
namespace PlainSheets.Delimited

inductive Guess where
  /-- Gaps only. -/
  | nothing
  | flag
  | clock
  | date
  | stamp
  /-- A time stamp with an offset. -/
  | utcStamp
  | integer
  | real
  | text
  deriving DecidableEq

namespace Guess

def all : List Guess := [nothing, flag, clock, date, stamp, utcStamp, integer, real, text]

/-- A guess of which no other remains once a cell refutes it. -/
def isFinal : Guess → Bool
  | flag => true
  | clock => true
  | date => true
  | stamp => true
  | _ => false

def storage : Guess → Storage
  | flag => .flags
  | date => .moments
  | stamp => .moments
  | utcStamp => .moments
  | integer => .integers
  | real => .reals
  | _ => .objects

end Guess

/-- What a cell holds, or why it cannot be held although it is of the right form. -/
abbrev Held := Except Failure Cell

private def lower (cs : List Char) : String := String.ofList (cs.map Char.toLower)

def flag? (cell : List Char) : Option Held :=
  let word := lower cell
  if word = "t" ∨ word = "true" ∨ word = "yes" then some (.ok (.flag true))
  else if word = "f" ∨ word = "false" ∨ word = "no" then some (.ok (.flag false))
  else none

def hasLeadingZero : List Char → Bool
  | '0' :: c :: _ => c.isDigit
  | _ => false

def integer? (cell : List Char) : Option Held := do
  let cs := skipSpaces cell
  let (negative, rest) := match cs with
    | '-' :: rest => (true, rest)
    | cs => (false, cs)
  let n ← (number? rest.length rest).bind atEnd?
  let n : Int := if negative then -n else n
  if hasLeadingZero cs then none
  else if -9223372036854775808 ≤ n ∧ n ≤ 9223372036854775807 then some (.ok (.integer n))
  else some (.error (.storeFailed "Conversion Error: an integer does not fit 64 bits"))

def real? (cell : List Char) : Option Held :=
  let cs := skipSpaces cell
  let word := lower ((literal? ['-'] cs).getD cs)
  let isWord := word = "nan" ∨ word = "inf" ∨ word = "infinity"
  let isPlain := cs.all fun c => c.isDigit || "+-.eE".toList.contains c
  if hasLeadingZero cs ∨ cs.head? = some '+' ∨ ¬ (isWord ∨ isPlain) then none
  else (Binary64.ofText? (String.ofList cs)).map fun x => .ok (.real x)

def localCell (w : Written) : Held :=
  match w.utc with
  | .ok m => .ok (.moment { m with offset := none })
  | .error e => .error (.notIso (.year e.year))

def utcCell (w : Written) : Held :=
  match w.utc with
  | .ok m => .ok (.moment m)
  | .error e => .error (.notIso (.year e.year))

namespace Guess

def read? (k : Calendar) (g : Guess) (cell : String) : Option Held :=
  let cs := cell.toList
  match g with
  | nothing => none
  | flag => flag? cs
  | clock => ((clock? true cs).bind atEnd?).map fun c => .ok (.clock c)
  | date => (k.date? cs).map localCell
  | stamp => ((k.stamp? cs).filter fun w => w.offset.isNone).map localCell
  | utcStamp => (stampYearFirst? cs).map utcCell
  | integer => integer? cs
  | real => real? cs
  | text => some (.ok (.text cell))

def takes (k : Calendar) (g : Guess) (cell : String) : Bool :=
  cell.isEmpty || (g.read? k cell).isSome

def teach (k : Calendar) (g : Guess) (cell : String) : Calendar :=
  match g with
  | date => { k with dates := Layouts.see dateLayouts k.dates cell.toList }
  | stamp => { k with stamps := Layouts.see stampLayouts k.stamps cell.toList }
  | _ => k

/-- The guesses that a cell leaves. After a final guess only text is left. -/
def narrow (final : Bool) (cell : String) : Calendar → List Guess → Calendar × List Guess
  | k, [] => (k, [text])
  | k, g :: gs =>
    let k := if cell.isEmpty then k else g.teach k cell
    if g.takes k cell then (k, g :: gs)
    else if final then (k, [text])
    else narrow final cell k gs

/-- The guesses about a column after its cells. No guess is final for the first cell. -/
def ofCells (k : Calendar) (cells : List String) : Calendar × Guess :=
  let (k, gs) := match cells with
    | [] => (k, all)
    | first :: rest =>
      rest.foldl (fun (k, gs) cell => narrow (gs.head?.any isFinal) cell k gs)
        (narrow false first k all)
  (k, gs.head?.getD text)

def column (k : Calendar) (g : Guess) (cells : List String) : Except Failure TypedCells := do
  let held ← cells.mapM fun cell =>
    if cell.isEmpty then .ok .null
    else (g.read? k cell).getD (.error (.storeFailed "Conversion Error: a cell does not fit its column"))
  .ok (.ofCells g.storage held)

end Guess

end PlainSheets.Delimited
