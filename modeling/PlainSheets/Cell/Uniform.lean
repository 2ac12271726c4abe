import PlainSheets.Cell.Record

/-!
Columns of one type. The cells of such a column are made alike: numbers become fractions if one of them
is one, decimals get the same number of places, records get the same fields, and moments are told on
one clock. What is in lists and records is made alike across the whole column.
-/
namespace PlainSheets

namespace Amount

def places : Amount → Nat
  | finite _ _ e => (-e).toNat
  | _ => 0

def withPlaces (n : Nat) : Amount → Amount
  | finite s c e => finite (s && c != 0) (c * Nat.pow 10 (e + n).toNat) (-n)
  | a => a

end Amount

namespace Moment

/-- The moment as a clock with the given offset shows it; a clock without one shows UTC. -/
def onClock (offset : Option Offset) (m : Moment) : Moment :=
  match Moment.ofInstant? (m.instant + (offset.map Offset.micros).getD 0) with
  | some u => { u with offset }
  | none => m

end Moment

namespace Cell

private def isFraction : Cell → Bool
  | real _ => true
  | sized (.real _ _) => true
  | _ => false

private def amount? : Cell → Option Amount
  | decimal a => some a
  | _ => none

private def clocks : Cell → List (Option Offset)
  | moment m => [m.offset]
  | _ => []

private def asFraction : Cell → Cell
  | integer n => real (Binary64.ofInt n)
  | sized (.integer _ n) => real (Binary64.ofInt n)
  | c => c

private def asDecimal (places : Nat) : Cell → Cell
  | integer n => decimal ((Amount.ofInt n).withPlaces places)
  | decimal a => decimal (a.withPlaces places)
  | c => c

private def asShownBy (offset : Option Offset) : Cell → Cell
  | moment m => moment (m.onClock offset)
  | c => c

def alike (cells : List Cell) : List Cell :=
  match cells.filterMap amount?, cells.flatMap clocks with
  | a :: as, _ => cells.map (asDecimal (as.foldl (fun n b => max n b.places) a.places))
  | [], offset :: _ => cells.map (asShownBy offset)
  | [], [] => if cells.any isFraction then cells.map asFraction else cells

private def items : Cell → List Cell
  | list cs => cs
  | _ => []

private def isList : Cell → Bool
  | list _ => true
  | _ => false

private def isRecord : Cell → Bool
  | record _ => true
  | _ => false

def regroup : List Cell → List Cell → List Cell
  | [], _ => []
  | list cs :: rest, made => list (made.take cs.length) :: regroup rest (made.drop cs.length)
  | c :: rest, made => c :: regroup rest made

def allNames (cells : List Cell) : List String :=
  ((cells.flatMap fun c => c.fields.map fun f => f.1.display).mergeSort fun a b => a ≤ b).eraseDups

def withField (name : String) : List Cell → List Cell → List Cell
  | record fs :: cells, v :: column => record ((.text name, v) :: fs) :: withField name cells column
  | c :: cells, _ :: column => c :: withField name cells column
  | cells, _ => cells

mutual

def depth : Cell → Nat
  | atom _ => 0
  | list cs => depthOfItems cs + 1
  | record fs => depthOfFields fs + 1

def depthOfItems : List Cell → Nat
  | [] => 0
  | c :: cs => max (depth c) (depthOfItems cs)

def depthOfFields : List (Atom × Cell) → Nat
  | [] => 0
  | f :: fs => max (depth f.2) (depthOfFields fs)

end

private def emptied : Cell → Cell
  | record _ => record []
  | c => c

def uniformTo : Nat → List Cell → List Cell
  | 0, cells => alike cells
  | fuel + 1, cells =>
    if cells.any isRecord then
      (allNames cells).foldr
        (fun name made =>
          withField name made (uniformTo fuel (cells.map fun c => (Record.get? c.fields name).getD null)))
        (cells.map emptied)
    else if cells.any isList then regroup cells (uniformTo fuel (cells.flatMap items))
    else alike cells

def uniform (cells : List Cell) : List Cell := uniformTo (depthOfItems cells) cells

end Cell

end PlainSheets
