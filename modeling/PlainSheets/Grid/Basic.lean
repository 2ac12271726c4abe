import PlainSheets.Cell.Order
import PlainSheets.Sheet
import PlainSheets.Text.Lower

/-!
Grids are tables with typed columns, as files hold them, and the rows and columns of a sheet that are
made from them.
-/
namespace PlainSheets

inductive Storage where
  | objects
  | integers
  | reals
  | flags
  | moments
  deriving DecidableEq

structure TypedCells where
  storage : Storage
  cells : List Cell

structure Grid where
  columns : List (String × TypedCells)

def Cell.isGap : Cell → Bool
  | .decimal a => a.isNaN
  | c => c.isMissing

mutual

def Cell.holdsGap : Cell → Bool
  | .list items => Cell.holdsOneGap items
  | c => c.isGap

def Cell.holdsOneGap : List Cell → Bool
  | [c] => c.holdsGap
  | _ => false

end

namespace Sized

def plain : Sized → Cell
  | integer _ n => .integer n
  | real _ x => .real x
  | flag b => .flag b
  | text s => .text s

end Sized

def Cell.ofGrid (c : Cell) : Cell :=
  if c.holdsGap then .null
  else
    match c with
    | .sized s => s.plain
    | c => c

namespace Storage

def hold (s : Storage) (c : Cell) : Cell :=
  match s, c with
  | reals, .integer n => .real (Binary64.ofInt n)
  | moments, .date d => .moment (Moment.ofDate d)
  | _, c => c

end Storage

namespace TypedCells

def ofCells (storage : Storage) (cells : List Cell) : TypedCells := ⟨storage, cells.map storage.hold⟩

/-- The kinds of the cells that are no gaps. What a gap in a list becomes has no kind. -/
def kinds (s : TypedCells) : List (Option Kind) :=
  (s.cells.filter fun c => !c.isGap).map fun c => c.ofGrid.kind?

/-- The type of a column: that of its storage, or the one kind that all its cells have, or text. -/
def type (s : TypedCells) : Kind :=
  match s.storage with
  | .integers => .number
  | .reals => .number
  | .flags => .flag
  | .moments => .date
  | .objects =>
    match s.kinds with
    | [] => .text
    | k :: ks => if ks.all (· = k) then k.getD .text else .text

def values (s : TypedCells) : List Cell := s.cells.map Cell.ofGrid

end TypedCells

namespace Grid

def height (g : Grid) : Nat :=
  match g.columns with
  | [] => 0
  | c :: _ => c.2.cells.length

def row (g : Grid) (i : Nat) : Record :=
  g.columns.foldl (fun r c => Record.put (.text c.1) (c.2.values[i]?.getD .null) r) []

def records (g : Grid) : List Record := (List.range g.height).map g.row

def sheetColumns (g : Grid) : List Column := g.columns.map fun c => ⟨some c.1, c.2.type, none⟩

def take (g : Grid) (n : Nat) : Grid :=
  ⟨g.columns.map fun c => (c.1, ⟨c.2.storage, c.2.cells.take n⟩)⟩

end Grid

end PlainSheets
