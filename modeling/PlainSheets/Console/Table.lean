import PlainSheets.Binary64.Basic
import PlainSheets.Console.Markup

/-!
Tables of marked-up text with a title, a heavy line around their headings, and columns as wide as their
cells. Columns share what the terminal is too narrow for, the widest ones first.
-/
namespace PlainSheets.Console

structure Table where
  title : List Char
  /-- Headings and the cells below them. -/
  columns : List (List Char × List (List Char))

structure Rule where
  left : Char
  fill : Char
  divider : Char
  right : Char

namespace Rule

def top : Rule := ⟨'┏', '━', '┳', '┓'⟩

def belowHeadings : Rule := ⟨'┡', '━', '╇', '┩'⟩

def bottom : Rule := ⟨'└', '─', '┴', '┘'⟩

def join (r : Rule) (parts : List (List Char)) : List Char :=
  r.left :: (parts.intersperse [r.divider]).flatten ++ [r.right]

def draw (r : Rule) (widths : List Nat) : List Char :=
  r.join (widths.map fun w => List.replicate w r.fill)

end Rule

def headingRule : Rule := ⟨'┃', ' ', '┃', '┃'⟩

def cellRule : Rule := ⟨'│', ' ', '│', '│'⟩

/-- Takes an amount from values, in equal shares from those that are marked, from none more than a
bound. Shares are rounded one after the other, halves to even. -/
def reduceFrom (bound : Nat) : Nat → Nat → List (Nat × Bool) → List Nat
  | _, _, [] => []
  | amount, sharers, (value, marked) :: rest =>
    if marked && sharers != 0 then
      let share := min bound (roundQuotient amount sharers)
      (value - share) :: reduceFrom bound (amount - share) (sharers - 1) rest
    else value :: reduceFrom bound amount sharers rest

def reduce (bound amount : Nat) (values : List (Nat × Bool)) : List Nat :=
  if bound = 0 then values.map Prod.fst
  else reduceFrom bound amount (values.countP fun v => v.2) values

def total (widths : List Nat) : Nat := widths.foldl (· + ·) 0

/-- Brings the widest columns down to the next widest ones until all fit; fuel bounds the rounds, each of
which takes something away. -/
def collapse (limit : Nat) : Nat → List Nat → List Nat
  | 0, widths => widths
  | fuel + 1, widths =>
    let excess := total widths - limit
    let widest := widths.foldl max 0
    let next := (widths.filter (· ≠ widest)).foldl max 0
    if excess = 0 ∨ widest = next then widths
    else collapse limit fuel (reduce (min excess (widest - next)) excess
      (widths.map fun w => (w, w == widest)))

namespace Table

def ruleWidth (t : Table) : Nat := t.columns.length + 1

def naturalWidth (limit : Nat) (column : List Char × List (List Char)) : Nat :=
  max 1 (min limit (((column.1 :: column.2).map fun c => widest c + 2).foldl max 0))

def widths (t : Table) : List Nat :=
  let limit := screen - t.ruleWidth
  let natural := t.columns.map (naturalWidth limit)
  collapse limit (total natural) natural

/-- The lines of a cell, without the blanks on both sides. A column that has no place between these
shows nothing. -/
def cellLines (width : Nat) (cell : List Char) : List (List Char) :=
  if width ≤ 2 then [] else wrap (width - 2) ⟨.ellipsis, .left⟩ cell

def cellLine (width : Nat) (line : Option (List Char)) : List Char :=
  pad width (fit width (' ' :: line.getD [] ++ [' ']))

/-- A row of cells. Cells with fewer lines than the row has stand at its upper or at its lower end. -/
def rowLines (rule : Rule) (atBottom : Bool) (cells : List (Nat × List Char)) : List (List Char) :=
  let blocks := cells.map fun c => (c.1, cellLines c.1 c.2)
  let height := (blocks.map fun b => b.2.length).foldl max 1
  (List.range height).map fun i =>
    rule.join (blocks.map fun b =>
      let above := if atBottom then height - b.2.length else 0
      cellLine b.1 (if i < above then none else b.2[i - above]?))

def height (t : Table) : Nat := (t.columns.map fun c => c.2.length).foldl max 0

def row (t : Table) (i : Nat) : List (List Char) := t.columns.map fun c => c.2[i]?.getD []

def lines (t : Table) : List (List Char) :=
  if t.columns.isEmpty then [[]]
  else
    let widths := t.widths
    let title := if t.title.isEmpty then []
      else wrap (total widths + t.ruleWidth) ⟨.fold, .center⟩ t.title
    let headings := rowLines headingRule true (widths.zip (t.columns.map Prod.fst))
    let rows := (List.range t.height).flatMap fun i =>
      rowLines cellRule false (widths.zip (t.row i))
    title ++ Rule.top.draw widths :: headings ++ Rule.belowHeadings.draw widths :: rows ++
      [Rule.bottom.draw widths]

def rendered (signs : SignNames) (t : Table) : Except Failure Table := do
  if t.columns.isEmpty then .ok t
  else
    let columns ← t.columns.mapM fun c => do
      let heading ← Markup.render signs c.1
      let cells ← c.2.mapM (Markup.render signs)
      .ok (heading, cells)
    let title ← Markup.render signs t.title
    .ok ⟨title, columns⟩

def crop (line : List Char) : List Char :=
  if Text.width line ≤ screen then line else fit screen line

def print (signs : SignNames) (t : Table) : Except Failure (List Char) :=
  (t.rendered signs).map fun t => unlines (t.lines.map crop)

end Table

end PlainSheets.Console
