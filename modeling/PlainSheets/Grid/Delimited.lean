import PlainSheets.Grid.Delimited.Dialect
import PlainSheets.Grid.Delimited.Guess
import PlainSheets.Text.Integer

/-!
Grids from text with one record per line. The cells of the records after the first decide what their
columns hold; the first record names the columns, unless it fits what they hold.
-/
namespace PlainSheets.Delimited

def guesses (columns : List (List String)) : Calendar × List Guess :=
  columns.foldl (fun (k, gs) cells =>
    let (k, g) := Guess.ofCells k cells
    (k, gs ++ [g])) (Calendar.unknown, [])

/-- Whether the first record names the columns: nothing else tells, or it has only gaps, or some of its
cells are not what their columns hold. -/
def isHeader (k : Calendar) (gs : List Guess) (first : List String) : Bool :=
  gs.all (· = .text) || first.all String.isEmpty ||
    (gs.zip first).any fun (g, cell) => !g.takes k cell

/-- The name of a column without one: its place, in as many digits as the last place has. -/
def placeName (columns i : Nat) : String :=
  let digits (n : Nat) := (Text.integerChars n).length
  "column" ++ String.ofList (List.replicate (digits (columns - 1) - digits i) '0') ++ Text.integer i

abbrev Given := List (String × Nat)

private def plainName (name : String) : String := String.ofList (name.toList.map Char.toLower)

/-- A name that is not given yet, whatever the case of its letters: numbers are put behind it until it
is new. Every try uses up a given name, so as many tries as there are names are enough. -/
def unused : Nat → Given → String → Given × String
  | 0, given, name => (given, name)
  | fuel + 1, given, name =>
    match given.find? fun g => g.1 = plainName name with
    | none => (given, name)
    | some (key, n) =>
      let given := given.map fun g => if g.1 = key then (key, n + 1) else g
      unused fuel given (name ++ "_" ++ Text.integer (n + 1))

def columnNames (header : List String) : List String :=
  let plain := header.mapIdx fun i cell =>
    let name := String.ofList ((skipSpaces (skipSpaces cell.toList).reverse).reverse)
    if name.isEmpty then placeName header.length i else name
  (plain.foldl (fun ((given : Given), names) name =>
    let (given, name) := unused (given.length + 1) given name
    ((plainName name, 0) :: given, names ++ [name])) ([], [])).2

def cellsAt (records : List (List String)) (i : Nat) : List String :=
  records.map fun r => r[i]?.getD ""

/-- The grid of records of the same width. Types are told from all records but the first, or from it if
there is no other. -/
def gridOf (width : Nat) (first : List String) (rest : List (List String)) : Except Failure Grid := do
  let places := List.range width
  let typed := if rest.isEmpty then [first] else rest
  let (k, gs) := guesses (places.map (cellsAt typed))
  let headed := isHeader k gs first
  let names := if headed then columnNames first else places.map (placeName width)
  let rows := if headed then rest else first :: rest
  let columns ← (gs.zip places).mapM fun (g, i) => g.column k (cellsAt rows i)
  .ok ⟨names.zip columns⟩

/-- The grid of a text. A text without lines has one column without a name and without rows. -/
def read (text : String) : Except Failure Grid :=
  let cs := (literal? [Char.ofNat 0xFEFF] text.toList).getD text.toList
  match fit? cs with
  | some ⟨width, first :: rest, _⟩ => gridOf width first rest
  | some ⟨width, [], _⟩ => gridOf width [""] []
  | none => .error (.storeFailed "Invalid Input Error: no dialect fits the file")

end PlainSheets.Delimited
