/-!
The records of a text. A dialect says what sets cells apart, what quotes a cell, what makes a quote
within quotes a letter, and whether there are comments, lines that start with a number sign. Quotes count
only at the start of a cell; a quoted cell may hold separators and line breaks.
-/
namespace PlainSheets.Delimited

structure Dialect where
  separator : Char
  quote : Option Char
  /-- Within quotes, what stands before a quote that is a letter. -/
  escape : Option Char
  comments : Bool
  deriving DecidableEq

inductive Place where
  /-- Behind nothing but blanks. -/
  | start
  | plain
  | quoted
  /-- Behind an escape within quotes. -/
  | escaped
  /-- Behind a quote within quotes: the end of the cell, or the first half of a quote. -/
  | closed
  /-- Behind the blanks behind a quoted cell. -/
  | spent
  | comment
  deriving DecidableEq

/-- A text under way: the records read so far, the cells of the current one, and the letters of the
current cell, each with the last one in front. -/
structure Reading where
  place : Place
  /-- Behind a carriage return, with which a line feed is one line break. -/
  returned : Bool
  records : List (List String)
  cells : List String
  letters : List Char
  hasQuotes : Bool
  hasComments : Bool
  /-- Whether anything but blanks stood behind a quoted cell. -/
  broken : Bool

namespace Reading

def blank : Reading := ⟨.start, false, [], [], [], false, false, false⟩

def letter (r : Reading) (place : Place) (c : Char) : Reading :=
  { r with place := place, letters := c :: r.letters }

def endCell (r : Reading) : Reading :=
  { r with place := .start, cells := String.ofList r.letters.reverse :: r.cells, letters := [] }

def atLineStart (r : Reading) : Bool := r.place = .start && r.cells.isEmpty && r.letters.isEmpty

/-- A line without anything on it is a record without cells. A comment is no record. -/
def endRecord (r : Reading) : Reading :=
  if r.place = .comment then { r with place := .start }
  else if r.atLineStart then { r with records := [] :: r.records }
  else
    let r := r.endCell
    { r with records := r.cells.reverse :: r.records, cells := [] }

def ends? (d : Dialect) (r : Reading) (c : Char) : Option Reading :=
  if c = d.separator then some r.endCell
  else if c = '\r' then some { r.endRecord with returned := true }
  else if c = '\n' then some (if r.returned then r else r.endRecord)
  else none

def goOn (d : Dialect) (r : Reading) (c : Char) : Reading :=
  match r.place with
  | .start =>
    if d.comments && c = '#' && r.atLineStart then { r with place := .comment, hasComments := true }
    else if d.quote = some c then { r with place := .quoted, letters := [], hasQuotes := true }
    else if c = ' ' then r.letter .start c
    else r.letter .plain c
  | .closed =>
    if d.quote = some c ∧ d.escape = some c then r.letter .quoted c
    else if c = ' ' then { r with place := .spent }
    else { r with broken := true }
  | .spent => if c = ' ' then r else { r with broken := true }
  | _ => r.letter .plain c

def step (d : Dialect) (r : Reading) (c : Char) : Reading :=
  match r.place with
  | .quoted =>
    if d.quote = some c then { r with place := .closed }
    else if d.escape = some c then { r with place := .escaped }
    else r.letter .quoted c
  | .escaped => r.letter .quoted c
  | .comment => if c = '\n' ∨ c = '\r' then { r.endRecord with returned := c = '\r' } else r
  | _ =>
    match r.ends? d c with
    | some r' => if c = '\r' then r' else { r' with returned := false }
    | none => { r.goOn d c with returned := false }

/-- The reading at the end of the text. An open quote has broken it; the last line need not end. -/
def finish (r : Reading) : Reading :=
  if r.place = .quoted ∨ r.place = .escaped then { r with broken := true }
  else if r.atLineStart ∨ r.place = .comment then r
  else r.endRecord

end Reading

def Dialect.read (d : Dialect) (text : List Char) : Reading :=
  (text.foldl (Reading.step d) Reading.blank).finish

end PlainSheets.Delimited
