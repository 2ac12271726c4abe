import PlainSheets.Grid.Delimited
import PlainSheets.Text.Find

/-!
Grids from files, by the ending of their names.
-/
namespace PlainSheets

inductive FileFormat where
  | delimited
  | parquet
  deriving DecidableEq

namespace FileFormat

def ofName? (name : String) : Option FileFormat :=
  if name = "csv" then some delimited else if name = "parquet" then some parquet else none

def ofEnding? (ending : String) : Option FileFormat :=
  if ending = ".parquet" then some parquet
  else if ending = ".csv" ∨ ending = ".tsv" ∨ ending = ".txt" then some delimited
  else none

end FileFormat

/-- A file as its readers see it: its text, and what the reader of Parquet files makes of it. -/
structure FileContent where
  text : String
  parquet : Except Failure Grid

namespace FileContent

/-- Plain text is no Parquet file. -/
def ofText (text : String) : FileContent :=
  ⟨text, .error (.storeFailed "Invalid Input Error: No magic bytes found at end of file")⟩

def read (content : FileContent) : FileFormat → Except Failure Grid
  | .delimited => Delimited.read content.text
  | .parquet => content.parquet

end FileContent

namespace FileName

def base (path : String) : List Char :=
  ((path.toList.reverse.dropWhile (· = '/')).takeWhile (· ≠ '/')).reverse

def divide? (name : List Char) : Option Nat :=
  match Text.lastIndexOf? ['.'] name with
  | none => none
  | some i => if 0 < i ∧ i + 1 < name.length then some i else none

def ending (path : String) : String :=
  let name := base path
  String.ofList ((divide? name).elim [] name.drop)

def stem (path : String) : String :=
  let name := base path
  String.ofList ((divide? name).elim name name.take)

end FileName

inductive PathEntry where
  | absent
  | folder
  | file (content : FileContent)

namespace Grid

/-- The grid in a file. A folder is refused by the ending of its name, or else because it holds no
text. -/
def ofFile (path : String) (entry : PathEntry) : Except Failure Grid :=
  match entry, FileFormat.ofEnding? (Text.lower (FileName.ending path)) with
  | .absent, _ => .error (.noSuchFile path)
  | _, none => .error (.unsupportedFile path)
  | .folder, some _ => .error (.storeFailed "IO Error: a folder cannot be read")
  | .file content, some format => content.read format

end Grid

end PlainSheets
