import PlainSheets.Console.SignCode
import PlainSheets.Grid.File
import PlainSheets.Moment.Basic
import PlainSheets.Query.Annotation
import PlainSheets.Store.Ids
import PlainSheets.Store.Saved

/-!
What a run of the program finds around it, and the file that its database is kept in.
-/
namespace PlainSheets

structure Surroundings where
  now : Moment
  ids : IdSource
  service : Service
  signs : Console.SignNames
  /-- What is at a path. The path without letters leads to the current folder. -/
  entry : String → PathEntry

structure SavedFile where
  path : String
  content : String
  deriving DecidableEq

namespace DatabasePath

def isTransient (path : String) : Bool := path.isEmpty || path.startsWith ":memory:"

def parent (path : String) : String :=
  String.ofList (((path.toList.reverse.dropWhile (· ≠ '/')).drop 1).reverse)

def save (path : String) : Store → Option SavedFile
  | .database d => if isTransient path then none else some ⟨path, d.tables.toText⟩
  | _ => none

end DatabasePath

namespace Surroundings

/-- The database at a path. A file that is not there yet is made if its folder is there. -/
def database (s : Surroundings) (path : String) : Except Failure Database :=
  if DatabasePath.isTransient path then .ok Database.empty
  else
    match s.entry path, s.entry (DatabasePath.parent path) with
    | .file content, _ =>
      match Tables.ofText? content.text with
      | some t => .ok ⟨t, true⟩
      | none => .error (.unreadableDatabase path)
    | .absent, .folder => .ok Database.empty
    | _, _ => .error (.unreadableDatabase path)

end Surroundings

end PlainSheets
