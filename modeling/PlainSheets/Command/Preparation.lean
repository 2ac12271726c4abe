import PlainSheets.Command.Arguments
import PlainSheets.Command.Surroundings
import PlainSheets.Console.Printed
import PlainSheets.Store.Import
import PlainSheets.Store.Samples

/-!
Filling the store before the program answers anything: with samples, and then with a file. After a step
that fails the next one is not taken.
-/
namespace PlainSheets

open Console (Printed Printout)

structure Preparation where
  store : Store
  ids : IdSource
  printed : Printout Unit

namespace Preparation

def andThen (p : Preparation) (next : Store → IdSource → Preparation) : Preparation :=
  match p.printed.result with
  | .error _ => p
  | .ok _ =>
    let q := next p.store p.ids
    { q with printed := do p.printed; q.printed }

def seed (s : Surroundings) (a : Arguments) (store : Store) (ids : IdSource) : Preparation :=
  if a.seed then
    let (step, ids) := store.seed ids s.now true
    let printed := do
      let sheets ← Printed.ofResult step.result
      Printed.box "" s!"Seeded {sheets.length} sample sheets"
    ⟨step.state, ids, printed s.signs⟩
  else ⟨store, ids, pure ()⟩

def importedText (path : String) (sheet : Sheet) : String :=
  let escape (t : String) : String := String.ofList (Markup.escape t.toList)
  "Imported " ++ escape path ++ " as \"" ++ escape (nameText sheet.name) ++ "\" (" ++
    s!"{sheet.rows.length} rows, id {sheet.id})"

def importFile (s : Surroundings) (a : Arguments) (store : Store) (ids : IdSource) :
    Preparation :=
  let path := a.importPath.getD ""
  if path.isEmpty then ⟨store, ids, pure ()⟩
  else
    let step := store.importFile ids.fresh s.now path (s.entry path) a.name
    let printed := do
      let sheet ← Printed.ofResult step.result
      Printed.box "" (importedText path sheet)
    ⟨step.state, ids.afterSheet step.result, printed s.signs⟩

def ofDatabase (s : Surroundings) (a : Arguments) (d : Database) : Preparation :=
  (seed s a (.database d) s.ids).andThen (importFile s a)

end Preparation

namespace Failure

def isExpected : Failure → Bool
  | noSuchFile _ => true
  | unsupportedFile _ => true
  | storeFailed _ => true
  | sheetNotFound _ => true
  | rowNotFound _ _ => true
  | notIso _ => true
  | integerTooLong _ => true
  | notJson => true
  | pairLength _ _ => true
  | notNumeric _ => true
  | notInteger _ => true
  | noValues => true
  | _ => false

end Failure

end PlainSheets
