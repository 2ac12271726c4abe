import PlainSheets.Command.Dialogue
import PlainSheets.Command.Preparation

/-!
The command line program, as a function of its arguments and of everything around it. It opens a
database, fills it if it is told to, and then answers one request or one question after the other.
-/
namespace PlainSheets

open Console (Printed)

structure Progress where
  output : List Char
  ids : IdSource
  saved : Option SavedFile
  standing : Standing

structure Run where
  output : List Char
  ids : IdSource
  saved : Option SavedFile
  ending : Ending

namespace Program

def present (json : Bool) (tell : Json → Printed Unit) (r : Response) : Printed Nat := do
  if json then
    Printed.json r.body
    pure r.exitCode
  else if r.status = 200 then
    tell r.body
    pure 0
  else
    Printed.box "" (Bodies.messageOr "error" r.body)
    pure 1

def request? (thisYear : Nat) (a : Arguments) (store : Reads) : Option (Printed Nat) :=
  if a.sheets then
    some (present a.json (fun body => Printed.table (Bodies.sheetsTable body))
      (Request.listSheets store))
  else if a.insights then
    let sheet := a.sheetId.getD ""
    some do
      let r ← Printed.ofResult
        (if sheet.isEmpty then Request.insights store else Request.sheetInsights thisYear store sheet)
      present a.json Bodies.report r
  else none

def ended (s : Surroundings) (printed : Printed Nat) : List Char × Standing :=
  let p := printed s.signs
  (p.output, .ended (match p.result with
    | .ok n => .code n
    | .error f => .failed f))

def annotator? (s : Surroundings) (settings : Settings) (a : Arguments) :
    Option (Annotator × Service) :=
  if a.enrichment && !(settings.apiKey.getD "").isEmpty then
    some ({ settings := settings, hasClient := false }, s.service)
  else none

def proceed (s : Surroundings) (settings : Settings) (a : Arguments) (store : Store) :
    List Char × Standing :=
  match request? s.now.date.year a store.reads with
  | some printed => ended s printed
  | none =>
    let d : Dialogue := ⟨store.reads, annotator? s settings a, a.json, s.signs⟩
    let question := a.question.getD ""
    if question.isEmpty then ([], .asking d) else ended s (d.ask question).2

def giveUp (s : Surroundings) (f : Failure) : List Char × Standing :=
  if f.isExpected then
    ended s do
      Printed.box "" (String.ofList (Markup.escape f.message.toList))
      pure 2
  else ([], .ended (.failed f))

def start (s : Surroundings) (settings : Settings) (a : Arguments) : Progress :=
  match s.database a.database with
  | .error f => ⟨[], s.ids, none, .ended (.failed f)⟩
  | .ok d =>
    let p := Preparation.ofDatabase s a d
    let (output, standing) := match p.printed.result with
      | .ok _ => proceed s settings a p.store
      | .error f => giveUp s f
    ⟨p.printed.output ++ output, p.ids, DatabasePath.save a.database p.store, standing⟩

def run (s : Surroundings) (settings : Settings) (a : Arguments) (input : List String) : Run :=
  let p := start s settings a
  match p.standing with
  | .ended e => ⟨p.output, p.ids, p.saved, e⟩
  | .asking d =>
    let (output, e) := d.converse input
    ⟨p.output ++ output, p.ids, p.saved, e⟩

end Program

end PlainSheets
