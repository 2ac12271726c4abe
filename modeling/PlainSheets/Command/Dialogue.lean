import PlainSheets.Command.Bodies
import PlainSheets.Query.Annotation

/-!
One question after the other. Between two questions the program is a value; each line of input turns it
into the next one or ends it.
-/
namespace PlainSheets

open Console (Printed)

inductive Ending where
  | code (n : Nat)
  | failed (f : Failure)

structure Dialogue where
  reads : Reads
  annotator : Option (Annotator × Service)
  json : Bool
  signs : Console.SignNames

inductive Standing where
  | ended (e : Ending)
  | asking (d : Dialogue)

namespace Response

def exitCode (r : Response) : Nat := if r.status < 400 then 0 else 1

end Response

namespace Dialogue

def ask (d : Dialogue) (question : String) : Dialogue × Printed Nat :=
  let (annotator, response) := Request.query d.reads d.annotator (.named [("query", .text question)])
  let next := { d with annotator := match annotator, d.annotator with
    | some a, some (_, service) => some (a, service)
    | _, _ => none }
  (next, do
    let r ← Printed.ofResult response
    if d.json then Printed.json r.body else Bodies.answer r.body
    pure r.exitCode)

def prompt : String := "Ask a question (:exit to quit): "

def exitWords : List String := [":exit", ":quit", "exit", "quit"]

def overview (d : Dialogue) : Printed Unit := do
  let r ← Printed.ofResult (Request.insights d.reads)
  if r.status = 200 then
    let headline ← Printed.ofResult (Headline.ofReport (Cell.ofJson r.body))
    Printed.line headline
  else Printed.line (Bodies.messageOr "None" r.body)

def reply (d : Dialogue) (question : String) : Dialogue × Printed Unit :=
  if Text.lower question = ":insights" then (d, d.overview)
  else
    let (next, printed) := d.ask question
    (next, do let _ ← printed)

/-- What a line of input leads to: the output, and where the program stands then. At the end of input
there is no line. -/
def turn (d : Dialogue) (line : Option String) : List Char × Standing :=
  match line with
  | none => ([], .ended (.failed .endOfInput))
  | some line =>
    let question := String.ofList (Text.trim line.toList)
    if Text.lower question ∈ exitWords then ([], .ended (.code 0))
    else
      let (next, printed) := d.reply question
      let p := printed d.signs
      match p.result with
      | .error f => (p.output, .ended (.failed f))
      | .ok _ => (p.output, .asking next)

def converse (d : Dialogue) : List String → List Char × Ending
  | [] => (prompt.toList, .failed .endOfInput)
  | line :: rest =>
    let (output, standing) := d.turn (some line)
    match standing with
    | .ended e => (prompt.toList ++ output, e)
    | .asking next =>
      let (more, e) := converse next rest
      (prompt.toList ++ output ++ more, e)

end Dialogue

end PlainSheets
