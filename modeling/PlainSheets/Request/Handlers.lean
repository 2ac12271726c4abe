import PlainSheets.Cell.Json
import PlainSheets.Query.Annotation
import PlainSheets.Query.Outcome
import PlainSheets.Report.Headline
import PlainSheets.Report.SheetReport
import PlainSheets.Store.Reads

/-!
Requests to a store and their responses: a status and a JSON body. Whatever goes wrong while a request is
carried out becomes a response too.
-/
namespace PlainSheets

structure Response where
  status : Nat
  body : Json

namespace Response

def errorBody (message : String) : Json :=
  .object [("type", .text "error"), ("message", .text message)]

def messageBody (message : String) : Json := .object [("message", .text message)]

end Response

namespace Request

open Response

/-- The question in a payload. A payload that stands for nothing has none, nor has one without a text
that has something in it. -/
def questionOf (payload : Cell) : Except Failure (Option String) := do
  let value ← match payload with
    | .record fs => .ok ((Record.get? fs "query").getD .null)
    | .bundle _ => .error .manyTruths
    | c => if c.isTruthy then .error (.notMap c.typeName) else .ok .null
  match value with
  | .text s => .ok (if Text.isAllBlank s.toList then none else some s)
  | .sized (.text s) => .ok (if Text.isAllBlank s.toList then none else some s)
  | _ => .ok none

def planWith (annotator : Option (Annotator × Service)) (question : String) :
    Option Annotator × Except Failure Intent :=
  match annotator with
  | none => (none, Intent.planned question)
  | some (a, service) =>
    let (a, intent) := a.plan service question
    (some a, intent)

@[simp] theorem planWith_none (question : String) :
    (planWith none question).2 = Intent.planned question := by
  rw [planWith]

@[simp] theorem planWith_some (a : Annotator) (service : Service) (question : String) :
    (planWith (some (a, service)) question).2 = (a.plan service question).2 := by
  rw [planWith]

def outcome (store : Reads) (intent : Intent) : Except Failure Outcome := do
  let sheet ← store.resolve intent.sheetName
  Outcome.ofIntent intent sheet

/-- The response to a request that was carried out. Its body is made last, and nothing catches what goes
wrong there. -/
def done (c : Cell) : Except Failure Response := c.asJson.map (⟨200, ·⟩)

def respond (store : Reads) (intent : Except Failure Intent) : Except Failure Response :=
  match intent.bind (outcome store) with
  | .ok o => done o.toCell
  | .error f => .ok ⟨500, errorBody ("Failed to process query: " ++ f.message)⟩

@[simp] theorem respond_error (store : Reads) (f : Failure) : respond store (.error f) =
    .ok ⟨500, errorBody ("Failed to process query: " ++ f.message)⟩ := rfl

def query (store : Reads) (annotator : Option (Annotator × Service)) (payload : Cell) :
    Option Annotator × Except Failure Response :=
  match questionOf payload with
  | .error f => (annotator.map Prod.fst, .error f)
  | .ok none => (annotator.map Prod.fst, .ok ⟨400, errorBody "Query is required"⟩)
  | .ok (some question) =>
    let (a, intent) := planWith annotator question
    (a, respond store intent)

def insights (store : Reads) : Except Failure Response :=
  match store.sheets with
  | .error f => .ok ⟨500, messageBody f.message⟩
  | .ok [] => .ok ⟨404, messageBody "No sheets found for analysis"⟩
  | .ok sheets =>
    match Overview.ofSheets sheets with
    | .error f => .ok ⟨500, messageBody f.message⟩
    | .ok o => done o.toCell

def sheetInsights (thisYear : Nat) (store : Reads) (sheet : String) : Except Failure Response :=
  match store.byId sheet with
  | .error f => .ok ⟨500, messageBody f.message⟩
  | .ok none => .ok ⟨404, messageBody "Sheet not found"⟩
  | .ok (some s) =>
    match SheetReport.ofSheet thisYear s with
    | .error f => .ok ⟨500, messageBody f.message⟩
    | .ok r => done r.toCell

def listSheets (store : Reads) : Response :=
  match store.sheets with
  | .error f => ⟨500, messageBody f.message⟩
  | .ok sheets =>
    ⟨200, .list (sheets.map fun s =>
      .object [("id", .text s.id), ("sheetName", (Cell.ofText? s.name).toJson)])⟩

end Request

end PlainSheets
