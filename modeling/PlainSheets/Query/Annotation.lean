import PlainSheets.Json.Reader
import PlainSheets.Query.Rules
import PlainSheets.Settings

/-!
Annotations of questions by a pair of language models: how sure one is that the text is a question, and
what the other one makes of it. The client of the models is made when it is first needed and kept until
it is closed. Whatever goes wrong with it, the question is read all the same.
-/
namespace PlainSheets

inductive Reply where
  | text (s : String)
  | empty
  | fails (message : String)
  deriving DecidableEq

/-- The models' side of one step: whether clients can be made at all, and what the models answer. -/
structure Service where
  installed : Bool
  classifier : Reply
  generator : Reply

structure Message where
  role : String
  content : String
  deriving DecidableEq

inductive ClientId where
  | given
  | made (number : Nat)
  deriving DecidableEq

structure Call where
  client : ClientId
  model : String
  messages : List Message
  temperature : Binary64
  maxTokens : Nat

structure Handle where
  client : ClientId
  classifierModel : String
  generatorModel : String
  deriving DecidableEq

structure Annotator where
  settings : Settings
  hasClient : Bool
  handle : Option Handle := none
  /-- The keys of the clients that it made. -/
  keys : List String := []
  closed : List ClientId := []
  calls : List Call := []

structure Annotation where
  confidence : Binary64
  understanding : String
  deriving DecidableEq

namespace Annotator

abbrev Result (α : Type) := Annotator × Except Failure α

def acquire (a : Annotator) (service : Service) : Result Handle :=
  match a.handle with
  | some h => (a, .ok h)
  | none =>
    let hold (a : Annotator) (client : ClientId) : Result Handle :=
      let h : Handle := ⟨client, a.settings.classifierModel, a.settings.generatorModel⟩
      ({ a with handle := some h }, .ok h)
    if a.hasClient then hold a .given
    else if !a.settings.enrichment then (a, .error (.unavailable "enrichment disabled"))
    else if !service.installed then (a, .error (.unavailable "openai package not available"))
    else
      let key := a.settings.apiKey.getD ""
      if key.isEmpty then (a, .error (.unavailable "OPENAI_API_KEY not set"))
      else hold { a with keys := a.keys ++ [key] } (.made a.keys.length)

/-- Lets go of the handle. A client that was given stays open. -/
def close (a : Annotator) : Annotator :=
  match a.handle with
  | none => a
  | some h =>
    { a with handle := none, closed := if a.hasClient then a.closed else a.closed ++ [h.client] }

def classifierPrompt : String :=
  "You are a text classifier. Decide whether the user text is a well-formed request to look up " ++
    "or count rows in a spreadsheet. Only respond with valid JSON: " ++
    "\x7b\"label\": \"QUERY\"|\"OTHER\", \"score\": <confidence between 0 and 1>\x7d."

def generatorPrompt (text : String) : String :=
  "Extract database query information from this text: \"" ++ text ++ "\". " ++
    "Identify action (find or count), sheet name, filters, fields, limit, and sort criteria."

def replyText : Reply → Except Failure String
  | .text s => .ok s
  | .empty => .ok ""
  | .fails message => .error (.clientFailed message)

def numberOf : Json → Except Failure Binary64
  | .real x => .ok x
  | .integer n =>
    match Binary64.ofInt? n with
    | some x => .ok x
    | none => .error .integerTooLarge
  | .flag b => .ok (Binary64.ofNat b.toNat)
  | .text s =>
    match Binary64.ofText? s with
    | some x => .ok x
    | none => .error (.notNumeric s)
  | .null => .error (.notNumber "NoneType")
  | .list _ => .error (.notNumber "list")
  | .object _ => .error (.notNumber "dict")

def scoreOf : Json → Except Failure Binary64
  | .object fields =>
    match fields.lookup "score" with
    | some v => numberOf v
    | none => .error (.missingKey "score")
  | .null => .error (.notIndexed "NoneType")
  | .flag _ => .error (.notIndexed "bool")
  | .integer _ => .error (.notIndexed "int")
  | .real _ => .error (.notIndexed "float")
  | .text _ => .error (.notIndexed "str")
  | .list _ => .error (.notIndexed "list")

/-- A number moved between 0 and 1. What is no number stays as it is. -/
def clamp (x : Binary64) : Binary64 :=
  let x := if x.lt (Binary64.zero false) then Binary64.zero false else x
  let one := Binary64.ofNat 1
  if one.lt x then one else x

/-- The confidence in a classifier's reply. A reply without text counts as an empty map. -/
def confidenceOf (reply : Reply) : Except Failure Binary64 := do
  let s ← replyText reply
  let j ← Json.read (if s.isEmpty then "\x7b\x7d" else s)
  (scoreOf j).map clamp

def understandingOf (reply : Reply) : Except Failure String := do
  let s ← replyText reply
  .ok (String.ofList (Text.trim s.toList))

def classify (a : Annotator) (service : Service) (text : String) : Result Binary64 :=
  match a.acquire service with
  | (a, .error f) => (a, .error f)
  | (a, .ok h) =>
    let call : Call := ⟨h.client, h.classifierModel,
      [⟨"system", classifierPrompt⟩, ⟨"user", text⟩], Binary64.zero false, 50⟩
    ({ a with calls := a.calls ++ [call] }, confidenceOf service.classifier)

def generatorTemperature : Binary64 := Binary64.ofDecimal false ⟨3, -1⟩

def generate (a : Annotator) (service : Service) (text : String) : Result String :=
  match a.acquire service with
  | (a, .error f) => (a, .error f)
  | (a, .ok h) =>
    let call : Call := ⟨h.client, h.generatorModel, [⟨"user", generatorPrompt text⟩],
      generatorTemperature, 100⟩
    ({ a with calls := a.calls ++ [call] }, understandingOf service.generator)

/-- Both models in turn. After a failure of the first one the second one is not asked. -/
def annotate (a : Annotator) (service : Service) (text : String) : Result Annotation :=
  match a.classify service text with
  | (a, .error f) => (a, .error f)
  | (a, .ok x) =>
    match a.generate service text with
    | (a, .error f) => (a, .error f)
    | (a, .ok s) => (a, .ok ⟨x, s⟩)

def plan (a : Annotator) (service : Service) (question : String) : Result Intent :=
  let text := Text.lower question
  match Intent.ofQuestion (some text) with
  | .error f => (a, .error f)
  | .ok i =>
    match a.annotate service text with
    | (a, .error _) => (a, .ok i)
    | (a, .ok n) =>
      (a, .ok { i with confidence := some n.confidence, understanding := some n.understanding })

end Annotator

namespace Intent

def planned (question : String) : Except Failure Intent := ofQuestion (some (Text.lower question))

end Intent

end PlainSheets
