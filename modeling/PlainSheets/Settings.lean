import PlainSheets.Text.Upper

/-!
The settings of the program and how the environment sets them.
-/
namespace PlainSheets

structure Settings where
  apiKey : Option String := none
  generatorModel : String := "gpt-4o-mini"
  classifierModel : String := "gpt-4o-mini"
  database : String := ":memory:"
  enrichment : Bool := true
  logLevel : String := "WARNING"
  deriving DecidableEq

abbrev Environment := List (String × String)

namespace Settings

def variableNames : List String :=
  ["OPENAI_API_KEY", "OPENAI_MODEL", "SHEET_AGENT_CLASSIFIER_MODEL", "SHEET_AGENT_DB",
    "SHEET_AGENT_ENRICH", "SHEET_AGENT_LOG_LEVEL"]

def offWords : List String := ["0", "false", "False", "no", "off"]

/-- An empty key counts as none, and the classifier uses the generator's model unless it has one of
its own. -/
def ofEnvironment (env : Environment) : Settings :=
  let get (name default : String) : String := (env.lookup name).getD default
  let generator := get "OPENAI_MODEL" "gpt-4o-mini"
  let key := get "OPENAI_API_KEY" ""
  { apiKey := if key.isEmpty then none else some key
    generatorModel := generator
    classifierModel := get "SHEET_AGENT_CLASSIFIER_MODEL" generator
    database := get "SHEET_AGENT_DB" ":memory:"
    enrichment := !offWords.contains (get "SHEET_AGENT_ENRICH" "1")
    logLevel := Text.upper (get "SHEET_AGENT_LOG_LEVEL" "WARNING") }

end Settings

end PlainSheets
