import PlainSheets.Settings
import PlainSheets.Text.Digit

/-!
Command lines. An option may be shortened as long as no other one starts the same, and its value may
follow an equals sign. Options are read from left to right; whatever is no option and no value of one is
refused at the end.
-/
namespace PlainSheets

structure Arguments where
  database : String
  seed : Bool := false
  importPath : Option String := none
  name : Option String := none
  sheets : Bool := false
  question : Option String := none
  insights : Bool := false
  sheetId : Option String := none
  json : Bool := false
  enrichment : Bool
  logLevel : String
  deriving DecidableEq

inductive Switch where
  | help
  | seed
  | sheets
  | insights
  | json
  | noEnrichment
  deriving DecidableEq

inductive Parameter where
  | database
  | importPath
  | name
  | question
  | sheetId
  | logLevel
  deriving DecidableEq

inductive CommandOption where
  | switch (s : Switch)
  | parameter (p : Parameter)
  deriving DecidableEq

namespace CommandOption

def names : List (String × CommandOption) :=
  [("--help", .switch .help), ("--db", .parameter .database), ("--seed", .switch .seed),
    ("--import", .parameter .importPath), ("--name", .parameter .name),
    ("--sheets", .switch .sheets), ("--query", .parameter .question),
    ("--insights", .switch .insights), ("--sheet-id", .parameter .sheetId),
    ("--json", .switch .json), ("--no-enrich", .switch .noEnrichment),
    ("--log-level", .parameter .logLevel)]

def startingWith (start : List Char) : List CommandOption :=
  (names.filter fun n => start.isPrefixOf n.1.toList).map Prod.snd

end CommandOption

inductive CommandWord where
  | value (text : String)
  | option (o : CommandOption) (attached : Option String)
  | unknown
  /-- The start of more than one option. -/
  | ambiguous
  deriving DecidableEq

namespace CommandWord

def isNegativeNumber : List Char → Bool
  | '-' :: rest =>
    let whole := rest.takeWhile Text.isDigit
    match rest.dropWhile Text.isDigit with
    | [] => !whole.isEmpty
    | '.' :: places => !places.isEmpty && places.all Text.isDigit
    | _ => false
  | _ => false

/-- A word that starts with a dash and names no option. One with blanks in it is a value. -/
def ofDashed (word : List Char) : CommandWord :=
  if isNegativeNumber word || word.contains ' ' then .value (String.ofList word) else .unknown

def ofShort (word : List Char) : CommandWord :=
  match word with
  | '-' :: 'h' :: more =>
    .option (.switch .help) (if more.all (· = 'h') then none else some (String.ofList more))
  | _ => ofDashed word

def ofLong (word : List Char) : CommandWord :=
  let name := word.takeWhile (· ≠ '=')
  let attached := match word.dropWhile (· ≠ '=') with
    | [] => none
    | _ :: text => some (String.ofList text)
  match CommandOption.names.lookup (String.ofList name) with
  | some o => .option o attached
  | none =>
    match CommandOption.startingWith name with
    | [] => ofDashed word
    | [o] => .option o attached
    | _ => .ambiguous

def ofText (s : String) : CommandWord :=
  match s.toList with
  | '-' :: '-' :: rest => ofLong ('-' :: '-' :: rest)
  | '-' :: c :: rest => ofShort ('-' :: c :: rest)
  | _ => .value s

/-- The words of a command line. Behind two dashes there is nothing that could be an option, and the
dashes themselves are no value. -/
def ofTexts : List String → List CommandWord
  | [] => []
  | s :: rest => if s = "--" then [.unknown] else ofText s :: ofTexts rest

end CommandWord

inductive Command where
  | run (a : Arguments)
  | help
  | misuse

namespace Arguments

def default (s : Settings) : Arguments :=
  { database := s.database, enrichment := s.enrichment, logLevel := s.logLevel }

def turnOn (a : Arguments) : Switch → Option Arguments
  | .help => none
  | .seed => some { a with seed := true }
  | .sheets => some { a with sheets := true }
  | .insights => some { a with insights := true }
  | .json => some { a with json := true }
  | .noEnrichment => some { a with enrichment := false }

def set (a : Arguments) (p : Parameter) (value : String) : Arguments :=
  match p with
  | .database => { a with database := value }
  | .importPath => { a with importPath := some value }
  | .name => { a with name := some value }
  | .question => { a with question := some value }
  | .sheetId => { a with sheetId := some value }
  | .logLevel => { a with logLevel := value }

def usage : String :=
  "options:\n" ++ String.join (CommandOption.names.map fun n =>
    "  " ++ n.1 ++ (match n.2 with
      | .switch _ => ""
      | .parameter _ => " VALUE") ++ "\n")

def readWords (a : Arguments) (stray : Bool) : List CommandWord → Command
  | [] => if stray then .misuse else .run a
  | .option (.switch s) none :: rest =>
    match a.turnOn s with
    | some a => readWords a stray rest
    | none => .help
  | .option (.parameter p) (some value) :: rest => readWords (a.set p value) stray rest
  | .option (.parameter p) none :: .value value :: rest => readWords (a.set p value) stray rest
  | .option _ _ :: _ => .misuse
  | _ :: rest => readWords a true rest

def ofTexts (s : Settings) (texts : List String) : Command :=
  let words := CommandWord.ofTexts texts
  if .ambiguous ∈ words then .misuse else readWords (default s) false words

end Arguments

end PlainSheets
