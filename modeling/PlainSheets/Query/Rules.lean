import PlainSheets.Failure
import PlainSheets.Query.Intent
import PlainSheets.Text.Blank
import PlainSheets.Text.Digit
import PlainSheets.Text.Find
import PlainSheets.Text.Lower
import PlainSheets.Text.SameLetter
import PlainSheets.Text.Word

/-!
The rules that read a question. Each looks at the whole lowercase text for one thing; what it does not
find is left open. A word is a longest run of word characters, and a word run is words joined by
single spaces.
-/
namespace PlainSheets.Query

open Text (isWord)

/-! Words. -/

def wordAt (cs : List Char) : List Char := cs.takeWhile isWord

def afterWord (cs : List Char) : List Char := cs.dropWhile isWord

def startsWith (word : Char → Bool) : List Char → Bool
  | [] => false
  | c :: _ => word c

def startsWord (cs : List Char) : Bool := startsWith isWord cs

/-- The rest of a word run, and what follows it. What counts as a word character is a parameter here: of
names only the letters around them and the space matter. -/
def spanRun (word : Char → Bool) : List Char → List Char × List Char
  | [] => ([], [])
  | c :: cs =>
    if word c || (c = ' ' && startsWith word cs) then
      let (run, rest) := spanRun word cs
      (c :: run, rest)
    else ([], c :: cs)

theorem length_spanRun (word : Char → Bool) (cs : List Char) :
    (spanRun word cs).2.length ≤ cs.length := by
  induction cs with
  | nil => simp [spanRun]
  | cons c cs ih =>
    unfold spanRun
    split
    · exact Nat.le_succ_of_le ih
    · simp

def runs (word : Char → Bool) : List Char → List (List Char)
  | [] => []
  | c :: cs =>
    if word c then (c :: (spanRun word cs).1) :: runs word (spanRun word cs).2 else runs word cs
termination_by cs => cs.length
decreasing_by
  · exact Nat.lt_succ_of_le (length_spanRun word cs)
  · exact Nat.lt_succ_self _

/-- The first answer of a reader that is given each word of a text with what follows it. The flag says
that the text starts inside a word. -/
def firstAtWordFrom {α : Type} (read : List Char → List Char → Option α) :
    Bool → List Char → Option α
  | _, [] => none
  | inside, c :: cs =>
    if isWord c then
      (if inside then none else read (wordAt (c :: cs)) (afterWord (c :: cs))) <|>
        firstAtWordFrom read true cs
    else firstAtWordFrom read false cs

def firstAtWord {α : Type} (read : List Char → List Char → Option α) (cs : List Char) : Option α :=
  firstAtWordFrom read false cs

def firstAt {α : Type} (read : List Char → Option α) : List Char → Option α
  | [] => read []
  | c :: cs => read (c :: cs) <|> firstAt read cs

def after? (phrase : String) (cs : List Char) : Option (List Char) :=
  if phrase.toList.isPrefixOf cs then some (cs.drop phrase.length) else none

def afterAny? : List String → List Char → Option (List Char)
  | [], _ => none
  | p :: ps, cs => after? p cs <|> afterAny? ps cs

def digitsAt? (cs : List Char) : Option (List Char) :=
  let ds := cs.takeWhile Text.isDigit
  if ds.isEmpty then none else some ds

def readNumber (ds : List Char) : Except Failure Nat :=
  if maxIntegerDigits < ds.length then .error (.integerTooLong (some ds.length))
  else .ok (Text.digitsValue ds)

/-! Action and sheet name. -/

def action (text : List Char) : Action :=
  if Text.contains "how many".toList text || Text.contains "count".toList text then .count else .find

/-- The ways to name a sheet: what stands before the name and what stands after it. -/
def sheetNameForms : List (String × String) :=
  [("in ", " sheet"), ("from ", " sheet"), ("", " data"), ("", " sheet")]

def nameInRun (opening closing : List Char) (run : List Char) : Option (List Char) := do
  let start ← if opening.isEmpty then some 0
    else (Text.indexOf? opening run).map (· + opening.length)
  let stop ← Text.lastIndexOf? closing run
  if start < stop then some ((run.take stop).drop start) else none

def findSheetName (word : Char → Bool) (text opening closing : List Char) : Option (List Char) :=
  (runs word text).findSome? (nameInRun opening closing)

def sheetName (word : Char → Bool) (text : List Char) : Option String :=
  (sheetNameForms.findSome? fun form =>
    findSheetName word text form.1.toList form.2.toList).map String.ofList

/-! Filters. -/

def greaterPhrases : List String :=
  [" greater than ", " more than ", " higher than ", " over ", " above "]

def lessPhrases : List String := [" less than ", " lower than ", " under ", " below "]

def equalPhrases : List String := [" equal to ", " equals ", " is ", " = "]

def comparison (phrases : List String) (text : List Char) : Option (List Char × List Char) :=
  firstAtWord (fun word rest => ((afterAny? phrases rest).bind digitsAt?).map (word, ·)) text

def comparisonFilter (phrases : List String) (c : Comparator) (text : List Char)
    (filters : Filters) : Except Failure Filters :=
  match comparison phrases text with
  | none => .ok filters
  | some (word, digits) => do
    let n ← readNumber digits
    .ok (filters.put (String.ofList word) (.compare ⟨c, .integer n⟩))

/-- A field and the text that it equals: word characters and blanks, without the blanks at the ends. -/
def equality (text : List Char) : Option (List Char × List Char) :=
  firstAtWord (fun word rest => do
    let rest ← afterAny? equalPhrases rest
    let value := rest.takeWhile fun c => isWord c || Text.isBlank c
    if value.isEmpty then none else some (word, Text.trim value)) text

def equalityFilter (text : List Char) (filters : Filters) : Filters :=
  match equality text with
  | none => filters
  | some (word, value) => filters.put (String.ofList word) (.equals (some (String.ofList value)))

/-- The filters of a text. An equality on the same field takes the place of a comparison. -/
def filters (text : List Char) : Except Failure Filters := do
  let fs ← comparisonFilter greaterPhrases .greater text []
  let fs ← comparisonFilter lessPhrases .less text fs
  .ok (equalityFilter text fs)

/-! Fields, limit and order. -/

/-- What may follow after an optional phrase, which is passed over if it is there. -/
def skips (phrases : List String) (cs : List Char) : List (List Char) :=
  match phrases.findSome? fun p => if Text.startsAs p.toList cs then some p.length else none with
  | some n => [cs.drop n, cs]
  | none => [cs]

def wordList : Nat → List Char → List (List Char)
  | 0, _ => []
  | fuel + 1, cs =>
    wordAt cs ::
      match afterWord cs with
      | ',' :: ' ' :: rest => if startsWord rest then wordList fuel rest else []
      | _ => []

def fieldsAt (cs : List Char) : Option (List (List Char)) :=
  if Text.startsAs "show ".toList cs then
    ((skips ["me ", "us "] (cs.drop 5)).flatMap (skips ["the ", "all "])).findSome? fun rest =>
      if startsWord rest then some (wordList rest.length rest) else none
  else none

/-- The fields to show. Letters that differ from those of the word in form only are taken for them, but
one of the words that ask for a list has to be there as it is. -/
def fields (text : List Char) : List String :=
  if Text.contains "show".toList text || Text.contains "display".toList text ||
      Text.contains "get".toList text then
    ((firstAt fieldsAt text).getD []).map String.ofList
  else []

/-- The digits of a limit: `limit 5`, `limit to 5`, `limit of 5` or `5 results`. -/
def limitAt (cs : List Char) : Option (List Char) :=
  ((after? "limit " cs).bind fun rest => digitsAt? ((afterAny? ["to ", "of "] rest).getD rest)) <|>
    (digitsAt? cs).bind fun ds => (after? " results" (cs.drop ds.length)).map fun _ => ds

def limit (text : List Char) : Except Failure Int :=
  match firstAt limitAt text with
  | none => .ok defaultLimit
  | some ds => (readNumber ds).map Int.ofNat

def sortAt (cs : List Char) : Option SortSpec := do
  let rest ← after? "sort by " cs
  if startsWord rest then
    let descending := (after? " desc" (afterWord rest)).isSome
    some ⟨String.ofList (wordAt rest), if descending then -1 else 1⟩
  else none

def sort (text : List Char) : Option SortSpec := firstAt sortAt text

def intentOf (text : List Char) : Except Failure Intent := do
  let fs ← filters text
  let n ← limit text
  .ok {
    action := action text
    sheetName := sheetName isWord text
    filters := fs
    fields := fields text
    limit := n
    sort := sort text }

end PlainSheets.Query

namespace PlainSheets.Intent

def ofQuestion (question : Option String) : Except Failure Intent :=
  Query.intentOf (Text.lowerChars (question.getD "").toList)

end PlainSheets.Intent
