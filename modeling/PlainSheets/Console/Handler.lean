import PlainSheets.Text.Blank
import PlainSheets.Text.Word

/-!
What may stand behind the name of a tag that names a handler: the dotted name of a function, with
arguments in parentheses or without, or else literals alone. Arguments are literals: numbers, quoted
texts, the words for true, false and nothing, tuples, sets and maps.
-/
namespace PlainSheets.Console

abbrev LiteralRest := Option (List Char × Bool)

private def skipBlanks (cs : List Char) : List Char := cs.dropWhile Text.isBlank

def afterQuote (quote : Char) : List Char → Option (List Char)
  | [] => none
  | '\\' :: _ :: cs => afterQuote quote cs
  | c :: cs => if c = quote then some cs else if c = '\n' then none else afterQuote quote cs

/-- What follows digits, a point and an exponent. Integers do not start with a zero, unless they are
zero. -/
def afterNumber (cs : List Char) : Option (List Char) :=
  let whole := cs.takeWhile Char.isDigit
  let rest := cs.drop whole.length
  let (fraction, rest') := match rest with
    | '.' :: cs => (cs.takeWhile Char.isDigit, cs.dropWhile Char.isDigit)
    | cs => ([], cs)
  let isInteger := rest.length = rest'.length
  if whole.isEmpty && fraction.isEmpty then none
  else
    match rest' with
    | e :: cs =>
      let digits := match cs with
        | '+' :: cs => cs
        | '-' :: cs => cs
        | cs => cs
      if (e = 'e' ∨ e = 'E') ∧ digits.head?.any Char.isDigit then some (digits.dropWhile Char.isDigit)
      else if isInteger && whole.head? = some '0' && whole.any (· ≠ '0') then none
      else some rest'
    | [] => if isInteger && whole.head? = some '0' && whole.any (· ≠ '0') then none else some []

private def literalWords : List (List Char) := ["True".toList, "False".toList, "None".toList]

def afterWord (cs : List Char) : Option (List Char) :=
  let word := cs.takeWhile Text.isWord
  if literalWords.contains word then some (cs.drop word.length) else none

mutual

/-- A literal without blanks before it. Fuel bounds the depth and the number of its parts. -/
def afterLiteral : Nat → List Char → LiteralRest
  | 0, _ => none
  | fuel + 1, cs =>
    match cs with
    | '(' :: cs => afterItems fuel ')' cs
    | '\x7b' :: cs => (afterEntries fuel none cs).map fun rest => (rest, false)
    | '+' :: cs => (afterNumber (skipBlanks cs)).map (·, true)
    | '-' :: cs => (afterNumber (skipBlanks cs)).map (·, true)
    | '\'' :: cs => (afterQuote '\'' cs).map (·, true)
    | '"' :: cs => (afterQuote '"' cs).map (·, true)
    | cs => ((afterNumber cs).orElse fun _ => afterWord cs).map (·, true)

def afterItems : Nat → Char → List Char → LiteralRest
  | 0, _, _ => none
  | fuel + 1, close, cs =>
    match skipBlanks cs with
    | [] => none
    | c :: cs =>
      if c = close then some (cs, true)
      else do
        let (rest, isKey) ← afterLiteral fuel (c :: cs)
        match skipBlanks rest with
        | ',' :: rest => (afterItems fuel close rest).map fun r => (r.1, isKey && r.2)
        | c :: rest => if c = close then some (rest, isKey) else none
        | [] => none

/-- The entries of a map or the members of a set, up to the closing brace. The first one decides which of
them it is. -/
def afterEntries : Nat → Option Bool → List Char → Option (List Char)
  | 0, _, _ => none
  | fuel + 1, isMap, cs =>
    match skipBlanks cs with
    | [] => none
    | '\x7d' :: cs => some cs
    | cs => do
      let (rest, isKey) ← afterLiteral fuel cs
      if !isKey then none
      else
        let (paired, rest) ← match skipBlanks rest with
          | ':' :: rest => (afterLiteral fuel (skipBlanks rest)).map fun r => (true, skipBlanks r.1)
          | rest => some (false, rest)
        if isMap.any (· ≠ paired) then none
        else
          match rest with
          | ',' :: rest => afterEntries fuel (some paired) rest
          | '\x7d' :: rest => some rest
          | _ => none

end

def areLiterals (cs : List Char) : Bool :=
  !(skipBlanks cs).isEmpty && (skipBlanks cs).head? ≠ some ')' &&
    (afterItems (2 * cs.length + 3) ')' (cs ++ [')'])).any fun r => r.1.isEmpty

def isHandler (parameters : List Char) : Bool :=
  let cs := Text.trim parameters
  match cs.dropWhile fun c => c = '.' || Text.isWord c with
  | [] => true
  | '(' :: rest =>
    if rest.getLast? = some ')' then areLiterals ('(' :: rest) else areLiterals cs
  | _ => areLiterals cs

end PlainSheets.Console
