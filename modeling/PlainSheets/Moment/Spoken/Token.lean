import PlainSheets.Text.Blank
import PlainSheets.Text.Digit

/-!
The tokens of a date in words: runs of letters, runs of digits, one blank, or any other single
character. A point belongs to a number if digits stand on both sides of it and no further one follows;
a comma may stand for such a point.
-/
namespace PlainSheets.Spoken

inductive Run where
  | letters
  | digits
  /-- Letters behind a point. -/
  | pointedLetters
  /-- Digits behind a point. -/
  | pointedDigits
  deriving DecidableEq

structure OpenToken where
  run : Run
  chars : List Char
  /-- Whether a character was added to letters. -/
  grown : Bool

def isLetter (c : Char) : Bool := c.isAlpha

namespace OpenToken

def extend? (t : OpenToken) (c : Char) : Option OpenToken :=
  let grow (run : Run) : OpenToken :=
    ⟨run, c :: t.chars, t.grown || t.run = .letters || t.run = .pointedLetters⟩
  match t.run with
  | .letters =>
    if isLetter c then some (grow .letters) else if c = '.' then some (grow .pointedLetters) else none
  | .digits =>
    if Text.isDigit c then some (grow .digits)
    else if c = '.' || (c = ',' && 2 ≤ t.chars.length) then some (grow .pointedDigits)
    else none
  | .pointedLetters =>
    if c = '.' || isLetter c then some (grow .pointedLetters)
    else if Text.isDigit c && t.chars.head? = some '.' then some (grow .pointedDigits)
    else none
  | .pointedDigits =>
    if c = '.' || Text.isDigit c then some (grow .pointedDigits)
    else if isLetter c && t.chars.head? = some '.' then some (grow .pointedLetters)
    else none

/-- Whether the points in a token part it. A token that ends in letters counts as grown once another
character has been looked at behind them. -/
def isParted (t : OpenToken) (atEnd : Bool) : Bool :=
  let seen := t.grown || (!atEnd && (t.run = .letters || t.run = .pointedLetters))
  (t.run = .pointedLetters || t.run = .pointedDigits) &&
    (seen || 1 < t.chars.count '.' || t.chars.head? = some '.' || t.chars.head? = some ',')

def partAtPoints (piece : List Char) : List Char → List (List Char)
  | [] => if piece.isEmpty then [] else [piece.reverse]
  | c :: cs =>
    if c = '.' ∨ c = ',' then
      (if piece.isEmpty then [] else [piece.reverse]) ++ [c] :: partAtPoints [] cs
    else partAtPoints (c :: piece) cs

def close (t : OpenToken) (atEnd : Bool) : List (List Char) :=
  let cs := t.chars.reverse
  if t.isParted atEnd then partAtPoints [] cs
  else if t.run = .pointedDigits && !cs.contains '.' then
    [cs.map fun c => if c = ',' then '.' else c]
  else [cs]

end OpenToken

def opening (c : Char) : List (List Char) × Option OpenToken :=
  if isLetter c then ([], some ⟨.letters, [c], false⟩)
  else if Text.isDigit c then ([], some ⟨.digits, [c], false⟩)
  else if Text.isBlank c then ([[' ']], none)
  else ([[c]], none)

def scan : Option OpenToken → List Char → List (List Char)
  | none, [] => []
  | some t, [] => t.close true
  | none, c :: cs =>
    let (done, next) := opening c
    done ++ scan next cs
  | some t, c :: cs =>
    match t.extend? c with
    | some t => scan (some t) cs
    | none =>
      let (done, next) := opening c
      t.close false ++ done ++ scan next cs

def tokens (text : List Char) : List String :=
  (scan none (text.filter (· ≠ '\x00'))).map String.ofList

end PlainSheets.Spoken
