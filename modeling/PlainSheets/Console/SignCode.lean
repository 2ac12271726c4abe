import PlainSheets.Text.Blank
import PlainSheets.Text.Lower

/-!
Signs in text, written as their names between colons. Behind the name `-text` or `-emoji` may ask for one
of the two forms that many signs have. Whatever names no sign stands as it is written. Which signs have
names is up to the terminal.
-/
namespace PlainSheets.Console

abbrev SignNames := List Char → Option (List Char)

def signForms : List (List Char × Char) :=
  [("-text".toList, Char.ofNat 0xFE0E), ("-emoji".toList, Char.ofNat 0xFE0F)]

def divideForm (name : List Char) : List Char × List Char :=
  match signForms.find? fun f => f.1.isSuffixOf name with
  | some (suffix, selector) => (name.take (name.length - suffix.length), [selector])
  | none => (name, [])

def sign? (signs : SignNames) (name : List Char) : Option (List Char) :=
  let (name, selector) := divideForm name
  (signs (Text.lower (String.ofList name)).toList).map (· ++ selector)

/-- The text up to the next colon if no blank stands before it, and what follows the colon. -/
def code? (cs : List Char) : Option (List Char × List Char) :=
  match cs.dropWhile fun c => c ≠ ':' && !Text.isBlank c with
  | ':' :: rest => some (cs.takeWhile (· ≠ ':'), rest)
  | _ => none

def showSignsFrom (signs : SignNames) : Nat → List Char → List Char
  | 0, cs => cs
  | _, [] => []
  | fuel + 1, c :: cs =>
    match if c = ':' then code? cs else none with
    | some (name, rest) => (sign? signs name).getD (':' :: name ++ [':']) ++ showSignsFrom signs fuel rest
    | none => c :: showSignsFrom signs fuel cs

def showSigns (signs : SignNames) (cs : List Char) : List Char := showSignsFrom signs cs.length cs

end PlainSheets.Console
