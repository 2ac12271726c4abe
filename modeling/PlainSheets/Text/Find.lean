/-!
Texts inside texts: whether and where one occurs, first and last.
-/
namespace PlainSheets.Text

def contains (part : List Char) : List Char → Bool
  | [] => part.isEmpty
  | c :: cs => part.isPrefixOf (c :: cs) || contains part cs

def indexOf? (part : List Char) : List Char → Option Nat
  | [] => if part.isEmpty then some 0 else none
  | c :: cs => if part.isPrefixOf (c :: cs) then some 0 else (indexOf? part cs).map (· + 1)

def lastIndexOf? (part : List Char) : List Char → Option Nat
  | [] => if part.isEmpty then some 0 else none
  | c :: cs =>
    match lastIndexOf? part cs with
    | some i => some (i + 1)
    | none => if part.isPrefixOf (c :: cs) then some 0 else none

end PlainSheets.Text
