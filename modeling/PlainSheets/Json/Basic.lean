import PlainSheets.Binary64.Text
import PlainSheets.Text.Integer

/-!
JSON values with their keys in order, and their written form.
-/
namespace PlainSheets

inductive Json where
  | null
  | flag (b : Bool)
  | integer (n : Int)
  | real (x : Binary64)
  | text (s : String)
  | list (items : List Json)
  | object (fields : List (String × Json))

instance : Inhabited Json := ⟨.null⟩

namespace Json

/-- A repeated key keeps its first place and takes its last value. -/
def putField {α : Type} (key : String) (value : α) : List (String × α) → List (String × α)
  | [] => [(key, value)]
  | (k, v) :: rest => if k = key then (k, value) :: rest else (k, v) :: putField key value rest

/-- How values are laid out: on one line, or on lines of their own with a margin per level. Letters
outside ASCII are escaped on request. -/
structure Style where
  margin : Option Nat
  asciiOnly : Bool

def unitEscape (n : Nat) : List Char :=
  let ds := Nat.toDigits 16 n
  '\\' :: 'u' :: (List.replicate (4 - ds.length) '0' ++ ds)

def codeEscape (c : Char) : List Char :=
  if c.toNat < 0x10000 then unitEscape c.toNat
  else
    let n := c.toNat - 0x10000
    unitEscape (0xD800 + n / 0x400) ++ unitEscape (0xDC00 + n % 0x400)

def shortEscapes : List (Char × Char) :=
  [('"', '"'), ('\\', '\\'), ('\n', 'n'), ('\r', 'r'), ('\t', 't'), ('\x08', 'b'), ('\x0c', 'f')]

def escapeChar (asciiOnly : Bool) (c : Char) : List Char :=
  match shortEscapes.lookup c with
  | some letter => ['\\', letter]
  | none =>
    if c.toNat < 0x20 then unitEscape c.toNat
    else if asciiOnly && 0x7F ≤ c.toNat then codeEscape c
    else [c]

def quote (asciiOnly : Bool) (s : String) : List Char :=
  '"' :: s.toList.flatMap (escapeChar asciiOnly) ++ ['"']

def realText : Binary64 → List Char
  | .nan => "NaN".toList
  | .infinite negative => (if negative then "-Infinity" else "Infinity").toList
  | x => x.toText.toList

def Style.newline (style : Style) (level : Nat) : List Char :=
  match style.margin with
  | none => []
  | some n => '\n' :: List.replicate (n * level) ' '

def Style.separator (style : Style) (level : Nat) : List Char :=
  match style.margin with
  | none => [',', ' ']
  | some _ => ',' :: style.newline level

mutual

def render (style : Style) (level : Nat) : Json → List Char
  | .null => "null".toList
  | .flag b => (if b then "true" else "false").toList
  | .integer n => Text.integerChars n
  | .real x => realText x
  | .text s => quote style.asciiOnly s
  | .list [] => ['[', ']']
  | .list (v :: vs) =>
    '[' :: style.newline (level + 1) ++ render style (level + 1) v ++
      renderItems style (level + 1) vs ++ style.newline level ++ [']']
  | .object [] => ['{', '}']
  | .object ((k, v) :: fs) =>
    '{' :: style.newline (level + 1) ++ quote style.asciiOnly k ++ [':', ' '] ++
      render style (level + 1) v ++ renderFields style (level + 1) fs ++
      style.newline level ++ ['}']

def renderItems (style : Style) (level : Nat) : List Json → List Char
  | [] => []
  | v :: vs => style.separator level ++ render style level v ++ renderItems style level vs

def renderFields (style : Style) (level : Nat) : List (String × Json) → List Char
  | [] => []
  | (k, v) :: fs =>
    style.separator level ++ quote style.asciiOnly k ++ [':', ' '] ++ render style level v ++
      renderFields style level fs

end

def compactStyle : Style := ⟨none, true⟩

def toText (style : Style) (j : Json) : String := String.ofList (render style 0 j)

end Json

end PlainSheets
