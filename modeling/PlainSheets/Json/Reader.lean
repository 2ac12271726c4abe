import PlainSheets.Failure
import PlainSheets.Json.Basic

/-!
The JSON reader. It builds values of any type from the parts that it meets, so that a caller can give
objects a meaning of their own while they are read.
-/
namespace PlainSheets.Json

/-- What to make of each part of a JSON text. Objects may be refused. -/
structure Builder (α : Type) where
  null : α
  flag : Bool → α
  integer : Int → α
  real : Binary64 → α
  text : String → α
  list : List α → α
  object : List (String × α) → Except Failure α

def plainBuilder : Builder Json :=
  ⟨.null, .flag, .integer, .real, .text, .list, fun fields => .ok (.object fields)⟩

def isSpace (c : Char) : Bool := c = ' ' || c = '\t' || c = '\n' || c = '\r'

def skipSpaces (cs : List Char) : List Char := cs.dropWhile isSpace

def afterWord (word : String) (cs : List Char) : Option (List Char) :=
  let w := word.toList
  if w.isPrefixOf cs then some (cs.drop w.length) else none

def hexValue? (c : Char) : Option Nat :=
  if '0' ≤ c ∧ c ≤ '9' then some (c.toNat - 48)
  else if 'a' ≤ c ∧ c ≤ 'f' then some (c.toNat - 87)
  else if 'A' ≤ c ∧ c ≤ 'F' then some (c.toNat - 55)
  else none

def readUnit : List Char → Option (Nat × List Char)
  | a :: b :: c :: d :: rest => do
    let a ← hexValue? a
    let b ← hexValue? b
    let c ← hexValue? c
    let d ← hexValue? d
    some (((a * 16 + b) * 16 + c) * 16 + d, rest)
  | _ => none

def simpleEscape? (c : Char) : Option Char :=
  if c = '"' ∨ c = '\\' ∨ c = '/' then some c
  else if c = 'b' then some '\x08'
  else if c = 'f' then some '\x0c'
  else if c = 'n' then some '\n'
  else if c = 'r' then some '\r'
  else if c = 't' then some '\t'
  else none

def readLowUnit (high : Nat) (cs : List Char) : Option (Char × List Char) :=
  if 0xD800 ≤ high ∧ high < 0xDC00 then
    match cs with
    | '\\' :: 'u' :: rest =>
      match readUnit rest with
      | some (low, rest') =>
        if 0xDC00 ≤ low ∧ low < 0xE000 then
          some (Char.ofNat (0x10000 + (high - 0xD800) * 0x400 + (low - 0xDC00)), rest')
        else none
      | none => none
    | _ => none
  else none

/-- A unit that stands alone. Half of a pair is no character, so the replacement mark takes its place, where
texts of code units would keep the half. -/
def loneUnit (n : Nat) : Char :=
  if 0xD800 ≤ n ∧ n < 0xE000 then Char.ofNat 0xFFFD else Char.ofNat n

def readText : Nat → List Char → Except Failure (List Char × List Char)
  | 0, _ => .error .notJson
  | _ + 1, [] => .error .notJson
  | fuel + 1, c :: rest =>
    if c = '"' then .ok ([], rest)
    else if c = '\\' then
      match rest with
      | [] => .error .notJson
      | 'u' :: rest =>
        match readUnit rest with
        | none => .error .notJson
        | some (unit, rest) =>
          match readLowUnit unit rest with
          | some (d, rest) => do
            let (cs, left) ← readText fuel rest
            .ok (d :: cs, left)
          | none => do
            let (cs, left) ← readText fuel rest
            .ok (loneUnit unit :: cs, left)
      | e :: rest =>
        match simpleEscape? e with
        | none => .error .notJson
        | some d => do
          let (cs, left) ← readText fuel rest
          .ok (d :: cs, left)
    else if c.toNat < 0x20 then .error .notJson
    else do
      let (cs, left) ← readText fuel rest
      .ok (c :: cs, left)

def isAsciiDigit (c : Char) : Bool := '0' ≤ c && c ≤ '9'

def natOfDigits (cs : List Char) : Nat := cs.foldl (fun n c => 10 * n + (c.toNat - 48)) 0

def readFraction : List Char → List Char × List Char
  | '.' :: cs =>
    let ds := cs.takeWhile isAsciiDigit
    if ds.isEmpty then ([], '.' :: cs) else (ds, cs.drop ds.length)
  | cs => ([], cs)

def readExponent : List Char → Option (Int × List Char)
  | c :: cs =>
    if c = 'e' ∨ c = 'E' then
      let (negative, cs) := Binary64.takeSign cs
      let ds := cs.takeWhile isAsciiDigit
      if ds.isEmpty then none
      else
        let n : Int := natOfDigits ds
        some (if negative then -n else n, cs.drop ds.length)
    else none
  | [] => none

def takeMinus : List Char → Bool × List Char
  | '-' :: cs => (true, cs)
  | cs => (false, cs)

/-- The digits before the point. Nothing follows a zero. -/
def wholeDigits : List Char → List Char
  | '0' :: _ => ['0']
  | cs => cs.takeWhile isAsciiDigit

def numberOf {α : Type} (b : Builder α) (negative : Bool) (whole fraction : List Char)
    (exponent : Option Int) : Except Failure α :=
  if exponent.isNone && fraction.isEmpty then
    if maxIntegerDigits < whole.length then .error (.integerTooLong (some whole.length))
    else
      let n : Int := natOfDigits whole
      .ok (b.integer (if negative then -n else n))
  else
    .ok (b.real (Binary64.ofDecimal negative
      ⟨natOfDigits (whole ++ fraction), exponent.getD 0 - fraction.length⟩))

def readNumber {α : Type} (b : Builder α) (cs : List Char) : Except Failure (α × List Char) :=
  let (negative, body) := takeMinus cs
  let whole := wholeDigits body
  if whole.isEmpty then .error .notJson
  else
    let (fraction, rest) := readFraction (body.drop whole.length)
    match readExponent rest with
    | some (e, rest) => (numberOf b negative whole fraction (some e)).map (·, rest)
    | none => (numberOf b negative whole fraction none).map (·, rest)

def readScalar {α : Type} (b : Builder α) (cs : List Char) : Except Failure (α × List Char) :=
  match afterWord "null" cs with
  | some rest => .ok (b.null, rest)
  | none =>
  match afterWord "true" cs with
  | some rest => .ok (b.flag true, rest)
  | none =>
  match afterWord "false" cs with
  | some rest => .ok (b.flag false, rest)
  | none =>
  match afterWord "NaN" cs with
  | some rest => .ok (b.real .nan, rest)
  | none =>
  match afterWord "Infinity" cs with
  | some rest => .ok (b.real (.infinite false), rest)
  | none =>
  match afterWord "-Infinity" cs with
  | some rest => .ok (b.real (.infinite true), rest)
  | none => readNumber b cs

mutual

/-- A value at the start of a text. Fuel bounds the depth of the calls, of which each reads at least
one character. -/
def readValue {α : Type} (b : Builder α) : Nat → List Char → Except Failure (α × List Char)
  | 0, _ => .error .notJson
  | fuel + 1, cs =>
    match cs with
    | '"' :: rest => do
      let (s, left) ← readText fuel rest
      .ok (b.text (String.ofList s), left)
    | '[' :: rest =>
      match skipSpaces rest with
      | ']' :: left => .ok (b.list [], left)
      | rest => do
        let (v, left) ← readValue b fuel rest
        let (vs, left) ← readItems b fuel (skipSpaces left)
        .ok (b.list (v :: vs), left)
    | '{' :: rest =>
      match skipSpaces rest with
      | '}' :: left => do
        let v ← b.object []
        .ok (v, left)
      | rest => do
        let (fields, left) ← readFields b fuel [] rest
        let v ← b.object fields
        .ok (v, left)
    | cs => readScalar b cs

def readItems {α : Type} (b : Builder α) : Nat → List Char → Except Failure (List α × List Char)
  | 0, _ => .error .notJson
  | fuel + 1, cs =>
    match cs with
    | ']' :: rest => .ok ([], rest)
    | ',' :: rest => do
      let (v, left) ← readValue b fuel (skipSpaces rest)
      let (vs, left) ← readItems b fuel (skipSpaces left)
      .ok (v :: vs, left)
    | _ => .error .notJson

def readFields {α : Type} (b : Builder α) :
    Nat → List (String × α) → List Char → Except Failure (List (String × α) × List Char)
  | 0, _, _ => .error .notJson
  | fuel + 1, done, cs =>
    match cs with
    | '"' :: rest => do
      let (key, left) ← readText fuel rest
      match skipSpaces left with
      | ':' :: left => do
        let (v, left) ← readValue b fuel (skipSpaces left)
        let done := putField (String.ofList key) v done
        match skipSpaces left with
        | '}' :: left => .ok (done, left)
        | ',' :: left => readFields b fuel done (skipSpaces left)
        | _ => .error .notJson
      | _ => .error .notJson
    | _ => .error .notJson

end

def readWith {α : Type} (b : Builder α) (s : String) : Except Failure α := do
  let cs := s.toList
  let (v, left) ← readValue b (cs.length + 1) (skipSpaces cs)
  if (skipSpaces left).isEmpty then .ok v else .error .notJson

def read (s : String) : Except Failure Json := readWith plainBuilder s

end PlainSheets.Json
