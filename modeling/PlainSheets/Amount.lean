import PlainSheets.Binary64.Text

/-!
Decimal numbers of any size, kept with the zeros they were written with, and the one normal form that
every exact number has.
-/
namespace PlainSheets

inductive Amount where
  /-- The number `coefficient · 10 ^ exponent`. -/
  | finite (negative : Bool) (coefficient : Nat) (exponent : Int)
  | infinite (negative : Bool)
  /-- What is no number, with a payload that is zero if there is none. -/
  | nan (negative signalling : Bool) (payload : Nat)
  deriving DecidableEq

namespace Amount

open Binary64 (decimalDigits takeSign readDecimal)

private def pointed (digits : List Char) (before : Int) : List Char :=
  if before ≤ 0 then ['0', '.'] ++ List.replicate (-before).toNat '0' ++ digits
  else
    let n := before.toNat
    digits.take n ++ if n < digits.length then '.' :: digits.drop n else []

/-- An exponent is written after a positive one, and where more than five zeros would follow the
point. -/
def toText : Amount → String
  | finite s c e =>
    let digits := decimalDigits c
    let before := e + digits.length
    let body :=
      if e ≤ 0 ∧ -6 < before then pointed digits before
      else
        let size := before - 1
        pointed digits 1 ++ 'E' :: (if size < 0 then '-' else '+') :: decimalDigits size.natAbs
    (if s then "-" else "") ++ String.ofList body
  | infinite s => (if s then "-" else "") ++ "Infinity"
  | nan s signalling payload =>
    (if s then "-" else "") ++ (if signalling then "sNaN" else "NaN") ++
      if payload = 0 then "" else String.ofList (decimalDigits payload)

private def readNaN? (negative : Bool) (word : List Char) : Option Amount :=
  let (signalling, word) := match word with
    | 's' :: rest => (true, rest)
    | cs => (false, cs)
  match word with
  | 'n' :: 'a' :: 'n' :: digits =>
    if digits.all Text.isDigit then some (nan negative signalling (Text.digitsValue digits)) else none
  | _ => none

def ofText? (s : String) : Option Amount :=
  let (negative, body) := takeSign ((Text.trim s.toList).filter (· ≠ '_'))
  let word := body.map Char.toLower
  if word = "inf".toList ∨ word = "infinity".toList then some (infinite negative)
  else
    match readNaN? negative word with
    | some a => some a
    | none => (readDecimal body).map fun d => finite negative d.digits d.exponent

def isNaN : Amount → Bool
  | nan .. => true
  | _ => false

def isZero : Amount → Bool
  | finite _ c _ => c == 0
  | _ => false

def normal : Amount → Amount
  | finite s c e =>
    if c = 0 then finite false 0 0
    else
      let d := Binary64.Decimal.strip ⟨c, e⟩
      finite s d.digits d.exponent
  | a => a

def ofInt (n : Int) : Amount := finite (decide (n < 0)) n.natAbs 0

/-- A binary fraction is a decimal one: a unit is `5 ^ 1074 · 10 ^ -1074`. -/
def ofReal : Binary64 → Amount
  | .finite s u _ => finite s (u * Nat.pow 5 1074) (-1074)
  | .infinite s => infinite s
  | .nan => nan false false 0

end Amount

end PlainSheets
