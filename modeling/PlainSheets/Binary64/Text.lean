import PlainSheets.Binary64.Decimal
import PlainSheets.Text.Blank
import PlainSheets.Text.Digit
import PlainSheets.Text.Lower

/-!
The written form of double precision numbers, and the reader of every form that is accepted.
-/
namespace PlainSheets.Binary64

def signText (negative : Bool) : String := if negative then "-" else ""

def zerosText (n : Nat) : List Char := List.replicate n '0'

def positional (digits : List Char) (lead : Int) : List Char :=
  if lead < 0 then
    ['0', '.'] ++ zerosText (-lead - 1).toNat ++ digits
  else
    let whole := lead.toNat + 1
    let padded := digits ++ zerosText (whole - digits.length)
    padded.take whole ++ '.' :: (if padded.length ≤ whole then ['0'] else padded.drop whole)

def withExponent (digits : List Char) (lead : Int) : List Char :=
  let head := match digits with
    | [] => ['0']
    | [d] => [d]
    | d :: rest => d :: '.' :: rest
  let size := decimalDigits lead.natAbs
  head ++ 'e' :: (if lead < 0 then '-' else '+') :: (zerosText (2 - size.length) ++ size)

/-- The fewest digits that read back in a format: positional from 10^-4 up to the digits before the
point that the format allows. It is the number that decides, not its digits. -/
def textIn (f : BinaryFormat) : Binary64 → String
  | .finite s u _ =>
    if u = 0 then signText s ++ "0.0"
    else
      let d := shortest f u
      let digits := decimalDigits d.digits
      let placed := unit ≤ u * 10000 && u < Nat.pow 10 f.wholeDigits * unit
      signText s ++
        String.ofList (if placed then positional digits d.leading else withExponent digits d.leading)
  | .infinite s => signText s ++ "inf"
  | .nan => "nan"

def toText (x : Binary64) : String := x.textIn .double

/-! Reading. -/

private def startsWithDigit : List Char → Bool
  | [] => false
  | c :: _ => Text.isDigit c

/-- Digits of any script: their values, and what follows. An underscore is passed over between two
digits only; the flag says that a digit stands before. -/
def takeDigitsAfter (afterDigit : Bool) : List Char → List Nat × List Char
  | [] => ([], [])
  | c :: rest =>
    match Text.digit? c with
    | some d =>
      let (ds, left) := takeDigitsAfter true rest
      (d :: ds, left)
    | none =>
      if c = '_' && afterDigit && startsWithDigit rest then takeDigitsAfter false rest
      else ([], c :: rest)

def takeDigits (cs : List Char) : List Nat × List Char := takeDigitsAfter false cs

private def ofDigits (ds : List Nat) : Nat := ds.foldl (fun n d => 10 * n + d) 0

def takeSign : List Char → Bool × List Char
  | '-' :: rest => (true, rest)
  | '+' :: rest => (false, rest)
  | cs => (false, cs)

def readExponent : List Char → Option Int
  | [] => some 0
  | e :: rest =>
    if e = 'e' ∨ e = 'E' then
      let (negative, rest) := takeSign rest
      match takeDigits rest with
      | ([], _) => none
      | (ds, []) => some (if negative then -(ofDigits ds : Int) else ofDigits ds)
      | _ => none
    else none

def readDecimal (cs : List Char) : Option Decimal :=
  let (whole, rest) := takeDigits cs
  let (fraction, rest) := match rest with
    | '.' :: rest' => takeDigits rest'
    | _ => ([], rest)
  if whole.isEmpty && fraction.isEmpty then none
  else
    (readExponent rest).map fun e => ⟨ofDigits (whole ++ fraction), e - fraction.length⟩

def ofText? (s : String) : Option Binary64 :=
  let (negative, body) := takeSign (Text.trim s.toList)
  let word := String.ofList (body.map Char.toLower)
  if word = "inf" ∨ word = "infinity" then some (.infinite negative)
  else if word = "nan" then some .nan
  else (readDecimal body).map (ofDecimal negative)

end PlainSheets.Binary64
