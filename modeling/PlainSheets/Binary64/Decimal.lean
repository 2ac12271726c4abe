import PlainSheets.Binary64.Basic

/-!
Decimal forms of double precision numbers: the fewest digits that read back, a given number of
significant digits, and the number nearest to a decimal. All in exact whole-number arithmetic.
-/
namespace PlainSheets.Binary64

def decimalDigits (n : Nat) : List Char := Nat.toDigits 10 n

def digitCount (n : Nat) : Nat := (decimalDigits n).length

/-- A positive decimal `digits · 10 ^ exponent`. -/
structure Decimal where
  digits : Nat
  exponent : Int
  deriving DecidableEq, Repr

namespace Decimal

/-- Without zeros at the end of the digits; the fuel is the number of digits. -/
def stripFrom : Nat → Decimal → Decimal
  | 0, d => d
  | fuel + 1, d =>
    if d.digits % 10 = 0 then stripFrom fuel ⟨d.digits / 10, d.exponent + 1⟩ else d

def strip (d : Decimal) : Decimal := stripFrom (digitCount d.digits) d

def leading (d : Decimal) : Int := d.exponent + digitCount d.digits - 1

end Decimal

def leadingExponent (num den : Nat) : Int :=
  if den ≤ num then (digitCount (num / den) : Int) - 1
  else -(digitCount ((den + num - 1) / num - 1) : Int)

def inSteps (num den : Nat) (exponent : Int) : Nat × Nat :=
  if 0 ≤ exponent then (num, den * Nat.pow 10 exponent.toNat)
  else (num * Nat.pow 10 (-exponent).toNat, den)

/-- The reals that the rounding of decimals carries to a grid point, in quarter units: the two ends,
and whether they belong to it. -/
structure Catchment where
  low : Nat
  high : Nat
  closed : Bool

/-- Half the way to both neighbours. Below a power of two the grid is twice as fine. -/
def catchment (precision least units : Nat) : Catchment :=
  let gap := step precision least units
  let finer := Nat.pow 2 least < gap && units == Nat.pow 2 units.log2
  ⟨4 * units - (if finer then gap else 2 * gap), 4 * units + 2 * gap, units / gap % 2 == 0⟩

def Catchment.holds (c : Catchment) (digits : Nat) (exponent : Int) : Bool :=
  let (num, den) :=
    if 0 ≤ exponent then (digits * Nat.pow 10 exponent.toNat, 1)
    else (digits, Nat.pow 10 (-exponent).toNat)
  let value := 4 * unit * num
  if c.closed then c.low * den ≤ value && value ≤ c.high * den
  else c.low * den < value && value < c.high * den

/-- The two decimals with steps of `10 ^ exponent` next to `units`, the nearer one first; of two
equally near ones the even one. -/
def neighbours (units : Nat) (exponent : Int) : List Nat :=
  let (num, den) := inSteps units unit exponent
  let below := num / den
  if roundQuotient num den = below then [below, below + 1] else [below + 1, below]

/-- The shortest decimal near `units` that lies in a catchment, from `count` digits up; the fuel
bounds the digits that are tried. -/
def shortestFrom (c : Catchment) (units : Nat) (lead : Int) : Nat → Nat → Decimal
  | count, 0 =>
    let exponent := lead + 1 - count
    let (num, den) := inSteps units unit exponent
    ⟨roundQuotient num den, exponent⟩
  | count, fuel + 1 =>
    let exponent := lead + 1 - count
    match (neighbours units exponent).find? (fun d => c.holds d exponent) with
    | some d => ⟨d, exponent⟩
    | none => shortestFrom c units lead (count + 1) fuel

/-- The fewest digits that read back as `units` in a format, and of those the nearest to it. Seventeen
always read back. -/
def shortest (f : BinaryFormat) (units : Nat) : Decimal :=
  (shortestFrom (catchment f.precision f.least units) units (leadingExponent units unit) 1 16).strip

def significant (count units : Nat) : Decimal :=
  let exponent := leadingExponent units unit + 1 - count
  let (num, den) := inSteps units unit exponent
  (Decimal.mk (roundQuotient num den) exponent).strip

/-- The number nearest to a decimal. The first test keeps the powers of ten small. -/
def ofDecimal (negative : Bool) (d : Decimal) : Binary64 :=
  if d.digits = 0 then zero negative
  else if 320 < d.leading then .infinite negative
  else if d.leading < -400 then zero negative
  else if 0 ≤ d.exponent then ofRatio negative (d.digits * Nat.pow 10 d.exponent.toNat * unit) 1
  else ofRatio negative (d.digits * unit) (Nat.pow 10 (-d.exponent).toNat)

def toSignificant (count : Nat) : Binary64 → Binary64
  | .finite s u h => if u = 0 then .finite s u h else ofDecimal s (significant count u)
  | x => x

def roundToInt? : Binary64 → Option Int
  | .finite s u _ => some (signed s (roundQuotient u unit))
  | _ => none

end PlainSheets.Binary64
