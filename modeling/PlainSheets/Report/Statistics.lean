import PlainSheets.Binary64.Arithmetic

/-!
Statistics of lists of numbers. Sums are taken pairwise: long lists are halved, and short ones are added up
in eight lanes, so that the rounding errors of double precision stay small. Sums, means and deviations are
told for any arithmetic, of which double precision is the one that is used.
-/
namespace PlainSheets

/-- What statistics need of numbers beside the four operations. -/
class Arithmetic (α : Type) where
  zero (negative : Bool) : α
  ofNat : Nat → α
  /-- What stands for the result of an operation that has none. -/
  nan : α
  abs : α → α
  sqrt : α → α
  lt : α → α → Bool

instance : Arithmetic Binary64 where
  zero := Binary64.zero
  ofNat := Binary64.ofNat
  nan := .nan
  abs := Binary64.abs
  sqrt := Binary64.sqrt
  lt := Binary64.lt

namespace Statistics

section

variable {α : Type} [Add α] [Sub α] [Mul α] [Div α] [Arithmetic α]

/-- Numbers added to lanes, eight at a time, and those that are left over. -/
def addLanes (lanes : List α) : List α → List α × List α
  | a :: b :: c :: d :: e :: f :: g :: h :: rest =>
    addLanes (List.zipWith (· + ·) lanes [a, b, c, d, e, f, g, h]) rest
  | rest => (lanes, rest)

def joinLanes : List α → α
  | [a, b, c, d, e, f, g, h] => ((a + b) + (c + d)) + ((e + f) + (g + h))
  | _ => Arithmetic.zero true

/-- The sum of at most 128 numbers. Adding to a negative zero keeps a negative zero. -/
def blockSum (xs : List α) : α :=
  if xs.length < 8 then xs.foldl (· + ·) (Arithmetic.zero true)
  else
    let (lanes, rest) := addLanes (xs.take 8) (xs.drop 8)
    rest.foldl (· + ·) (joinLanes lanes)

/-- Where a long list is halved: near its middle, after a multiple of eight numbers. -/
def halfway (n : Nat) : Nat := n / 2 - n / 2 % 8

def pairwiseSum (xs : List α) : α :=
  if xs.length ≤ 128 then blockSum xs
  else pairwiseSum (xs.take (halfway xs.length)) + pairwiseSum (xs.drop (halfway xs.length))
termination_by xs.length
decreasing_by
  · simp only [List.length_take, halfway]; omega
  · simp only [List.length_drop, halfway]; omega

/-- The sum of any list. It starts from zero, so that negative zeros alone make zero. -/
def sum (xs : List α) : α := Arithmetic.zero false + pairwiseSum xs

def count (xs : List α) : α := Arithmetic.ofNat xs.length

def mean (xs : List α) : α := if xs.isEmpty then Arithmetic.nan else sum xs / count xs

def deviation (xs : List α) : α :=
  let m := mean xs
  Arithmetic.sqrt (mean (xs.map fun x => (x - m) * (x - m)))

def isOutlier (k mean deviation x : α) : Bool :=
  Arithmetic.lt (k * deviation) (Arithmetic.abs (x - mean))

def outlierMask (k mean deviation : α) (xs : List α) : List Bool := xs.map (isOutlier k mean deviation)

end

/-- Whether a value comes before another one or ties with it; what is no number comes last. -/
def sortsBefore (x y : Binary64) : Bool := y.isNaN || (!x.isNaN && !y.lt x)

def sorted (xs : List Binary64) : List Binary64 := xs.mergeSort sortsBefore

/-- The middle value; of two, the upper one. -/
def median? (xs : List Binary64) : Option Binary64 := (sorted xs)[xs.length / 2]?

def lesser (x y : Binary64) : Binary64 :=
  if x.isNaN then x else if y.isNaN then y else if y.lt x then y else x

def greater (x y : Binary64) : Binary64 :=
  if x.isNaN then x else if y.isNaN then y else if x.lt y then y else x

inductive Trend where
  | increasing
  | decreasing
  | fluctuating
  deriving DecidableEq

namespace Trend

def name : Trend → String
  | increasing => "increasing"
  | decreasing => "decreasing"
  | fluctuating => "fluctuating"

end Trend

def steps (xs : List Binary64) : List Binary64 := List.zipWith Binary64.sub (xs.drop 1) xs

def rises (xs : List Binary64) : Nat :=
  ((steps xs).filter fun d => (Binary64.zero false).lt d).length

def falls (xs : List Binary64) : Nat :=
  ((steps xs).filter fun d => d.lt (Binary64.zero false)).length

/-- A series goes where more than three fifths of its steps go. -/
def trend (xs : List Binary64) : Trend :=
  let n := (steps xs).length
  if falls xs < rises xs ∧ 3 * n < 5 * rises xs then .increasing
  else if rises xs < falls xs ∧ 3 * n < 5 * falls xs then .decreasing
  else .fluctuating

def hundred : Binary64 := Binary64.ofNat 100

def percentChange? (first last : Binary64) : Option Binary64 :=
  if first.isZero then none else some ((last - first) / first * hundred)

/-- The share of rows that are filled, in percent. Without rows nothing is missing. -/
def completeness (filled rows : Int) : Binary64 :=
  if rows ≤ 0 then hundred
  else Binary64.ofRatio (decide (filled < 0)) (filled.natAbs * Binary64.unit) rows.toNat * hundred

end Statistics

structure NumberSummary where
  min : Binary64
  max : Binary64
  mean : Binary64
  median : Binary64
  sum : Binary64
  count : Nat

namespace NumberSummary

open Statistics

def of? : List Binary64 → Option NumberSummary
  | [] => none
  | x :: xs =>
    (median? (x :: xs)).map fun m =>
      ⟨xs.foldl lesser x, xs.foldl greater x, Statistics.mean (x :: xs), m,
        Statistics.sum (x :: xs), xs.length + 1⟩

end NumberSummary

end PlainSheets
