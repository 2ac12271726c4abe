import PlainSheets.Binary64.Basic

/-!
Arithmetic, order and square roots of double precision numbers, each defined from the exact result.
-/
namespace PlainSheets.Binary64

def neg : Binary64 → Binary64
  | .finite s u h => .finite (!s) u h
  | .infinite s => .infinite (!s)
  | .nan => .nan

def abs : Binary64 → Binary64
  | .finite _ u h => .finite false u h
  | .infinite _ => .infinite false
  | .nan => .nan

/-- A sum that is exactly zero is negative only if both terms are negative zeros. -/
def add : Binary64 → Binary64 → Binary64
  | .nan, _ => .nan
  | _, .nan => .nan
  | .infinite s, .infinite t => if s = t then .infinite s else .nan
  | .infinite s, .finite .. => .infinite s
  | .finite .., .infinite t => .infinite t
  | .finite s u _, .finite t v _ =>
    let sum := signed s u + signed t v
    ofRatio (if sum = 0 then s && t else decide (sum < 0)) sum.natAbs 1

def sub (x y : Binary64) : Binary64 := add x (neg y)

def mul : Binary64 → Binary64 → Binary64
  | .nan, _ => .nan
  | _, .nan => .nan
  | .infinite s, .infinite t => .infinite (s ^^ t)
  | .infinite s, .finite t v _ => if v = 0 then .nan else .infinite (s ^^ t)
  | .finite s u _, .infinite t => if u = 0 then .nan else .infinite (s ^^ t)
  | .finite s u _, .finite t v _ => ofRatio (s ^^ t) (u * v) unit

def div : Binary64 → Binary64 → Binary64
  | .nan, _ => .nan
  | _, .nan => .nan
  | .infinite _, .infinite _ => .nan
  | .infinite s, .finite t _ _ => .infinite (s ^^ t)
  | .finite s _ _, .infinite t => zero (s ^^ t)
  | .finite s u _, .finite t v _ =>
    if v = 0 then if u = 0 then .nan else .infinite (s ^^ t)
    else ofRatio (s ^^ t) (u * unit) v

def floorSqrt (n : Nat) : Nat :=
  if h : n < 4 then if n = 0 then 0 else 1
  else
    let r := 2 * floorSqrt (n / 4)
    if (r + 1) * (r + 1) ≤ n then r + 1 else r
termination_by n
decreasing_by omega

/-- The root is cut to whole units with one more bit that tells whether anything was cut off, which
is enough to round it. -/
def sqrt : Binary64 → Binary64
  | .nan => .nan
  | .infinite s => if s then .nan else .infinite false
  | .finite s u h =>
    if u = 0 then .finite s u h
    else if s then .nan
    else
      let square := u * unit
      let root := floorSqrt square
      ofRatio false (2 * root + if root * root = square then 0 else 1) 2

instance : Neg Binary64 := ⟨neg⟩
instance : Add Binary64 := ⟨add⟩
instance : Sub Binary64 := ⟨sub⟩
instance : Mul Binary64 := ⟨mul⟩
instance : Div Binary64 := ⟨div⟩

/-- Exact comparison; the two zeros are equal and nothing compares with a non-number. -/
def compare? : Binary64 → Binary64 → Option Ordering
  | .nan, _ => none
  | _, .nan => none
  | .finite s u _, .finite t v _ => some (compare (signed s u) (signed t v))
  | .infinite s, .infinite t => some (compare t s)
  | .infinite s, .finite .. => some (if s then .lt else .gt)
  | .finite .., .infinite t => some (if t then .gt else .lt)

def compareInt? : Binary64 → Int → Option Ordering
  | .nan, _ => none
  | .infinite s, _ => some (if s then .lt else .gt)
  | .finite s u _, n => some (compare (signed s u) (n * unit))

def lt (x y : Binary64) : Bool := compare? x y == some .lt

def eqv (x y : Binary64) : Bool := compare? x y == some .eq

def isZero (x : Binary64) : Bool := eqv x (zero false)

end PlainSheets.Binary64
