/-!
Double precision numbers with exact arithmetic underneath. A finite magnitude is a whole number of
units of 2^-1074, the smallest positive one; the numbers that exist are the grid points, and every
operation is the exact result carried to the nearest grid point.
-/
namespace PlainSheets

/-- The exact quotient carried to a whole number; a half goes to the even neighbour. -/
def roundQuotient (num den : Nat) : Nat :=
  let q := num / den
  let r := num % den
  if 2 * r < den then q else if den < 2 * r then q + 1 else q + q % 2

theorem roundQuotient_le (num den : Nat) : roundQuotient num den ≤ num / den + 1 := by
  unfold roundQuotient
  have := Nat.mod_lt (num / den) (show 0 < 2 by decide)
  simp only
  split
  · omega
  · split <;> omega

namespace Binary64

def unit : Nat := Nat.pow 2 1074

theorem unit_pos : 0 < unit := by decide +kernel

def ceiling : Nat := Nat.pow 2 2098

theorem ceiling_pos : 0 < ceiling := by decide +kernel

/-- Whether a whole number of units has at most 53 significant bits and is below the ceiling. -/
def OnGrid (units : Nat) : Prop := units < ceiling ∧ Nat.pow 2 (units.log2 - 52) ∣ units

instance (units : Nat) : Decidable (OnGrid units) := inferInstanceAs (Decidable (_ ∧ _))

/-- The distance between grid points around a magnitude, in a format of the given precision whose
smallest step is `2 ^ least` units. -/
def step (precision least : Nat) (magnitude : Nat) : Nat :=
  Nat.pow 2 (max least (magnitude.log2 + 1 - precision))

/-- The grid point nearest to `num / den` units, ties to the even significand. -/
def nearest (precision least num den : Nat) : Nat :=
  roundQuotient num (den * step precision least (num / den)) * step precision least (num / den)

theorem dvd_mul_pow {r k : Nat} (h : r ≤ Nat.pow 2 53) :
    Nat.pow 2 ((r * Nat.pow 2 k).log2 - 52) ∣ r * Nat.pow 2 k := by
  change r ≤ 2 ^ 53 at h
  change 2 ^ ((r * 2 ^ k).log2 - 52) ∣ r * 2 ^ k
  rcases Nat.eq_or_lt_of_le h with h | h
  · subst h
    rw [← Nat.pow_add, Nat.log2_two_pow]
    exact Nat.pow_dvd_pow 2 (by omega)
  · rcases Nat.eq_zero_or_pos r with h0 | h0
    · simp [h0]
    · have hne : r * 2 ^ k ≠ 0 := Nat.ne_of_gt (Nat.mul_pos h0 (Nat.two_pow_pos k))
      have hlt : r * 2 ^ k < 2 ^ (53 + k) := by
        rw [Nat.pow_add]
        exact Nat.mul_lt_mul_of_pos_right h (Nat.two_pow_pos k)
      have := (Nat.log2_lt hne).2 hlt
      exact Nat.dvd_trans (Nat.pow_dvd_pow 2 (by omega)) (Nat.dvd_mul_left _ r)

theorem roundQuotient_step_le {precision least num den : Nat} (hp : precision ≤ 53) :
    roundQuotient num (den * step precision least (num / den)) ≤ Nat.pow 2 53 := by
  change roundQuotient num (den * 2 ^ max least ((num / den).log2 + 1 - precision)) ≤ 2 ^ 53
  refine Nat.le_trans (roundQuotient_le _ _) ?_
  rw [← Nat.div_div_eq_div_mul]
  generalize num / den = q
  refine Nat.succ_le_of_lt ?_
  refine Nat.lt_of_lt_of_le ?_ (Nat.pow_le_pow_right (by decide) hp)
  refine (Nat.div_lt_iff_lt_mul (Nat.two_pow_pos _)).2 ?_
  rw [← Nat.pow_add]
  exact Nat.lt_of_lt_of_le Nat.lt_log2_self (Nat.pow_le_pow_right (by decide) (by omega))

theorem nearest_onGrid {precision least num den : Nat} (hp : precision ≤ 53)
    (h : nearest precision least num den < ceiling) : OnGrid (nearest precision least num den) :=
  ⟨h, dvd_mul_pow (roundQuotient_step_le hp)⟩

end Binary64

structure BinaryFormat where
  /-- Significant bits. -/
  precision : Nat
  /-- The smallest step is `2 ^ least` units. -/
  least : Nat
  /-- Magnitudes stay below `2 ^ top` units. -/
  top : Nat
  /-- Magnitudes of more digits before the point are written with an exponent. -/
  wholeDigits : Nat
  precision_le : precision ≤ 53 := by decide

namespace BinaryFormat

def half : BinaryFormat := { precision := 11, least := 1050, top := 1090, wholeDigits := 3 }

def single : BinaryFormat := { precision := 24, least := 925, top := 1202, wholeDigits := 6 }

def double : BinaryFormat := { precision := 53, least := 0, top := 2098, wholeDigits := 16 }

end BinaryFormat

/-- A double precision number. Zero has both signs; all that is no number is one value. -/
inductive Binary64 where
  | finite (negative : Bool) (units : Nat) (onGrid : Binary64.OnGrid units)
  | infinite (negative : Bool)
  | nan
  deriving DecidableEq

namespace Binary64

def ofRatioIn (precision least : Nat) (hp : precision ≤ 53) (negative : Bool) (num den : Nat)
    (top : Nat) : Binary64 :=
  if h : nearest precision least num den < ceiling then
    if nearest precision least num den < top then
      .finite negative (nearest precision least num den) (nearest_onGrid hp h)
    else .infinite negative
  else .infinite negative

def ofRatio (negative : Bool) (num den : Nat) : Binary64 :=
  ofRatioIn 53 0 (by decide) negative num den ceiling

def zero (negative : Bool) : Binary64 := .finite negative 0 ⟨ceiling_pos, Nat.dvd_zero _⟩

instance : Inhabited Binary64 := ⟨zero false⟩

def ofInt (n : Int) : Binary64 := ofRatio (decide (n < 0)) (n.natAbs * unit) 1

def ofNat (n : Nat) : Binary64 := ofInt n

def ofInt? (n : Int) : Option Binary64 :=
  match ofInt n with
  | .finite s u h => some (.finite s u h)
  | _ => none

def roundTo (f : BinaryFormat) : Binary64 → Binary64
  | .finite s u _ => ofRatioIn f.precision f.least f.precision_le s u 1 (Nat.pow 2 f.top)
  | x => x

def isNaN : Binary64 → Bool
  | .nan => true
  | _ => false

def isFinite : Binary64 → Bool
  | .finite .. => true
  | _ => false

def signed (negative : Bool) (units : Nat) : Int := if negative then -(units : Int) else units

def units? : Binary64 → Option Int
  | .finite s u _ => some (signed s u)
  | _ => none

def toInt? : Binary64 → Option Int
  | .finite s u _ => if u % unit = 0 then some (signed s (u / unit)) else none
  | _ => none

end Binary64

end PlainSheets
