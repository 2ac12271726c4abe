import PlainSheets.Proofs.Binary64.Nearest
import Mathlib.Data.Nat.Cast.Order.Field
import Mathlib.Data.Nat.Digits.Defs
import Mathlib.Tactic.FieldSimp
import Mathlib.Tactic.NormNum
import Mathlib.Tactic.Positivity

/-!
The fewest digits that read back do read back. The reader depends on the value of a decimal alone,
the value lies in the catchment of the number by the choice of the digits, and seventeen digits are
always enough.
-/
namespace PlainSheets.Binary64

namespace Decimal

def value (d : Decimal) : ℚ := d.digits * (10 : ℚ) ^ d.exponent

@[simp] theorem value_shift (n k : Nat) (e : Int) : value ⟨n * 10 ^ k, e - k⟩ = value ⟨n, e⟩ := by
  have hten : (10 : ℚ) ≠ 0 := by norm_num
  simp only [value, zpow_sub₀ hten, zpow_natCast]
  push_cast
  field_simp

@[simp] theorem value_stripFrom (fuel : Nat) (d : Decimal) : (stripFrom fuel d).value = d.value := by
  induction fuel generalizing d with
  | zero => rfl
  | succ fuel ih =>
    unfold stripFrom
    split
    · rename_i hmod
      rw [ih]
      have hdigits : d.digits = d.digits / 10 * 10 ^ 1 := by omega
      have hexponent : d.exponent = d.exponent + 1 - (1 : Nat) := by omega
      have hshift := value_shift (d.digits / 10) 1 (d.exponent + 1)
      rw [← hdigits, ← hexponent] at hshift
      exact hshift.symm
    · rfl

end Decimal

def Catchment.Within (c : Catchment) (x : ℚ) : Prop :=
  c.low ≤ 4 * unit * x ∧ 4 * unit * x ≤ c.high ∧
    (c.closed = false → c.low < 4 * unit * x ∧ 4 * unit * x < c.high)

theorem Catchment.Within.contains {c : Catchment} {x : ℚ} (h : c.Within x) {num den : Nat}
    (hden : 0 < den) (hx : (num : ℚ) / den = unit * x) : c.Contains num den := by
  have hden' : (0 : ℚ) < den := by exact_mod_cast hden
  have hnum : 4 * (num : ℚ) = 4 * unit * x * den := by
    rw [mul_assoc 4, ← hx]
    field_simp
  obtain ⟨hlow, hhigh, hstrict⟩ := h
  refine ⟨?_, ?_, fun hopen => ⟨?_, ?_⟩⟩
  · have := mul_le_mul_of_nonneg_right hlow hden'.le
    exact_mod_cast this.trans_eq hnum.symm
  · have := mul_le_mul_of_nonneg_right hhigh hden'.le
    exact_mod_cast hnum.trans_le this
  · have := mul_lt_mul_of_pos_right (hstrict hopen).1 hden'
    exact_mod_cast this.trans_eq hnum.symm
  · have := mul_lt_mul_of_pos_right (hstrict hopen).2 hden'
    exact_mod_cast hnum.trans_lt this

theorem zpow_eq_div (e : Int) :
    (10 : ℚ) ^ e = if 0 ≤ e then (10 : ℚ) ^ e.toNat else 1 / (10 : ℚ) ^ (-e).toNat := by
  split
  · rename_i he
    rw [← zpow_natCast, Int.toNat_of_nonneg he]
  · rename_i he
    rw [← zpow_natCast, Int.toNat_of_nonneg (by omega), zpow_neg, one_div, inv_inv]

theorem Catchment.within_of_holds {c : Catchment} {d : Decimal}
    (h : c.holds d.digits d.exponent = true) : c.Within d.value := by
  have hpow (k : Nat) : (0 : ℚ) < (10 : ℚ) ^ k := by positivity
  have key (num den : Nat) (hden : 0 < den) (hvalue : d.value = (num : ℚ) / den)
      (h : (if c.closed then c.low * den ≤ 4 * unit * num && 4 * unit * num ≤ c.high * den
        else c.low * den < 4 * unit * num && 4 * unit * num < c.high * den : Bool) = true) :
      c.Within d.value := by
    have hden' : (0 : ℚ) < den := by exact_mod_cast hden
    have hmul : 4 * (unit : ℚ) * d.value = ((4 * unit * num : Nat) : ℚ) / den := by
      rw [hvalue]
      push_cast
      ring
    unfold Catchment.Within
    generalize unit = perOne at h hmul ⊢
    rw [hmul, le_div_iff₀ hden', div_le_iff₀ hden', lt_div_iff₀ hden', div_lt_iff₀ hden']
    norm_cast
    by_cases hclosed : c.closed = true
    · simp only [hclosed, if_true, Bool.and_eq_true, decide_eq_true_eq] at h
      exact ⟨h.1, h.2, by simp [hclosed]⟩
    · simp only [hclosed, Bool.false_eq_true, if_false, Bool.and_eq_true, decide_eq_true_eq] at h
      exact ⟨h.1.le, h.2.le, fun _ => h⟩
  unfold Catchment.holds at h
  by_cases he : 0 ≤ d.exponent
  · simp only [he, if_true] at h
    refine key _ 1 one_pos ?_ h
    rw [Decimal.value, zpow_eq_div, if_pos he]
    change _ = ((d.digits * 10 ^ d.exponent.toNat : Nat) : ℚ) / ((1 : Nat) : ℚ)
    push_cast
    ring
  · simp only [he, if_false] at h
    refine key _ (10 ^ (-d.exponent).toNat) (Nat.pow_pos (by decide)) ?_ h
    rw [Decimal.value, zpow_eq_div, if_neg he]
    push_cast
    ring

/-! Digits of a number, and the size of a decimal. -/

theorem lt_pow_digitCount (n : Nat) : n < 10 ^ digitCount n :=
  (Nat.length_toDigits_le_iff (by decide) Nat.length_toDigits_pos).mp le_rfl

theorem digitCount_pos (n : Nat) : 0 < digitCount n := Nat.length_toDigits_pos

theorem pow_digitCount_le {n : Nat} (hn : 0 < n) : 10 ^ (digitCount n - 1) ≤ n := by
  by_contra hlt
  have hcount := digitCount_pos n
  rcases Nat.eq_zero_or_pos (digitCount n - 1) with hone | hmore
  · rw [hone] at hlt
    omega
  · have hshort : digitCount n ≤ digitCount n - 1 :=
      (Nat.length_toDigits_le_iff (by decide) hmore).mpr (Nat.lt_of_not_le hlt)
    omega

theorem Decimal.pow_leading_le {d : Decimal} (hd : 0 < d.digits) :
    (10 : ℚ) ^ d.leading ≤ d.value := by
  have hten : (10 : ℚ) ≠ 0 := by norm_num
  have hcount := digitCount_pos d.digits
  have hsum : d.leading = (digitCount d.digits - 1 : Nat) + d.exponent := by
    unfold Decimal.leading
    omega
  have hdigits : ((10 ^ (digitCount d.digits - 1) : Nat) : ℚ) ≤ d.digits := by
    exact_mod_cast pow_digitCount_le hd
  rw [hsum, zpow_add₀ hten, zpow_natCast, Decimal.value]
  push_cast at hdigits
  exact mul_le_mul_of_nonneg_right hdigits (zpow_nonneg (by norm_num) _)

theorem Decimal.value_lt (d : Decimal) : d.value < (10 : ℚ) ^ (d.leading + 1) := by
  have hten : (10 : ℚ) ≠ 0 := by norm_num
  have hsum : d.leading + 1 = (digitCount d.digits : Nat) + d.exponent := by
    unfold Decimal.leading
    omega
  have hdigits : (d.digits : ℚ) < ((10 ^ digitCount d.digits : Nat) : ℚ) := by
    exact_mod_cast lt_pow_digitCount d.digits
  rw [hsum, zpow_add₀ hten, zpow_natCast, Decimal.value]
  push_cast at hdigits
  exact mul_lt_mul_of_pos_right hdigits (zpow_pos (by norm_num) _)

section

variable {u : Nat}

theorem OnGrid.step_le (hu : OnGrid u) (hpos : 0 < u) : step 53 0 u ≤ u :=
  Nat.le_of_dvd hpos hu.step_dvd

theorem two_le_low (hu : OnGrid u) (hpos : 0 < u) : 2 ≤ (catchment 53 0 u).low := by
  have hstep := hu.step_le hpos
  simp only [catchment]
  split <;> omega

theorem high_lt (hu : OnGrid u) (hpos : 0 < u) : (catchment 53 0 u).high < 6 * ceiling := by
  have hstep := hu.step_le hpos
  have hlt := hu.1
  simp only [catchment]
  omega

/-- Whatever lies in the catchment of a number is read as the number. -/
theorem ofDecimal_eq {d : Decimal} (s : Bool) (hu : OnGrid u) (hpos : 0 < u)
    (h : (catchment 53 0 u).Within d.value) : ofDecimal s d = .finite s u hu := by
  have hunit : (0 : ℚ) < 4 * unit := by
    have : (0 : ℚ) < unit := by exact_mod_cast unit_pos
    linarith
  have hlow : (2 : ℚ) ≤ 4 * unit * d.value :=
    le_trans (by exact_mod_cast two_le_low hu hpos) h.1
  have hhigh : 4 * unit * d.value < 6 * ceiling :=
    h.2.1.trans_lt (by exact_mod_cast high_lt hu hpos)
  have hdigits : d.digits ≠ 0 := by
    intro hzero
    rw [Decimal.value, hzero, Nat.cast_zero, zero_mul, mul_zero] at hlow
    linarith
  have hnotLarge : ¬ 320 < d.leading := by
    intro hlarge
    have hpow : (10 : ℚ) ^ (321 : Int) ≤ d.value :=
      (zpow_le_zpow_right₀ (by norm_num) (by omega)).trans
        (Decimal.pow_leading_le (Nat.pos_of_ne_zero hdigits))
    have hmul := mul_le_mul_of_nonneg_left hpow hunit.le
    have hbound : 6 * ceiling < 4 * unit * 10 ^ 321 := by decide +kernel
    have hcast : (6 * ceiling : ℚ) < 4 * unit * 10 ^ 321 := by exact_mod_cast hbound
    rw [show (321 : Int) = (321 : Nat) from rfl, zpow_natCast] at hmul
    exact lt_irrefl _ ((hcast.trans_le hmul).trans hhigh)
  have hnotSmall : ¬ d.leading < -400 := by
    intro hsmall
    have hpow : d.value < (10 : ℚ) ^ (-400 : Int) :=
      d.value_lt.trans_le (zpow_le_zpow_right₀ (by norm_num) (by omega))
    have hmul := mul_lt_mul_of_pos_left hpow hunit
    have hbound : 4 * unit < 2 * 10 ^ 400 := by decide +kernel
    have hcast : (4 * unit : ℚ) < 2 * 10 ^ 400 := by exact_mod_cast hbound
    rw [show (-400 : Int) = -(400 : Nat) from rfl, zpow_neg, zpow_natCast, ← div_eq_mul_inv,
      lt_div_iff₀ (by positivity)] at hmul
    have hmul' := mul_le_mul_of_nonneg_right hlow (show (0 : ℚ) ≤ 10 ^ 400 by positivity)
    exact lt_irrefl _ (hmul'.trans_lt (hmul.trans hcast))
  unfold ofDecimal
  rw [if_neg hdigits, if_neg hnotLarge, if_neg hnotSmall]
  split
  · rename_i he
    refine ofRatio_eq hu hpos one_pos (h.contains one_pos ?_)
    change ((d.digits * 10 ^ d.exponent.toNat * unit : Nat) : ℚ) / ((1 : Nat) : ℚ) = _
    rw [Decimal.value, zpow_eq_div, if_pos he]
    push_cast
    ring
  · rename_i he
    have hden : 0 < 10 ^ (-d.exponent).toNat := Nat.pow_pos (by decide)
    refine ofRatio_eq hu hpos hden (h.contains hden ?_)
    change ((d.digits * unit : Nat) : ℚ) / ((10 ^ (-d.exponent).toNat : Nat) : ℚ) = _
    rw [Decimal.value, zpow_eq_div, if_neg he]
    push_cast
    ring

/-! Seventeen digits. -/

theorem le_leadingExponent {num den : Nat} (hnum : 0 < num) (hden : 0 < den) :
    (10 : ℚ) ^ leadingExponent num den ≤ num / den := by
  have hden' : (0 : ℚ) < den := by exact_mod_cast hden
  unfold leadingExponent
  split
  · rename_i hle
    have hquotient : 0 < num / den := Nat.div_pos hle hden
    have hexponent : ((digitCount (num / den) : Int) - 1) = (digitCount (num / den) - 1 : Nat) := by
      have := digitCount_pos (num / den)
      omega
    rw [hexponent, zpow_natCast]
    calc (10 : ℚ) ^ (digitCount (num / den) - 1) ≤ (num / den : Nat) := by
          exact_mod_cast pow_digitCount_le hquotient
      _ ≤ num / den := Nat.cast_div_le
  · have hupper := lt_pow_digitCount ((den + num - 1) / num - 1)
    generalize digitCount ((den + num - 1) / num - 1) = k at hupper ⊢
    have hsplit : num * ((den + num - 1) / num) + (den + num - 1) % num = den + num - 1 :=
      Nat.div_add_mod _ _
    have hmod := Nat.mod_lt (den + num - 1) hnum
    have hmul : den ≤ num * 10 ^ k := by
      have := Nat.mul_le_mul_left num (show (den + num - 1) / num ≤ 10 ^ k by omega)
      omega
    have hcast : (den : ℚ) ≤ num * 10 ^ k := by exact_mod_cast hmul
    rw [zpow_neg, zpow_natCast, le_div_iff₀ hden', inv_mul_le_iff₀ (by positivity), mul_comm]
    exact hcast

theorem inSteps_pos (num : Nat) {den : Nat} (hden : 0 < den) (e : Int) :
    0 < (inSteps num den e).2 := by
  unfold inSteps
  split
  · exact Nat.mul_pos hden (Nat.pow_pos (by decide))
  · exact hden

theorem inSteps_eq (num : Nat) {den : Nat} (hden : 0 < den) (e : Int) :
    ((inSteps num den e).1 : ℚ) / (inSteps num den e).2 * (10 : ℚ) ^ e = num / den := by
  have hden' : (den : ℚ) ≠ 0 := by exact_mod_cast hden.ne'
  rw [zpow_eq_div]
  unfold inSteps
  split
  · change (num : ℚ) / ((den * 10 ^ e.toNat : Nat) : ℚ) * _ = _
    push_cast
    field_simp
  · change ((num * 10 ^ (-e).toNat : Nat) : ℚ) / den * _ = _
    push_cast
    field_simp

theorem roundQuotient_near (num : Nat) {den : Nat} (hden : 0 < den) :
    |(roundQuotient num den : ℚ) - num / den| ≤ 1 / 2 := by
  have hden' : (0 : ℚ) < den := by exact_mod_cast hden
  have hnear := roundQuotient_within num hden
  have hcast : (2 * num : ℚ) ≤ 2 * (roundQuotient num den * den) + den ∧
      (2 * (roundQuotient num den * den) : ℚ) ≤ 2 * num + den := by exact_mod_cast hnear
  have hnum : (num : ℚ) = num / den * den := by field_simp
  rw [hnum] at hcast
  rw [abs_le]
  constructor <;> nlinarith

theorem OnGrid.lt_steps (u : Nat) : u < 2 ^ 53 * step 53 0 u := by
  have hpow : u < 2 ^ (u.log2 + 1) := Nat.lt_log2_self
  refine hpow.trans_le ?_
  change 2 ^ (u.log2 + 1) ≤ 2 ^ 53 * 2 ^ max 0 (u.log2 + 1 - 53)
  rw [← Nat.pow_add]
  exact Nat.pow_le_pow_right (by decide) (by omega)

/-- A power of two above the finest steps has 53 bits, of which only the first is set. -/
theorem eq_steps_of_power (hfine : 1 < step 53 0 u) (hpower : u = 2 ^ u.log2) :
    u = 2 ^ 52 * step 53 0 u := by
  have hlog : 0 < u.log2 + 1 - 53 := by
    by_contra hzero
    have hone : step 53 0 u = 1 := by
      rw [step, show max 0 (u.log2 + 1 - 53) = 0 by omega, Nat.pow_eq, Nat.pow_zero]
    omega
  change u = 2 ^ 52 * 2 ^ max 0 (u.log2 + 1 - 53)
  rw [← Nat.pow_add, show 52 + max 0 (u.log2 + 1 - 53) = u.log2 by omega]
  exact hpower

/-- Numbers nearer than the last of seventeen digits lie in the catchment. -/
theorem within_of_near {x : ℚ} (hu : OnGrid u) (hpos : 0 < u)
    (h : |x - u / unit| * (2 * 10 ^ 16) ≤ u / unit) : (catchment 53 0 u).Within x := by
  have hunit : (0 : ℚ) < unit := by exact_mod_cast unit_pos
  have hstep := hu.step_le hpos
  have hdistance : |4 * unit * x - 4 * u| * 10 ^ 16 ≤ 2 * u := by
    have hquotient : (u : ℚ) / unit * unit = u := div_mul_cancel₀ (u : ℚ) hunit.ne'
    have hfactor : 4 * unit * x - 4 * u = 4 * unit * (x - u / unit) := by
      rw [mul_sub, mul_assoc 4 (unit : ℚ) (u / unit), mul_comm (unit : ℚ) (u / unit), hquotient]
    rw [hfactor, abs_mul, abs_of_pos (by linarith)]
    nlinarith
  have hgap : |4 * unit * x - 4 * u| < 2 * step 53 0 u := by
    have hlt : (u : ℚ) < 2 ^ 53 * step 53 0 u := by exact_mod_cast OnGrid.lt_steps u
    linarith
  rw [abs_lt] at hgap
  have hhigh : 4 * unit * x < ((catchment 53 0 u).high : ℚ) := by
    have : ((catchment 53 0 u).high : ℚ) = 4 * u + 2 * step 53 0 u := by
      simp only [catchment]
      push_cast
      ring
    linarith
  have hlow : ((catchment 53 0 u).low : ℚ) < 4 * unit * x := by
    simp only [catchment]
    split
    · rename_i hfiner
      have hfiner' : 1 < step 53 0 u ∧ u = 2 ^ u.log2 := by simpa using hfiner
      have hpower : (u : ℚ) = 2 ^ 52 * step 53 0 u := by
        exact_mod_cast eq_steps_of_power hfiner'.1 hfiner'.2
      have hfine : |4 * unit * x - 4 * u| < step 53 0 u := by
        have : (0 : ℚ) < step 53 0 u := by exact_mod_cast step_pos 53 0 u
        linarith
      rw [abs_lt] at hfine
      rw [Nat.cast_sub (by omega)]
      push_cast
      linarith
    · rw [Nat.cast_sub (by omega)]
      push_cast
      linarith
  exact ⟨hlow.le, hhigh.le, fun _ => ⟨hlow, hhigh⟩⟩

theorem shortestFrom_within (hu : OnGrid u) (hpos : 0 < u) {count fuel : Nat}
    (hcount : count + fuel = 17) :
    (catchment 53 0 u).Within
      (shortestFrom (catchment 53 0 u) u (leadingExponent u unit) count fuel).value := by
  induction fuel generalizing count with
  | zero =>
    -- The last digit is a half off at most, and the first one stands sixteen places before it.
    have hexponent : leadingExponent u unit + 1 - (count : Int) = leadingExponent u unit - 16 := by
      omega
    have hlead := le_leadingExponent hpos unit_pos
    have hsteps := inSteps_eq u unit_pos (leadingExponent u unit - 16)
    have hnear := roundQuotient_near (inSteps u unit (leadingExponent u unit - 16)).1
      (inSteps_pos u unit_pos (leadingExponent u unit - 16))
    unfold shortestFrom
    simp only
    rw [hexponent]
    refine within_of_near hu hpos ?_
    generalize inSteps u unit (leadingExponent u unit - 16) = steps at hsteps hnear ⊢
    generalize leadingExponent u unit = lead at hlead hsteps ⊢
    have hpow : (0 : ℚ) < (10 : ℚ) ^ (lead - 16) := zpow_pos (by norm_num) _
    rw [Decimal.value, ← hsteps, ← sub_mul, abs_mul, abs_of_pos hpow, hsteps]
    calc
      |(roundQuotient steps.1 steps.2 : ℚ) - steps.1 / steps.2| * 10 ^ (lead - 16) * (2 * 10 ^ 16)
        ≤ 1 / 2 * 10 ^ (lead - 16) * (2 * 10 ^ 16) := by gcongr
      _ = 10 ^ (lead - 16) * 10 ^ (16 : Int) := by norm_num; ring
      _ = 10 ^ lead := by rw [← zpow_add₀ (by norm_num), sub_add_cancel]
      _ ≤ u / unit := hlead
  | succ fuel ih =>
    unfold shortestFrom
    simp only
    split
    · rename_i d hfind
      have hholds := List.find?_some hfind
      exact Catchment.within_of_holds (d := ⟨d, _⟩) hholds
    · exact ih (by omega)

theorem shortest_within (hu : OnGrid u) (hpos : 0 < u) :
    (catchment 53 0 u).Within (shortest .double u).value := by
  rw [shortest, Decimal.strip, Decimal.value_stripFrom]
  exact shortestFrom_within hu hpos rfl

theorem shortest_digits_pos (hu : OnGrid u) (hpos : 0 < u) : 0 < (shortest .double u).digits := by
  have hlow : ((2 : Nat) : ℚ) ≤ (catchment 53 0 u).low := by exact_mod_cast two_le_low hu hpos
  have hvalue := hlow.trans (shortest_within hu hpos).1
  refine Nat.pos_of_ne_zero fun hzero => ?_
  rw [Decimal.value, hzero, Nat.cast_zero, zero_mul, mul_zero, Nat.cast_two] at hvalue
  linarith

theorem ofDecimal_shortest {d : Decimal} (s : Bool) (hu : OnGrid u) (hpos : 0 < u)
    (hd : d.value = (shortest .double u).value) : ofDecimal s d = .finite s u hu :=
  ofDecimal_eq s hu hpos (hd ▸ shortest_within hu hpos)

end

end PlainSheets.Binary64
