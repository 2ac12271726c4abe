import PlainSheets.Binary64.Decimal
import Mathlib.Tactic.Linarith
import Mathlib.Tactic.Ring

/-!
Rounding to the grid. A quotient within half a step of a whole number is carried to it, and so
everything in the catchment of a grid point is carried to this point, on both sides of a power of
two.
-/
namespace PlainSheets

/-- The quotients that are carried to `m`; those halfway only if `m` is even. -/
theorem roundQuotient_eq {m num den : Nat} (hden : 0 < den) (hlow : 2 * (m * den) ≤ 2 * num + den)
    (hhigh : 2 * num ≤ 2 * (m * den) + den)
    (hhalf : m % 2 = 0 ∨ 2 * (m * den) < 2 * num + den ∧ 2 * num < 2 * (m * den) + den) :
    roundQuotient num den = m := by
  have hsplit : num / den * den + num % den = num := Nat.div_add_mod' num den
  have hmod : num % den < den := Nat.mod_lt num hden
  have hquotient : num / den = m ∨ num / den + 1 = m := by
    have hle : num / den ≤ m := by
      by_contra hlt
      have := Nat.mul_le_mul_right den (show m + 1 ≤ num / den by omega)
      rw [Nat.add_mul] at this
      omega
    have hge : m ≤ num / den + 1 := by
      by_contra hlt
      have := Nat.mul_le_mul_right den (show num / den + 2 ≤ m by omega)
      rw [Nat.add_mul] at this
      omega
    omega
  unfold roundQuotient
  simp only
  rcases hquotient with hq | hq
  · rw [hq] at hsplit ⊢
    split
    · rfl
    split
    · omega
    · rcases hhalf with hhalf | hhalf <;> omega
  · have hm : m * den = num / den * den + den := by rw [← hq, Nat.add_mul, Nat.one_mul]
    split
    · omega
    split
    · exact hq
    · rcases hhalf with hhalf | hhalf <;> omega

theorem roundQuotient_within (num : Nat) {den : Nat} (hden : 0 < den) :
    2 * num ≤ 2 * (roundQuotient num den * den) + den ∧
      2 * (roundQuotient num den * den) ≤ 2 * num + den := by
  have hsplit : num / den * den + num % den = num := Nat.div_add_mod' num den
  have hmod : num % den < den := Nat.mod_lt num hden
  unfold roundQuotient
  simp only
  split
  · omega
  have hnext : (num / den + 1) * den = num / den * den + den := by ring
  split
  · omega
  · rcases Nat.mod_two_eq_zero_or_one (num / den) with hparity | hparity <;> rw [hparity]
    · rw [Nat.add_zero]
      omega
    · omega

namespace Binary64

/-- A step is a power of two, and a magnitude on the grid is a multiple of its step. -/
theorem OnGrid.step_dvd {u : Nat} (hu : OnGrid u) : step 53 0 u ∣ u := by
  have heq : max 0 (u.log2 + 1 - 53) = u.log2 - 52 := by omega
  rw [step, heq]
  exact hu.2

theorem step_pos (precision least magnitude : Nat) : 0 < step precision least magnitude :=
  Nat.two_pow_pos _

theorem add_le_of_dvd {g a b : Nat} (ha : g ∣ a) (hb : g ∣ b) (hlt : a < b) : a + g ≤ b := by
  obtain ⟨m, rfl⟩ := ha
  obtain ⟨n, rfl⟩ := hb
  have hmn : m + 1 ≤ n := Nat.lt_of_mul_lt_mul_left hlt
  calc g * m + g = g * (m + 1) := by rw [Nat.mul_add, Nat.mul_one]
    _ ≤ g * n := Nat.mul_le_mul_left g hmn

theorem log2_mono {a b : Nat} (h : a ≤ b) : a.log2 ≤ b.log2 := by
  rcases Nat.eq_zero_or_pos a with rfl | hpos
  · simp
  · exact (Nat.le_log2 (by omega)).mpr (le_trans (Nat.log2_self_le (by omega)) h)

def Catchment.Contains (c : Catchment) (num den : Nat) : Prop :=
  c.low * den ≤ 4 * num ∧ 4 * num ≤ c.high * den ∧
    (c.closed = false → c.low * den < 4 * num ∧ 4 * num < c.high * den)

variable {u num den : Nat}

theorem Catchment.Contains.within (h : (catchment 53 0 u).Contains num den) :
    4 * (u * den) ≤ 4 * num + 2 * (step 53 0 u * den) ∧
      4 * num ≤ 4 * (u * den) + 2 * (step 53 0 u * den) := by
  obtain ⟨hlow, hhigh, -⟩ := h
  have hwidth : 4 * u - 2 * step 53 0 u ≤ (catchment 53 0 u).low := by
    simp only [catchment]
    split <;> omega
  have hlow' := le_trans (Nat.mul_le_mul_right den hwidth) hlow
  rw [Nat.sub_mul] at hlow'
  simp only [catchment, Nat.add_mul, Nat.mul_assoc] at hhigh hlow'
  omega

theorem nearest_of_same_step (hu : OnGrid u) (hden : 0 < den)
    (h : (catchment 53 0 u).Contains num den) (hstep : step 53 0 (num / den) = step 53 0 u) :
    nearest 53 0 num den = u := by
  obtain ⟨m, hm⟩ := hu.step_dvd
  have hpos := step_pos 53 0 u
  have hquotient : u / step 53 0 u = m := Nat.div_eq_of_eq_mul_right hpos hm
  have hclosed : (catchment 53 0 u).closed = (m % 2 == 0) := by rw [catchment, hquotient]
  have hwithin := h.within
  have hstrict := h.2.2
  have hwidth : 4 * u - 2 * step 53 0 u ≤ (catchment 53 0 u).low := by
    simp only [catchment]
    split <;> omega
  have hhigh : (catchment 53 0 u).high = 4 * u + 2 * step 53 0 u := rfl
  rw [hclosed, hhigh, Nat.add_mul, Nat.mul_assoc, Nat.mul_assoc] at hstrict
  have hlow := Nat.mul_le_mul_right den hwidth
  rw [Nat.sub_mul, Nat.mul_assoc, Nat.mul_assoc] at hlow
  have hround : roundQuotient num (den * step 53 0 u) = m := by
    have hmul : m * (den * step 53 0 u) = u * den := by
      calc m * (den * step 53 0 u) = step 53 0 u * m * den := by ring
        _ = u * den := by rw [← hm]
    rw [Nat.mul_comm (step 53 0 u) den] at hwithin hstrict hlow
    refine roundQuotient_eq (Nat.mul_pos hden hpos) (by omega) (by omega) ?_
    by_cases heven : m % 2 = 0
    · exact .inl heven
    · have := hstrict (by simp [heven])
      exact .inr (by omega)
  rw [nearest, hstep, hround, Nat.mul_comm, ← hm]

theorem nearest_below_power (hden : 0 < den) (h : (catchment 53 0 u).Contains num den)
    {k : Nat} (hk : 53 ≤ k) (hu : u = 2 ^ k) (hlt : num / den < u) : nearest 53 0 num den = u := by
  have hlog : u.log2 = k := by rw [hu, Nat.log2_two_pow]
  have hgap : step 53 0 u = 2 * 2 ^ (k - 53) := by
    have heq : max 0 (k + 1 - 53) = (k - 53) + 1 := by omega
    rw [step, hlog, heq, ← Nat.pow_succ']
    rfl
  have hfine : (0 : Nat) < 2 ^ (k - 53) := Nat.two_pow_pos _
  have hlow : (catchment 53 0 u).low = 4 * u - 2 * 2 ^ (k - 53) := by
    have hfiner : Nat.pow 2 0 < 2 * 2 ^ (k - 53) ∧ u = Nat.pow 2 k := ⟨by simp; omega, hu⟩
    simp only [catchment, hgap, hlog]
    rw [if_pos (by simpa using hfiner)]
  have hpow : u = 2 * (2 ^ 52 * 2 ^ (k - 53)) := by
    rw [hu, ← Nat.pow_add, ← Nat.pow_succ']
    congr 1
    omega
  obtain ⟨hbelow, -, -⟩ := h
  rw [hlow, Nat.sub_mul, Nat.mul_assoc, Nat.mul_assoc] at hbelow
  have habove : num < u * den := (Nat.div_lt_iff_lt_mul hden).mp hlt
  have hhalf : 2 ^ 52 * 2 ^ (k - 53) ≤ num / den := by
    rw [Nat.le_div_iff_mul_le hden]
    have hmul : u * den = 2 * (2 ^ 52 * 2 ^ (k - 53) * den) := by rw [hpow]; ring
    have hsmall : 2 ^ (k - 53) * den ≤ 2 ^ 52 * 2 ^ (k - 53) * den := by
      rw [Nat.mul_assoc]
      exact Nat.le_mul_of_pos_left _ (by decide)
    omega
  have hquotient : (num / den).log2 = k - 1 := by
    rw [Nat.log2_eq_iff (by omega)]
    constructor
    · rw [← Nat.pow_add] at hhalf
      exact le_trans (Nat.pow_le_pow_right (by decide) (by omega)) hhalf
    · rw [Nat.sub_add_cancel (by omega), ← hu]
      exact hlt
  have hstep : step 53 0 (num / den) = 2 ^ (k - 53) := by
    have heq : max 0 (k - 1 + 1 - 53) = k - 53 := by omega
    rw [step, hquotient, heq]
    rfl
  have hround : roundQuotient num (den * 2 ^ (k - 53)) = 2 * 2 ^ 52 := by
    have hmul : 2 * 2 ^ 52 * (den * 2 ^ (k - 53)) = u * den := by rw [hpow]; ring
    rw [Nat.mul_comm (2 ^ (k - 53)) den] at hbelow
    exact roundQuotient_eq (Nat.mul_pos hden hfine) (by omega) (by omega) (.inl rfl)
  rw [nearest, hstep, hround, Nat.mul_assoc, ← hpow]

/-- Below a power of two the steps are half as long, and so is the catchment on this side. -/
theorem nearest_eq (hu : OnGrid u) (hpos : 0 < u) (hden : 0 < den)
    (h : (catchment 53 0 u).Contains num den) : nearest 53 0 num den = u := by
  have hlower : 2 ^ u.log2 ≤ u := Nat.log2_self_le (by omega)
  have hupper : u < 2 ^ (u.log2 + 1) := Nat.lt_log2_self
  have hstep : step 53 0 u = 2 ^ (u.log2 - 52) := by
    have heq : max 0 (u.log2 + 1 - 53) = u.log2 - 52 := by omega
    rw [step, heq]
    rfl
  have hwithin := h.within
  have hgap : 0 < step 53 0 u * den := Nat.mul_pos (step_pos ..) hden
  by_cases hsame : step 53 0 (num / den) = step 53 0 u
  · exact nearest_of_same_step hu hden h hsame
  have hlogs : ¬ max 0 ((num / den).log2 + 1 - 53) = max 0 (u.log2 + 1 - 53) :=
    fun heq => hsame (by rw [step, step, heq])
  rcases Nat.lt_or_ge (num / den) u with hlt | hge
  · have hk : 53 ≤ u.log2 ∧ (num / den).log2 < u.log2 := by
      have := log2_mono hlt.le
      omega
    have hbelow : num / den < 2 ^ u.log2 := by
      exact Nat.lt_of_lt_of_le Nat.lt_log2_self (Nat.pow_le_pow_right (by decide) hk.2)
    refine nearest_below_power hden h hk.1 ?_ hlt
    by_contra hne
    have hfar := add_le_of_dvd (hstep ▸ Nat.pow_dvd_pow 2 (by omega)) hu.step_dvd
      (Nat.lt_of_le_of_ne hlower (Ne.symm hne))
    have hmul := Nat.mul_le_mul_right den hfar
    rw [Nat.add_mul] at hmul
    have := (Nat.div_lt_iff_lt_mul hden).mp hbelow
    omega
  · have hk : u.log2 < (num / den).log2 := by
      have := log2_mono hge
      omega
    have habove : 2 ^ (u.log2 + 1) ≤ num / den :=
      le_trans (Nat.pow_le_pow_right (by decide) hk) (Nat.log2_self_le (by omega))
    have hfar := add_le_of_dvd hu.step_dvd (hstep ▸ Nat.pow_dvd_pow 2 (by omega)) hupper
    have hmul := Nat.mul_le_mul_right den hfar
    rw [Nat.add_mul] at hmul
    have := (Nat.le_div_iff_mul_le hden).mp habove
    omega

theorem ofRatio_eq {s : Bool} (hu : OnGrid u) (hpos : 0 < u) (hden : 0 < den)
    (h : (catchment 53 0 u).Contains num den) : ofRatio s num den = .finite s u hu := by
  have hnearest := nearest_eq hu hpos hden h
  unfold ofRatio ofRatioIn
  simp only [hnearest]
  rw [dif_pos hu.1, if_pos hu.1]

end Binary64

end PlainSheets
