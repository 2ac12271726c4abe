import PlainSheets.Proofs.Binary64.Nearest

/-!
Whole numbers in double precision. A whole number becomes the nearest one of 53 significant bits, which
differs from it by at most one part in 2^53, unless it is too large to have a finite one.
-/
namespace PlainSheets

theorem roundQuotient_scale (num den : Nat) {c : Nat} (hc : 0 < c) :
    roundQuotient (num * c) (den * c) = roundQuotient num den := by
  unfold roundQuotient
  simp only
  rw [Nat.mul_div_mul_right _ _ hc, Nat.mul_mod_mul_right, ← Nat.mul_assoc]
  simp only [Nat.mul_lt_mul_right hc]

theorem roundQuotient_multiple (m : Nat) {den : Nat} (hden : 0 < den) :
    roundQuotient (m * den) den = m := by
  unfold roundQuotient
  simp only
  rw [Nat.mul_div_cancel _ hden, Nat.mul_mod_left, if_pos hden]

namespace Binary64

variable {k : Nat}

def spacing (k : Nat) : Nat := 2 ^ (k.log2 - 52)

theorem spacing_pos (k : Nat) : 0 < spacing k := Nat.two_pow_pos _

def roundWhole (k : Nat) : Nat := roundQuotient k (spacing k) * spacing k

theorem roundWhole_within (k : Nat) :
    2 * k ≤ 2 * roundWhole k + spacing k ∧ 2 * roundWhole k ≤ 2 * k + spacing k :=
  roundQuotient_within k (spacing_pos k)

theorem roundWhole_eq_iff : roundWhole k = k ↔ spacing k ∣ k := by
  constructor
  · intro h
    exact ⟨roundQuotient k (spacing k), by rw [Nat.mul_comm]; exact h.symm⟩
  · rintro ⟨m, hm⟩
    rw [Nat.mul_comm] at hm
    rw [roundWhole]
    nth_rewrite 1 [hm]
    rw [roundQuotient_multiple m (spacing_pos k), ← hm]

theorem spacing_eq_one (h : k < 2 ^ 53) : spacing k = 1 := by
  have hlog : k.log2 < 53 := by
    rcases Nat.eq_zero_or_pos k with rfl | hpos
    · decide
    · exact (Nat.log2_lt hpos.ne').mpr h
  rw [spacing, show k.log2 - 52 = 0 by omega, Nat.pow_zero]

theorem spacing_le (h : 2 ^ 53 ≤ k) : 2 ^ 52 * spacing k ≤ k := by
  have hlog : 53 ≤ k.log2 := (Nat.le_log2 (by omega)).mpr h
  rw [spacing, ← Nat.pow_add, show 52 + (k.log2 - 52) = k.log2 by omega]
  exact Nat.log2_self_le (by omega)

theorem roundWhole_error (k : Nat) :
    2 ^ 53 * k ≤ 2 ^ 53 * roundWhole k + k ∧ 2 ^ 53 * roundWhole k ≤ 2 ^ 53 * k + k := by
  rcases Nat.lt_or_ge k (2 ^ 53) with hlt | hge
  · have hexact : roundWhole k = k := roundWhole_eq_iff.mpr (by rw [spacing_eq_one hlt]; exact one_dvd k)
    omega
  · have hwithin := roundWhole_within k
    have hspacing := spacing_le hge
    omega

theorem spacing_dvd_roundWhole (k : Nat) : spacing k ∣ roundWhole k := Nat.dvd_mul_left _ _

theorem spacing_dvd_two_pow (k : Nat) : spacing k ∣ 2 ^ k.log2 := Nat.pow_dvd_pow 2 (Nat.sub_le _ _)

theorem roundWhole_nearest_multiple {m : Nat} (hm : spacing k ∣ m) :
    ((roundWhole k : ℤ) - k).natAbs ≤ ((m : ℤ) - k).natAbs := by
  have hwithin := roundWhole_within k
  rcases Nat.lt_trichotomy m (roundWhole k) with hlt | rfl | hgt
  · have hfar := add_le_of_dvd hm (spacing_dvd_roundWhole k) hlt
    omega
  · rfl
  · have hfar := add_le_of_dvd (spacing_dvd_roundWhole k) hm hgt
    omega

theorem spacing_dvd_of_round (k : Nat) : spacing (roundWhole k) ∣ roundWhole k := by
  apply dvd_mul_pow
  have hquotient : k / spacing k < 2 ^ 53 := by
    rw [Nat.div_lt_iff_lt_mul (spacing_pos k), spacing, ← Nat.pow_add]
    exact Nat.lt_of_lt_of_le Nat.lt_log2_self (Nat.pow_le_pow_right (by decide) (by omega))
  exact Nat.le_trans (roundQuotient_le _ _) hquotient

/-- No number of 53 significant bits is nearer. -/
theorem roundWhole_nearest {m : Nat} (hm : spacing m ∣ m) :
    ((roundWhole k : ℤ) - k).natAbs ≤ ((m : ℤ) - k).natAbs := by
  rcases Nat.lt_or_ge m.log2 k.log2 with hlt | hge
  · -- below the power of two at which the spacing begins
    have hm' : m < 2 ^ k.log2 :=
      Nat.lt_of_lt_of_le Nat.lt_log2_self (Nat.pow_le_pow_right (by decide) hlt)
    have hk : 2 ^ k.log2 ≤ k := by
      apply Nat.log2_self_le
      rintro rfl
      exact Nat.not_lt_zero _ hlt
    have hnear := roundWhole_nearest_multiple (spacing_dvd_two_pow k)
    omega
  · have hdvd : spacing k ∣ spacing m := Nat.pow_dvd_pow 2 (Nat.sub_le_sub_right hge 52)
    exact roundWhole_nearest_multiple (hdvd.trans hm)

/-! The numbers that become infinite. -/

theorem two_pow_log2_le_roundWhole (hk : 0 < k) : 2 ^ k.log2 ≤ roundWhole k := by
  have hle : 2 ^ k.log2 ≤ k := Nat.log2_self_le hk.ne'
  have hwithin := roundWhole_within k
  have hpos := spacing_pos k
  by_contra hlt
  have hfar := add_le_of_dvd (spacing_dvd_roundWhole k) (spacing_dvd_two_pow k) (by omega)
  omega

/-- A number stays below a power of two unless it is as near to it as to the number before. -/
theorem roundWhole_lt_pow_iff (m : Nat) :
    roundWhole k < 2 ^ (54 + m) ↔ k + 2 ^ m < 2 ^ (54 + m) := by
  have hfine : 0 < 2 ^ (m + 1) := Nat.two_pow_pos _
  have hpow : 2 ^ (53 + m) = 2 ^ 53 * 2 ^ m ∧ 2 ^ (54 + m) = 2 ^ 54 * 2 ^ m ∧
      2 ^ (m + 1) = 2 * 2 ^ m := ⟨Nat.pow_add .., Nat.pow_add .., Nat.pow_succ'⟩
  constructor
  · intro hlt
    by_contra hge
    have hpos : 0 < k := by omega
    have hlog : 53 + m ≤ k.log2 := (Nat.le_log2 hpos.ne').mpr (by omega)
    rcases Nat.lt_or_eq_of_le hlog with hlog | hlog
    · have hhigh : 2 ^ (54 + m) ≤ 2 ^ k.log2 := Nat.pow_le_pow_right (by decide) (by omega)
      have := two_pow_log2_le_roundWhole hpos
      omega
    · have hspacing : spacing k = 2 ^ (m + 1) := by
        rw [spacing, ← hlog, show 53 + m - 52 = m + 1 by omega]
      have hbelow : k < 2 ^ (54 + m) := by
        have := @Nat.lt_log2_self k
        rwa [← hlog, show 53 + m + 1 = 54 + m by omega] at this
      have hround : roundQuotient k (2 ^ (m + 1)) = 2 ^ 53 :=
        roundQuotient_eq hfine (by omega) (by omega) (.inl (by decide))
      rw [roundWhole, hspacing, hround] at hlt
      omega
  · intro hlt
    have hspacing : spacing k ≤ 2 ^ (m + 1) := by
      rcases Nat.eq_zero_or_pos k with rfl | hpos
      · exact hfine
      · have hlog : k.log2 < 54 + m := (Nat.log2_lt hpos.ne').mpr (by omega)
        exact Nat.pow_le_pow_right (by decide) (by omega)
    have hwithin := roundWhole_within k
    omega

/-! In units. -/

theorem log2_mul_pow (hk : 0 < k) (a : Nat) : (k * Nat.pow 2 a).log2 = k.log2 + a := by
  have hpos : 0 < k * 2 ^ a := Nat.mul_pos hk (Nat.two_pow_pos a)
  change (k * 2 ^ a).log2 = k.log2 + a
  rw [Nat.log2_eq_iff hpos.ne']
  constructor
  · rw [Nat.pow_add]
    exact Nat.mul_le_mul_right _ (Nat.log2_self_le hk.ne')
  · rw [Nat.add_right_comm, Nat.pow_add]
    exact Nat.mul_lt_mul_of_pos_right Nat.lt_log2_self (Nat.two_pow_pos a)

/-- A grid as fine as 2^-a units leaves a whole number where its 53 bits put it. -/
theorem roundQuotient_units (k : Nat) {a : Nat} (ha : 52 ≤ a) :
    roundQuotient (k * Nat.pow 2 a) (Nat.pow 2 (k.log2 + a + 1 - 53)) *
      Nat.pow 2 (k.log2 + a + 1 - 53) = roundWhole k * Nat.pow 2 a := by
  change roundQuotient (k * 2 ^ a) (2 ^ (k.log2 + a + 1 - 53)) * 2 ^ (k.log2 + a + 1 - 53) =
    roundWhole k * 2 ^ a
  rcases Nat.lt_or_ge k.log2 52 with hlt | hge
  · have hone : spacing k = 1 := by rw [spacing, show k.log2 - 52 = 0 by omega, Nat.pow_zero]
    have hexact : roundWhole k = k := roundWhole_eq_iff.mpr (hone ▸ one_dvd k)
    have hsplit : 2 ^ a = 2 ^ (52 - 1 - k.log2 + 1) * 2 ^ (k.log2 + a + 1 - 53) := by
      rw [← Nat.pow_add]
      congr 1
      omega
    rw [hexact, hsplit, ← Nat.mul_assoc, roundQuotient_multiple _ (Nat.two_pow_pos _)]
  · have hstep : 2 ^ (k.log2 + a + 1 - 53) = spacing k * 2 ^ a := by
      rw [spacing, ← Nat.pow_add]
      congr 1
      omega
    rw [hstep, roundQuotient_scale _ _ (Nat.two_pow_pos a), roundWhole, Nat.mul_assoc]

theorem nearest_whole (k : Nat) : nearest 53 0 (k * unit) 1 = roundWhole k * unit := by
  -- of the unit only this matters; its digits are never written out
  obtain ⟨a, ha, hunit⟩ : ∃ a, 52 ≤ a ∧ unit = Nat.pow 2 a := ⟨1074, by decide, by decide +kernel⟩
  rw [hunit]
  rcases Nat.eq_zero_or_pos k with rfl | hpos
  · simp [nearest, roundQuotient, roundWhole]
  · have hstep : step 53 0 (k * Nat.pow 2 a) = Nat.pow 2 (k.log2 + a + 1 - 53) := by
      rw [step, log2_mul_pow hpos a, Nat.zero_max]
    rw [nearest, Nat.div_one, Nat.one_mul, hstep]
    exact roundQuotient_units k ha

/-- Whole numbers from here on have no finite number nearest to them. -/
def wholeLimit : Nat := 2 ^ 1024 - 2 ^ 970

@[simp] theorem whole_lt_ceiling_iff : roundWhole k * unit < ceiling ↔ k < wholeLimit := by
  have hceiling : ceiling = 2 ^ (54 + 970) * unit := by decide +kernel
  have hlimit : wholeLimit = 2 ^ (54 + 970) - 2 ^ 970 := by decide +kernel
  rw [hceiling, Nat.mul_lt_mul_right unit_pos, roundWhole_lt_pow_iff, hlimit]
  exact Nat.lt_sub_iff_add_lt.symm

@[simp] theorem ceiling_le_whole_iff : ceiling ≤ roundWhole k * unit ↔ wholeLimit ≤ k := by
  rw [← Nat.not_lt, ← Nat.not_lt, whole_lt_ceiling_iff]

/-! Integers, on either side of zero. -/

def Fits (n : ℤ) : Prop := spacing n.natAbs ∣ n.natAbs

def roundInt (n : ℤ) : ℤ := signed (decide (n < 0)) (roundWhole n.natAbs)

variable {n : ℤ}

@[simp] theorem natAbs_roundInt (n : ℤ) : (roundInt n).natAbs = roundWhole n.natAbs := by
  unfold roundInt signed
  split <;> simp

theorem fits_roundInt (n : ℤ) : Fits (roundInt n) := by
  rw [Fits, natAbs_roundInt]
  exact spacing_dvd_of_round _

theorem natAbs_roundInt_sub (n : ℤ) :
    (roundInt n - n).natAbs = ((roundWhole n.natAbs : ℤ) - n.natAbs).natAbs := by
  unfold roundInt signed
  by_cases hn : n < 0
  · rw [if_pos (decide_eq_true hn)]
    omega
  · rw [if_neg (by simpa using hn)]
    omega

theorem roundInt_nearest {e : ℤ} (he : Fits e) : (roundInt n - n).natAbs ≤ (e - n).natAbs := by
  have hnear : ((roundWhole n.natAbs : ℤ) - n.natAbs).natAbs ≤ ((e.natAbs : ℤ) - n.natAbs).natAbs :=
    roundWhole_nearest he
  rw [natAbs_roundInt_sub]
  omega

theorem roundInt_error (n : ℤ) : 2 ^ 53 * (roundInt n - n).natAbs ≤ n.natAbs := by
  have herror := roundWhole_error n.natAbs
  rw [natAbs_roundInt_sub]
  omega

theorem roundInt_eq_iff : roundInt n = n ↔ Fits n := by
  have hzero : roundInt n = n ↔ (roundInt n - n).natAbs = 0 := by omega
  rw [hzero, natAbs_roundInt_sub, Fits, ← roundWhole_eq_iff]
  omega

theorem fits_of_le (h : n.natAbs ≤ 2 ^ 53) : Fits n := by
  rcases Nat.lt_or_eq_of_le h with hlt | heq
  · rw [Fits, spacing_eq_one hlt]
    exact one_dvd _
  · rw [Fits, heq]
    decide +kernel

theorem ofRatio_finite (s : Bool) {num den u : Nat} (hu : nearest 53 0 num den = u)
    (h : u < ceiling) : ∃ hgrid, ofRatio s num den = .finite s u hgrid := by
  subst hu
  refine ⟨nearest_onGrid (by decide) h, ?_⟩
  unfold ofRatio ofRatioIn
  rw [dif_pos h, if_pos h]

theorem ofRatio_infinite (s : Bool) {num den u : Nat} (hu : nearest 53 0 num den = u)
    (h : ceiling ≤ u) : ofRatio s num den = .infinite s := by
  subst hu
  have hnot := Nat.not_lt.mpr h
  unfold ofRatio ofRatioIn
  rw [dif_neg hnot]

theorem ofInt?_eq : ofInt? = fun n => if (ofInt n).isFinite then some (ofInt n) else none := by
  -- the conversion must not be unfolded: the size of the largest number would be counted out
  delta ofInt?
  generalize ofInt = convert
  funext n
  cases convert n <;> rfl

theorem ofInt?_cases (n : ℤ) :
    (n.natAbs < wholeLimit ∧
      ∃ h, ofInt? n = some (.finite (decide (n < 0)) (roundWhole n.natAbs * unit) h)) ∨
    (wholeLimit ≤ n.natAbs ∧ ofInt? n = none) := by
  have hnearest := nearest_whole n.natAbs
  rw [ofInt?_eq]
  dsimp only
  rcases Nat.lt_or_ge n.natAbs wholeLimit with hlt | hge
  · obtain ⟨h, hfinite⟩ := ofRatio_finite (decide (n < 0)) hnearest (whole_lt_ceiling_iff.mpr hlt)
    rw [ofInt, hfinite]
    exact .inl ⟨hlt, h, rfl⟩
  · have hinfinite := ofRatio_infinite (decide (n < 0)) hnearest (ceiling_le_whole_iff.mpr hge)
    rw [ofInt, hinfinite]
    exact .inr ⟨hge, rfl⟩

end Binary64

end PlainSheets
