import PlainSheets.Binary64.Arithmetic
import PlainSheets.Proofs.Binary64.Whole

/-!
Comparisons of numbers and the signs of their differences. Finite numbers compare as their units. The units
are the finest steps of the grid, so no difference of two numbers is carried to zero, and one that is too
large to be finite is carried to the infinity on its side: a difference is above or below zero just when the
numbers are in this order.
-/
namespace PlainSheets.Binary64

variable {x y : Binary64} {m n : ℤ}

theorem compare?_units (hx : x.units? = some m) (hy : y.units? = some n) :
    compare? x y = some (compare m n) := by
  cases x with
  | finite s u hu =>
    cases y with
    | finite t v hv =>
      cases hx
      cases hy
      rfl
    | infinite t => cases hy
    | nan => cases hy
  | infinite s => cases hx
  | nan => cases hx

theorem lt_iff_units (hx : x.units? = some m) (hy : y.units? = some n) : x.lt y = true ↔ m < n := by
  rw [lt, compare?_units hx hy, beq_iff_eq, Option.some_inj, compare_lt_iff_lt]

@[simp] theorem units?_zero (s : Bool) : (zero s).units? = some 0 := by cases s <;> rfl

theorem units?_neg (hx : x.units? = some m) : (-x).units? = some (-m) := by
  cases x with
  | finite s u hu =>
    cases hx
    change some (signed (!s) u) = _
    cases s <;> simp [signed]
  | infinite s => cases hx
  | nan => cases hx

theorem nearest_pos {k : Nat} (hk : 0 < k) : 0 < nearest 53 0 k 1 := by
  have hstep : step 53 0 k ≤ k := by
    have hlog : step 53 0 k ≤ 2 ^ k.log2 := Nat.pow_le_pow_right (by decide) (by omega)
    exact hlog.trans (Nat.log2_self_le hk.ne')
  have hpos := step_pos 53 0 k
  have hone : 1 ≤ k / step 53 0 k := (Nat.one_le_div_iff hpos).mpr hstep
  have hround : k / step 53 0 k ≤ roundQuotient k (step 53 0 k) := by
    unfold roundQuotient
    simp only
    split
    · exact le_refl _
    · split <;> omega
  rw [nearest, Nat.div_one, Nat.one_mul]
  exact Nat.mul_pos (by omega) hpos

theorem ofRatio_side {k : ℤ} (s : Bool) (hs : k ≠ 0 → s = decide (k < 0)) :
    ((zero false).lt (ofRatio s k.natAbs 1) = true ↔ 0 < k) ∧
      ((ofRatio s k.natAbs 1).lt (zero false) = true ↔ k < 0) := by
  rcases eq_or_ne k 0 with rfl | hk
  · have hzero : nearest 53 0 0 1 = 0 := by simp [nearest, roundQuotient]
    obtain ⟨hgrid, hfinite⟩ := ofRatio_finite s hzero ceiling_pos
    have hunits := units?_zero s
    have hsame : finite s 0 hgrid = zero s := rfl
    rw [Int.natAbs_zero, hfinite, hsame, lt_iff_units (units?_zero _) hunits,
      lt_iff_units hunits (units?_zero _)]
    exact ⟨Iff.rfl, Iff.rfl⟩
  · have hpos := nearest_pos (Int.natAbs_pos.mpr hk)
    obtain rfl := hs hk
    generalize hu : nearest 53 0 k.natAbs 1 = u at hpos
    rcases Nat.lt_or_ge u ceiling with hlt | hge
    · obtain ⟨hgrid, hfinite⟩ := ofRatio_finite (decide (k < 0)) hu hlt
      have hunits : (finite (decide (k < 0)) u hgrid).units? = some (signed (decide (k < 0)) u) := rfl
      rw [hfinite, lt_iff_units (units?_zero _) hunits, lt_iff_units hunits (units?_zero _)]
      simp only [signed, decide_eq_true_eq]
      omega
    · rw [ofRatio_infinite _ hu hge]
      rcases Int.lt_or_gt_of_ne hk with hneg | hneg
      · simp [lt, compare?, zero, hneg, hneg.le]
      · simp [lt, compare?, zero, hneg, hneg.le]

theorem sub_eq (x y : Binary64) : x - y = add x (neg y) := rfl

theorem sub_units (hx : x.units? = some m) (hy : y.units? = some n) :
    ∃ s, (m - n ≠ 0 → s = decide (m - n < 0)) ∧ x - y = ofRatio s (m - n).natAbs 1 := by
  cases x with
  | finite s u hu =>
    cases y with
    | finite t v hv =>
      have hsum : signed s u + signed (!t) v = m - n := by
        cases hx
        cases hy
        cases t <;> simp [signed, sub_eq_add_neg]
      refine ⟨if signed s u + signed (!t) v = 0 then s && !t
        else decide (signed s u + signed (!t) v < 0), fun hne => ?_, ?_⟩
      · rw [hsum, if_neg hne]
      · rw [sub_eq, neg, add, hsum]
    | infinite t => cases hy
    | nan => cases hy
  | infinite s => cases hx
  | nan => cases hx

@[elab_as_elim]
theorem numbers_cases {motive : Binary64 → Binary64 → Prop} {x y : Binary64} (hx : x.isNaN = false)
    (hy : y.isNaN = false)
    (finites : ∀ s u hu t v hv, motive (finite s u hu) (finite t v hv))
    (infinites : ∀ s t, motive (infinite s) (infinite t))
    (infinite_finite : ∀ s t v hv, motive (infinite s) (finite t v hv))
    (finite_infinite : ∀ s u hu t, motive (finite s u hu) (infinite t)) : motive x y := by
  cases x with
  | nan => cases hx
  | infinite s =>
    cases y with
    | nan => cases hy
    | infinite t => exact infinites s t
    | finite t v hv => exact infinite_finite s t v hv
  | finite s u hu =>
    cases y with
    | nan => cases hy
    | infinite t => exact finite_infinite s u hu t
    | finite t v hv => exact finites s u hu t v hv

/-- A difference is above zero just when it leads up, and below zero just when it leads down. Between equal
infinities it is no number and on neither side. -/
theorem sub_side (hx : x.isNaN = false) (hy : y.isNaN = false) :
    (zero false).lt (x - y) = y.lt x ∧ (x - y).lt (zero false) = x.lt y := by
  refine numbers_cases hx hy (fun s u hu t v hv => ?_) (fun s t => ?_) (fun s t v hv => ?_)
    fun s u hu t => ?_
  · have hm : (finite s u hu).units? = some (signed s u) := rfl
    have hn : (finite t v hv).units? = some (signed t v) := rfl
    obtain ⟨side, hside, hsub⟩ := sub_units hm hn
    obtain ⟨habove, hbelow⟩ := ofRatio_side side hside
    rw [hsub]
    constructor
    · rw [Bool.eq_iff_iff, habove, lt_iff_units hn hm]
      omega
    · rw [Bool.eq_iff_iff, hbelow, lt_iff_units hm hn]
      omega
  · cases s <;> cases t <;> exact ⟨rfl, rfl⟩
  · cases s <;> exact ⟨rfl, rfl⟩
  · cases t <;> exact ⟨rfl, rfl⟩

theorem neg_lt_neg (hx : x.isNaN = false) (hy : y.isNaN = false) : (-x).lt (-y) = y.lt x := by
  refine numbers_cases hx hy (fun s u hu t v hv => ?_) (fun s t => ?_) (fun s t v hv => ?_)
    fun s u hu t => ?_
  · have hm : (finite s u hu).units? = some (signed s u) := rfl
    have hn : (finite t v hv).units? = some (signed t v) := rfl
    rw [Bool.eq_iff_iff, lt_iff_units (units?_neg hm) (units?_neg hn), lt_iff_units hn hm]
    omega
  · cases s <;> cases t <;> rfl
  · cases s <;> rfl
  · cases t <;> rfl

@[simp] theorem isNaN_neg (x : Binary64) : (-x).isNaN = x.isNaN := by cases x <;> rfl

theorem compare?_swap (hx : x.isNaN = false) (hy : y.isNaN = false) :
    ∃ o : Ordering, compare? x y = some o ∧ compare? y x = some o.swap := by
  refine numbers_cases hx hy (fun s u hu t v hv => ?_) (fun s t => ?_) (fun s t v hv => ?_)
    fun s u hu t => ?_
  · have hswap : compare (signed t v) (signed s u) = (compare (signed s u) (signed t v)).swap :=
      Std.OrientedCmp.eq_swap
    exact ⟨_, rfl, congrArg some hswap⟩
  · cases s <;> cases t <;> exact ⟨_, rfl, rfl⟩
  · cases s <;> exact ⟨_, rfl, rfl⟩
  · cases t <;> exact ⟨_, rfl, rfl⟩

@[simp] theorem eqv_self_iff (x : Binary64) : x.eqv x = true ↔ x.isNaN = false := by
  constructor
  · intro h
    cases x with
    | nan => cases h
    | finite s u hu => rfl
    | infinite s => rfl
  · intro h
    obtain ⟨o, ho, hswap⟩ := compare?_swap h h
    have heq : o = o.swap := Option.some.inj (ho.symm.trans hswap)
    rw [eqv, ho]
    cases o with
    | eq => rfl
    | lt => cases heq
    | gt => cases heq

theorem lt_asymm (hx : x.isNaN = false) (hy : y.isNaN = false) (h : x.lt y = true) :
    y.lt x = false := by
  obtain ⟨o, ho, hswap⟩ := compare?_swap hx hy
  simp only [lt, ho, hswap, beq_iff_eq, Option.some_inj] at h ⊢
  rw [h]
  rfl

end PlainSheets.Binary64
