import Mathlib.Algebra.BigOperators.Group.List.Lemmas
import Mathlib.Algebra.Order.BigOperators.Group.List
import Mathlib.Analysis.Real.Sqrt
import PlainSheets.Report.Overview

/-!
Outliers in exact arithmetic. The sums of blocks and lanes are plain sums there, and a value is an outlier
just when the square of its distance from the mean is more than `k ^ 2` times the variance. Main statement:
fewer than one in `k ^ 2` values are outliers, and they are the same ones when all values are shifted or
scaled. With two deviations a column is told only if it has five numbers or more, and fewer than a quarter of
them are outliers.
-/
namespace PlainSheets

noncomputable def Binary64.exact (x : Binary64) : ℝ := (x.units?.getD 0 : ℤ) / (Binary64.unit : ℝ)

/-- Real numbers. What double precision rounds is exact here. -/
noncomputable instance : Arithmetic ℝ where
  zero _ := 0
  ofNat n := n
  nan := 0
  abs x := |x|
  sqrt := Real.sqrt
  lt x y := decide (x < y)

namespace Statistics

/-! Sums. -/

theorem joinLanes_eq {lanes : List ℝ} (h : lanes.length = 8) : joinLanes lanes = lanes.sum := by
  match lanes, h with
  | [a, b, c, d, e, f, g, h], _ =>
    change ((a + b) + (c + d)) + ((e + f) + (g + h)) = _
    simp only [List.sum_cons, List.sum_nil]
    ring

theorem addLanes_eq {lanes : List ℝ} (h : lanes.length = 8) (xs : List ℝ) :
    (addLanes lanes xs).1.length = 8 ∧
      (addLanes lanes xs).1.sum + (addLanes lanes xs).2.sum = lanes.sum + xs.sum := by
  fun_induction addLanes lanes xs with
  | case1 lanes a b c d e f g h' rest ih =>
    have hlength : (List.zipWith (· + ·) lanes [a, b, c, d, e, f, g, h']).length = 8 := by simp [h]
    obtain ⟨hlanes, hsum⟩ := ih hlength
    refine ⟨hlanes, hsum.trans ?_⟩
    match lanes, h with
    | [p, q, r, s, t, u, v, w], _ =>
      change List.sum [p + a, q + b, r + c, s + d, t + e, u + f, v + g, w + h'] + _ = _
      simp only [List.sum_cons, List.sum_nil]
      ring
  | case2 lanes rest => exact ⟨h, rfl⟩

theorem foldl_add (xs : List ℝ) (a : ℝ) :
    xs.foldl (· + ·) a = a + xs.sum := by
  induction xs generalizing a with
  | nil => rw [List.foldl_nil, List.sum_nil, add_zero]
  | cons x xs ih =>
    rw [List.foldl_cons, ih, List.sum_cons, ← add_assoc]

@[simp] theorem blockSum_eq (xs : List ℝ) : blockSum xs = xs.sum := by
  unfold blockSum
  split
  · exact (foldl_add xs 0).trans (zero_add _)
  · rename_i hlong
    have hfirst : (xs.take 8).length = 8 := by
      rw [List.length_take]
      omega
    obtain ⟨hlanes, hsum⟩ := addLanes_eq hfirst (xs.drop 8)
    refine (foldl_add _ _).trans ?_
    rw [joinLanes_eq hlanes, hsum, ← List.sum_append, List.take_append_drop]

@[simp] theorem pairwiseSum_eq (xs : List ℝ) : pairwiseSum xs = xs.sum := by
  fun_induction pairwiseSum xs with
  | case1 xs _ => exact blockSum_eq xs
  | case2 xs _ ihtake ihdrop =>
    rw [ihtake, ihdrop]
    rw [← List.sum_append, List.take_append_drop]

/-! Mean and deviation. -/

noncomputable def average (xs : List ℝ) : ℝ := xs.sum / xs.length

noncomputable def variance (xs : List ℝ) : ℝ := average (xs.map fun x => (x - average xs) ^ 2)

@[simp] theorem mean_eq (xs : List ℝ) : mean xs = average xs := by
  unfold mean
  split
  · rename_i hempty
    rw [List.isEmpty_iff.mp hempty]
    simp [average, Arithmetic.nan]
  · change (0 + pairwiseSum xs) / (xs.length : ℝ) = _
    rw [pairwiseSum_eq, zero_add, average]

theorem deviation_eq (xs : List ℝ) : deviation xs = √(variance xs) := by
  have hsquares : (fun x => (x - mean xs) * (x - mean xs)) = fun x => (x - average xs) ^ 2 := by
    funext x
    rw [mean_eq, sq]
  change √(mean (xs.map fun x => (x - mean xs) * (x - mean xs))) = _
  rw [hsquares, mean_eq, variance]

theorem variance_nonneg (xs : List ℝ) : 0 ≤ variance xs := by
  unfold variance average
  apply div_nonneg _ (Nat.cast_nonneg _)
  apply List.sum_nonneg
  simp only [List.mem_map, forall_exists_index, and_imp, forall_apply_eq_imp_iff₂]
  exact fun x _ => sq_nonneg _

theorem isOutlier_iff {k : ℝ} (hk : 0 < k) (xs : List ℝ) (x : ℝ) :
    isOutlier k (mean xs) (deviation xs) x = true ↔
      k ^ 2 * variance xs < (x - average xs) ^ 2 := by
  change decide (k * deviation xs < |x - mean xs|) = true ↔ _
  have hnonneg : 0 ≤ k * √(variance xs) := mul_nonneg hk.le (Real.sqrt_nonneg _)
  rw [decide_eq_true_iff, mean_eq, deviation_eq, ← sq_abs (x - average xs),
    ← sq_lt_sq₀ hnonneg (abs_nonneg _), mul_pow, Real.sq_sqrt (variance_nonneg xs)]

/-! How many values are outliers. -/

/-- Which values of a list are more than `k` of its deviations away from its mean. -/
def marks {α : Type} [Add α] [Sub α] [Mul α] [Div α] [Arithmetic α] (k : α) (xs : List α) : List Bool :=
  outlierMask k (mean xs) (deviation xs) xs

theorem marks_eq {k : ℝ} (hk : 0 < k) (xs : List ℝ) :
    marks k xs = xs.map fun x => decide (k ^ 2 * variance xs < (x - average xs) ^ 2) := by
  apply List.map_congr_left
  intro x _
  rw [Bool.eq_iff_iff, isOutlier_iff hk, decide_eq_true_iff]

/-- Markov's inequality for lists, strict for the values that are strictly above. -/
theorem length_filter_mul_lt_sum {f : ℝ → ℝ} (hf : ∀ x, 0 ≤ f x) (c : ℝ) (xs : List ℝ)
    (h : xs.filter (c < f ·) ≠ []) : (xs.filter (c < f ·)).length * c < (xs.map f).sum := by
  have hrest : 0 ≤ ((xs.filter fun x => ¬ c < f x).map f).sum := by
    apply List.sum_nonneg
    simp only [List.mem_map, forall_exists_index, and_imp, forall_apply_eq_imp_iff₂]
    exact fun x _ => hf x
  have hsplit := List.sum_map_filter_add_sum_map_filter_not (fun x => c < f x) f xs
  calc ((xs.filter (c < f ·)).length : ℝ) * c
      = ((xs.filter (c < f ·)).map fun _ => c).sum := by
        rw [List.map_const', List.sum_replicate, nsmul_eq_mul]
    _ < ((xs.filter (c < f ·)).map f).sum := by
        apply List.sum_lt_sum_of_ne_nil h
        intro x hx
        exact of_decide_eq_true (List.mem_filter.mp hx).2
    _ ≤ (xs.map f).sum := by linarith

theorem length_mul_average {xs : List ℝ} (h : xs ≠ []) : xs.length * average xs = xs.sum := by
  have hlength : (xs.length : ℝ) ≠ 0 := by
    rw [Nat.cast_ne_zero]
    exact (List.length_pos_iff.mpr h).ne'
  exact mul_div_cancel₀ _ hlength

/-- The squared distances add up to `n` times the variance, and each outlier has more than `k ^ 2` times
the variance of it. -/
theorem count_marks_lt {k : ℝ} (hk : 0 < k) {xs : List ℝ} (h : 0 < (marks k xs).count true) :
    (marks k xs).count true * k ^ 2 < (xs.length : ℝ) := by
  set f : ℝ → ℝ := fun x => (x - average xs) ^ 2 with hfdef
  have hcount : (marks k xs).count true = (xs.filter (k ^ 2 * variance xs < f ·)).length := by
    rw [marks_eq hk, List.count_eq_countP, List.countP_map, List.countP_eq_length_filter]
    simp [Function.comp_def, hfdef]
  have hmarked : xs.filter (k ^ 2 * variance xs < f ·) ≠ [] := by
    rw [← List.length_pos_iff, ← hcount]
    exact h
  have hxs : xs.map f ≠ [] := by
    intro hnil
    rw [List.map_eq_nil_iff.mp hnil] at hmarked
    exact hmarked rfl
  have hsum : (xs.map f).sum = xs.length * variance xs := by
    have haverage := length_mul_average hxs
    rwa [List.length_map, eq_comm] at haverage
  have hlt := length_filter_mul_lt_sum (fun x => sq_nonneg (x - average xs)) (k ^ 2 * variance xs) xs hmarked
  rw [← hcount, hsum, ← mul_assoc] at hlt
  exact lt_of_mul_lt_mul_right hlt (variance_nonneg xs)

/-! Shifted and scaled values. -/

theorem average_shift {xs : List ℝ} (h : xs ≠ []) (c : ℝ) :
    average (xs.map (· + c)) = average xs + c := by
  have hlength : (xs.length : ℝ) ≠ 0 := by
    rw [Nat.cast_ne_zero]
    exact (List.length_pos_iff.mpr h).ne'
  rw [average, List.sum_map_add, List.map_id', List.map_const', List.sum_replicate, List.length_map,
    nsmul_eq_mul, average]
  field_simp

theorem average_scale (xs : List ℝ) (c : ℝ) : average (xs.map (c * ·)) = c * average xs := by
  rw [average, List.sum_map_mul_left, List.map_id', List.length_map, average, mul_div_assoc]

/-- The same values are outliers after a change that keeps the ratios of their squared distances from the
mean. -/
theorem marks_map {k : ℝ} (hk : 0 < k) {f : ℝ → ℝ} {xs : List ℝ} {c : ℝ} (hc : 0 < c)
    (h : ∀ x ∈ xs, (f x - average (xs.map f)) ^ 2 = c * (x - average xs) ^ 2) :
    marks k (xs.map f) = marks k xs := by
  have hvariance : variance (xs.map f) = c * variance xs := by
    have hsquares : (xs.map f).map (fun y => (y - average (xs.map f)) ^ 2) =
        (xs.map fun x => (x - average xs) ^ 2).map (c * ·) := by
      rw [List.map_map, List.map_map]
      exact List.map_congr_left h
    rw [variance, hsquares, average_scale, variance]
  rw [marks_eq hk, marks_eq hk, List.map_map]
  apply List.map_congr_left
  intro x hx
  rw [Function.comp_apply, decide_eq_decide, h x hx, hvariance, mul_left_comm, mul_lt_mul_iff_right₀ hc]

theorem marks_shift {k : ℝ} (hk : 0 < k) (xs : List ℝ) (c : ℝ) :
    marks k (xs.map (· + c)) = marks k xs := by
  rcases eq_or_ne xs [] with rfl | hne
  · rfl
  · refine marks_map hk one_pos fun x _ => ?_
    rw [average_shift hne, add_sub_add_right_eq_sub, one_mul]

theorem marks_scale {k : ℝ} (hk : 0 < k) (xs : List ℝ) {c : ℝ} (hc : c ≠ 0) :
    marks k (xs.map (c * ·)) = marks k xs := by
  refine marks_map hk (sq_pos_of_ne_zero hc) fun x _ => ?_
  rw [average_scale, ← mul_sub, mul_pow]

theorem exists_ne_of_marks {k : ℝ} (hk : 0 < k) {xs : List ℝ} (h : 0 < (marks k xs).count true) :
    ∃ x ∈ xs, ∃ y ∈ xs, x ≠ y := by
  by_contra hsame
  push Not at hsame
  rw [List.count_pos_iff, marks_eq hk, List.mem_map] at h
  obtain ⟨x, hx, hmarked⟩ := h
  have hall : xs = List.replicate xs.length x := List.eq_replicate_of_mem fun y hy => hsame y hy x hx
  have haverage : average xs = x := by
    have hsum := length_mul_average (List.ne_nil_of_mem hx)
    have hconstant : xs.sum = xs.length * x := by
      conv_lhs => rw [hall]
      rw [List.sum_replicate, nsmul_eq_mul]
    have hlength : (xs.length : ℝ) ≠ 0 := by
      rw [Nat.cast_ne_zero]
      exact (List.length_pos_of_mem hx).ne'
    exact mul_left_cancel₀ hlength (hsum.trans hconstant)
  rw [decide_eq_true_iff, haverage, sub_self, zero_pow two_ne_zero] at hmarked
  have hnonneg := mul_nonneg (sq_nonneg k) (variance_nonneg xs)
  exact absurd hmarked (not_lt.mpr hnonneg)

end Statistics

namespace Overview

open Statistics

/-- What an anomaly tells of a column whose numbers are read as real numbers. -/
structure Exceptional (read : Binary64 → ℝ) (s : Sheet) (c : Column) (a : Anomaly ℝ) : Prop where
  place : a.sheet = s.id ∧ a.sheetName = s.name ∧ a.column = c
  count : a.count = (marks 2 ((c.numbers s.rows).map read)).count true
  found : 0 < a.count
  /-- Fewer than a quarter of the numbers. -/
  share : 4 * a.count < (c.numbers s.rows).length
  many : 4 < (c.numbers s.rows).length
  varied : ∃ x ∈ c.numbers s.rows, ∃ y ∈ c.numbers s.rows, read x ≠ read y

variable {read : Binary64 → ℝ} {s : Sheet} {c : Column} {a : Anomaly ℝ}

theorem anomalyOf_eq_some : anomalyOf read s c = some a ↔
    0 < (marks 2 ((c.numbers s.rows).map read)).count true ∧
      a = ⟨s.id, s.name, c, (marks 2 ((c.numbers s.rows).map read)).count true,
        average ((c.numbers s.rows).map read), √(variance ((c.numbers s.rows).map read))⟩ := by
  have hfactor : (Arithmetic.ofNat outlierFactor : ℝ) = 2 := Nat.cast_ofNat
  unfold anomalyOf
  simp only [hfactor]
  rw [← mean_eq, ← deviation_eq, Nat.pos_iff_ne_zero]
  split
  · rename_i hzero
    exact iff_of_false (Option.some_ne_none a).symm fun h => h.1 hzero
  · rename_i hsome
    rw [marks, Option.some_inj, eq_comm (b := a), and_iff_right hsome]

theorem exceptional_of_anomalyOf (h : anomalyOf read s c = some a) : Exceptional read s c a := by
  obtain ⟨hsome, rfl⟩ := anomalyOf_eq_some.mp h
  have hbound := count_marks_lt two_pos hsome
  have hshare : (marks 2 ((c.numbers s.rows).map read)).count true * 4 < (c.numbers s.rows).length := by
    rw [List.length_map] at hbound
    norm_num at hbound
    exact_mod_cast hbound
  obtain ⟨_, hfirst, _, hsecond, hne⟩ := exists_ne_of_marks two_pos hsome
  obtain ⟨x, hx, rfl⟩ := List.mem_map.mp hfirst
  obtain ⟨y, hy, rfl⟩ := List.mem_map.mp hsecond
  exact ⟨⟨rfl, rfl, rfl⟩, rfl, hsome, by dsimp only; omega, by omega, x, hx, y, hy, hne⟩

theorem mem_anomaliesOf {sheets : List Sheet} : a ∈ anomaliesOf read sheets ↔
    ∃ s ∈ sheets, ∃ c ∈ s.columnsOf .number, anomalyOf read s c = some a := by
  simp [anomaliesOf, List.mem_flatMap, List.mem_filterMap]

/-- Outliers among real numbers, and the columns that are told to have some when the numbers of cells are read
as real numbers, whichever these are. A value is an outlier by the square of its distance from the mean,
fewer than one in `k ^ 2` values are, and neither a shift of all values nor a factor changes which ones. A
column is told by two deviations, only if it has five numbers or more that are not all the same, and with
fewer than a quarter of them. -/
theorem outliers_bounded {k : ℝ} (hk : 0 < k) (xs : List ℝ) (read : Binary64 → ℝ) (sheets : List Sheet) :
    let m := (marks k xs).count true
    marks k xs = xs.map (fun x => decide (k ^ 2 * variance xs < (x - average xs) ^ 2)) ∧
    (0 < m → m * k ^ 2 < xs.length) ∧
    (∀ c, marks k (xs.map (· + c)) = marks k xs) ∧
    (∀ c ≠ 0, marks k (xs.map (c * ·)) = marks k xs) ∧
    (∀ a, a ∈ anomaliesOf read sheets ↔
      ∃ s ∈ sheets, ∃ c ∈ s.columnsOf .number, anomalyOf read s c = some a) ∧
    ∀ s c, (∀ a, anomalyOf read s c = some a → Exceptional read s c a) ∧
      (anomalyOf read s c = none ↔ (marks 2 ((c.numbers s.rows).map read)).count true = 0) := by
  refine ⟨marks_eq hk xs, count_marks_lt hk, marks_shift hk xs, fun c hc => marks_scale hk xs hc,
    fun a => mem_anomaliesOf, fun s c => ⟨fun a => exceptional_of_anomalyOf, ?_⟩⟩
  rw [Option.eq_none_iff_forall_ne_some]
  simp only [ne_eq, anomalyOf_eq_some, not_and, Nat.pos_iff_ne_zero]
  refine ⟨fun h => ?_, fun hzero a hsome => absurd hzero hsome⟩
  by_contra hsome
  exact h _ hsome rfl

def lastTwelve : Sheet :=
  ⟨"1", some "A", [⟨some "n", .number, none⟩],
    [0, 0, 0, 0, 0, 12].map fun n => ⟨"r", .named [("n", .integer n)], .epoch, none⟩, .epoch, none⟩

theorem exact_numbers_lastTwelve :
    ((⟨some "n", .number, none⟩ : Column).numbers lastTwelve.rows).map Binary64.exact =
      [0, 0, 0, 0, 0, 12] := by
  have hunit : (Binary64.unit : ℝ) ≠ 0 := by exact_mod_cast Binary64.unit_pos.ne'
  have hnumbers : ((⟨some "n", .number, none⟩ : Column).numbers lastTwelve.rows).map Binary64.units? =
      [some 0, some 0, some 0, some 0, some 0, some (12 * (Binary64.unit : ℤ))] := by
    decide +kernel
  have hexact := congrArg
    (List.map fun units : Option ℤ => ((units.getD 0 : ℤ) : ℝ) / (Binary64.unit : ℝ)) hnumbers
  rw [List.map_map] at hexact
  refine hexact.trans ?_
  simp only [List.map_cons, List.map_nil, Option.getD_some, Int.cast_zero, Int.cast_mul, Int.cast_ofNat,
    Int.cast_natCast, zero_div, mul_div_cancel_right₀ _ hunit]

/-- The twelve is told, which is less than a quarter of six numbers. -/
theorem outliers_bounded_lastTwelve :
    (0 : ℝ) < 2 ∧ marks 2 [0, 0, 0, 0, 0, (12 : ℝ)] = [false, false, false, false, false, true] ∧
      ∃ a ∈ anomaliesOf Binary64.exact [lastTwelve], a.count = 1 ∧
        Exceptional Binary64.exact lastTwelve ⟨some "n", .number, none⟩ a := by
  obtain ⟨hmarks, -, -, -, hmem, hcolumn⟩ :=
    outliers_bounded two_pos [0, 0, 0, 0, 0, 12] Binary64.exact [lastTwelve]
  have hmarked : marks 2 [0, 0, 0, 0, 0, (12 : ℝ)] = [false, false, false, false, false, true] := by
    rw [hmarks]
    norm_num [variance, average]
  obtain ⟨htold, hnone⟩ := hcolumn lastTwelve ⟨some "n", .number, none⟩
  rw [exact_numbers_lastTwelve, hmarked] at hnone
  obtain ⟨a, ha⟩ := Option.ne_none_iff_exists'.mp (mt hnone.mp (by decide))
  have hexceptional := htold a ha
  refine ⟨two_pos, hmarked, a, (hmem a).mpr ⟨_, List.mem_singleton_self _, _, ?_, ha⟩, ?_, hexceptional⟩
  · exact List.mem_singleton_self _
  · rw [hexceptional.count, exact_numbers_lastTwelve, hmarked]
    rfl

/-- In double precision the mean of three equal numbers can be rounded away from them while the squares of
their distances vanish, and then all three count as outliers. -/
example :
    let xs := List.replicate 3 (Binary64.ofDecimal false ⟨21, -170⟩)
    (marks (Binary64.ofNat 2) xs).count true = 3 := by
  decide +kernel

end Overview

end PlainSheets
