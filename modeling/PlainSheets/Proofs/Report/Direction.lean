import PlainSheets.Proofs.Binary64.Difference
import PlainSheets.Report.Statistics

/-!
Where a series goes. Main statement: it goes where more than three fifths of its steps go, up or down in
exact comparison; flat steps count among all steps and on neither side. No series has more than three
fifths of its steps on both sides, so the greater side need not be asked for.
-/
namespace PlainSheets.Statistics

/-- How many values are followed by one that is related to them. -/
def followed (r : Binary64 → Binary64 → Bool) : List Binary64 → Nat
  | [] => 0
  | [_] => 0
  | x :: y :: rest => (if r x y then 1 else 0) + followed r (y :: rest)

def ups (xs : List Binary64) : Nat := followed (fun x y => x.lt y) xs

def downs (xs : List Binary64) : Nat := followed (fun x y => y.lt x) xs

section

variable {r q : Binary64 → Binary64 → Bool}

theorem followed_congr {xs : List Binary64} (h : ∀ x ∈ xs, ∀ y ∈ xs, r x y = q x y) :
    followed r xs = followed q xs := by
  induction xs with
  | nil => rfl
  | cons x xs ih =>
    cases xs with
    | nil => rfl
    | cons y rest =>
      have hrest := ih fun a ha b hb => h a (List.mem_cons_of_mem x ha) b (List.mem_cons_of_mem x hb)
      rw [followed, followed, hrest, h x List.mem_cons_self y (by simp)]

theorem followed_map (f : Binary64 → Binary64) (xs : List Binary64) :
    followed r (xs.map f) = followed (fun x y => r (f x) (f y)) xs := by
  induction xs with
  | nil => rfl
  | cons x xs ih =>
    cases xs with
    | nil => rfl
    | cons y rest =>
      rw [List.map_cons, List.map_cons, followed, followed, ← ih]
      rfl

theorem followed_append (xs ys : List Binary64) (y : Binary64) :
    followed r (xs ++ y :: ys) = followed r (xs ++ [y]) + followed r (y :: ys) := by
  induction xs with
  | nil => simp [followed]
  | cons x xs ih =>
    cases xs with
    | nil => simp [followed]
    | cons z rest =>
      rw [List.cons_append, List.cons_append] at ih
      simp only [List.cons_append, followed]
      rw [ih, Nat.add_assoc]

theorem followed_reverse (xs : List Binary64) :
    followed r xs.reverse = followed (fun x y => r y x) xs := by
  induction xs with
  | nil => rfl
  | cons x xs ih =>
    cases xs with
    | nil => rfl
    | cons y rest =>
      rw [List.reverse_cons] at ih ⊢
      rw [List.reverse_cons, List.append_assoc, List.singleton_append, followed_append, ih,
        Nat.add_comm]
      rfl

/-- Steps of two kinds that exclude each other are no more than all steps. -/
theorem followed_add_le {xs : List Binary64}
    (h : ∀ x ∈ xs, ∀ y ∈ xs, r x y = true → q x y = false) :
    followed r xs + followed q xs ≤ xs.length - 1 := by
  induction xs with
  | nil => exact Nat.le_refl 0
  | cons x xs ih =>
    cases xs with
    | nil => exact Nat.le_refl 0
    | cons y rest =>
      have hrest := ih fun a ha b hb => h a (List.mem_cons_of_mem x ha) b (List.mem_cons_of_mem x hb)
      have hstep := h x List.mem_cons_self y (by simp)
      simp only [followed, List.length_cons] at hrest ⊢
      cases hr : r x y with
      | true =>
        simp only [hstep hr, if_true, Bool.false_eq_true, if_false]
        omega
      | false =>
        simp only [Bool.false_eq_true, if_false]
        split <;> omega

theorem length_filter_steps {p : Binary64 → Bool} {xs : List Binary64}
    (h : ∀ x ∈ xs, ∀ y ∈ xs, p (y - x) = r x y) :
    ((steps xs).filter p).length = followed r xs := by
  induction xs with
  | nil => rfl
  | cons x xs ih =>
    cases xs with
    | nil => rfl
    | cons y rest =>
      have hrest := ih fun a ha b hb => h a (List.mem_cons_of_mem x ha) b (List.mem_cons_of_mem x hb)
      have hsteps : steps (x :: y :: rest) = (y - x) :: steps (y :: rest) := rfl
      rw [hsteps, followed, ← hrest, ← h x List.mem_cons_self y (by simp), List.filter_cons]
      split
      · rw [List.length_cons, Nat.add_comm]
      · rw [Nat.zero_add]

end

namespace Trend

def opposite : Trend → Trend
  | increasing => decreasing
  | decreasing => increasing
  | fluctuating => fluctuating

/-- Where a series goes that has `n` steps, some of them up and some down. -/
def ofSteps (n up down : Nat) : Trend :=
  if 3 * n < 5 * up then increasing else if 3 * n < 5 * down then decreasing else fluctuating

variable {n up down : Nat}

theorem ofSteps_swap (h : up + down ≤ n) : ofSteps n down up = (ofSteps n up down).opposite := by
  unfold ofSteps
  by_cases hup : 3 * n < 5 * up
  · rw [if_neg (by omega), if_pos hup, if_pos hup]
    rfl
  · rw [if_neg hup, if_neg hup]
    split <;> rfl

theorem ofSteps_iff (h : up + down ≤ n) :
    (ofSteps n up down = increasing ↔ 3 * n < 5 * up) ∧
      (ofSteps n up down = decreasing ↔ 3 * n < 5 * down) ∧
      (ofSteps n up down = fluctuating ↔ ¬ 3 * n < 5 * up ∧ ¬ 3 * n < 5 * down) := by
  unfold ofSteps
  split
  · simp only [reduceCtorEq, true_iff, false_iff]
    omega
  · split <;> simp only [reduceCtorEq, true_iff, false_iff] <;> omega

end Trend

variable {xs : List Binary64}

theorem ups_add_downs_le (h : ∀ x ∈ xs, x.isNaN = false) : ups xs + downs xs ≤ xs.length - 1 := by
  apply followed_add_le
  intro x hx y hy hlt
  exact Binary64.lt_asymm (h x hx) (h y hy) hlt

/-- The greater side wins whenever it has its share, so it need not be asked for. -/
theorem trend_eq (h : ∀ x ∈ xs, x.isNaN = false) :
    trend xs = .ofSteps (xs.length - 1) (ups xs) (downs xs) := by
  have hrises : rises xs = ups xs :=
    length_filter_steps fun x hx y hy => (Binary64.sub_side (h y hy) (h x hx)).1
  have hfalls : falls xs = downs xs :=
    length_filter_steps fun x hx y hy => (Binary64.sub_side (h y hy) (h x hx)).2
  have hlength : (steps xs).length = xs.length - 1 := by
    rw [steps, List.length_zipWith, List.length_drop]
    omega
  have hle := ups_add_downs_le h
  have hup : downs xs < ups xs ∧ 3 * (xs.length - 1) < 5 * ups xs ↔
      3 * (xs.length - 1) < 5 * ups xs := and_iff_right_of_imp (by omega)
  have hdown : ups xs < downs xs ∧ 3 * (xs.length - 1) < 5 * downs xs ↔
      3 * (xs.length - 1) < 5 * downs xs := and_iff_right_of_imp (by omega)
  unfold trend Trend.ofSteps
  simp only [hrises, hfalls, hlength, hup, hdown]

/-- Whether a function is strictly increasing on the values of a series. -/
structure Increases (f : Binary64 → Binary64) (xs : List Binary64) : Prop where
  equal : ∀ x ∈ xs, ∀ y ∈ xs, x.eqv y → (f x).eqv (f y)
  less : ∀ x ∈ xs, ∀ y ∈ xs, x.lt y → (f x).lt (f y)

section

variable {f : Binary64 → Binary64}

theorem Increases.isNaN (hf : Increases f xs) (h : ∀ x ∈ xs, x.isNaN = false) :
    ∀ x ∈ xs, (f x).isNaN = false := by
  intro x hx
  rw [← Binary64.eqv_self_iff]
  exact hf.equal x hx x hx ((Binary64.eqv_self_iff x).mpr (h x hx))

theorem Increases.lt_eq (hf : Increases f xs) (h : ∀ x ∈ xs, x.isNaN = false) {x y : Binary64}
    (hx : x ∈ xs) (hy : y ∈ xs) : (f x).lt (f y) = x.lt y := by
  obtain ⟨o, ho, hback⟩ := Binary64.compare?_swap (h x hx) (h y hy)
  obtain ⟨o', ho', hback'⟩ := Binary64.compare?_swap (hf.isNaN h x hx) (hf.isNaN h y hy)
  have hequal := hf.equal x hx y hy
  have hless := hf.less x hx y hy
  have hmore := hf.less y hy x hx
  simp only [Binary64.eqv, Binary64.lt, ho, ho', hback, hback', beq_iff_eq, Option.some_inj]
    at hequal hless hmore ⊢
  cases o with
  | lt => rw [hless rfl]
  | eq => rw [hequal rfl]
  | gt =>
    have hswap := congrArg Ordering.swap (hmore rfl)
    rw [Ordering.swap_swap] at hswap
    rw [hswap]
    rfl

end

/-- Where a series of numbers goes, of which some may be infinite. More than three fifths of the steps
decide, and they can do so on one side only. The same series backwards, or with all signs changed, goes the
other way, and a strictly increasing function of the values changes nothing. -/
theorem trend_by_steps (xs : List Binary64) (numbers : ∀ x ∈ xs, x.isNaN = false) :
    let n := xs.length - 1
    (trend xs = .increasing ↔ 3 * n < 5 * ups xs) ∧
    (trend xs = .decreasing ↔ 3 * n < 5 * downs xs) ∧
    (trend xs = .fluctuating ↔ ¬ 3 * n < 5 * ups xs ∧ ¬ 3 * n < 5 * downs xs) ∧
    ¬ (3 * n < 5 * ups xs ∧ 3 * n < 5 * downs xs) ∧
    (3 * n < 5 * ups xs → downs xs < ups xs) ∧ (3 * n < 5 * downs xs → ups xs < downs xs) ∧
    trend xs.reverse = (trend xs).opposite ∧
    trend (xs.map fun x => -x) = (trend xs).opposite ∧
    ∀ f, Increases f xs → trend (xs.map f) = trend xs := by
  intro n
  have hle : ups xs + downs xs ≤ n := ups_add_downs_le numbers
  obtain ⟨hup, hdown, hflat⟩ := Trend.ofSteps_iff hle
  have hopposite : Trend.ofSteps n (downs xs) (ups xs) = (trend xs).opposite := by
    rw [trend_eq numbers, Trend.ofSteps_swap hle]
  rw [← trend_eq numbers] at hup hdown hflat
  refine ⟨hup, hdown, hflat, by omega, by omega, by omega, ?_, ?_, fun f hf => ?_⟩
  · rw [← hopposite, trend_eq fun x hx => numbers x (List.mem_reverse.mp hx), List.length_reverse, ups,
      downs, followed_reverse, followed_reverse]
    rfl
  · have hups : ups (xs.map fun x => -x) = downs xs := by
      rw [ups, followed_map]
      exact followed_congr fun x hx y hy => Binary64.neg_lt_neg (numbers x hx) (numbers y hy)
    have hdowns : downs (xs.map fun x => -x) = ups xs := by
      rw [downs, followed_map]
      exact followed_congr fun x hx y hy => Binary64.neg_lt_neg (numbers y hy) (numbers x hx)
    have hnumbers : ∀ x ∈ xs.map fun x => -x, x.isNaN = false :=
      List.forall_mem_map.mpr fun x hx => (Binary64.isNaN_neg x).trans (numbers x hx)
    rw [← hopposite, trend_eq hnumbers, List.length_map, hups, hdowns]
  · have hups : ups (xs.map f) = ups xs := by
      rw [ups, followed_map]
      exact followed_congr fun x hx y hy => hf.lt_eq numbers hx hy
    have hdowns : downs (xs.map f) = downs xs := by
      rw [downs, followed_map]
      exact followed_congr fun x hx y hy => hf.lt_eq numbers hy hx
    rw [trend_eq (List.forall_mem_map.mpr (hf.isNaN numbers)), List.length_map, hups, hdowns,
      trend_eq numbers]

def zigzag : List Binary64 := [1, 3, 2, 4].map Binary64.ofNat

/-- The squares go the same way, and the series goes down when it is read backwards. -/
theorem trend_by_steps_zigzag : (∀ x ∈ zigzag, x.isNaN = false) ∧ trend zigzag = .increasing ∧
    trend zigzag.reverse = .decreasing ∧ Increases (fun x => x * x) zigzag ∧
    trend (zigzag.map fun x => x * x) = .increasing := by
  have hnumbers : ∀ x ∈ zigzag, x.isNaN = false := by decide +kernel
  have hsquares : Increases (fun x => x * x) zigzag :=
    ⟨by decide +kernel, by decide +kernel⟩
  obtain ⟨hup, -, -, -, -, -, hreverse, -, hmap⟩ := trend_by_steps zigzag hnumbers
  have hincreasing : trend zigzag = .increasing := hup.mpr (by decide +kernel)
  exact ⟨hnumbers, hincreasing, by rw [hreverse, hincreasing]; rfl, hsquares,
    (hmap _ hsquares).trans hincreasing⟩

end PlainSheets.Statistics
