import PlainSheets.Proofs.Binary64.Difference
import PlainSheets.Proofs.Cell.SortPlace
import PlainSheets.Report.Statistics

/-!
The least, the greatest and the middle one of a list of numbers. Main statements: all three are in the list,
no number is below the least or above the greatest one, and no more numbers are below the middle one, or
above it, than stand before it, or behind it, when the list is sorted. By this they are the same numbers in
whatever order the list is.
-/
namespace PlainSheets

namespace Binary64

variable {x y : Binary64}

/-- The order of numbers, in which the two zeros are equal. What is no number is in no order. -/
def le (x y : Binary64) : Bool := x.lt y || x.eqv y

def value (x : Binary64) : WithBot (WithTop ℚ) := ((Numeral.ofReal? x).map Numeral.value).getD ⊥

theorem value_eq (hx : x.isNaN = false) : x.value = (Numeral.real x hx).value := by
  rw [value, Numeral.ofReal?, dif_pos hx]
  rfl

theorem compare?_eq_order (hx : x.isNaN = false) (hy : y.isNaN = false) :
    compare? x y = some ((Numeral.real x hx).order (.real y hy)) := by
  match x, y with
  | .finite .., .finite .. => rfl
  | .infinite s, .infinite t => cases s <;> cases t <;> rfl
  | .infinite s, .finite .. => cases s <;> rfl
  | .finite .., .infinite t => cases t <;> rfl
  | .nan, _ => cases hx
  | _, .nan => cases hy

theorem lt_iff_value (hx : x.isNaN = false) (hy : y.isNaN = false) :
    x.lt y = true ↔ x.value < y.value := by
  rw [lt, compare?_eq_order hx hy, beq_iff_eq, Option.some_inj, value_eq hx, value_eq hy]
  exact (Numeral.order_compares _ _).eq_lt

theorem eqv_iff_value (hx : x.isNaN = false) (hy : y.isNaN = false) :
    x.eqv y = true ↔ x.value = y.value := by
  rw [eqv, compare?_eq_order hx hy, beq_iff_eq, Option.some_inj, value_eq hx, value_eq hy]
  exact (Numeral.order_compares _ _).eq_eq

theorem le_iff_value (hx : x.isNaN = false) (hy : y.isNaN = false) :
    x.le y = true ↔ x.value ≤ y.value := by
  rw [le, Bool.or_eq_true, lt_iff_value hx hy, eqv_iff_value hx hy, le_iff_lt_or_eq]

end Binary64

/-! Items chosen from lists. -/

section

variable {α β : Type}

/-- If each choice of two falls on the one that is not above the other, the last choice is not above any. -/
theorem foldl_chosen [Preorder β] (key : α → β) {choose : α → α → α} {P : α → Prop}
    (hchoose : ∀ x y, P x → P y → (choose x y = x ∨ choose x y = y) ∧
      key (choose x y) ≤ key x ∧ key (choose x y) ≤ key y)
    {x : α} {xs : List α} (h : ∀ y ∈ x :: xs, P y) :
    xs.foldl choose x ∈ x :: xs ∧ ∀ y ∈ x :: xs, key (xs.foldl choose x) ≤ key y := by
  induction xs generalizing x with
  | nil => simp
  | cons y xs ih =>
    simp only [List.forall_mem_cons] at h
    obtain ⟨hx, hy, hrest⟩ := h
    obtain ⟨hone, hlex, hley⟩ := hchoose x y hx hy
    have hchosen : P (choose x y) := by
      rcases hone with heq | heq <;> rwa [heq]
    obtain ⟨hmem, hle⟩ := ih (List.forall_mem_cons.mpr ⟨hchosen, hrest⟩)
    rw [List.forall_mem_cons] at hle
    rw [List.foldl_cons, List.forall_mem_cons, List.forall_mem_cons]
    refine ⟨?_, hle.1.trans hlex, hle.1.trans hley, hle.2⟩
    rcases List.mem_cons.mp hmem with heq | hmem
    · rw [heq]
      rcases hone with hone | hone <;> simp [hone]
    · exact List.mem_cons_of_mem x (List.mem_cons_of_mem y hmem)

variable [LinearOrder β] {key : α → β}

/-- In a sorted list nothing behind an item is below it, and nothing before it is above. -/
theorem countP_around {before after : List α} {m : α}
    (h : (before ++ m :: after).Pairwise fun x y => key x ≤ key y) :
    (before ++ m :: after).countP (key · < key m) ≤ before.length ∧
      (before ++ m :: after).countP (key m < key ·) ≤ after.length := by
  rw [List.pairwise_append, List.pairwise_cons] at h
  obtain ⟨-, ⟨hafter, -⟩, hbefore⟩ := h
  have hbelow : (m :: after).countP (key · < key m) = 0 := by
    rw [List.countP_eq_zero, List.forall_mem_cons]
    simpa using hafter
  have habove : before.countP (key m < key ·) = 0 := by
    rw [List.countP_eq_zero]
    simpa using fun x hx => hbefore x hx m List.mem_cons_self
  constructor
  · rw [List.countP_append, hbelow, Nat.add_zero]
    exact List.countP_le_length
  · rw [List.countP_append, habove, Nat.zero_add, List.countP_cons_of_neg (by simp)]
    exact List.countP_le_length

theorem length_le_countP_add (p q : α → Bool) {xs : List α} (h : ∀ x ∈ xs, p x = true ∨ q x = true) :
    xs.length ≤ xs.countP p + xs.countP q := by
  rw [List.length_eq_countP_add_countP p]
  refine Nat.add_le_add_left (List.countP_mono_left fun x hx hnot => ?_) _
  exact (h x hx).resolve_left (by simpa using hnot)

end

namespace Statistics

variable {x y : Binary64} {xs : List Binary64}

theorem sortsBefore_iff : sortsBefore x y = true ↔
    y.isNaN = true ∨ x.isNaN = false ∧ y.isNaN = false ∧ x.value ≤ y.value := by
  unfold sortsBefore
  cases hx : x.isNaN with
  | true => simp
  | false =>
    cases hy : y.isNaN with
    | true => simp
    | false =>
      have hlt := Binary64.lt_iff_value hy hx
      simp [← not_lt, ← hlt]

theorem sortsBefore_trans (x y z : Binary64) (hxy : sortsBefore x y = true)
    (hyz : sortsBefore y z = true) : sortsBefore x z = true := by
  rw [sortsBefore_iff] at hxy hyz ⊢
  rcases hyz with hz | ⟨hy, hz, hle⟩
  · exact .inl hz
  · rcases hxy with hnan | ⟨hx, -, hle'⟩
    · rw [hy] at hnan
      cases hnan
    · exact .inr ⟨hx, hz, hle'.trans hle⟩

theorem sortsBefore_total (x y : Binary64) : (sortsBefore x y || sortsBefore y x) = true := by
  rw [Bool.or_eq_true, sortsBefore_iff, sortsBefore_iff]
  cases hx : x.isNaN <;> cases hy : y.isNaN <;> simp [le_total]

theorem pairwise_sorted (h : ∀ x ∈ xs, x.isNaN = false) :
    (sorted xs).Pairwise fun x y => x.value ≤ y.value := by
  have hsorted := List.pairwise_mergeSort sortsBefore_trans sortsBefore_total xs
  refine hsorted.imp_of_mem fun _ hy hxy => ?_
  rcases sortsBefore_iff.mp hxy with hnan | ⟨-, -, hle⟩
  · rw [h _ (List.mem_mergeSort.mp hy)] at hnan
    cases hnan
  · exact hle

theorem lesser_chosen (hx : x.isNaN = false) (hy : y.isNaN = false) :
    (lesser x y = x ∨ lesser x y = y) ∧ (lesser x y).value ≤ x.value ∧
      (lesser x y).value ≤ y.value := by
  unfold lesser
  rw [hx, hy, if_neg Bool.false_ne_true, if_neg Bool.false_ne_true]
  have hlt := Binary64.lt_iff_value hy hx
  split
  · rename_i h
    exact ⟨.inr rfl, (hlt.mp h).le, le_rfl⟩
  · rename_i h
    exact ⟨.inl rfl, le_rfl, not_lt.mp (mt hlt.mpr h)⟩

theorem greater_chosen (hx : x.isNaN = false) (hy : y.isNaN = false) :
    (greater x y = x ∨ greater x y = y) ∧ x.value ≤ (greater x y).value ∧
      y.value ≤ (greater x y).value := by
  unfold greater
  rw [hx, hy, if_neg Bool.false_ne_true, if_neg Bool.false_ne_true]
  have hlt := Binary64.lt_iff_value hx hy
  split
  · rename_i h
    exact ⟨.inr rfl, (hlt.mp h).le, le_rfl⟩
  · rename_i h
    exact ⟨.inl rfl, le_rfl, not_lt.mp (mt hlt.mpr h)⟩

theorem exists_of_median? {m : Binary64} (h : median? xs = some m) :
    ∃ before after, sorted xs = before ++ m :: after ∧ before.length = xs.length / 2 ∧
      after.length = xs.length - 1 - xs.length / 2 := by
  have hlength : (sorted xs).length = xs.length := List.length_mergeSort xs
  obtain ⟨hlt, hm⟩ := List.getElem?_eq_some_iff.mp h
  refine ⟨(sorted xs).take (xs.length / 2), (sorted xs).drop (xs.length / 2 + 1), ?_, ?_, ?_⟩
  · rw [← hm, List.getElem_cons_drop, List.take_append_drop]
  · rw [List.length_take]
    omega
  · rw [List.length_drop]
    omega

end Statistics

namespace NumberSummary

open Statistics

/-- What the least, the greatest and the middle one of a list of numbers are. -/
structure Ranked (xs : List Binary64) (n : NumberSummary) : Prop where
  min_mem : n.min ∈ xs
  max_mem : n.max ∈ xs
  median_mem : n.median ∈ xs
  min_le : ∀ x ∈ xs, n.min.le x
  le_max : ∀ x ∈ xs, x.le n.max
  below : xs.countP (fun x => x.lt n.median) ≤ xs.length / 2
  above : xs.countP (fun x => n.median.lt x) ≤ xs.length - 1 - xs.length / 2

variable {xs ys : List Binary64} {m n : NumberSummary}

theorem ranked_of? (h : ∀ x ∈ xs, x.isNaN = false) (hn : of? xs = some n) : n.Ranked xs := by
  cases xs with
  | nil => cases hn
  | cons x xs =>
    obtain ⟨m, hm, rfl⟩ := Option.map_eq_some_iff.mp hn
    obtain ⟨hmin, hleast⟩ := foldl_chosen Binary64.value (fun _ _ => lesser_chosen) h
    obtain ⟨hmax, hgreatest⟩ :=
      foldl_chosen (fun x => OrderDual.toDual x.value) (fun _ _ => greater_chosen) h
    obtain ⟨before, after, hsorted, hbefore, hafter⟩ := exists_of_median? hm
    have hperm : (sorted (x :: xs)).Perm (x :: xs) := List.mergeSort_perm _ _
    have hmiddle : m ∈ x :: xs := hperm.subset (by simp [hsorted])
    have haround := pairwise_sorted h
    rw [hsorted] at haround hperm
    obtain ⟨hbelow, habove⟩ := countP_around haround
    rw [hperm.countP_eq, hbefore] at hbelow
    rw [hperm.countP_eq, hafter] at habove
    exact {
      min_mem := hmin
      max_mem := hmax
      median_mem := hmiddle
      min_le := fun y hy => (Binary64.le_iff_value (h _ hmin) (h y hy)).mpr (hleast y hy)
      le_max := fun y hy => (Binary64.le_iff_value (h y hy) (h _ hmax)).mpr (hgreatest y hy)
      below := by
        refine (List.countP_mono_left fun y hy hlt => ?_).trans hbelow
        exact decide_eq_true ((Binary64.lt_iff_value (h y hy) (h m hmiddle)).mp hlt)
      above := by
        refine (List.countP_mono_left fun y hy hlt => ?_).trans habove
        exact decide_eq_true ((Binary64.lt_iff_value (h m hmiddle) (h y hy)).mp hlt) }

/-- Two middles of one list cannot stand apart: whatever is not above the lower one is below the higher
one, and there are too many of these. -/
theorem Ranked.median_not_lt (hm : m.Ranked xs) (hn : n.Ranked ys) (hperm : xs.Perm ys)
    (h : ∀ x ∈ xs, x.isNaN = false) : ¬ m.median.value < n.median.value := by
  intro hlt
  have hmiddle := h _ hm.median_mem
  have hmiddle' := h _ (hperm.symm.subset hn.median_mem)
  have heach : ∀ x ∈ xs, m.median.lt x = true ∨ x.lt n.median = true := by
    intro x hx
    rw [Binary64.lt_iff_value hmiddle (h x hx), Binary64.lt_iff_value (h x hx) hmiddle']
    exact (lt_or_ge m.median.value x.value).imp_right fun hle => hle.trans_lt hlt
  have hall := length_le_countP_add (fun x => m.median.lt x) (fun x => x.lt n.median) heach
  have hbelow := hn.below
  have habove := hm.above
  rw [← hperm.countP_eq, ← hperm.length_eq] at hbelow
  have hpos := List.length_pos_of_mem hm.median_mem
  omega

theorem Ranked.eqv_of_perm (hm : m.Ranked xs) (hn : n.Ranked ys) (hperm : xs.Perm ys)
    (h : ∀ x ∈ xs, x.isNaN = false) :
    m.min.eqv n.min ∧ m.max.eqv n.max ∧ m.median.eqv n.median := by
  have h' : ∀ y ∈ ys, y.isNaN = false := fun y hy => h y (hperm.symm.subset hy)
  have hmin := hperm.symm.subset hn.min_mem
  have hmax := hperm.symm.subset hn.max_mem
  have hmedian := hperm.symm.subset hn.median_mem
  rw [Binary64.eqv_iff_value (h _ hm.min_mem) (h _ hmin),
    Binary64.eqv_iff_value (h _ hm.max_mem) (h _ hmax),
    Binary64.eqv_iff_value (h _ hm.median_mem) (h _ hmedian)]
  refine ⟨le_antisymm ?_ ?_, le_antisymm ?_ ?_, le_antisymm ?_ ?_⟩
  · exact (Binary64.le_iff_value (h _ hm.min_mem) (h _ hmin)).mp (hm.min_le _ hmin)
  · exact (Binary64.le_iff_value (h _ hmin) (h _ hm.min_mem)).mp
      (hn.min_le _ (hperm.subset hm.min_mem))
  · exact (Binary64.le_iff_value (h _ hm.max_mem) (h _ hmax)).mp
      (hn.le_max _ (hperm.subset hm.max_mem))
  · exact (Binary64.le_iff_value (h _ hmax) (h _ hm.max_mem)).mp (hm.le_max _ hmax)
  · exact not_lt.mp (hn.median_not_lt hm hperm.symm h')
  · exact not_lt.mp (hm.median_not_lt hn hperm h)

end NumberSummary

end PlainSheets
