import Mathlib.Data.List.Basic
import Mathlib.Data.List.Forall2
import Mathlib.Data.List.Nodup
import Mathlib.Order.Compare

/-!
Sorted lists. Items that a sort has no reason to move stay in their order, and items that are compared
alike are sorted alike.
-/
namespace PlainSheets

/-- Sorting keeps items in their places as long as nothing tells them apart. -/
theorem mergeSort_stable {α : Type} (order : α → α → Ordering) [Std.TransCmp order]
    (items : List α) :
    ∃ arranged : List (α × Nat), arranged.Perm items.zipIdx ∧
      arranged.Pairwise (fun a b => order a.1 b.1 = .lt ∨ order a.1 b.1 = .eq ∧ a.2 < b.2) ∧
      arranged.map Prod.fst = items.mergeSort fun a b => (order a b).isLE := by
  let le : α → α → Bool := fun a b => (order a b).isLE
  have htrans : ∀ a b c, le a b = true → le b c = true → le a c = true := by
    intro a b c
    exact Std.TransCmp.isLE_trans
  have hswap : ∀ a b, order b a = (order a b).swap := by
    intro a b
    exact Std.OrientedCmp.eq_swap
  have htotal : ∀ a b, (le a b || le b a) = true := by
    intro a b
    change ((order a b).isLE || (order b a).isLE) = true
    rw [hswap a b]
    cases order a b <;> rfl
  have hperm := List.mergeSort_perm items.zipIdx (List.zipIdxLE le)
  have hsorted := List.pairwise_mergeSort (List.zipIdxLE_trans htrans) (List.zipIdxLE_total htotal)
    items.zipIdx
  have hplaces : ((items.zipIdx.mergeSort (List.zipIdxLE le)).map Prod.snd).Nodup := by
    rw [(hperm.map Prod.snd).nodup_iff, List.zipIdx_map_snd]
    exact List.nodup_range'
  refine ⟨items.zipIdx.mergeSort (List.zipIdxLE le), hperm, ?_, List.mergeSort_zipIdx⟩
  apply (hsorted.and (List.pairwise_map.mp hplaces)).imp
  rintro a b ⟨hle, hne⟩
  unfold List.zipIdxLE at hle
  simp only [le, hswap a.1 b.1] at hle
  cases h : order a.1 b.1 with
  | lt => exact .inl rfl
  | eq =>
    right
    simp only [h, Ordering.swap, Ordering.isLE, if_true, decide_eq_true_eq] at hle
    exact ⟨rfl, Nat.lt_of_le_of_ne hle hne⟩
  | gt =>
    rw [h] at hle
    cases hle

theorem cut_unique {α : Type} {q : α → Bool} {l r l' r' : List α} (h : l ++ r = l' ++ r')
    (hl : ∀ a ∈ l, q a = true) (hr : ∀ a ∈ r, ¬ q a = true) (hl' : ∀ a ∈ l', q a = true)
    (hr' : ∀ a ∈ r', ¬ q a = true) : l = l' ∧ r = r' := by
  have hfront := congrArg (List.filter q) h
  rw [List.filter_append, List.filter_append, List.filter_eq_self.mpr hl,
    List.filter_eq_self.mpr hl', List.filter_eq_nil_iff.mpr hr, List.filter_eq_nil_iff.mpr hr',
    List.append_nil, List.append_nil] at hfront
  rw [hfront] at h
  exact ⟨hfront, List.append_cancel_left h⟩

section

variable {α : Type} {le : α → α → Bool} {p : α → Bool} {items : List α}

theorem mergeSort_filter (htrans : ∀ a b c, le a b = true → le b c = true → le a c = true)
    (htotal : ∀ a b, (le a b || le b a) = true) :
    (items.filter p).mergeSort le = (items.mergeSort le).filter p := by
  induction items with
  | nil => simp
  | cons a items ih =>
    obtain ⟨before, after, hall, hrest, hbefore⟩ := List.mergeSort_cons htrans htotal a items
    have hafter := List.pairwise_mergeSort htrans htotal (a :: items)
    rw [hall, List.pairwise_append, List.pairwise_cons] at hafter
    rw [hrest, List.filter_append] at ih
    rw [hall, List.filter_append]
    by_cases ha : p a = true
    · -- `a` stands right before the first item that may follow it, in both lists
      obtain ⟨before', after', hall', hrest', hbefore'⟩ :=
        List.mergeSort_cons htrans htotal a (items.filter p)
      have hafter' := List.pairwise_mergeSort htrans htotal (a :: items.filter p)
      rw [hall', List.pairwise_append, List.pairwise_cons] at hafter'
      obtain ⟨hfront, hback⟩ := @cut_unique _ (fun b => !le a b) _ _ _ _ (ih.symm.trans hrest')
        (fun b hb => hbefore b (List.mem_of_mem_filter hb))
        (fun b hb => by simp [hafter.2.1.1 b (List.mem_of_mem_filter hb)]) hbefore'
        (fun b hb => by simp [hafter'.2.1.1 b hb])
      rw [List.filter_cons_of_pos ha, List.filter_cons_of_pos ha, hall', hfront, hback]
    · rw [List.filter_cons_of_neg ha, List.filter_cons_of_neg ha, ih]

theorem filter_mergeSort
    (htrans : ∀ a b c, le a b = true → le b c = true → le a c = true)
    (htotal : ∀ a b, (le a b || le b a) = true)
    (h : (items.filter p).Pairwise fun a b => le a b = true) :
    (items.mergeSort le).filter p = items.filter p := by
  rw [← mergeSort_filter htrans htotal, List.mergeSort_of_pairwise h]

end

/-! Items sorted by a whole number. -/

section

variable {α : Type} (key : α → Int) {items others : List α} {a : α}

theorem key_trans (a b c : α) : decide (key a ≤ key b) = true → decide (key b ≤ key c) = true →
    decide (key a ≤ key c) = true := by
  simp only [decide_eq_true_eq]
  exact Int.le_trans

theorem key_total (a b : α) : (decide (key a ≤ key b) || decide (key b ≤ key a)) = true := by
  simp only [Bool.or_eq_true, decide_eq_true_eq]
  exact Int.le_total _ _

theorem pairwise_mergeSort_key (items : List α) :
    (items.mergeSort fun a b => key a ≤ key b).Pairwise fun a b => key a ≤ key b :=
  (List.pairwise_mergeSort (key_trans key) (key_total key) items).imp of_decide_eq_true

theorem mem_mergeSort_key (items : List α) :
    a ∈ (items.mergeSort fun a b => key a ≤ key b) ↔ a ∈ items := List.mem_mergeSort

theorem length_mergeSort_key (items : List α) :
    (items.mergeSort fun a b => key a ≤ key b).length = items.length := List.length_mergeSort items

theorem filter_mergeSort_key (items : List α) (n : Int) :
    ((items.mergeSort fun a b => key a ≤ key b).filter fun b => key b = n) =
      items.filter fun b => key b = n := by
  apply filter_mergeSort (key_trans key) (key_total key)
  apply List.pairwise_of_forall_mem_list
  intro a ha b hb
  rw [List.mem_filter, decide_eq_true_eq] at ha hb
  exact decide_eq_true (Int.le_of_eq (ha.2.trans hb.2.symm))

theorem head?_mergeSort_key (h : (items.mergeSort fun a b => key a ≤ key b).head? = some a) :
    (∀ b ∈ items, key a ≤ key b) ∧ (items.filter fun b => key b = key a).head? = some a := by
  obtain ⟨rest, hrest⟩ := List.head?_eq_some_iff.mp h
  have hsorted := pairwise_mergeSort_key key items
  have hequal := filter_mergeSort_key key items (key a)
  rw [hrest, List.filter_cons_of_pos (by simp)] at hequal
  rw [hrest, List.pairwise_cons] at hsorted
  refine ⟨fun b hb => ?_, by rw [← hequal, List.head?_cons]⟩
  rw [← mem_mergeSort_key key, hrest] at hb
  rcases List.mem_cons.mp hb with rfl | hb
  · exact Int.le_refl _
  · exact hsorted.1 b hb

theorem getLast?_mergeSort_key
    (h : (items.mergeSort fun a b => key a ≤ key b).getLast? = some a) :
    (∀ b ∈ items, key b ≤ key a) ∧ (items.filter fun b => key b = key a).getLast? = some a := by
  obtain ⟨init, hinit⟩ := List.getLast?_eq_some_iff.mp h
  have hsorted := pairwise_mergeSort_key key items
  have hequal := filter_mergeSort_key key items (key a)
  rw [hinit, List.filter_append, List.filter_cons_of_pos (by simp), List.filter_nil] at hequal
  rw [hinit, List.pairwise_append] at hsorted
  refine ⟨fun b hb => ?_, by rw [← hequal, List.getLast?_concat]⟩
  rw [← mem_mergeSort_key key, hinit] at hb
  rcases List.mem_append.mp hb with hb | hb
  · exact hsorted.2.2 b hb a (List.mem_singleton_self a)
  · exact Int.le_of_eq (congrArg key (List.mem_singleton.mp hb))

/-- Without equal keys the order before sorting is lost. -/
theorem mergeSort_key_of_perm (h : items.Perm others) (distinct : (items.map key).Nodup) :
    (items.mergeSort fun a b => key a ≤ key b) = others.mergeSort fun a b => key a ≤ key b := by
  have hperm := ((List.mergeSort_perm items fun a b => key a ≤ key b).trans h).trans
    (List.mergeSort_perm others fun a b => key a ≤ key b).symm
  refine hperm.eq_of_pairwise (fun a b ha hb hab hba => ?_) (pairwise_mergeSort_key key items)
    (pairwise_mergeSort_key key others)
  rw [mem_mergeSort_key] at ha hb
  exact List.inj_on_of_nodup_map distinct ha (h.symm.subset hb) (Int.le_antisymm hab hba)

end

theorem mergeSort_related {α β : Type} {R : α → β → Prop} {as : List α} {bs : List β}
    {le : α → α → Bool} {le' : β → β → Bool}
    (hle : ∀ a a' b b', R a b → R a' b' → le a a' = le' b b') (h : List.Forall₂ R as bs) :
    List.Forall₂ R (as.mergeSort le) (bs.mergeSort le') := by
  -- both lists are the two sides of one list of pairs
  obtain ⟨pairs, hpairs, rfl, rfl⟩ : ∃ pairs : List (α × β), (∀ p ∈ pairs, R p.1 p.2) ∧
      pairs.map Prod.fst = as ∧ pairs.map Prod.snd = bs := by
    induction h with
    | nil => exact ⟨[], by simp, rfl, rfl⟩
    | @cons a b as bs hab _ ih =>
      obtain ⟨pairs, hpairs, rfl, rfl⟩ := ih
      exact ⟨(a, b) :: pairs, List.forall_mem_cons.mpr ⟨hab, hpairs⟩, rfl, rfl⟩
  rw [← List.map_mergeSort (r := fun p q => le p.1 q.1) (fun _ _ _ _ => rfl),
    ← List.map_mergeSort (r := fun p q => le p.1 q.1)
      fun p hp q hq => hle _ _ _ _ (hpairs p hp) (hpairs q hq),
    List.forall₂_map_left_iff, List.forall₂_map_right_iff, List.forall₂_same]
  intro p hp
  exact hpairs p (List.mem_mergeSort.mp hp)

end PlainSheets
