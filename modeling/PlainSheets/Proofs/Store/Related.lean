import PlainSheets.Store.Memory
import Mathlib.Data.List.Forall2
import Mathlib.Data.List.Nodup

/-!
Two lists that go together item by item, and the items that a key finds, replaces and erases in
both.
-/
namespace PlainSheets

variable {α β : Type} {R R' : α → β → Prop} {f : α → String} {g : β → String} {as : List α}
  {bs : List β}

theorem forall₂_imp_mem (h : List.Forall₂ R as bs) (himp : ∀ a ∈ as, ∀ b, R a b → R' a b) :
    List.Forall₂ R' as bs := by
  induction h with
  | nil => exact .nil
  | cons hab _ ih =>
    exact .cons (himp _ List.mem_cons_self _ hab)
      (ih fun a ha => himp a (List.mem_cons_of_mem _ ha))

theorem head_related (h : List.Forall₂ R as bs) : Option.Rel R as.head? bs.head? := by
  cases h with
  | nil => exact .none
  | cons hab _ => exact .some hab

theorem forall_related {P : α → Prop} {Q : β → Prop} (h : List.Forall₂ R as bs)
    (hiff : ∀ a b, R a b → (P a ↔ Q b)) : (∀ a ∈ as, P a) ↔ ∀ b ∈ bs, Q b := by
  induction h with
  | nil => simp
  | cons hab _ ih => rw [List.forall_mem_cons, List.forall_mem_cons, hiff _ _ hab, ih]

theorem exists_related {P : α → Prop} {Q : β → Prop} (h : List.Forall₂ R as bs)
    (hiff : ∀ a b, R a b → (P a ↔ Q b)) : (∃ a ∈ as, P a) ↔ ∃ b ∈ bs, Q b := by
  induction h with
  | nil => simp
  | cons hab _ ih => rw [List.exists_mem_cons_iff, List.exists_mem_cons_iff, hiff _ _ hab, ih]

theorem exists_partner (h : List.Forall₂ R as bs) {b : β} (hb : b ∈ bs) : ∃ a ∈ as, R a b := by
  induction h with
  | nil => cases hb
  | @cons a _ as _ hab _ ih =>
    rcases List.mem_cons.mp hb with rfl | hb
    · exact ⟨a, List.mem_cons_self, hab⟩
    · obtain ⟨c, hc, hcb⟩ := ih hb
      exact ⟨c, List.mem_cons_of_mem a hc, hcb⟩

theorem find_related (hkey : ∀ a b, R a b → f a = g b) (h : List.Forall₂ R as bs) (x : String) :
    (x ∉ as.map f ∧ bs.find? (fun b => g b = x) = none) ∨
      ∃ a b, a ∈ as ∧ f a = x ∧ R a b ∧ as.find? (fun a => f a = x) = some a ∧
        bs.find? (fun b => g b = x) = some b := by
  induction h with
  | nil => exact .inl ⟨by simp, rfl⟩
  | @cons a b as bs hab _ ih =>
    have hab' := hkey a b hab
    by_cases hx : f a = x
    · exact .inr ⟨a, b, List.mem_cons_self, hx, hab, by simp [hx], by simp [← hab', hx]⟩
    · rcases ih with ⟨hnone, hfind⟩ | ⟨c, d, hc, hfc, hcd, hfindA, hfindB⟩
      · refine .inl ⟨?_, ?_⟩
        · simp only [List.map_cons, List.mem_cons, not_or]
          exact ⟨Ne.symm hx, hnone⟩
        · rw [List.find?_cons_of_neg (by simp [← hab', hx])]
          exact hfind
      · refine .inr ⟨c, d, List.mem_cons_of_mem a hc, hfc, hcd, ?_, ?_⟩
        · rw [List.find?_cons_of_neg (by simp [hx])]
          exact hfindA
        · rw [List.find?_cons_of_neg (by simp [← hab', hx])]
          exact hfindB

/-- Under distinct keys, replacing the first item with a key is changing every one. -/
theorem replaceFirst_related (hkey : ∀ a b, R a b → f a = g b) (h : List.Forall₂ R as bs)
    (hdistinct : (as.map f).Nodup) (x : String) (change : α → α) (new : β)
    (hnew : ∀ a ∈ as, f a = x → R' (change a) new)
    (hold : ∀ a ∈ as, ∀ b, f a ≠ x → R a b → R' a b) :
    List.Forall₂ R' (as.map fun a => if f a = x then change a else a)
      (Memory.replaceFirst (fun b => g b = x) new bs) := by
  induction h with
  | nil => exact .nil
  | @cons a b as bs hab hrest ih =>
    have hab' := hkey a b hab
    rw [List.map_cons, List.nodup_cons] at hdistinct
    have htail := fun a ha => hnew a (List.mem_cons_of_mem _ ha)
    have htailOld := fun a ha => hold a (List.mem_cons_of_mem _ ha)
    by_cases hx : f a = x
    · have hothers : ∀ c ∈ as, f c ≠ x := by
        intro c hc heq
        exact hdistinct.1 (hx ▸ heq ▸ List.mem_map_of_mem hc)
      have hmap : (as.map fun a => if f a = x then change a else a) = as := by
        refine (List.map_congr_left fun c hc => ?_).trans (List.map_id as)
        rw [if_neg (hothers c hc)]
        rfl
      rw [List.map_cons, if_pos hx, hmap, Memory.replaceFirst, if_pos (by simp [← hab', hx])]
      exact .cons (hnew a List.mem_cons_self hx)
        (forall₂_imp_mem hrest fun c hc d hcd => htailOld c hc d (hothers c hc) hcd)
    · rw [List.map_cons, if_neg hx, Memory.replaceFirst, if_neg (by simp [← hab', hx])]
      exact .cons (hold a List.mem_cons_self b hx hab) (ih hdistinct.2 htail htailOld)

theorem eraseP_related (hkey : ∀ a b, R a b → f a = g b) (h : List.Forall₂ R as bs)
    (hdistinct : (as.map f).Nodup) (x : String) :
    List.Forall₂ R (as.filter fun a => f a ≠ x) (bs.eraseP fun b => g b = x) := by
  induction h with
  | nil => exact .nil
  | @cons a b as bs hab hrest ih =>
    have hab' := hkey a b hab
    rw [List.map_cons, List.nodup_cons] at hdistinct
    by_cases hx : f a = x
    · have hothers : (as.filter fun a => f a ≠ x) = as := by
        rw [List.filter_eq_self]
        intro c hc
        refine decide_eq_true fun heq => ?_
        exact hdistinct.1 (hx ▸ heq ▸ List.mem_map_of_mem hc)
      rw [List.filter_cons_of_neg (by simp [hx]), List.eraseP_cons_of_pos (by simp [← hab', hx]),
        hothers]
      exact hrest
    · rw [List.filter_cons_of_pos (by simp [hx]), List.eraseP_cons_of_neg (by simp [← hab', hx])]
      exact .cons hab (ih hdistinct.2)

end PlainSheets
