import Mathlib.Algebra.BigOperators.Group.List.Lemmas
import Mathlib.Algebra.GroupWithZero.Nat
import Mathlib.Data.List.Induction
import Mathlib.Data.List.Perm.Subperm

/-!
The distinct items of a list, in the order in which they appear. Which items are one may be told by any
test.
-/
namespace PlainSheets

section

variable {α : Type} (same : α → α → Bool)

theorem eraseDupsBy_loop_concat (as kept : List α) (a : α) :
    List.eraseDupsBy.loop same (as ++ [a]) kept =
      if (List.eraseDupsBy.loop same as kept).any (same a) then List.eraseDupsBy.loop same as kept
      else List.eraseDupsBy.loop same as kept ++ [a] := by
  induction as generalizing kept with
  | nil =>
    rw [List.nil_append, List.eraseDupsBy.loop, List.eraseDupsBy.loop, List.any_reverse]
    cases kept.any (same a) with
    | true => rfl
    | false => exact List.reverse_cons
  | cons b as ih =>
    rw [List.cons_append, List.eraseDupsBy.loop, List.eraseDupsBy.loop]
    cases kept.any (same b) with
    | true => exact ih kept
    | false => exact ih (b :: kept)

theorem eraseDupsBy_concat (as : List α) (a : α) : (as ++ [a]).eraseDupsBy same =
    if (as.eraseDupsBy same).any (same a) then as.eraseDupsBy same else as.eraseDupsBy same ++ [a] :=
  eraseDupsBy_loop_concat same as [] a

theorem eraseDupsBy_sublist (as : List α) : (as.eraseDupsBy same).Sublist as := by
  induction as using List.reverseRecOn with
  | nil => exact .refl []
  | append_singleton as a ih =>
    rw [eraseDupsBy_concat]
    split
    · exact ih.trans (List.sublist_append_left as [a])
    · exact ih.append_right [a]

theorem pairwise_eraseDupsBy (as : List α) :
    (as.eraseDupsBy same).Pairwise fun a b => same b a = false := by
  induction as using List.reverseRecOn with
  | nil => exact .nil
  | append_singleton as a ih =>
    rw [eraseDupsBy_concat]
    split
    · exact ih
    · rename_i hnew
      rw [List.any_eq_true, not_exists] at hnew
      refine List.pairwise_append.mpr ⟨ih, List.pairwise_singleton _ _, fun b hb c hc => ?_⟩
      rw [List.mem_singleton.mp hc]
      exact Bool.eq_false_iff.mpr fun hsame => hnew b ⟨hb, hsame⟩

theorem exists_mem_eraseDupsBy (hrefl : ∀ a, same a a = true) {as : List α} {a : α} (h : a ∈ as) :
    ∃ b ∈ as.eraseDupsBy same, same a b = true := by
  induction as using List.reverseRecOn with
  | nil => cases h
  | append_singleton as c ih =>
    rw [eraseDupsBy_concat]
    rcases List.mem_append.mp h with ha | ha
    · obtain ⟨b, hb, hsame⟩ := ih ha
      refine ⟨b, ?_, hsame⟩
      split
      · exact hb
      · exact List.mem_append_left _ hb
    · rw [List.mem_singleton.mp ha]
      split
      · rename_i hkept
        exact List.any_eq_true.mp hkept
      · exact ⟨c, List.mem_append_right _ (List.mem_singleton_self c), hrefl c⟩

end

variable {α : Type} [DecidableEq α] {as bs : List α}

theorem eraseDups_concat (as : List α) (a : α) :
    (as ++ [a]).eraseDups = if a ∈ as then as.eraseDups else as.eraseDups ++ [a] := by
  rw [List.eraseDups_append]
  split
  · rename_i hmem
    have hremoved : [a].removeAll as = [] := by simp [List.removeAll, hmem]
    rw [hremoved, List.eraseDups_nil, List.append_nil]
  · rename_i hmem
    have hremoved : [a].removeAll as = [a] := by simp [List.removeAll, hmem]
    rw [hremoved]
    rfl

theorem nodup_eraseDups (as : List α) : as.eraseDups.Nodup := by
  induction as using List.reverseRecOn with
  | nil => exact List.nodup_nil
  | append_singleton as a ih =>
    rw [eraseDups_concat]
    split
    · exact ih
    · rename_i hmem
      refine List.nodup_append.mpr ⟨ih, List.nodup_singleton a, fun b hb c hc heq => hmem ?_⟩
      rw [← List.mem_singleton.mp hc, ← heq]
      exact List.mem_eraseDups.mp hb

theorem eraseDups_perm_dedup (as : List α) : as.eraseDups.Perm as.dedup :=
  (List.perm_ext_iff_of_nodup (nodup_eraseDups as) as.nodup_dedup).mpr fun a => by
    rw [List.mem_eraseDups, List.mem_dedup]

@[simp] theorem sum_count_eraseDups (as : List α) : (as.eraseDups.map as.count).sum = as.length := by
  rw [((eraseDups_perm_dedup as).map _).sum_eq]
  exact List.sum_map_count_dedup_eq_length as

theorem length_eraseDups_le (h : as ⊆ bs) : as.eraseDups.length ≤ bs.eraseDups.length := by
  refine ((nodup_eraseDups as).subperm fun a ha => ?_).length_le
  rw [List.mem_eraseDups] at ha ⊢
  exact h ha

@[simp] theorem eraseDups_eq_nil : as.eraseDups = [] ↔ as = [] := by
  simp only [List.eq_nil_iff_forall_not_mem, List.mem_eraseDups]

/-- If a test compares what is made of the items, the items that are left make the distinct ones. -/
theorem map_eraseDupsBy {β : Type} {same : β → β → Bool} {f : β → α} {bs : List β}
    (h : ∀ b ∈ bs, ∀ c ∈ bs, same b c = decide (f b = f c)) :
    (bs.eraseDupsBy same).map f = (bs.map f).eraseDups := by
  induction bs using List.reverseRecOn with
  | nil => rfl
  | append_singleton bs b ih =>
    have hlast : ∀ c ∈ bs.eraseDupsBy same, same b c = decide (f b = f c) := fun c hc =>
      h b (List.mem_append_right _ (List.mem_singleton_self b)) c
        (List.mem_append_left _ ((eraseDupsBy_sublist same bs).subset hc))
    have hrest := ih fun c hc d hd => h c (List.mem_append_left _ hc) d (List.mem_append_left _ hd)
    have hany : (bs.eraseDupsBy same).any (same b) = true ↔ f b ∈ bs.map f := by
      rw [← List.mem_eraseDups, ← hrest, List.any_eq_true, List.mem_map]
      refine exists_congr fun c => and_congr_right fun hc => ?_
      rw [hlast c hc, decide_eq_true_iff, eq_comm]
    rw [eraseDupsBy_concat, List.map_append, List.map_singleton, eraseDups_concat, ← hrest]
    simp only [hany]
    split
    · rfl
    · rw [List.map_append, List.map_singleton]

end PlainSheets
