import PlainSheets.Proofs.Distinct
import PlainSheets.Report.Columns

/-!
How often each text occurs among cells. Main statement: every text is told once, where it occurs first,
with the number of cells that it stands for.
-/
namespace PlainSheets

namespace frequencies

variable {keys : List String}

theorem bump_map (hkeys : keys.Nodup) (text : String) (count : String → Nat) :
    bump text (keys.map fun k => (k, count k)) =
      if text ∈ keys then keys.map fun k => (k, count k + if k = text then 1 else 0)
      else keys.map (fun k => (k, count k)) ++ [(text, 1)] := by
  induction keys with
  | nil => rfl
  | cons k keys ih =>
    obtain ⟨hk, hrest⟩ := List.nodup_cons.mp hkeys
    rw [List.map_cons, bump]
    split
    · rename_i heq
      have hsame : keys.map (fun k => (k, count k + if k = text then 1 else 0)) =
          keys.map fun k => (k, count k) := by
        refine List.map_congr_left fun l hl => ?_
        have hne : l ≠ text := fun h => hk (heq ▸ h ▸ hl)
        rw [if_neg hne]
        rfl
      rw [if_pos (heq ▸ List.mem_cons_self), List.map_cons, hsame, if_pos heq]
    · rename_i hne
      rw [ih hrest]
      by_cases hmem : text ∈ keys
      · rw [if_pos hmem, if_pos (List.mem_cons_of_mem k hmem), List.map_cons, if_neg hne]
        rfl
      · have hnot : text ∉ k :: keys := by simpa [eq_comm (a := text), hne] using hmem
        rw [if_neg hmem, if_neg hnot]
        rfl

theorem count_concat (texts : List String) (text t : String) :
    (texts ++ [text]).count t = texts.count t + if t = text then 1 else 0 := by
  rw [List.count_append, List.count_singleton]
  simp only [beq_iff_eq, eq_comm (a := text)]

theorem foldl_bump (texts : List String) :
    texts.foldl (fun counts t => bump t counts) [] = texts.eraseDups.map fun t => (t, texts.count t) := by
  induction texts using List.reverseRecOn with
  | nil => rfl
  | append_singleton texts text ih =>
    rw [List.foldl_concat, ih, bump_map (nodup_eraseDups texts), eraseDups_concat]
    -- A text that was there already keeps its place, and a new one comes last.
    by_cases hmem : text ∈ texts
    · rw [if_pos (List.mem_eraseDups.mpr hmem), if_pos hmem]
      simp only [count_concat]
    · have hfirst : (texts ++ [text]).count text = 1 := by
        rw [count_concat, if_pos rfl, List.count_eq_zero.mpr hmem]
      have hothers : ∀ t ∈ texts.eraseDups, (t, texts.count t) = (t, (texts ++ [text]).count t) := by
        intro t ht
        have hne : t ≠ text := fun h => hmem (h ▸ List.mem_eraseDups.mp ht)
        rw [count_concat, if_neg hne, Nat.add_zero]
      rw [if_neg (mt List.mem_eraseDups.mp hmem), if_neg hmem, List.map_append, List.map_singleton,
        hfirst, List.map_congr_left hothers]

end frequencies

variable {cells others : List Cell}

theorem frequencies_eq (cells : List Cell) :
    frequencies cells =
      (cells.map Cell.asText).eraseDups.map fun t => (t, (cells.map Cell.asText).count t) := by
  rw [← frequencies.foldl_bump, List.foldl_map]
  rfl

theorem nodup_frequencies (cells : List Cell) : ((frequencies cells).map Prod.fst).Nodup := by
  rw [frequencies_eq, List.map_map]
  exact (List.map_id _).symm ▸ nodup_eraseDups _

@[simp] theorem sum_frequencies (cells : List Cell) : ((frequencies cells).map Prod.snd).sum = cells.length := by
  rw [frequencies_eq, List.map_map]
  exact (sum_count_eraseDups _).trans (List.length_map _)

theorem length_frequencies (cells : List Cell) :
    (frequencies cells).length = (cells.map Cell.asText).eraseDups.length := by
  rw [frequencies_eq, List.length_map]

theorem count_of_mem_frequencies {f : String × Nat} (h : f ∈ frequencies cells) :
    f.2 = (cells.map Cell.asText).count f.1 := by
  rw [frequencies_eq] at h
  obtain ⟨t, -, rfl⟩ := List.mem_map.mp h
  rfl

theorem length_frequencies_le_length (cells : List Cell) : (frequencies cells).length ≤ cells.length := by
  rw [length_frequencies, (eraseDups_perm_dedup _).length_eq, ← List.length_map Cell.asText]
  exact (List.dedup_sublist _).length_le

theorem length_frequencies_le (h : cells ⊆ others) :
    (frequencies cells).length ≤ (frequencies others).length := by
  rw [length_frequencies, length_frequencies]
  exact length_eraseDups_le (List.map_subset _ h)

@[simp] theorem length_frequencies_eq_zero : (frequencies cells).length = 0 ↔ cells.length = 0 := by
  rw [length_frequencies, List.length_eq_zero_iff, List.length_eq_zero_iff, eraseDups_eq_nil,
    List.map_eq_nil_iff]

end PlainSheets
