import PlainSheets.Proofs.Cell.RowText
import PlainSheets.Store.Memory

/-!
Removal of what is the same. Equal rows have one id, and so have equal sheets: what is taken out is the item
that was asked for. Data with a stored form can always be compared.
-/
namespace PlainSheets

/-! Equal items have one id. -/

theorem Row.id_of_same {r t : Row} (h : r.same t = .ok true) : r.id = t.id := by
  obtain ⟨data, -, h⟩ := bind_eq_ok.mp h
  split at h
  · simp only [Except.ok.injEq, Bool.and_eq_true, beq_iff_eq] at h
    exact h.1.1
  · cases h

theorem Sheet.id_of_same {s t : Sheet} (h : s.same t = .ok true) : s.id = t.id := by
  unfold Sheet.same at h
  split at h
  · obtain ⟨rows, -, h⟩ := bind_eq_ok.mp h
    split at h
    · simp only [Except.ok.injEq, Bool.and_eq_true, beq_iff_eq] at h
      exact h.1.1
    · cases h
  · cases h

namespace Memory

section

variable {α : Type} {same : α → Except Failure Bool} {test : α → Bool} {list rest : List α}

/-- If only items that pass a test are the same, the first one that passes it is taken out. -/
theorem dropSame_eq_ok (htest : ∀ a, same a = .ok true → test a = true)
    (h : dropSame same list (list.findIdx test) = .ok rest) : rest = list.eraseP test := by
  induction list generalizing rest with
  | nil => exact (Except.ok.inj h).symm
  | cons a list ih =>
    rw [List.findIdx_cons] at h
    cases ha : test a with
    | true =>
      rw [ha] at h
      rw [List.eraseP_cons_of_pos ha]
      exact (Except.ok.inj h).symm
    | false =>
      rw [ha] at h
      obtain ⟨first, hfirst, h⟩ := bind_eq_ok.mp h
      cases first with
      | true => exact Bool.noConfusion ((htest a hfirst).symm.trans ha)
      | false =>
        obtain ⟨others, hothers, h⟩ := bind_eq_ok.mp h
        rw [List.eraseP_cons_of_neg (by simp [ha]), ← ih hothers]
        exact (Except.ok.inj h).symm

theorem exists_dropSame (hsame : ∀ a ∈ list, ∃ b, same a = .ok b) (place : Nat) :
    ∃ rest, dropSame same list place = .ok rest := by
  induction list generalizing place with
  | nil => exact ⟨[], rfl⟩
  | cons a list ih =>
    rw [List.forall_mem_cons] at hsame
    cases place with
    | zero => exact ⟨list, rfl⟩
    | succ place =>
      obtain ⟨first, hfirst⟩ := hsame.1
      obtain ⟨rest, hrest⟩ := ih hsame.2 place
      rw [dropSame, exists_bind_eq_ok]
      refine ⟨first, hfirst, ?_⟩
      cases first with
      | true => exact ⟨list, rfl⟩
      | false => exact ⟨a :: rest, bind_eq_ok.mpr ⟨rest, hrest, rfl⟩⟩

end

variable {m : Memory} {now : Moment} {sheet row : String}

theorem find_of_require {s : Sheet} (h : m.require sheet = .ok s) :
    m.sheets.find? (fun s => s.id = sheet) = some s := by
  unfold require at h
  split at h
  · rename_i found hfound
    obtain rfl := Except.ok.inj h
    exact hfound
  · cases h

theorem find_of_requireRow {s : Sheet} {r : Row}
    (h : requireRow s sheet row = .ok r) : s.rows.find? (fun r => r.id = row) = some r := by
  unfold requireRow at h
  split at h
  · rename_i found hfound
    obtain rfl := Except.ok.inj h
    exact hfound
  · cases h

theorem mem_of_require {s : Sheet} (h : m.require sheet = .ok s) : s ∈ m.sheets :=
  List.mem_of_find?_eq_some (find_of_require h)

theorem id_of_require {s : Sheet} (h : m.require sheet = .ok s) : s.id = sheet := by
  simpa using List.find?_some (find_of_require h)

theorem id_of_requireRow {s : Sheet} {r : Row} (h : requireRow s sheet row = .ok r) : r.id = row := by
  simpa using List.find?_some (find_of_requireRow h)

theorem deleteSheet_eq_ok {p : Memory × Unit} (h : m.deleteSheet sheet = .ok p) :
    ∃ s, m.require sheet = .ok s ∧ p.1 = ⟨m.sheets.eraseP fun t => t.id = sheet⟩ := by
  obtain ⟨s, hs, h⟩ := bind_eq_ok.mp h
  obtain ⟨sheets, hsheets, h⟩ := bind_eq_ok.mp h
  cases h
  refine ⟨s, hs, congrArg Memory.mk (dropSame_eq_ok (fun t ht => ?_) hsheets)⟩
  exact decide_eq_true ((Sheet.id_of_same ht).trans (id_of_require hs))

theorem deleteRow_eq_ok {p : Memory × Unit} (h : m.deleteRow now sheet row = .ok p) :
    ∃ s r, m.require sheet = .ok s ∧ requireRow s sheet row = .ok r ∧
      p.1 = m.replace { s with rows := s.rows.eraseP fun t => t.id = row, updatedAt := some now } := by
  obtain ⟨s, hs, h⟩ := bind_eq_ok.mp h
  obtain ⟨r, hr, h⟩ := bind_eq_ok.mp h
  obtain ⟨rows, hrows, h⟩ := bind_eq_ok.mp h
  cases h
  obtain rfl : rows = s.rows.eraseP fun t => t.id = row := by
    refine dropSame_eq_ok (fun t ht => ?_) hrows
    exact decide_eq_true ((Row.id_of_same ht).trans (id_of_requireRow hr))
  exact ⟨s, r, hs, hr, rfl⟩

end Memory

/-! Data with a stored form. -/

namespace RowText

def HasText (c : Cell) : Prop := ∃ j, encode c = .ok j

theorem hasText_items {items : List Cell} {js : List Json} (h : encodeItems items = .ok js) :
    ∀ c ∈ items, HasText c := by
  induction items generalizing js with
  | nil => exact List.forall_mem_nil _
  | cons c items ih =>
    obtain ⟨j, hj, h⟩ := bind_eq_ok.mp h
    obtain ⟨js, hjs, -⟩ := bind_eq_ok.mp h
    exact List.forall_mem_cons.mpr ⟨⟨j, hj⟩, ih hjs⟩

theorem hasText_fields {fs : Record} {js : List (String × Json)} (h : encodeFields fs = .ok js) :
    ∀ f ∈ fs, HasText f.2 := by
  induction fs generalizing js with
  | nil => exact List.forall_mem_nil _
  | cons f fs ih =>
    obtain ⟨name, -, h⟩ := bind_eq_ok.mp h
    obtain ⟨j, hj, h⟩ := bind_eq_ok.mp h
    obtain ⟨js, hjs, -⟩ := bind_eq_ok.mp h
    exact List.forall_mem_cons.mpr ⟨⟨j, hj⟩, ih hjs⟩

theorem HasText.items {items : List Cell} (h : HasText (.list items)) : ∀ c ∈ items, HasText c := by
  obtain ⟨j, hj⟩ := h
  obtain ⟨js, hjs, -⟩ := map_eq_ok.mp hj
  exact hasText_items hjs

theorem HasText.fields {fs : Record} (h : HasText (.record fs)) : ∀ f ∈ fs, HasText f.2 := by
  obtain ⟨j, hj⟩ := h
  obtain ⟨js, hjs, -⟩ := map_eq_ok.mp hj
  exact hasText_fields hjs

theorem HasText.isBundle {c : Cell} (h : HasText c) : c.isBundle = false := by
  unfold Cell.isBundle
  split
  · obtain ⟨j, hj⟩ := h
    cases hj
  · rfl

theorem HasText.isSignalling {a : Atom} (h : HasText (.atom a)) : a.isSignalling = false := by
  unfold Atom.isSignalling
  split
  · obtain ⟨j, hj⟩ := h
    cases hj
  · rfl

end RowText

open RowText (HasText)

namespace Cell

theorem same_atoms {a b : Atom} (ha : HasText (.atom a)) (hb : HasText (.atom b)) :
    (Cell.atom a).same (.atom b) = .ok (a.sameKey b) := by
  have hatoms : (Cell.atom a).same (.atom b) = a.same b := by
    cases a with
    | bundle => exact nomatch ha.isBundle
    | _ => cases b with
      | bundle => exact nomatch hb.isBundle
      | _ => rfl
  rw [hatoms, Atom.same, ha.isSignalling, hb.isSignalling]
  rfl

mutual

theorem exists_same : ∀ {c d : Cell}, HasText c → HasText d → ∃ b, c.same d = .ok b
  | .atom a, .atom b, hc, hd => ⟨_, same_atoms hc hd⟩
  | .list xs, .list ys, hc, hd => by
    rw [Cell.same]
    split
    · exact exists_sameItems hc.items hd.items
    · exact ⟨false, rfl⟩
  | .record fs, .record gs, hc, hd => by
    rw [Cell.same]
    split
    · exact exists_sameFields hc.fields hd.fields
    · exact ⟨false, rfl⟩
  | .atom a, .list _, hc, _ | .atom a, .record _, hc, _ => by
    cases a with
    | bundle => exact nomatch hc.isBundle
    | _ => exact ⟨false, rfl⟩
  | .list _, .atom b, _, hd | .record _, .atom b, _, hd => by
    cases b with
    | bundle => exact nomatch hd.isBundle
    | _ => exact ⟨false, rfl⟩
  | .list _, .record _, _, _ | .record _, .list _, _, _ => ⟨false, rfl⟩

theorem exists_sameItems : ∀ {xs ys : List Cell}, (∀ c ∈ xs, HasText c) → (∀ c ∈ ys, HasText c) →
    ∃ b, sameItems xs ys = .ok b
  | [], _, _, _ => ⟨true, rfl⟩
  | _ :: _, [], _, _ => ⟨true, rfl⟩
  | x :: xs, y :: ys, hxs, hys => by
    rw [List.forall_mem_cons] at hxs hys
    obtain ⟨first, hfirst⟩ := exists_same hxs.1 hys.1
    rw [sameItems, exists_bind_eq_ok]
    refine ⟨first, hfirst, ?_⟩
    cases first with
    | true => exact exists_sameItems hxs.2 hys.2
    | false => exact ⟨false, rfl⟩

theorem exists_sameFields : ∀ {fs gs : Record}, (∀ f ∈ fs, HasText f.2) → (∀ g ∈ gs, HasText g.2) →
    ∃ b, sameFields fs gs = .ok b
  | [], _, _, _ => ⟨true, rfl⟩
  | (k, c) :: fs, gs, hfs, hgs => by
    rw [List.forall_mem_cons] at hfs
    rw [sameFields]
    split
    · exact ⟨false, rfl⟩
    · rename_i g hg
      obtain ⟨first, hfirst⟩ := exists_same hfs.1 (hgs g (List.mem_of_find?_eq_some hg))
      rw [exists_bind_eq_ok]
      refine ⟨first, hfirst, ?_⟩
      cases first with
      | true => exact exists_sameFields hfs.2 hgs
      | false => exact ⟨false, rfl⟩

end

end Cell

theorem Row.exists_same {r t : Row} (hr : HasText r.data) (ht : HasText t.data) :
    ∃ b, r.same t = .ok b := by
  obtain ⟨data, hdata⟩ := Cell.exists_same hr ht
  rw [Row.same, exists_bind_eq_ok]
  refine ⟨data, hdata, ?_⟩
  cases data <;> exact ⟨_, rfl⟩

theorem Row.exists_sameAll : ∀ {rs ts : List Row}, (∀ r ∈ rs, HasText r.data) →
    (∀ t ∈ ts, HasText t.data) → ∃ b, Row.sameAll rs ts = .ok b
  | [], _, _, _ => ⟨true, rfl⟩
  | _ :: _, [], _, _ => ⟨true, rfl⟩
  | r :: rs, t :: ts, hrs, hts => by
    rw [List.forall_mem_cons] at hrs hts
    obtain ⟨first, hfirst⟩ := Row.exists_same hrs.1 hts.1
    rw [Row.sameAll, exists_bind_eq_ok]
    refine ⟨first, hfirst, ?_⟩
    cases first with
    | true => exact Row.exists_sameAll hrs.2 hts.2
    | false => exact ⟨false, rfl⟩

theorem Sheet.exists_same {s t : Sheet} (hs : ∀ r ∈ s.rows, HasText r.data)
    (ht : ∀ r ∈ t.rows, HasText r.data) : ∃ b, s.same t = .ok b := by
  rw [Sheet.same]
  split
  · rw [exists_bind_eq_ok]
    obtain ⟨rows, hrows⟩ := Row.exists_sameAll hs ht
    refine ⟨rows, hrows, ?_⟩
    cases rows <;> exact ⟨_, rfl⟩
  · exact ⟨false, rfl⟩

namespace Memory

variable {m : Memory} {now : Moment} {sheet row : String} {s : Sheet}

theorem exists_deleteSheet (h : ∀ s ∈ m.sheets, ∀ r ∈ s.rows, HasText r.data)
    (hs : m.require sheet = .ok s) : ∃ p, m.deleteSheet sheet = .ok p := by
  obtain ⟨sheets, hsheets⟩ := exists_dropSame
    (fun t ht => Sheet.exists_same (h t ht) (h s (mem_of_require hs)))
    (m.sheets.findIdx fun t => t.id = sheet)
  exact ⟨_, bind_eq_ok.mpr ⟨s, hs, bind_eq_ok.mpr ⟨sheets, hsheets, rfl⟩⟩⟩

theorem exists_deleteRow (h : ∀ r ∈ s.rows, HasText r.data) (hs : m.require sheet = .ok s) {r : Row}
    (hr : requireRow s sheet row = .ok r) : ∃ p, m.deleteRow now sheet row = .ok p := by
  have hmem : r ∈ s.rows := List.mem_of_find?_eq_some (find_of_requireRow hr)
  obtain ⟨rows, hrows⟩ := exists_dropSame (fun t ht => Row.exists_same (h t ht) (h r hmem))
    (s.rows.findIdx fun t => t.id = row)
  exact ⟨_, bind_eq_ok.mpr ⟨s, hs, bind_eq_ok.mpr ⟨r, hr, bind_eq_ok.mpr ⟨rows, hrows, rfl⟩⟩⟩⟩

end Memory

end PlainSheets
