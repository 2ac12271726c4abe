import PlainSheets.Proofs.Store.Held
import PlainSheets.Proofs.Store.Keyed
import PlainSheets.Proofs.Store.Ledger

/-!
What a write does to the sheets that a store holds. Both stores do the same: a write that succeeds
changes the sheet that it names, in what it is about and nowhere else, and leaves all other sheets as
they are, in their order.
-/
namespace PlainSheets

structure Keeping where
  /-- The data of a row that is made. -/
  made : Cell → Except Failure Cell
  /-- Data that takes the place of other data. -/
  put : Cell → Except Failure Cell
  /-- The time for each reading of the clock while a sheet is made. -/
  times : (Nat → Moment) → Nat → Moment

namespace Keeping

def list : Keeping :=
  ⟨fun data => data.asRecord.map .record, fun data => data.asRecord.map .record, id⟩

/-- Data is kept as text, and a sheet and its rows are made at one time. -/
def tables : Keeping :=
  ⟨fun data => (RowText.dumpRecord data).map .text, fun data => (RowText.dump data).map .text,
    fun clock _ => clock 0⟩

def read (k : Keeping) (f : Cell → Except Failure Cell) : Keeping :=
  ⟨fun data => k.made data >>= f, fun data => k.put data >>= f, k.times⟩

end Keeping

def Row.made (fresh : Fresh) (clock : Nat → Moment) (i : Nat) (data : Cell) : Row :=
  ⟨fresh.row i, data, clock (2 * i), some (clock (2 * i + 1))⟩

/-- A new sheet. Its own times follow those of its rows. -/
def Sheet.made (fresh : Fresh) (clock : Nat → Moment) (name : Option String) (columns : List Column)
    (data : List Cell) : Sheet :=
  ⟨fresh.sheet, name, columns, data.mapIdx (Row.made fresh clock), clock (2 * data.length),
    some (clock (2 * data.length + 1))⟩

/-- What a write that succeeds does to the sheets that were there before. -/
def Effect (k : Keeping) (fresh : Fresh) (clock : Nat → Moment) (before after : List Sheet) :
    Write → Prop
  | .create name columns rows => ∃ data, rows.mapM k.made = .ok data ∧
      after = before ++ [Sheet.made fresh (k.times clock) name columns data]
  | .updateSheet sheet name columns => ChangesOne Sheet.id sheet (fun s s' =>
      s' = { s with
        name := if name.getD "" = "" then s.name else name
        columns := columns.getD s.columns
        updatedAt := some (clock 0) }) before after
  | .deleteSheet sheet => RemovesOne Sheet.id sheet before after
  | .addRow sheet data => ChangesOne Sheet.id sheet (fun s s' => ∃ kept, k.made data = .ok kept ∧
      s' = { s with
        rows := s.rows ++ [Row.made fresh clock 0 kept]
        updatedAt := some (clock 1) }) before after
  | .updateRow sheet row data => ChangesOne Sheet.id sheet (fun s s' => ∃ rows,
      ChangesOne Row.id row (fun r r' => ∃ kept, k.put data = .ok kept ∧
        r' = { r with data := kept, updatedAt := some (clock 0) }) s.rows rows ∧
      s' = { s with rows, updatedAt := some (clock 0) }) before after
  | .deleteRow sheet row => ChangesOne Sheet.id sheet (fun s s' => ∃ rows,
      RemovesOne Row.id row s.rows rows ∧
      s' = { s with rows, updatedAt := some (clock 0) }) before after
  | .clear => after = []

variable {k : Keeping} {fresh : Fresh} {clock : Nat → Moment} {before after : List Sheet} {w : Write}

/-! Ids. -/

theorem Row.ids_made (fresh : Fresh) (clock : Nat → Moment) (data : List Cell) :
    (data.mapIdx (Row.made fresh clock)).map Row.id = (List.range data.length).map fresh.row := by
  refine List.ext_getElem (by simp) fun i _ _ => ?_
  simp [Row.made]

/-- The ids of rows that may be there after a write: new ones, or those of one sheet and one more. -/
def Fresh.Allows (fresh : Fresh) (before : List Sheet) (s : Sheet) : Prop :=
  (∃ n, (s.rows.map Row.id).Sublist ((List.range n).map fresh.row)) ∨
    ∃ old ∈ before, (s.rows.map Row.id).Sublist (old.rows.map Row.id ++ [fresh.row 0])

theorem ChangesOne.ids {sheet : String} {change : Sheet → Sheet → Prop}
    (h : ChangesOne Sheet.id sheet change before after) (hid : ∀ s s', change s s' → s'.id = s.id)
    (hrows : ∀ s s', change s s' →
      (s'.rows.map Row.id).Sublist (s.rows.map Row.id ++ [fresh.row 0])) :
    (after.map Sheet.id).Sublist (before.map Sheet.id ++ [fresh.sheet]) ∧
      ∀ s ∈ after, fresh.Allows before s := by
  refine ⟨(h.map_eq hid).symm ▸ List.sublist_append_left _ _, fun s' hs' => .inr ?_⟩
  rcases h.mem hs' with hs' | ⟨s, hs, -, hchange⟩
  · exact ⟨s', hs', List.sublist_append_left _ _⟩
  · exact ⟨s, hs, hrows s s' hchange⟩

/-- A write takes up no ids but those that it is given, and the ids that stay keep their order. -/
theorem Effect.ids (h : Effect k fresh clock before after w) :
    (after.map Sheet.id).Sublist (before.map Sheet.id ++ [fresh.sheet]) ∧
      ∀ s ∈ after, fresh.Allows before s := by
  have hold {sheets : List Sheet} (hsheets : sheets ⊆ before) :
      ∀ s ∈ sheets, fresh.Allows before s :=
    fun s hs => .inr ⟨s, hsheets hs, List.sublist_append_left _ _⟩
  cases w with
  | create name columns rows =>
    obtain ⟨data, -, rfl⟩ := h
    refine ⟨?_, List.forall_mem_append.mpr
      ⟨hold (List.Subset.refl before), List.forall_mem_singleton.mpr (.inl ⟨data.length, ?_⟩)⟩⟩
    · rw [List.map_append, List.map_singleton]
      exact List.Sublist.refl _
    · rw [Sheet.made, Row.ids_made]
  | updateSheet sheet name columns =>
    refine ChangesOne.ids h ?_ ?_
    · rintro s _ rfl
      rfl
    · rintro s _ rfl
      exact List.sublist_append_left _ _
  | deleteSheet sheet =>
    exact ⟨(h.sublist.map _).trans (List.sublist_append_left _ _), hold h.sublist.subset⟩
  | addRow sheet data =>
    refine ChangesOne.ids h ?_ ?_
    · rintro s _ ⟨kept, -, rfl⟩
      rfl
    · rintro s _ ⟨kept, -, rfl⟩
      rw [List.map_append, List.map_singleton]
      exact List.Sublist.refl _
  | updateRow sheet row data =>
    refine ChangesOne.ids h ?_ ?_
    · rintro s _ ⟨rows, -, rfl⟩
      rfl
    · rintro s _ ⟨rows, hrow, rfl⟩
      refine (hrow.map_eq ?_) ▸ List.sublist_append_left _ _
      rintro r _ ⟨kept, -, rfl⟩
      rfl
  | deleteRow sheet row =>
    refine ChangesOne.ids h ?_ ?_
    · rintro s _ ⟨rows, -, rfl⟩
      rfl
    · rintro s _ ⟨rows, hrow, rfl⟩
      exact (hrow.sublist.map _).trans (List.sublist_append_left _ _)
  | clear =>
    obtain rfl := h
    exact ⟨List.nil_sublist _, hold (List.nil_subset before)⟩

structure Distinct (held : List Sheet) : Prop where
  sheets : (held.map Sheet.id).Nodup
  rows : ∀ s ∈ held, (s.rows.map Row.id).Nodup

structure Fresh.UnusedIn (fresh : Fresh) (held : List Sheet) : Prop where
  sheet : fresh.sheet ∉ held.map Sheet.id
  rows : ∀ i, ∀ s ∈ held, fresh.row i ∉ s.rows.map Row.id
  distinct : Function.Injective fresh.row

namespace Effect

theorem distinct (h : Effect k fresh clock before after w) (hbefore : Distinct before)
    (hfresh : fresh.UnusedIn before) : Distinct after := by
  obtain ⟨hsheets, hrows⟩ := h.ids
  refine ⟨.sublist hsheets ?_, fun s hs => ?_⟩
  · exact hbefore.sheets.append (List.nodup_singleton _)
      (List.disjoint_singleton.mpr hfresh.sheet)
  · rcases hrows s hs with ⟨n, hnew⟩ | ⟨old, hold, hids⟩
    · exact .sublist hnew (List.nodup_range.map hfresh.distinct)
    · exact .sublist hids ((hbefore.rows old hold).append (List.nodup_singleton _)
        (List.disjoint_singleton.mpr (hfresh.rows 0 old hold)))

theorem unusedIn {other : Fresh} (h : Effect k fresh clock before after w)
    (hother : other.UnusedIn before) (hsheet : fresh.sheet ≠ other.sheet)
    (hrows : ∀ i j, fresh.row i ≠ other.row j) : other.UnusedIn after := by
  obtain ⟨hsheets, hids⟩ := h.ids
  refine ⟨fun hmem => ?_, fun i s hs hmem => ?_, hother.distinct⟩
  · rcases List.mem_append.mp (hsheets.subset hmem) with hold | hnew
    · exact hother.sheet hold
    · exact hsheet (List.mem_singleton.mp hnew).symm
  · rcases hids s hs with ⟨n, hnew⟩ | ⟨old, hold, hsub⟩
    · obtain ⟨j, -, heq⟩ := List.mem_map.mp (hnew.subset hmem)
      exact hrows j i heq
    · rcases List.mem_append.mp (hsub.subset hmem) with hmem | hnew
      · exact hother.rows i old hold hmem
      · exact hrows 0 i (List.mem_singleton.mp hnew).symm

end Effect

/-! What is read. -/

section Reading

variable {f : Cell → Except Failure Cell}

theorem mapM_bind {α β γ ε : Type} {g : α → Except ε β} {f : β → Except ε γ} {as : List α}
    {bs : List β} {cs : List γ} (hg : as.mapM g = .ok bs) (hf : bs.mapM f = .ok cs) :
    as.mapM (fun a => g a >>= f) = .ok cs := by
  rw [mapM_eq_ok] at hg hf ⊢
  induction hg generalizing cs with
  | nil =>
    cases hf
    exact .nil
  | cons hab _ ih =>
    cases hf with
    | cons hbc hrest => exact .cons (bind_eq_ok.mpr ⟨_, hab, hbc⟩) (ih hrest)

theorem Row.load_made {i : Nat} {data : Cell} {r : Row} {fresh : Fresh} {clock : Nat → Moment} :
    (Row.made fresh clock i data).load f = .ok r ↔
      ∃ read, f data = .ok read ∧ r = Row.made fresh clock i read :=
  Row.load_eq_ok

theorem Row.mapM_load_made {data : List Cell} {rows : List Row} (i : Nat)
    (h : (data.mapIdx fun j => Row.made fresh clock (i + j)).mapM (Row.load f) = .ok rows) :
    ∃ reads, data.mapM f = .ok reads ∧
      rows = reads.mapIdx fun j => Row.made fresh clock (i + j) := by
  induction data generalizing i rows with
  | nil =>
    obtain rfl := Except.ok.inj h
    exact ⟨[], rfl, rfl⟩
  | cons c data ih =>
    simp only [List.mapIdx_cons, Nat.add_zero, Nat.add_comm _ 1, ← Nat.add_assoc] at h
    obtain ⟨r, rest, hr, hrest, rfl⟩ := mapM_cons_eq_ok.mp h
    obtain ⟨read, hread, rfl⟩ := Row.load_made.mp hr
    obtain ⟨reads, hreads, rfl⟩ := ih _ hrest
    refine ⟨read :: reads, mapM_cons_eq_ok.mpr ⟨read, reads, hread, hreads, rfl⟩, ?_⟩
    simp only [List.mapIdx_cons, Nat.add_zero, Nat.add_comm _ 1, ← Nat.add_assoc]

theorem Sheet.load_congr {s s' t t' : Sheet} (hs : s.load f = .ok t) (hs' : s'.load f = .ok t')
    (hrows : s'.rows = s.rows) : t' = { s' with rows := t.rows } := by
  obtain ⟨rows, hmap, rfl⟩ := Sheet.load_eq_ok.mp hs
  obtain ⟨rows', hmap', rfl⟩ := Sheet.load_eq_ok.mp hs'
  rw [hrows, hmap] at hmap'
  obtain rfl := Except.ok.inj hmap'
  rfl

theorem Effect.read (h : Effect k fresh clock before after w) {bs as : List Sheet}
    (hbefore : before.mapM (Sheet.load f) = .ok bs) (hafter : after.mapM (Sheet.load f) = .ok as) :
    Effect (k.read f) fresh clock bs as w := by
  have hid := fun s s' => @Sheet.id_of_load f s s'
  cases w with
  | create name columns rows =>
    obtain ⟨data, hdata, rfl⟩ := h
    obtain ⟨_, _, hold, hnew, rfl⟩ := mapM_append_eq_ok.mp hafter
    obtain rfl := Except.ok.inj (hbefore.symm.trans hold)
    obtain ⟨s, _, hs, hnil, rfl⟩ := mapM_cons_eq_ok.mp hnew
    obtain rfl := Except.ok.inj hnil
    obtain ⟨loaded, hloaded, rfl⟩ := Sheet.load_eq_ok.mp hs
    obtain ⟨reads, hreads, rfl⟩ := Row.mapM_load_made 0 (by simpa [Sheet.made] using hloaded)
    have hlength : data.length = reads.length := (mapM_eq_ok.mp hreads).length_eq
    refine ⟨reads, mapM_bind hdata hreads, ?_⟩
    rw [Sheet.made, Sheet.made, hlength]
    simp only [Nat.zero_add]
    rfl
  | updateSheet sheet name columns =>
    refine ChangesOne.mapM h hid hbefore hafter ?_
    rintro s _ o n rfl ho hn
    obtain rfl := Sheet.load_congr ho hn rfl
    obtain ⟨rows, -, rfl⟩ := Sheet.load_eq_ok.mp ho
    rfl
  | deleteSheet sheet => exact RemovesOne.mapM h hid hbefore hafter
  | addRow sheet data =>
    refine ChangesOne.mapM h hid hbefore hafter ?_
    rintro s _ o n ⟨kept, hkept, rfl⟩ ho hn
    obtain ⟨rows, hrows, rfl⟩ := Sheet.load_eq_ok.mp ho
    obtain ⟨_, hrows', rfl⟩ := Sheet.load_eq_ok.mp hn
    obtain ⟨_, _, hold, hnew, rfl⟩ := mapM_append_eq_ok.mp hrows'
    obtain rfl := Except.ok.inj (hrows.symm.trans hold)
    obtain ⟨r, _, hr, hnil, rfl⟩ := mapM_cons_eq_ok.mp hnew
    obtain rfl := Except.ok.inj hnil
    obtain ⟨read, hread, rfl⟩ := Row.load_made.mp hr
    exact ⟨read, bind_eq_ok.mpr ⟨kept, hkept, hread⟩, rfl⟩
  | updateRow sheet row data =>
    refine ChangesOne.mapM h hid hbefore hafter ?_
    rintro s _ o n ⟨rows, hrow, rfl⟩ ho hn
    obtain ⟨os, hos, rfl⟩ := Sheet.load_eq_ok.mp ho
    obtain ⟨ns, hns, rfl⟩ := Sheet.load_eq_ok.mp hn
    refine ⟨ns, hrow.mapM (fun r r' => Row.id_of_load) hos hns ?_, rfl⟩
    rintro r _ o n ⟨kept, hkept, rfl⟩ ho hn
    obtain ⟨_, -, rfl⟩ := Row.load_eq_ok.mp ho
    obtain ⟨read, hread, rfl⟩ := Row.load_eq_ok.mp hn
    exact ⟨read, bind_eq_ok.mpr ⟨kept, hkept, hread⟩, rfl⟩
  | deleteRow sheet row =>
    refine ChangesOne.mapM h hid hbefore hafter ?_
    rintro s _ o n ⟨rows, hrow, rfl⟩ ho hn
    obtain ⟨os, hos, rfl⟩ := Sheet.load_eq_ok.mp ho
    obtain ⟨ns, hns, rfl⟩ := Sheet.load_eq_ok.mp hn
    exact ⟨ns, hrow.mapM (fun r r' => Row.id_of_load) hos hns, rfl⟩
  | clear =>
    obtain rfl := h
    exact (Except.ok.inj hafter).symm

end Reading

end PlainSheets
