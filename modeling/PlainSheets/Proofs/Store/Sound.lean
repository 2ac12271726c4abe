import PlainSheets.Proofs.Store.Commit
import Mathlib.Data.List.Pairwise
import Mathlib.Data.List.Range
import Mathlib.Data.List.Nodup

/-!
What holds of the tables after every write. Ids are used once, every column and every row belongs to
a sheet, and positions follow the order in which entries were made, whatever was deleted in between.
-/
namespace PlainSheets

/-- Tables as writes leave them. -/
structure Tables.Sound (t : Tables) : Prop where
  sheetIds : (t.sheets.map SheetEntry.id).Nodup
  rowIds : (t.rows.map RowEntry.id).Nodup
  columnsOwned : ∀ c ∈ t.columns, c.sheet ∈ t.sheets.map SheetEntry.id
  rowsOwned : ∀ r ∈ t.rows, r.sheet ∈ t.sheets.map SheetEntry.id
  sheetOrder : t.sheets.Pairwise fun a b => a.position < b.position
  rowOrder : t.rows.Pairwise fun a b => a.sheet = b.sheet → a.position < b.position
  columnPositions : ∀ sheet,
    (t.columnsOf sheet).map ColumnEntry.position = List.range (t.columnsOf sheet).length

structure Fresh.NewIn (fresh : Fresh) (t : Tables) : Prop where
  sheet : fresh.sheet ∉ t.sheets.map SheetEntry.id
  rows : ∀ i, fresh.row i ∉ t.rows.map RowEntry.id
  distinct : Function.Injective fresh.row

namespace Tables

theorem Sound.inOrder {t : Tables} (h : t.Sound) : t.InOrder where
  sheets := h.sheetOrder
  columns sheet := by
    have hpositions : ((t.columnsOf sheet).map ColumnEntry.position).Pairwise (· < ·) := by
      rw [h.columnPositions sheet]
      exact List.pairwise_lt_range
    exact List.pairwise_map.mp hpositions
  rows sheet := by
    refine (h.rowOrder.filter _).imp_of_mem fun {a b} ha hb hlt => hlt ?_
    rw [(mem_rowsOf.mp ha).2, (mem_rowsOf.mp hb).2]

theorem Sound.rowIdsOf {t : Tables} (h : t.Sound) (x : String) :
    ((t.rowsOf x).map RowEntry.id).Nodup :=
  h.rowIds.sublist (List.filter_sublist.map _)

theorem sound_empty : empty.Sound where
  sheetIds := List.nodup_nil
  rowIds := List.nodup_nil
  columnsOwned := by simp [empty]
  rowsOwned := by simp [empty]
  sheetOrder := .nil
  rowOrder := .nil
  columnPositions := by simp [empty, columnsOf]

/-! Positions. -/

theorem le_foldl_max (positions : List Nat) (start : Nat) :
    start ≤ positions.foldl max start ∧ ∀ p ∈ positions, p ≤ positions.foldl max start := by
  induction positions generalizing start with
  | nil => simp
  | cons q qs ih =>
    obtain ⟨hstart, hall⟩ := ih (max start q)
    refine ⟨by simp only [List.foldl_cons]; omega, fun p hp => ?_⟩
    rcases List.mem_cons.mp hp with rfl | hp
    · simp only [List.foldl_cons]
      omega
    · exact hall p hp

theorem lt_nextPosition {positions : List Nat} {p : Nat} (hp : p ∈ positions) :
    p < nextPosition positions :=
  (le_foldl_max (positions.map (· + 1)) 0).2 (p + 1) (List.mem_map_of_mem hp)

/-! Entries made by a write. -/

theorem columnEntries_spec {sheet : String} {i : Nat} {columns : List Column}
    {cs : List ColumnEntry}
    (h : columnEntries sheet i columns = .ok cs) :
    (∀ c ∈ cs, c.sheet = sheet) ∧ cs.map ColumnEntry.position = List.range' i cs.length ∧
      cs.map readColumn = columns := by
  induction columns generalizing i cs with
  | nil =>
    cases h
    exact ⟨by simp, rfl, rfl⟩
  | cons c columns ih =>
    obtain ⟨name, hname, h⟩ := bind_eq_ok.mp h
    obtain ⟨width, hwidth, h⟩ := bind_eq_ok.mp h
    obtain ⟨rest, hrest, h⟩ := bind_eq_ok.mp h
    obtain rfl := Except.ok.inj h
    obtain ⟨hsheet, hpositions, hread⟩ := ih hrest
    have hcname : c.name = some name := by
      unfold requireName at hname
      split at hname
      · rename_i heq
        rw [← Except.ok.inj hname, heq]
      · cases hname
    have hcwidth : c.width = width := by
      unfold requireWidth at hwidth
      split at hwidth
      · rename_i heq
        rw [← Except.ok.inj hwidth, heq]
      · rename_i heq
        split at hwidth
        · rw [← Except.ok.inj hwidth, heq]
        · cases hwidth
    refine ⟨?_, ?_, ?_⟩
    · intro d hd
      rcases List.mem_cons.mp hd with rfl | hd
      · rfl
      · exact hsheet d hd
    · rw [List.map_cons, hpositions, List.length_cons, List.range'_succ]
    · rw [List.map_cons, hread, readColumn, ← hcname, ← hcwidth]

theorem rowEntries_spec {fresh : Fresh} {now : Moment} {i : Nat} {records : List Record}
    {rs : List RowEntry} (h : rowEntries fresh now i records = .ok rs) :
    (∀ r ∈ rs, r.sheet = fresh.sheet) ∧ rs.map RowEntry.position = List.range' i rs.length ∧
      rs.map RowEntry.id = (List.range' i rs.length).map fresh.row := by
  induction records generalizing i rs with
  | nil =>
    cases h
    exact ⟨by simp, rfl, rfl⟩
  | cons r records ih =>
    obtain ⟨data, hdata, h⟩ := bind_eq_ok.mp h
    obtain ⟨rest, hrest, h⟩ := bind_eq_ok.mp h
    obtain rfl := Except.ok.inj h
    obtain ⟨hsheet, hpositions, hids⟩ := ih hrest
    refine ⟨?_, ?_, ?_⟩
    · intro d hd
      rcases List.mem_cons.mp hd with rfl | hd
      · rfl
      · exact hsheet d hd
    · rw [List.map_cons, hpositions, List.length_cons, List.range'_succ]
    · rw [List.map_cons, hids, List.length_cons, List.range'_succ, List.map_cons]

/-! Each write. -/

variable {t t' : Tables} {fresh : Fresh} {now : Moment} {clock : Nat → Moment}

theorem Sound.mapSheets (h : t.Sound) (f : SheetEntry → SheetEntry)
    (hf : ∀ s, (f s).id = s.id ∧ (f s).position = s.position) :
    ({ t with sheets := t.sheets.map f } : Tables).Sound := by
  have hids : (t.sheets.map f).map SheetEntry.id = t.sheets.map SheetEntry.id := by
    rw [List.map_map]
    exact List.map_congr_left fun s _ => (hf s).1
  refine ⟨hids ▸ h.sheetIds, h.rowIds, hids ▸ h.columnsOwned, hids ▸ h.rowsOwned, ?_, h.rowOrder,
    h.columnPositions⟩
  exact List.pairwise_map.mpr (h.sheetOrder.imp fun hlt => by rwa [(hf _).2, (hf _).2])

theorem Sound.touch (h : t.Sound) (sheet : String) : (t.touch sheet now).Sound :=
  h.mapSheets _ fun s => by split <;> exact ⟨rfl, rfl⟩

theorem Sound.rename (h : t.Sound) (sheet : String) (name : Option String) :
    (t.rename sheet name).Sound := by
  unfold Tables.rename
  split
  · exact h
  split
  · exact h
  · exact h.mapSheets _ fun s => by split <;> exact ⟨rfl, rfl⟩

theorem Sound.mapRows (h : t.Sound) (f : RowEntry → RowEntry)
    (hf : ∀ r, (f r).id = r.id ∧ (f r).sheet = r.sheet ∧ (f r).position = r.position) :
    ({ t with rows := t.rows.map f } : Tables).Sound := by
  have hids : (t.rows.map f).map RowEntry.id = t.rows.map RowEntry.id := by
    rw [List.map_map]
    exact List.map_congr_left fun r _ => (hf r).1
  refine ⟨h.sheetIds, hids ▸ h.rowIds, h.columnsOwned, ?_, h.sheetOrder, ?_, h.columnPositions⟩
  · intro r hr
    obtain ⟨a, ha, rfl⟩ := List.mem_map.mp hr
    rw [(hf a).2.1]
    exact h.rowsOwned a ha
  · refine List.pairwise_map.mpr (h.rowOrder.imp fun hlt => ?_)
    rwa [(hf _).2.1, (hf _).2.1, (hf _).2.2, (hf _).2.2]

theorem Sound.filterRows (h : t.Sound) (p : RowEntry → Bool) :
    ({ t with rows := t.rows.filter p } : Tables).Sound :=
  ⟨h.sheetIds, h.rowIds.sublist (List.filter_sublist.map _), h.columnsOwned,
    fun r hr => h.rowsOwned r (List.mem_of_mem_filter hr), h.sheetOrder, h.rowOrder.filter p,
    h.columnPositions⟩

theorem Sound.appendRow (h : t.Sound) {r : RowEntry} (hid : r.id ∉ t.rows.map RowEntry.id)
    (hsheet : r.sheet ∈ t.sheets.map SheetEntry.id)
    (hposition : ∀ a ∈ t.rows, a.sheet = r.sheet → a.position < r.position) :
    ({ t with rows := t.rows ++ [r] } : Tables).Sound := by
  refine ⟨h.sheetIds, ?_, h.columnsOwned, ?_, h.sheetOrder, ?_, h.columnPositions⟩
  · rw [List.map_append, List.map_singleton]
    exact List.nodup_append.mpr ⟨h.rowIds, List.nodup_singleton _, by
      rintro a ha b hb rfl
      rw [List.mem_singleton] at hb
      exact hid (hb ▸ ha)⟩
  · intro a ha
    rcases List.mem_append.mp ha with ha | ha
    · exact h.rowsOwned a ha
    · rw [List.mem_singleton.mp ha]
      exact hsheet
  · refine List.pairwise_append.mpr ⟨h.rowOrder, List.pairwise_singleton _ _, ?_⟩
    intro a ha b hb
    rw [List.mem_singleton.mp hb]
    exact hposition a ha

theorem columnsOf_putColumns {sheet : String} {columns : List Column} {cs : List ColumnEntry}
    (hcs : columnEntries sheet 0 columns = .ok cs) (x : String) :
    ({ t with columns := (t.columns.filter fun c => c.sheet ≠ sheet) ++ cs } : Tables).columnsOf x =
      if x = sheet then cs else t.columnsOf x := by
  rw [columnsOf, List.filter_append, filter_of_sheet (columnEntries_spec hcs).1]
  split
  · rename_i heq
    rw [List.filter_filter, List.filter_eq_nil_iff.mpr, List.nil_append]
    intro c _
    simp [heq]
  · rename_i hne
    rw [List.append_nil, filter_ne_of_sheet ColumnEntry.sheet t.columns hne, columnsOf]

theorem Sound.putColumns (h : t.Sound) {sheet : String} {columns : Option (List Column)}
    (hsheet : sheet ∈ t.sheets.map SheetEntry.id) (ht : t.putColumns sheet columns = .ok t') :
    t'.Sound := by
  cases columns with
  | none =>
    obtain rfl := Except.ok.inj ht
    exact h
  | some columns =>
    obtain ⟨cs, hcs, ht⟩ := bind_eq_ok.mp ht
    obtain rfl := Except.ok.inj ht
    obtain ⟨howner, hpositions, -⟩ := columnEntries_spec hcs
    refine ⟨h.sheetIds, h.rowIds, ?_, h.rowsOwned, h.sheetOrder, h.rowOrder, ?_⟩
    · intro c hc
      rcases List.mem_append.mp hc with hc | hc
      · exact h.columnsOwned c (List.mem_of_mem_filter hc)
      · rw [howner c hc]
        exact hsheet
    · intro x
      rw [columnsOf_putColumns hcs]
      split
      · rw [hpositions, List.range_eq_range']
      · exact h.columnPositions x

@[simp] theorem rename_ids (t : Tables) (sheet : String) (name : Option String) :
    (t.rename sheet name).sheets.map SheetEntry.id = t.sheets.map SheetEntry.id := by
  unfold Tables.rename
  split
  · rfl
  split
  · rfl
  · rw [List.map_map]
    exact List.map_congr_left fun s _ => by simp only [Function.comp]; split <;> rfl

theorem Sound.deleteSheet (h : t.Sound) (sheet : String) :
    (⟨t.sheets.filter fun s => s.id ≠ sheet, t.columns.filter fun c => c.sheet ≠ sheet,
      t.rows.filter fun r => r.sheet ≠ sheet⟩ : Tables).Sound := by
  have hkeep {id : String} (hid : id ∈ t.sheets.map SheetEntry.id) (hne : id ≠ sheet) :
      id ∈ (t.sheets.filter fun s => s.id ≠ sheet).map SheetEntry.id := by
    obtain ⟨s, hs, rfl⟩ := List.mem_map.mp hid
    exact List.mem_map_of_mem (List.mem_filter.mpr ⟨hs, decide_eq_true hne⟩)
  refine ⟨h.sheetIds.sublist (List.filter_sublist.map _),
    h.rowIds.sublist (List.filter_sublist.map _), ?_, ?_, h.sheetOrder.filter _,
    h.rowOrder.filter _, ?_⟩
  · intro c hc
    obtain ⟨hmem, hne⟩ := List.mem_filter.mp hc
    exact hkeep (h.columnsOwned c hmem) (of_decide_eq_true hne)
  · intro r hr
    obtain ⟨hmem, hne⟩ := List.mem_filter.mp hr
    exact hkeep (h.rowsOwned r hmem) (of_decide_eq_true hne)
  · intro x
    have hcolumns := h.columnPositions x
    by_cases hx : x = sheet
    · have hnone :
          ((t.columns.filter fun c => c.sheet ≠ sheet).filter fun c => c.sheet = x) = [] := by
        rw [List.filter_filter, List.filter_eq_nil_iff]
        intro c _
        simp [hx]
      simp only [columnsOf, hnone, List.map_nil, List.length_nil, List.range_zero]
    · have hsame := filter_ne_of_sheet ColumnEntry.sheet t.columns hx
      simp only [columnsOf, hsame]
      exact hcolumns

theorem Sound.columnsOf_of_not_mem (h : t.Sound) {sheet : String}
    (hsheet : sheet ∉ t.sheets.map SheetEntry.id) : t.columnsOf sheet = [] := by
  rw [columnsOf, List.filter_eq_nil_iff]
  intro c hc heq
  exact hsheet (of_decide_eq_true heq ▸ h.columnsOwned c hc)

theorem Sound.rowsOf_of_not_mem (h : t.Sound) {sheet : String}
    (hsheet : sheet ∉ t.sheets.map SheetEntry.id) : t.rowsOf sheet = [] := by
  rw [rowsOf, List.filter_eq_nil_iff]
  intro r hr heq
  exact hsheet (of_decide_eq_true heq ▸ h.rowsOwned r hr)

theorem Sound.create (h : t.Sound) (hfresh : fresh.NewIn t) (name : String) {columns : List Column}
    {records : List Record} {cs : List ColumnEntry} {rs : List RowEntry}
    (hcs : columnEntries fresh.sheet 0 columns = .ok cs)
    (hrs : rowEntries fresh now 0 records = .ok rs) :
    (⟨t.sheets ++ [⟨fresh.sheet, name, nextPosition (t.sheets.map SheetEntry.position), now, now⟩],
      t.columns ++ cs, t.rows ++ rs⟩ : Tables).Sound := by
  obtain ⟨hcolumnSheet, hcolumnPositions, -⟩ := columnEntries_spec hcs
  obtain ⟨hrowSheet, hrowPositions, hrowIds⟩ := rowEntries_spec hrs
  refine ⟨?_, ?_, ?_, ?_, ?_, ?_, ?_⟩
  · rw [List.map_append, List.map_singleton]
    refine List.nodup_append.mpr ⟨h.sheetIds, List.nodup_singleton _, ?_⟩
    rintro a ha b hb rfl
    rw [List.mem_singleton] at hb
    rw [hb] at ha
    exact hfresh.sheet ha
  · rw [List.map_append, hrowIds]
    refine List.nodup_append.mpr
      ⟨h.rowIds, List.Nodup.map hfresh.distinct List.nodup_range', ?_⟩
    rintro a ha b hb rfl
    obtain ⟨i, -, rfl⟩ := List.mem_map.mp hb
    exact hfresh.rows i ha
  · intro c hc
    rw [List.map_append, List.mem_append]
    rcases List.mem_append.mp hc with hc | hc
    · exact .inl (h.columnsOwned c hc)
    · exact .inr (by simp [hcolumnSheet c hc])
  · intro r hr
    rw [List.map_append, List.mem_append]
    rcases List.mem_append.mp hr with hr | hr
    · exact .inl (h.rowsOwned r hr)
    · exact .inr (by simp [hrowSheet r hr])
  · refine List.pairwise_append.mpr ⟨h.sheetOrder, List.pairwise_singleton _ _, ?_⟩
    intro a ha b hb
    rw [List.mem_singleton.mp hb]
    exact lt_nextPosition (List.mem_map_of_mem ha)
  · refine List.pairwise_append.mpr ⟨h.rowOrder, ?_, ?_⟩
    · have hpositions : (rs.map RowEntry.position).Pairwise (· < ·) := by
        rw [hrowPositions]
        exact List.pairwise_lt_range'
      exact (List.pairwise_map.mp hpositions).imp fun {a b} hlt (_ : a.sheet = b.sheet) => hlt
    · intro a ha b hb heq
      rw [hrowSheet b hb] at heq
      exact absurd (heq ▸ h.rowsOwned a ha) hfresh.sheet
  · intro x
    rw [columnsOf, List.filter_append, filter_of_sheet hcolumnSheet]
    split
    · rename_i hx
      have hold := h.columnsOf_of_not_mem (hx ▸ hfresh.sheet)
      rw [columnsOf] at hold
      rw [hold, List.nil_append, hcolumnPositions, List.range_eq_range']
    · rw [List.append_nil]
      exact h.columnPositions x

/-- Every write leaves sound tables sound. -/
theorem Sound.commit (h : t.Sound) (hfresh : fresh.NewIn t) {w : Write}
    (ht : t.commit fresh clock w = .ok t') : t'.Sound := by
  cases commits_of_commit ht with
  | create name hrecords hcs hrs => exact h.create hfresh name hcs hrs
  | @updateSheet sheet name columns u hsheet hu =>
    rw [← rename_ids t sheet name] at hsheet
    exact ((h.rename sheet name).putColumns hsheet hu).touch sheet
  | deleteSheet sheet => exact h.deleteSheet sheet
  | @addRow sheet data record text hsheet hrecord htext =>
    refine (h.appendRow (hfresh.rows 0) hsheet fun a ha heq => ?_).touch sheet
    refine lt_nextPosition (List.mem_map_of_mem ?_)
    exact List.mem_filter.mpr ⟨ha, decide_eq_true heq⟩
  | updateRow sheet row htext =>
    exact (h.mapRows _ fun r => by split <;> exact ⟨rfl, rfl, rfl⟩).touch sheet
  | deleteRow sheet row => exact (h.filterRows _).touch sheet
  | clear => exact sound_empty

theorem Sound.afterWrite (h : t.Sound) (hfresh : fresh.NewIn t) (w : Write) :
    (t.afterWrite fresh clock w).Sound := by
  unfold Tables.afterWrite
  cases ht : t.commit fresh clock w with
  | ok u => exact h.commit hfresh ht
  | error f => exact h

/-! Ids in use. -/

@[simp] theorem touch_ids (t : Tables) (sheet : String) (now : Moment) :
    (t.touch sheet now).sheets.map SheetEntry.id = t.sheets.map SheetEntry.id := by
  rw [touch, List.map_map]
  exact List.map_congr_left fun s _ => by simp only [Function.comp]; split <;> rfl

@[simp] theorem rename_rows (t : Tables) (sheet : String) (name : Option String) :
    (t.rename sheet name).rows = t.rows := by
  unfold Tables.rename
  split
  · rfl
  split <;> rfl

theorem putColumns_frame {sheet : String} {columns : Option (List Column)}
    (ht : t.putColumns sheet columns = .ok t') : t'.sheets = t.sheets ∧ t'.rows = t.rows := by
  cases columns with
  | none =>
    obtain rfl := Except.ok.inj ht
    exact ⟨rfl, rfl⟩
  | some columns =>
    obtain ⟨cs, -, ht⟩ := bind_eq_ok.mp ht
    obtain rfl := Except.ok.inj ht
    exact ⟨rfl, rfl⟩

theorem commit_ids {w : Write} (ht : t.commit fresh clock w = .ok t') :
    (∀ id ∈ t'.sheets.map SheetEntry.id, id ∈ t.sheets.map SheetEntry.id ∨ id = fresh.sheet) ∧
      ∀ id ∈ t'.rows.map RowEntry.id, id ∈ t.rows.map RowEntry.id ∨ ∃ i, id = fresh.row i := by
  cases commits_of_commit ht with
  | create name hrecords hcs hrs =>
    refine ⟨fun id hid => ?_, fun id hid => ?_⟩
    · rw [List.map_append, List.mem_append] at hid
      exact hid.imp_right List.mem_singleton.mp
    · rw [List.map_append, List.mem_append, (rowEntries_spec hrs).2.2] at hid
      refine hid.imp_right fun hnew => ?_
      obtain ⟨i, -, rfl⟩ := List.mem_map.mp hnew
      exact ⟨i, rfl⟩
  | updateSheet hsheet hu =>
    obtain ⟨hsheets, hrows⟩ := putColumns_frame hu
    refine ⟨fun id hid => .inl ?_, fun id hid => .inl ?_⟩
    · rwa [touch_ids, hsheets, rename_ids] at hid
    · rwa [touch, hrows, rename_rows] at hid
  | deleteSheet sheet =>
    exact ⟨fun id hid => .inl ((List.filter_sublist.map _).subset hid),
      fun id hid => .inl ((List.filter_sublist.map _).subset hid)⟩
  | addRow hsheet hrecord htext =>
    refine ⟨fun id hid => .inl ?_, fun id hid => ?_⟩
    · rwa [touch_ids] at hid
    · rw [touch, List.map_append, List.mem_append] at hid
      exact hid.imp_right fun hnew => ⟨0, List.mem_singleton.mp hnew⟩
  | updateRow sheet row htext =>
    refine ⟨fun id hid => .inl ?_, fun id hid => .inl ?_⟩
    · rwa [touch_ids] at hid
    · rw [touch, List.map_map] at hid
      obtain ⟨r, hr, rfl⟩ := List.mem_map.mp hid
      refine List.mem_map.mpr ⟨r, hr, ?_⟩
      simp only [Function.comp]
      split <;> rfl
  | deleteRow sheet row =>
    refine ⟨fun id hid => .inl ?_, fun id hid => .inl ((List.filter_sublist.map _).subset hid)⟩
    rwa [touch_ids] at hid
  | clear =>
    exact ⟨fun id hid => (List.not_mem_nil hid).elim, fun id hid => (List.not_mem_nil hid).elim⟩

end Tables

theorem Fresh.NewIn.afterWrite {other fresh : Fresh} {t : Tables} {clock : Nat → Moment}
    (h : other.NewIn t) (hsheet : fresh.sheet ≠ other.sheet)
    (hrows : ∀ i j, fresh.row i ≠ other.row j) (w : Write) :
    other.NewIn (t.afterWrite fresh clock w) := by
  unfold Tables.afterWrite
  cases ht : t.commit fresh clock w with
  | error f => exact h
  | ok u =>
    obtain ⟨hsheets, hids⟩ := Tables.commit_ids ht
    refine ⟨fun hmem => ?_, fun i hmem => ?_, h.distinct⟩
    · rcases hsheets _ hmem with hold | hnew
      · exact h.sheet hold
      · exact hsheet hnew.symm
    · rcases hids _ hmem with hold | ⟨j, hnew⟩
      · exact h.rows i hold
      · exact hrows j i hnew.symm

theorem Fresh.newIn_empty {fresh : Fresh} (h : Function.Injective fresh.row) :
    fresh.NewIn Tables.empty :=
  ⟨List.not_mem_nil, fun _ => List.not_mem_nil, h⟩

/-! Runs. -/

namespace FreshIds

variable {events later : List Event} {e f : Event}

theorem of_append (h : FreshIds (events ++ later)) : FreshIds events where
  sheets := by
    have hsheets := h.sheets
    rw [List.map_append] at hsheets
    exact hsheets.of_append_left
  rows e he := h.rows e (List.mem_append_left later he)
  apart := (List.pairwise_append.mp h.apart).1

/-- What one event may make is apart from what a later one may make. -/
theorem later_apart (h : FreshIds (events ++ e :: later)) (hf : f ∈ later) :
    e.fresh.sheet ≠ f.fresh.sheet ∧ ∀ i j, e.fresh.row i ≠ f.fresh.row j := by
  constructor
  · have hsheets := h.sheets
    rw [List.map_append, List.map_cons] at hsheets
    have hnot := (List.nodup_cons.mp hsheets.of_append_right).1
    exact fun heq => hnot (heq ▸ List.mem_map_of_mem hf)
  · have hapart := (List.pairwise_append.mp h.apart).2.1
    exact (List.pairwise_cons.mp hapart).1 f hf

end FreshIds

theorem Store.runCalls_database (calls later : List Call)
    (h : FreshIds ((calls ++ later).map Call.event)) :
    ∃ t, (Store.database Database.empty).runCalls calls = .database ⟨t, true⟩ ∧ t.Sound ∧
      ∀ f ∈ later, f.fresh.NewIn t := by
  induction calls using List.reverseRecOn generalizing later with
  | nil =>
    refine ⟨Tables.empty, rfl, Tables.sound_empty, fun f hf => ?_⟩
    exact Fresh.newIn_empty (h.rows f.event (List.mem_map_of_mem hf))
  | append_singleton calls c ih =>
    rw [List.append_assoc, List.singleton_append] at h
    obtain ⟨t, hrun, hsound, hnew⟩ := ih (c :: later) h
    rw [runCalls_append, hrun]
    have hlater := fun f hf => hnew f (List.mem_cons_of_mem c hf)
    unfold call
    split
    · rename_i w _
      refine ⟨_, Store.write_database t c.fresh c.clock w,
        hsound.afterWrite (hnew c List.mem_cons_self) w, fun f hf => ?_⟩
      rw [List.map_append, List.map_cons] at h
      obtain ⟨hsheet, hrows⟩ := h.later_apart (List.mem_map_of_mem hf)
      exact (hlater f hf).afterWrite hsheet hrows w
    · exact ⟨t, rfl, hsound, hlater⟩

/-- A run leaves an open database with sound tables, in which no later id is in use. -/
theorem Store.run_database (events : List Event) (later : List Event)
    (h : FreshIds (events ++ later)) :
    ∃ t, (Store.database Database.empty).run events = .database ⟨t, true⟩ ∧ t.Sound ∧
      ∀ f ∈ later, f.fresh.NewIn t := by
  have hcalls : FreshIds ((events.map Event.call ++ later.map Event.call).map Call.event) := by
    rw [← List.map_append, List.map_map]
    exact (List.map_id (events ++ later)).symm ▸ h
  obtain ⟨t, hrun, hsound, hnew⟩ := runCalls_database _ _ hcalls
  rw [run_eq_runCalls]
  exact ⟨t, hrun, hsound, fun f hf => hnew f.call (List.mem_map_of_mem hf)⟩

end PlainSheets
