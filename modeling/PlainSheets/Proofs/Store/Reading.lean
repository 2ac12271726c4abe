import PlainSheets.Store.Tables
import PlainSheets.Proofs.Sorting
import PlainSheets.Proofs.Steps
import Mathlib.Data.List.Basic

/-!
Sheets read from tables. As long as the positions follow the order of the entries, a read puts
together each sheet from its own columns and rows and nothing else, and it succeeds just when every
row of the sheets that it reads can be read.
-/
namespace PlainSheets.Tables

def columnsOf (t : Tables) (sheet : String) : List ColumnEntry :=
  t.columns.filter fun c => c.sheet = sheet

def rowsOf (t : Tables) (sheet : String) : List RowEntry := t.rows.filter fun r => r.sheet = sheet

@[simp] theorem mem_rowsOf {t : Tables} {sheet : String} {r : RowEntry} :
    r ∈ t.rowsOf sheet ↔ r ∈ t.rows ∧ r.sheet = sheet := by
  simp [rowsOf]

def readSheet (t : Tables) (h : SheetEntry) : Except Failure Sheet := do
  let rows ← (t.rowsOf h.id).mapM readRow
  .ok ⟨h.id, some h.name, (t.columnsOf h.id).map readColumn, rows, h.createdAt, some h.updatedAt⟩

/-- Whether positions follow the order of the entries: of all sheets, and within each sheet. -/
structure InOrder (t : Tables) : Prop where
  sheets : t.sheets.Pairwise fun a b => a.position < b.position
  columns : ∀ sheet, (t.columnsOf sheet).Pairwise fun a b => a.position < b.position
  rows : ∀ sheet, (t.rowsOf sheet).Pairwise fun a b => a.position < b.position

/-- Entries may be sorted by their positions before or after others are left out. -/
theorem filter_order {α : Type} (position : α → Nat) (p : α → Bool) (l : List α) :
    (l.mergeSort fun a b => position a ≤ position b).filter p =
      (l.filter p).mergeSort fun a b => position a ≤ position b := by
  refine (mergeSort_filter ?_ ?_).symm
  · intro a b c hab hbc
    simp only [decide_eq_true_eq] at *
    omega
  · intro a b
    simp only [Bool.or_eq_true, decide_eq_true_eq]
    omega

theorem InOrder.orderSheets {t : Tables} (h : t.InOrder) : orderSheets t.sheets = t.sheets :=
  List.mergeSort_of_pairwise (h.sheets.imp fun hlt => decide_eq_true (Nat.le_of_lt hlt))

theorem InOrder.orderColumns_eq {t : Tables} (h : t.InOrder) (sheet : String) :
    orderColumns (t.columnsOf sheet) = t.columnsOf sheet :=
  List.mergeSort_of_pairwise ((h.columns sheet).imp fun hlt => decide_eq_true (Nat.le_of_lt hlt))

theorem InOrder.orderRows_eq {t : Tables} (h : t.InOrder) (sheet : String) :
    orderRows (t.rowsOf sheet) = t.rowsOf sheet :=
  List.mergeSort_of_pairwise ((h.rows sheet).imp fun hlt => decide_eq_true (Nat.le_of_lt hlt))

theorem filter_filter_mem {α : Type} (sheet : α → String) (entries : List α) {ids : List String}
    {id : String} (hid : id ∈ ids) :
    (entries.filter fun e => sheet e ∈ ids).filter (fun e => sheet e = id) =
      entries.filter fun e => sheet e = id := by
  rw [List.filter_filter]
  refine List.filter_congr fun e _ => ?_
  by_cases heq : sheet e = id <;> simp [heq, hid]

theorem filter_of_sheet {α : Type} {sheet : α → String} {entries : List α} {id : String}
    (h : ∀ e ∈ entries, sheet e = id) (x : String) :
    (entries.filter fun e => sheet e = x) = if x = id then entries else [] := by
  split
  · rename_i hx
    rw [List.filter_eq_self]
    intro e he
    rw [h e he, hx, decide_eq_true_eq]
  · rename_i hx
    rw [List.filter_eq_nil_iff]
    intro e he heq
    exact hx ((of_decide_eq_true heq).symm.trans (h e he))

theorem filter_ne_of_sheet {α : Type} (sheet : α → String) (entries : List α) {x deleted : String}
    (h : x ≠ deleted) :
    (entries.filter fun e => sheet e ≠ deleted).filter (fun e => sheet e = x) =
      entries.filter fun e => sheet e = x := by
  rw [List.filter_filter]
  refine List.filter_congr fun e _ => ?_
  by_cases heq : sheet e = x <;> simp [heq, h]

theorem filter_orderRows (t : Tables) {ids : List String} {id : String} (hid : id ∈ ids) :
    (orderRows (t.rows.filter fun r => r.sheet ∈ ids)).filter (fun r => r.sheet = id) =
      orderRows (t.rowsOf id) := by
  rw [rowsOf, ← filter_filter_mem RowEntry.sheet t.rows hid]
  exact filter_order RowEntry.position _ _

theorem filter_orderColumns (t : Tables) {ids : List String} {id : String} (hid : id ∈ ids) :
    (orderColumns (t.columns.filter fun c => c.sheet ∈ ids)).filter (fun c => c.sheet = id) =
      orderColumns (t.columnsOf id) := by
  rw [columnsOf, ← filter_filter_mem ColumnEntry.sheet t.columns hid]
  exact filter_order ColumnEntry.position _ _

def readOrdered (t : Tables) (h : SheetEntry) : Except Failure Sheet := do
  let rows ← (orderRows (t.rowsOf h.id)).mapM readRow
  .ok ⟨h.id, some h.name, (orderColumns (t.columnsOf h.id)).map readColumn, rows, h.createdAt,
    some h.updatedAt⟩

theorem InOrder.readOrdered_eq {t : Tables} (horder : t.InOrder) (h : SheetEntry) :
    t.readOrdered h = t.readSheet h := by
  rw [readOrdered, readSheet, horder.orderRows_eq, horder.orderColumns_eq]

theorem mapM_readOrdered_of_assemble {t : Tables} {heads : List SheetEntry} {sheets : List Sheet}
    (h : t.assemble heads = .ok sheets) : heads.mapM t.readOrdered = .ok sheets := by
  obtain ⟨rows, hrows, h⟩ := bind_eq_ok.mp h
  obtain rfl := Except.ok.inj h
  rw [mapM_eq_ok] at hrows ⊢
  rw [List.forall₂_map_right_iff, List.forall₂_same]
  intro head hhead
  have hid : head.id ∈ heads.map SheetEntry.id := List.mem_map_of_mem hhead
  have hread : List.Forall₂ (fun e r => readRow e = .ok r) (orderRows (t.rowsOf head.id))
      ((rows.filter fun r => r.1 = head.id).map Prod.snd) := by
    have hpairs : List.Forall₂ (fun e (r : String × Row) => readRow e = .ok r.2 ∧ e.sheet = r.1)
        (orderRows (t.rows.filter fun r => r.sheet ∈ heads.map SheetEntry.id)) rows := by
      refine hrows.imp fun e r he => ?_
      obtain ⟨row, hrow, he⟩ := bind_eq_ok.mp he
      obtain rfl := Except.ok.inj he
      exact ⟨hrow, rfl⟩
    have hfilter := List.rel_filter (p := fun e => decide (e.sheet = head.id))
      (q := fun r => decide (r.1 = head.id)) (fun e r he => by simp [he.2]) hpairs
    rw [t.filter_orderRows hid] at hfilter
    exact List.forall₂_map_right_iff.mpr (hfilter.imp fun e r he => he.1)
  exact bind_eq_ok.mpr ⟨_, mapM_eq_ok.mpr hread, by rw [t.filter_orderColumns hid]⟩

theorem readSheet_eq_ok {t : Tables} {h : SheetEntry} {s : Sheet} : t.readSheet h = .ok s ↔
    ∃ rows, (t.rowsOf h.id).mapM readRow = .ok rows ∧
      s = ⟨h.id, some h.name, (t.columnsOf h.id).map readColumn, rows, h.createdAt,
        some h.updatedAt⟩ := by
  rw [readSheet, bind_eq_ok]
  exact exists_congr fun rows => and_congr_right fun _ =>
    ⟨fun h => (Except.ok.inj h).symm, fun h => h ▸ rfl⟩

theorem mapM_readSheet_of_assemble {t : Tables} (horder : t.InOrder) {heads : List SheetEntry}
    {sheets : List Sheet} (h : t.assemble heads = .ok sheets) :
    heads.mapM t.readSheet = .ok sheets := by
  rw [← funext horder.readOrdered_eq]
  exact mapM_readOrdered_of_assemble h

/-- A read of several sheets succeeds just when each of them can be read by itself, and gives
those. -/
theorem assemble_eq_ok {t : Tables} (horder : t.InOrder) {heads : List SheetEntry}
    {sheets : List Sheet} :
    t.assemble heads = .ok sheets ↔ heads.mapM t.readSheet = .ok sheets := by
  refine ⟨mapM_readSheet_of_assemble horder, fun h => ?_⟩
  have hrows : ∃ rows, ((orderRows (t.rows.filter fun r => r.sheet ∈ heads.map SheetEntry.id)).mapM
      fun e => do
        let r ← readRow e
        .ok (e.sheet, r)) = (.ok rows : Except Failure (List (String × Row))) := by
    rw [exists_mapM_eq_ok]
    intro e he
    rw [orderRows, List.mem_mergeSort, List.mem_filter, decide_eq_true_eq] at he
    obtain ⟨head, hhead, hid⟩ := List.mem_map.mp he.2
    obtain ⟨s, hs⟩ := exists_mapM_eq_ok.mp ⟨sheets, h⟩ head hhead
    obtain ⟨rows, hrows, -⟩ := readSheet_eq_ok.mp hs
    have hmem : e ∈ t.rowsOf head.id := mem_rowsOf.mpr ⟨he.1, hid.symm⟩
    obtain ⟨r, hr⟩ := exists_mapM_eq_ok.mp ⟨rows, hrows⟩ e hmem
    exact ⟨(e.sheet, r), bind_eq_ok.mpr ⟨r, hr, rfl⟩⟩
  obtain ⟨rows, hrows⟩ := hrows
  have hassemble : ∃ read, t.assemble heads = .ok read :=
    ⟨_, bind_eq_ok.mpr ⟨rows, hrows, rfl⟩⟩
  obtain ⟨read, hread⟩ := hassemble
  have heq := mapM_readSheet_of_assemble horder hread
  rw [h] at heq
  rw [hread, Except.ok.inj heq]

theorem list_eq_ok {t : Tables} (horder : t.InOrder) {sheets : List Sheet} :
    t.list = .ok sheets ↔ t.sheets.mapM t.readSheet = .ok sheets := by
  rw [list, horder.orderSheets]
  exact assemble_eq_ok horder

theorem first_eq_ok {t : Tables} (horder : t.InOrder) {s : Option Sheet} :
    t.first = .ok s ↔
      ∃ sheets, (t.sheets.take 1).mapM t.readSheet = .ok sheets ∧ sheets.head? = s := by
  rw [first, horder.orderSheets, bind_eq_ok]
  simp only [assemble_eq_ok horder, Except.ok.injEq]

theorem byId_eq_ok {t : Tables} (horder : t.InOrder) {sheet : String} {s : Option Sheet} :
    t.byId sheet = .ok s ↔ ∃ sheets, (t.sheets.filter fun h => h.id = sheet).mapM t.readSheet =
      .ok sheets ∧ sheets.head? = s := by
  rw [byId, bind_eq_ok]
  simp only [assemble_eq_ok horder, Except.ok.injEq]

end PlainSheets.Tables
