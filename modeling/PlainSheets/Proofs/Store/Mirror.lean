import PlainSheets.Proofs.Store.Removal
import PlainSheets.Proofs.Store.Related
import PlainSheets.Proofs.Store.Sound

/-!
Tables that mirror a list of sheets. Each sheet of the list has its entry in the tables, with its
columns, its rows and its times, and every write that both take keeps it so.
-/
namespace PlainSheets

namespace RowText

def normal (data : Cell) : Except Failure Record := do
  let text ← dump data
  load (some text)

/-- Row data that is a map and can be written and read again. -/
def IsNormal (data : Cell) : Prop := (∃ fs, data = .record fs) ∧ ∃ r, normal data = .ok r

theorem IsNormal.exists_text {data : Cell} (h : IsNormal data) :
    ∃ text r, dump data = .ok text ∧ load (some text) = .ok r := by
  obtain ⟨-, r, hr⟩ := h
  obtain ⟨text, htext, hload⟩ := bind_eq_ok.mp hr
  exact ⟨text, r, htext, hload⟩

theorem isNormal_record_iff {fs : List (Atom × Cell)} :
    IsNormal (.record fs) ↔
      (∃ j, encode (.record fs) = .ok j) ∧ ∃ d, readBack (.record fs) = .ok d := by
  rw [← dump_eq_ok_iff]
  constructor
  · intro h
    obtain ⟨text, r, htext, hload⟩ := h.exists_text
    rw [load_dump htext] at hload
    obtain ⟨d, hd, -⟩ := map_eq_ok.mp hload
    exact ⟨⟨text, htext⟩, d, hd⟩
  · rintro ⟨⟨text, htext⟩, d, hd⟩
    refine ⟨⟨fs, rfl⟩, d.fields, bind_eq_ok.mpr ⟨text, htext, ?_⟩⟩
    rw [load_dump htext, hd]
    rfl

end RowText

/-- A write of what the tables can take. -/
def Write.Storable : Write → Prop
  | .create name columns rows =>
    name.isSome = true ∧ (∀ c ∈ columns, c.Storable) ∧ ∀ data ∈ rows, RowText.IsNormal data
  | .updateSheet _ _ columns => ∀ cs ∈ columns, ∀ c ∈ cs, c.Storable
  | .addRow _ data => RowText.IsNormal data
  | .updateRow _ _ data => RowText.IsNormal data
  | .deleteSheet _ => True
  | .deleteRow _ _ => True
  | .clear => True

structure RowMirrors (e : RowEntry) (r : Row) : Prop where
  id : e.id = r.id
  data : RowText.dump r.data = .ok e.data
  readable : ∃ fields, RowText.load (some e.data) = .ok fields
  createdAt : r.createdAt = e.createdAt
  updatedAt : r.updatedAt = some e.updatedAt

/-- An entry that, with the columns and rows that name it, holds a sheet. -/
structure SheetMirrors (t : Tables) (h : SheetEntry) (s : Sheet) : Prop where
  id : h.id = s.id
  name : s.name = some h.name
  columns : s.columns = (t.columnsOf h.id).map Tables.readColumn
  rows : List.Forall₂ RowMirrors (t.rowsOf h.id) s.rows
  createdAt : s.createdAt = h.createdAt
  updatedAt : s.updatedAt = some h.updatedAt

/-- Tables that hold the sheets of a list, in their order. -/
def Mirrors (t : Tables) (m : Memory) : Prop := List.Forall₂ (SheetMirrors t) t.sheets m.sheets

/-- A row as it is read back from tables: with its data written and read again. -/
def Row.ReadFrom (read r : Row) : Prop :=
  ∃ fields, RowText.normal r.data = .ok fields ∧ read = { r with data := .record fields }

def Sheet.ReadFrom (read s : Sheet) : Prop :=
  ∃ rows, List.Forall₂ Row.ReadFrom rows s.rows ∧ read = { s with rows := rows }

inductive Answer.ReadFrom : Answer → Answer → Prop
  | sheet {read s : Option Sheet} (h : Option.Rel Sheet.ReadFrom read s) :
    ReadFrom (.sheet read) (.sheet s)
  | sheets {reads ss : List Sheet} (h : List.Forall₂ Sheet.ReadFrom reads ss) :
    ReadFrom (.sheets reads) (.sheets ss)

theorem SheetMirrors.congr {t t' : Tables} {h : SheetEntry} {s : Sheet} (hs : SheetMirrors t h s)
    (hcolumns : t'.columnsOf h.id = t.columnsOf h.id) (hrows : t'.rowsOf h.id = t.rowsOf h.id) :
    SheetMirrors t' h s :=
  ⟨hs.id, hs.name, hcolumns ▸ hs.columns, hrows ▸ hs.rows, hs.createdAt, hs.updatedAt⟩

/-! The sheet and the row that a write names. -/

namespace Mirrors

variable {t t' : Tables} {m : Memory}

theorem require (h : Mirrors t m) (x : String) :
    (t.require x = .error (.sheetNotFound x) ∧ m.require x = .error (.sheetNotFound x)) ∨
      ∃ e s, e ∈ t.sheets ∧ e.id = x ∧ SheetMirrors t e s ∧ t.require x = .ok () ∧
        m.require x = .ok s := by
  rcases find_related (fun _ _ hs => hs.id) h x with ⟨hnone, hfind⟩ | ⟨e, s, he, hid, hs, -, hfind⟩
  · refine .inl ⟨?_, by rw [Memory.require, Memory.find?, hfind]⟩
    have hany : ¬ (t.sheets.any fun e => e.id = x) = true := by
      intro hany
      obtain ⟨e, he, hid⟩ := List.any_eq_true.mp hany
      exact hnone (List.mem_map.mpr ⟨e, he, of_decide_eq_true hid⟩)
    rw [Tables.require, if_neg hany]
  · refine .inr ⟨e, s, he, hid, hs, ?_, by rw [Memory.require, Memory.find?, hfind]⟩
    rw [Tables.require, if_pos (List.any_eq_true.mpr ⟨e, he, decide_eq_true hid⟩)]

theorem hasText (h : Mirrors t m) : ∀ s ∈ m.sheets, ∀ r ∈ s.rows, RowText.HasText r.data := by
  intro s hs r hr
  obtain ⟨e, -, hes⟩ := exists_partner h hs
  obtain ⟨a, -, har⟩ := exists_partner hes.rows hr
  exact RowText.dump_eq_ok_iff.mp ⟨_, har.data⟩

theorem requireRow {e : SheetEntry} {s : Sheet} (hs : SheetMirrors t e s) (row : String) :
    (t.requireRow e.id row = .error (.rowNotFound e.id row) ∧
        Memory.requireRow s e.id row = .error (.rowNotFound e.id row)) ∨
      ∃ a r, a ∈ t.rowsOf e.id ∧ a.id = row ∧ RowMirrors a r ∧ t.requireRow e.id row = .ok a ∧
        Memory.requireRow s e.id row = .ok r := by
  have hfilter : t.rows.find? (fun r => r.sheet = e.id ∧ r.id = row) =
      (t.rowsOf e.id).find? (fun r => r.id = row) := by
    rw [Tables.rowsOf, List.find?_filter]
    congr 1
    funext r
    simp
  rcases find_related (fun _ _ hr => hr.id) hs.rows row with
    ⟨hnone, hfind⟩ | ⟨a, r, ha, hid, hr, hfindA, hfindB⟩
  · refine .inl ⟨?_, by rw [Memory.requireRow, Sheet.findRow?, hfind]⟩
    have hnot : (t.rowsOf e.id).find? (fun r => r.id = row) = none := by
      rw [List.find?_eq_none]
      intro a ha hid
      exact hnone (List.mem_map.mpr ⟨a, ha, of_decide_eq_true hid⟩)
    rw [Tables.requireRow, hfilter, hnot]
  · refine .inr ⟨a, r, ha, hid, hr, ?_, by rw [Memory.requireRow, Sheet.findRow?, hfindB]⟩
    rw [Tables.requireRow, hfilter, hfindA]

theorem replace (h : Mirrors t m) (hsound : t.Sound) {e : SheetEntry} (he : e ∈ t.sheets)
    (change : SheetEntry → SheetEntry) {s : Sheet} (hid : s.id = e.id)
    (hsheets : t'.sheets = t.sheets.map fun a => if a.id = e.id then change a else a)
    (hcolumns : ∀ y, y ≠ e.id → t'.columnsOf y = t.columnsOf y)
    (hrows : ∀ y, y ≠ e.id → t'.rowsOf y = t.rowsOf y) (hnew : SheetMirrors t' (change e) s) :
    Mirrors t' (m.replace s) := by
  rw [Mirrors, Memory.replace, hsheets, hid]
  refine replaceFirst_related (fun _ _ hs => hs.id) h hsound.sheetIds e.id change s ?_
    fun a _ _ hne hs => hs.congr (hcolumns _ hne) (hrows _ hne)
  intro a ha heq
  rw [List.inj_on_of_nodup_map hsound.sheetIds ha he heq]
  exact hnew

/-! Reading. -/

theorem readRow {e : RowEntry} {r : Row} (h : RowMirrors e r) :
    ∃ read, Tables.readRow e = .ok read ∧ read.ReadFrom r := by
  obtain ⟨fields, hfields⟩ := h.readable
  refine ⟨⟨e.id, .record fields, e.createdAt, some e.updatedAt⟩, ?_, fields, ?_, ?_⟩
  · rw [Tables.readRow, hfields]
    rfl
  · rw [RowText.normal, h.data]
    exact hfields
  · rw [h.id, ← h.createdAt, ← h.updatedAt]

theorem readSheet {e : SheetEntry} {s : Sheet} (h : SheetMirrors t e s) :
    ∃ read, t.readSheet e = .ok read ∧ read.ReadFrom s := by
  obtain ⟨rows, hrows, hread⟩ := exists_mapM_related (fun _ _ hr => readRow hr) h.rows
  refine ⟨_, Tables.readSheet_eq_ok.mpr ⟨rows, hrows, rfl⟩, rows, hread, ?_⟩
  rw [← h.columns, h.id, ← h.name, ← h.createdAt, ← h.updatedAt]

theorem list (h : Mirrors t m) (hsound : t.Sound) :
    ∃ reads, t.list = .ok reads ∧ List.Forall₂ Sheet.ReadFrom reads m.sheets := by
  obtain ⟨reads, hreads, hall⟩ := exists_mapM_related (fun _ _ hs => readSheet hs) h
  exact ⟨reads, (Tables.list_eq_ok hsound.inOrder).mpr hreads, hall⟩

theorem first (h : Mirrors t m) (hsound : t.Sound) :
    ∃ read, t.first = .ok read ∧ Option.Rel Sheet.ReadFrom read m.sheets.head? := by
  obtain ⟨reads, hreads, hall⟩ :=
    exists_mapM_related (fun _ _ hs => readSheet hs) (List.forall₂_take 1 h)
  refine ⟨reads.head?, (Tables.first_eq_ok hsound.inOrder).mpr ⟨reads, hreads, rfl⟩, ?_⟩
  have hhead := head_related hall
  rwa [List.head?_take, if_neg Nat.one_ne_zero] at hhead

theorem byId (h : Mirrors t m) (hsound : t.Sound) (x : String) :
    ∃ read, t.byId x = .ok read ∧ Option.Rel Sheet.ReadFrom read (m.find? x) := by
  have hfilter := List.rel_filter (p := fun e => decide (e.id = x))
    (q := fun s => decide (s.id = x))
    (fun _ _ hs => by simp [hs.id]) h
  obtain ⟨reads, hreads, hall⟩ := exists_mapM_related (fun _ _ hs => readSheet hs) hfilter
  refine ⟨reads.head?, (Tables.byId_eq_ok hsound.inOrder).mpr ⟨reads, hreads, rfl⟩, ?_⟩
  have hhead := head_related hall
  rwa [List.head?_filter] at hhead

theorem names (h : Mirrors t m) (hsound : t.Sound) :
    ((Tables.orderSheets t.sheets).map fun s => (s.id, some s.name)) =
      m.sheets.map fun s => (s.id, s.name) := by
  rw [hsound.inOrder.orderSheets, ← List.forall₂_eq_eq_eq, List.forall₂_map_left_iff,
    List.forall₂_map_right_iff]
  exact h.imp fun e s hs => by rw [hs.id, hs.name]

theorem byPattern (h : Mirrors t m) (hsound : t.Sound) (pattern : String) :
    Agree (Option.Rel Sheet.ReadFrom) (t.byPattern pattern) (m.reads.byPattern pattern) := by
  rw [Tables.byPattern, h.names hsound]
  simp only [Memory.reads]
  cases matchName pattern (m.sheets.map fun s => (s.id, s.name)) with
  | error f => exact .error f
  | ok found =>
    cases found with
    | none => exact .ok .none
    | some id =>
      simp only [bind, Except.bind]
      by_cases hid : id.isEmpty
      · rw [if_pos hid, if_pos hid]
        exact .ok .none
      · obtain ⟨read, hread, hrel⟩ := h.byId hsound id
        rw [if_neg hid, if_neg hid, hread]
        exact .ok hrel

/-- Every read of the tables gives what the list has. -/
theorem answer (h : Mirrors t m) (hsound : t.Sound) (q : Query) :
    Agree Answer.ReadFrom ((⟨t, true⟩ : Database).reads.answer q) (m.reads.answer q) := by
  cases q with
  | list =>
    obtain ⟨reads, hreads, hall⟩ := h.list hsound
    change Agree _ (t.list.map Answer.sheets) _
    rw [hreads]
    exact .ok (.sheets hall)
  | first =>
    obtain ⟨read, hread, hrel⟩ := h.first hsound
    change Agree _ (t.first.map Answer.sheet) _
    rw [hread]
    exact .ok (.sheet hrel)
  | byId x =>
    obtain ⟨read, hread, hrel⟩ := h.byId hsound x
    change Agree _ ((t.byId x).map Answer.sheet) _
    rw [hread]
    exact .ok (.sheet hrel)
  | byPattern pattern =>
    exact (h.byPattern hsound pattern).map Answer.sheet Answer.sheet fun _ _ hrel => .sheet hrel

end Mirrors

end PlainSheets
