import PlainSheets.Proofs.Store.Agreement
import PlainSheets.Store.Import

/-!
Writes that fail. Main statement: a failed write leaves the listed sheets as they were, but for the
update of a row in a database. That one writes its data first, and only then turns it into a record.
-/
namespace PlainSheets

inductive Change where
  | write (w : Write)
  | importFile (path : String) (entry : PathEntry) (name : Option String)

def Store.change (s : Store) (fresh : Fresh) (now : Moment) : Change → Step Store Answer
  | .write w => s.write fresh now w
  | .importFile path entry name =>
    (s.importFile fresh now path entry name).map fun s => .sheet (some s)

/-! Steps that are undone when they fail. -/

namespace Step

variable {σ τ α β : Type}

def Undone (before : σ) (s : Step σ α) : Prop := ∀ f, s.result = .error f → s.state = before

theorem Undone.map {before : σ} {s : Step σ α} (h : s.Undone before) (g : α → β) :
    (s.map g).Undone before := by
  intro f hf
  apply h f
  obtain ⟨state, result⟩ := s
  cases result with
  | ok a => cases hf
  | error e =>
    cases hf
    rfl

theorem Undone.mapState {before : σ} {s : Step σ α} (h : s.Undone before) (g : σ → τ) :
    (s.mapState g).Undone (g before) := by
  intro f hf
  exact congrArg g (h f hf)

theorem guarded_undone (before : σ) (body : Except Failure (σ × α)) :
    (guarded before body).Undone before := by
  intro f hf
  unfold guarded at hf ⊢
  split
  · simp at hf
  · rfl

end Step

theorem Database.transaction_undone {α : Type} (d : Database)
    (body : Tables → Except Failure (Tables × α)) : (d.transaction body).Undone d :=
  Step.guarded_undone _ _

theorem Memory.write_undone (m : Memory) (fresh : Fresh) (now : Moment) (w : Write) :
    ((Store.memory m).write fresh now w).Undone (.memory m) := by
  cases w with
  | create name columns rows => exact ((Step.guarded_undone _ _).mapState Store.memory).map _
  | updateSheet sheet name columns =>
    exact (((Step.guarded_undone _ _).mapState Store.memory).map some).map _
  | deleteSheet sheet => exact ((Step.guarded_undone _ _).mapState Store.memory).map _
  | addRow sheet data => exact ((Step.guarded_undone _ _).mapState Store.memory).map _
  | updateRow sheet row data => exact ((Step.guarded_undone _ _).mapState Store.memory).map _
  | deleteRow sheet row => exact ((Step.guarded_undone _ _).mapState Store.memory).map _
  | clear =>
    intro f hf
    cases hf

namespace Database

variable (d : Database) (fresh : Fresh) (now : Moment)

theorem create_undone (name : Option String) (columns : List Column) (rows : List Cell) :
    (d.create fresh now name columns rows).Undone d := by
  unfold create
  split
  · intro f _
    rfl
  · exact d.transaction_undone _

theorem addRow_undone (sheet : String) (data : Cell) :
    (d.addRow fresh now sheet data).Undone d := by
  unfold addRow addRowAt
  split
  · intro f _
    rfl
  · exact d.transaction_undone _

end Database

/-! What can be listed. -/

namespace Tables

variable {t t' : Tables} {now : Moment} {sheet row : String}

@[simp] theorem mem_orderSheets_ids {entries : List SheetEntry} {id : String} :
    id ∈ (orderSheets entries).map SheetEntry.id ↔ id ∈ entries.map SheetEntry.id := by
  simp only [orderSheets, List.mem_map, List.mem_mergeSort]

theorem assemble_isOk_iff (t : Tables) (heads : List SheetEntry) :
    (∃ sheets, t.assemble heads = .ok sheets) ↔
      ∀ r ∈ t.rows, r.sheet ∈ heads.map SheetEntry.id → ∃ a, readRow r = .ok a := by
  unfold assemble orderRows
  simp only [exists_bind_eq_ok, Except.ok.injEq, exists_eq', and_true, exists_mapM_eq_ok,
    List.mem_mergeSort, List.mem_filter, decide_eq_true_eq, and_imp]

theorem list_isOk_iff (t : Tables) : (∃ sheets, t.list = .ok sheets) ↔
    ∀ r ∈ t.rows, r.sheet ∈ t.sheets.map SheetEntry.id → ∃ a, readRow r = .ok a := by
  unfold list
  simp only [assemble_isOk_iff, mem_orderSheets_ids]

theorem byId_of_updateSheet {name : Option String} {columns : Option (List Column)}
    (hlist : ∃ sheets, t.list = .ok sheets) (ht : t.updateSheet now sheet name columns = .ok t') :
    ∃ s, t'.byId sheet = .ok s := by
  rw [list_isOk_iff] at hlist
  obtain ⟨_, -, ht⟩ := bind_eq_ok.mp ht
  obtain ⟨u, hu, ht⟩ := bind_eq_ok.mp ht
  obtain rfl := Except.ok.inj ht
  obtain ⟨hsheets, hrows⟩ := putColumns_frame hu
  have hids : (u.touch sheet now).sheets.map SheetEntry.id = t.sheets.map SheetEntry.id := by
    rw [touch_ids, hsheets, rename_ids]
  unfold byId
  rw [exists_bind_eq_ok]
  simp only [Except.ok.injEq, exists_eq', and_true]
  rw [assemble_isOk_iff]
  intro r hr hid
  apply hlist r
  · rwa [touch, hrows, rename_rows] at hr
  · rw [← hids]
    exact (List.filter_sublist.map _).subset hid

end Tables

/-! What an update leaves that fails after it is written. -/

namespace Row

def overwritten (now : Moment) (row : String) (fields : Record) (r : Row) : Row :=
  if r.id = row then { r with data := .record fields, updatedAt := some now } else r

end Row

namespace Sheet

def overwritten (now : Moment) (sheet row : String) (fields : Record) (s : Sheet) : Sheet :=
  if s.id = sheet then
    { s with rows := s.rows.map (Row.overwritten now row fields), updatedAt := some now }
  else s

end Sheet

theorem mapM_eq_error {ε α β : Type} {f : α → Except ε β} {e : ε} {as : List α}
    (hall : ∀ a ∈ as, f a = .error e ∨ ∃ b, f a = .ok b) (hsome : ∃ a ∈ as, f a = .error e) :
    as.mapM f = .error e := by
  induction as with
  | nil => simp at hsome
  | cons a as ih =>
    rw [List.mapM_cons]
    rcases hall a List.mem_cons_self with ha | ⟨b, ha⟩
    · rw [ha]
      rfl
    · have hrest : as.mapM f = .error e := by
        apply ih
        · intro c hc
          exact hall c (List.mem_cons_of_mem a hc)
        · obtain ⟨c, hc, hfails⟩ := hsome
          rcases List.mem_cons.mp hc with rfl | hc
          · rw [ha] at hfails
            cases hfails
          · exact ⟨c, hc, hfails⟩
      rw [ha, hrest]
      rfl

namespace Tables

variable {t t' : Tables} {now : Moment} {sheet row text : String}

def overwrite (now : Moment) (sheet row text : String) (r : RowEntry) : RowEntry :=
  if r.sheet = sheet ∧ r.id = row then { r with data := text, updatedAt := now } else r

@[simp] theorem overwrite_sheet (r : RowEntry) : (overwrite now sheet row text r).sheet = r.sheet := by
  unfold overwrite
  split <;> rfl

@[simp] theorem overwrite_position (r : RowEntry) :
    (overwrite now sheet row text r).position = r.position := by
  unfold overwrite
  split <;> rfl

theorem orderRows_overwrite (entries : List RowEntry) :
    orderRows (entries.map (overwrite now sheet row text)) =
      (orderRows entries).map (overwrite now sheet row text) := by
  unfold orderRows
  rw [List.map_mergeSort]
  intro a _ b _
  simp

theorem orderSheets_map (change : SheetEntry → SheetEntry)
    (hchange : ∀ s, (change s).position = s.position) (entries : List SheetEntry) :
    orderSheets (entries.map change) = (orderSheets entries).map change := by
  unfold orderSheets
  rw [List.map_mergeSort]
  intro a _ b _
  simp [hchange]

theorem readRow_overwrite {fields : Record} (hload : RowText.load (some text) = .ok fields)
    {e : RowEntry} {r : Row} (hr : readRow e = .ok r) :
    readRow (overwrite now sheet row text e) =
      .ok (if e.sheet = sheet then r.overwritten now row fields else r) := by
  obtain ⟨old, hold, h⟩ := bind_eq_ok.mp hr
  obtain rfl := Except.ok.inj h
  unfold overwrite Row.overwritten
  by_cases hsheet : e.sheet = sheet <;> by_cases hrow : e.id = row <;>
    simp [hsheet, hrow, readRow, hload, hold, bind, Except.bind]

def afterOverwrite (t : Tables) (now : Moment) (sheet row text : String) : Tables :=
  ({ t with rows := t.rows.map (overwrite now sheet row text) } : Tables).touch sheet now

def touchEntry (now : Moment) (sheet : String) (s : SheetEntry) : SheetEntry :=
  if s.id = sheet then { s with updatedAt := now } else s

@[simp] theorem touchEntry_id (s : SheetEntry) : (touchEntry now sheet s).id = s.id := by
  unfold touchEntry
  split <;> rfl

@[simp] theorem touchEntry_position (s : SheetEntry) : (touchEntry now sheet s).position = s.position := by
  unfold touchEntry
  split <;> rfl

theorem map_touchEntry_ids (heads : List SheetEntry) :
    (heads.map (touchEntry now sheet)).map SheetEntry.id = heads.map SheetEntry.id := by
  rw [List.map_map]
  apply List.map_congr_left
  intro s _
  exact touchEntry_id s

theorem filter_overwrite (entries : List RowEntry) (ids : List String) :
    (entries.map (overwrite now sheet row text)).filter (fun r => r.sheet ∈ ids) =
      (entries.filter fun r => r.sheet ∈ ids).map (overwrite now sheet row text) := by
  rw [List.filter_map]
  congr 2
  funext r
  simp

theorem rows_overwritten (fields : Record) (rows : List (String × Row)) (id : String) :
    ((rows.map fun r => (r.1, if r.1 = sheet then r.2.overwritten now row fields else r.2)).filter
        fun r => r.1 = id).map Prod.snd =
      if id = sheet then
        ((rows.filter fun r => r.1 = id).map Prod.snd).map (Row.overwritten now row fields)
      else (rows.filter fun r => r.1 = id).map Prod.snd := by
  rw [List.filter_map, List.map_map]
  split
  · rename_i hid
    rw [List.map_map]
    apply List.map_congr_left
    intro r hr
    have hsheet : r.1 = id := by simpa using (List.mem_filter.mp hr).2
    simp [hsheet, hid]
  · rename_i hid
    apply List.map_congr_left
    intro r hr
    have hsheet : r.1 = id := by simpa using (List.mem_filter.mp hr).2
    simp [hsheet, hid]

theorem assemble_overwrite {fields : Record} (hload : RowText.load (some text) = .ok fields)
    {heads : List SheetEntry} {sheets : List Sheet} (h : t.assemble heads = .ok sheets) :
    (t.afterOverwrite now sheet row text).assemble (heads.map (touchEntry now sheet)) =
      .ok (sheets.map (Sheet.overwritten now sheet row fields)) := by
  obtain ⟨rows, hrows, h⟩ := bind_eq_ok.mp h
  obtain rfl := Except.ok.inj h
  unfold assemble
  rw [map_touchEntry_ids]
  change ((orderRows ((t.rows.map (overwrite now sheet row text)).filter _)).mapM _ >>= _) = _
  rw [filter_overwrite, orderRows_overwrite, bind_eq_ok]
  refine ⟨rows.map fun r =>
    (r.1, if r.1 = sheet then r.2.overwritten now row fields else r.2), ?_, ?_⟩
  · rw [mapM_eq_ok] at hrows ⊢
    rw [List.forall₂_map_left_iff, List.forall₂_map_right_iff]
    apply hrows.imp
    intro e r he
    obtain ⟨a, ha, he⟩ := bind_eq_ok.mp he
    obtain rfl := Except.ok.inj he
    rw [readRow_overwrite hload ha, overwrite_sheet]
    rfl
  · apply congrArg Except.ok
    rw [List.map_map, List.map_map]
    apply List.map_congr_left
    intro head _
    simp only [Function.comp_apply, touchEntry_id, rows_overwritten]
    unfold Sheet.overwritten touchEntry
    by_cases hid : head.id = sheet
    · simp only [hid, if_true]
      rfl
    · simp only [hid, if_false]
      rfl

/-- A text that cannot be read spoils the sheet, and with it all sheets. -/
theorem assemble_spoiled {f : Failure} (hload : RowText.load (some text) = .error f)
    (hsheet : sheet ∈ t.sheets.map SheetEntry.id)
    (hrow : ∃ r ∈ t.rows, r.sheet = sheet ∧ r.id = row)
    (hread : ∀ r ∈ t.rows, r.sheet ∈ t.sheets.map SheetEntry.id → ∃ a, readRow r = .ok a) :
    (t.afterOverwrite now sheet row text).assemble
      ((orderSheets t.sheets).map (touchEntry now sheet)) = .error f := by
  unfold assemble
  rw [map_touchEntry_ids]
  change ((orderRows ((t.rows.map (overwrite now sheet row text)).filter _)).mapM _ >>= _) = _
  rw [filter_overwrite, orderRows_overwrite, mapM_eq_error]
  · rfl
  · intro e he
    obtain ⟨r, hr, rfl⟩ := List.mem_map.mp he
    rw [orderRows, List.mem_mergeSort, List.mem_filter, decide_eq_true_eq, mem_orderSheets_ids] at hr
    obtain ⟨a, ha⟩ := hread r hr.1 hr.2
    unfold overwrite
    split
    · left
      simp [readRow, hload, bind, Except.bind]
    · right
      exact ⟨_, bind_eq_ok.mpr ⟨a, ha, rfl⟩⟩
  · obtain ⟨r, hr, rfl, rfl⟩ := hrow
    refine ⟨overwrite now r.sheet r.id text r, List.mem_map_of_mem ?_, ?_⟩
    · rw [orderRows, List.mem_mergeSort, List.mem_filter, decide_eq_true_eq, mem_orderSheets_ids]
      exact ⟨hr, hsheet⟩
    · simp [overwrite, readRow, hload, bind, Except.bind]

theorem list_updateRow {data : Cell} {found : RowEntry} {before : List Sheet}
    (hlist : t.list = .ok before) (ht : t.updateRow now sheet row data = .ok (t', found)) :
    t'.list = (RowText.normal data).map fun fields =>
      before.map (Sheet.overwritten now sheet row fields) := by
  obtain ⟨_, hsheet, ht⟩ := bind_eq_ok.mp ht
  obtain ⟨r, hrow, ht⟩ := bind_eq_ok.mp ht
  obtain ⟨text, htext, ht⟩ := bind_eq_ok.mp ht
  have hafter : t.afterOverwrite now sheet row text = t' := (Prod.mk.inj (Except.ok.inj ht)).1
  have horder : orderSheets (t.afterOverwrite now sheet row text).sheets =
      (orderSheets t.sheets).map (touchEntry now sheet) :=
    orderSheets_map _ touchEntry_position t.sheets
  rw [← hafter, list, horder, RowText.normal, htext]
  cases hload : RowText.load (some text) with
  | ok fields =>
    rw [assemble_overwrite hload hlist]
    simp [bind, Except.bind, hload, Except.map]
  | error f =>
    rw [assemble_spoiled hload ((t.require_isOk_iff sheet).mp ⟨_, hsheet⟩)
      ((t.requireRow_isOk_iff sheet row).mp ⟨r, hrow⟩) (t.list_isOk_iff.mp ⟨_, hlist⟩)]
    simp [bind, Except.bind, hload, Except.map]

end Tables

/-! Every change. -/

def Listed (sheets : List Sheet) (sheet row : String) : Prop :=
  ∃ s ∈ sheets, s.id = sheet ∧ ∃ r ∈ s.rows, r.id = row

theorem Tables.listed_iff {t : Tables} {sheet row : String} {before : List Sheet}
    (hlist : t.list = .ok before) : Listed before sheet row ↔
      sheet ∈ t.sheets.map SheetEntry.id ∧ ∃ r ∈ t.rows, r.sheet = sheet ∧ r.id = row := by
  obtain ⟨rows, hrows, h⟩ := bind_eq_ok.mp hlist
  obtain rfl := Except.ok.inj h
  have hpairs := exists_related (P := fun e => e.sheet = sheet ∧ e.id = row)
    (Q := fun p => p.1 = sheet ∧ p.2.id = row) (mapM_eq_ok.mp hrows) <| by
      intro e p he
      obtain ⟨r, hr, he⟩ := bind_eq_ok.mp he
      obtain ⟨fields, -, hr⟩ := bind_eq_ok.mp hr
      obtain rfl := Except.ok.inj hr
      obtain rfl := Except.ok.inj he
      rfl
  simp only [Tables.orderRows, List.mem_mergeSort, List.mem_filter, decide_eq_true_eq,
    Tables.mem_orderSheets_ids] at hpairs
  constructor
  · rintro ⟨s, hs, hid, r, hr, hrow⟩
    obtain ⟨head, hhead, rfl⟩ := List.mem_map.mp hs
    obtain ⟨p, hp, rfl⟩ := List.mem_map.mp hr
    rw [List.mem_filter, decide_eq_true_eq] at hp
    obtain ⟨e, ⟨he, -⟩, hboth⟩ := hpairs.mpr ⟨p, hp.1, hp.2.trans hid, hrow⟩
    refine ⟨?_, e, he, hboth⟩
    rw [← Tables.mem_orderSheets_ids, ← hid]
    exact List.mem_map_of_mem hhead
  · rintro ⟨hsheet, e, he, hid, hrow⟩
    obtain ⟨p, hp, hpsheet, hprow⟩ := hpairs.mp ⟨e, ⟨he, hid ▸ hsheet⟩, hid, hrow⟩
    obtain ⟨head, hhead, hheadId⟩ := List.mem_map.mp (Tables.mem_orderSheets_ids.mpr hsheet)
    refine ⟨_, List.mem_map_of_mem hhead, hheadId, p.2, ?_, hprow⟩
    apply List.mem_map_of_mem
    rw [List.mem_filter, decide_eq_true_eq]
    exact ⟨hp, hpsheet.trans hheadId.symm⟩

/-- The changes that fail too late: an update of a row in a database, with data that has a text but
makes no record. -/
inductive Late (before : List Sheet) : Store → Change → Prop where
  | updateRow (d : Database) {sheet row : String} {data : Cell} (hlisted : Listed before sheet row)
    (htext : ∃ text, RowText.dump data = .ok text) (hrecord : ∃ f, data.asRecord = .error f) :
    Late before (.database d) (.write (.updateRow sheet row data))

namespace Store

variable {fresh : Fresh} {now : Moment} {before : List Sheet}

theorem importFile_undone (s : Store)
    (hcreate : ∀ name columns rows, (s.create fresh now name columns rows).Undone s)
    (path : String) (entry : PathEntry) (name : Option String) :
    (s.importFile fresh now path entry name).Undone s := by
  unfold importFile
  split
  · intro f _
    rfl
  · exact hcreate _ _ _

theorem create_undone (s : Store) (name : Option String) (columns : List Column)
    (rows : List Cell) : (s.create fresh now name columns rows).Undone s := by
  cases s with
  | memory m => exact (Step.guarded_undone _ _).mapState Store.memory
  | database d => exact (d.create_undone fresh now name columns rows).mapState Store.database
  | broken f =>
    intro _ _
    rfl

theorem isOpen_of_reads {d : Database} (hread : d.reads.sheets = .ok before) :
    d = ⟨d.tables, true⟩ ∧ d.tables.list = .ok before := by
  obtain ⟨tables, isOpen⟩ := d
  obtain ⟨t, ht, hlist⟩ := bind_eq_ok.mp hread
  cases isOpen with
  | true =>
    obtain rfl := Except.ok.inj ht
    exact ⟨rfl, hlist⟩
  | false => cases ht

theorem updateSheet_undone {t : Tables} (hlist : t.list = .ok before) (sheet : String)
    (name : Option String) (columns : Option (List Column)) :
    ((⟨t, true⟩ : Database).updateSheet now sheet name columns).Undone ⟨t, true⟩ := by
  intro f hf
  unfold Database.updateSheet at hf ⊢
  simp only [Database.transaction_state, Database.transaction_result] at hf ⊢
  cases ht : t.updateSheet now sheet name columns with
  | error e => simp [bind, Except.bind]
  | ok t' =>
    -- the sheet is read back, and that cannot fail
    obtain ⟨s, hs⟩ := Tables.byId_of_updateSheet ⟨before, hlist⟩ ht
    rw [ht] at hf
    change t'.byId sheet = _ at hf
    rw [hs] at hf
    cases hf

theorem updateRow_undone {t : Tables} (hlist : t.list = .ok before) {sheet row : String}
    {data : Cell}
    (hlate : ¬ Late before (.database ⟨t, true⟩) (.write (.updateRow sheet row data))) :
    ((⟨t, true⟩ : Database).updateRow now sheet row data).Undone ⟨t, true⟩ := by
  intro f hf
  unfold Database.updateRow at hf ⊢
  simp only [Database.transaction_state, Database.transaction_result] at hf ⊢
  cases ht : t.updateRow now sheet row data with
  | error e => rfl
  | ok p =>
    obtain ⟨_, hsheet, h⟩ := bind_eq_ok.mp ht
    obtain ⟨r, hrow, h⟩ := bind_eq_ok.mp h
    obtain ⟨text, htext, -⟩ := bind_eq_ok.mp h
    cases hrecord : data.asRecord with
    | ok record =>
      rw [ht, hrecord] at hf
      cases hf
    | error e =>
      refine absurd (.updateRow _ ?_ ⟨text, htext⟩ ⟨e, hrecord⟩) hlate
      rw [Tables.listed_iff hlist]
      exact ⟨(t.require_isOk_iff sheet).mp ⟨_, hsheet⟩,
        (t.requireRow_isOk_iff sheet row).mp ⟨r, hrow⟩⟩

theorem change_undone {s : Store} {c : Change} (hread : s.reads.sheets = .ok before)
    (hlate : ¬ Late before s c) : (s.change fresh now c).Undone s := by
  cases c with
  | importFile path entry name =>
    exact (s.importFile_undone s.create_undone path entry name).map _
  | write w =>
    cases s with
    | memory m => exact m.write_undone fresh now w
    | broken f => cases hread
    | database d =>
      obtain ⟨hopen, hlist⟩ := isOpen_of_reads hread
      cases w with
      | create name columns rows => exact (create_undone _ name columns rows).map _
      | updateSheet sheet name columns =>
        rw [hopen]
        exact ((updateSheet_undone hlist sheet name columns).mapState Store.database).map _
      | deleteSheet sheet => exact ((d.transaction_undone _).mapState Store.database).map _
      | addRow sheet data =>
        exact ((d.addRow_undone fresh now sheet data).mapState Store.database).map _
      | updateRow sheet row data =>
        rw [hopen] at hlate ⊢
        exact ((updateRow_undone hlist hlate).mapState Store.database).map _
      | deleteRow sheet row => exact ((d.transaction_undone _).mapState Store.database).map _
      | clear => exact ((d.transaction_undone _).mapState Store.database).map _

/-- The tables are written before the update fails. -/
theorem change_late {t : Tables} {sheet row text : String} {data : Cell} {e : Failure}
    (hlist : t.list = .ok before) (hlisted : Listed before sheet row)
    (htext : RowText.dump data = .ok text) (hrecord : data.asRecord = .error e) :
    ∃ found, t.updateRow now sheet row data = .ok (t.afterOverwrite now sheet row text, found) ∧
      (database ⟨t, true⟩).change fresh now (.write (.updateRow sheet row data)) =
        ⟨.database ⟨t.afterOverwrite now sheet row text, true⟩, .error e⟩ := by
  obtain ⟨hsheet, hrow⟩ := (Tables.listed_iff hlist).mp hlisted
  obtain ⟨_, hrequire⟩ := (t.require_isOk_iff sheet).mpr hsheet
  obtain ⟨found, hfound⟩ := (t.requireRow_isOk_iff sheet row).mpr hrow
  have ht : t.updateRow now sheet row data =
      .ok (t.afterOverwrite now sheet row text, found) := by
    rw [Tables.updateRow, hrequire, hfound, htext]
    rfl
  refine ⟨found, ht, ?_⟩
  unfold change write writeAt Store.updateRow Database.updateRow Step.mapState Step.map
  simp only [Database.transaction_state, Database.transaction_result, ht, hrecord]
  rfl

/-- What a failed change leaves to be listed: what was listed before, unless it fails too late. Then
the text of the data is in the row, and is read as whatever record it makes. -/
theorem change_failed (s : Store) (fresh : Fresh) (now : Moment) (c : Change)
    (hread : s.reads.sheets = .ok before) :
    (¬ Late before s c → (s.change fresh now c).Undone s) ∧
      ∀ sheet row data, c = .write (.updateRow sheet row data) → Late before s c →
        (∃ f, (s.change fresh now c).result = .error f) ∧
        (s.change fresh now c).state.reads.sheets = (RowText.normal data).map fun fields =>
          before.map (Sheet.overwritten now sheet row fields) := by
  refine ⟨change_undone hread, ?_⟩
  rintro sheet row data rfl (@⟨d, _, _, _, hlisted, ⟨text, htext⟩, ⟨e, hrecord⟩⟩)
  obtain ⟨hopen, hlist⟩ := isOpen_of_reads hread
  generalize d.tables = t at hopen hlist
  subst hopen
  obtain ⟨found, ht, hstep⟩ := change_late hlist hlisted htext hrecord
  rw [hstep]
  exact ⟨⟨e, rfl⟩, Tables.list_updateRow hlist ht⟩

def heldSheet (data : Cell) (touched : Moment) : Sheet :=
  ⟨"a", some "A", [⟨some "k", .number, some 4⟩], [⟨"b", data, .epoch, some touched⟩], .epoch, some touched⟩

/-- Data that is null empties the row, and the update fails. -/
theorem change_failed_null :
    let s := (Store.database Database.empty).run [makesSheet, addsRow]
    let later : Moment := { Moment.epoch with clock := Clock.ofMicros 1 }
    let after := s.change (Fresh.lettered 'c') later (.write (.updateRow "a" "b" .null))
    s.reads.sheets = .ok [heldSheet (.record [(.text "k", .integer 1)]) .epoch] ∧
      (∃ f, after.result = .error f) ∧
      after.state.reads.sheets = .ok [heldSheet (.record []) later] := by
  intro s later after
  have hread : s.reads.sheets = .ok [heldSheet (.record [(.text "k", .integer 1)]) .epoch] := by
    have hrun : s = .database ⟨⟨[⟨"a", "A", 0, .epoch, .epoch⟩], [⟨"a", 0, "k", .number, some 4⟩],
        [⟨"b", "a", 0, "\x7b\"k\": 1\x7d", .epoch, .epoch⟩]⟩, true⟩ := rfl
    rw [hrun]
    change Tables.list _ = _
    simp [Tables.list, Tables.orderSheets, Tables.assemble, Tables.orderRows, Tables.orderColumns]
    rfl
  have hlate : Late [heldSheet (.record [(.text "k", .integer 1)]) .epoch] s
      (.write (.updateRow "a" "b" .null)) :=
    .updateRow _ ⟨_, List.mem_singleton_self _, rfl, _, List.mem_singleton_self _, rfl⟩
      ⟨_, rfl⟩ ⟨_, rfl⟩
  have hafter := (change_failed s (Fresh.lettered 'c') later _ hread).2 "a" "b" .null rfl hlate
  exact ⟨hread, hafter.1, hafter.2⟩

end Store

end PlainSheets
