import PlainSheets.Proofs.Cell.Readable
import PlainSheets.Proofs.Store.Related
import PlainSheets.Proofs.Store.Sound

/-!
What a database was given to keep: its sheets and, for each row, the data that was written into it
last. A ledger follows the accepted writes without tables. Tables hold what the ledger says, and
what can be read from them depends on the data in the ledger alone.
-/
namespace PlainSheets

namespace RowText

def dumpRecord (data : Cell) : Except Failure String := do
  let record ← data.asRecord
  dump (.record record)

def recorded (data : Cell) : Cell :=
  match data.asRecord with
  | .ok record => .record record
  | .error _ => data

theorem recorded_of_ok {data : Cell} {record : Record} (h : data.asRecord = .ok record) :
    recorded data = .record record := by
  rw [recorded, h]

end RowText

/-- The data that was last written into a row of a sheet. -/
structure WrittenRow where
  sheet : String
  row : String
  data : Cell

structure Ledger where
  sheets : List String
  rows : List WrittenRow

namespace Ledger

def empty : Ledger := ⟨[], []⟩

def newRows (fresh : Fresh) : Nat → List Cell → List WrittenRow
  | _, [] => []
  | i, data :: rest =>
    ⟨fresh.sheet, fresh.row i, RowText.recorded data⟩ :: newRows fresh (i + 1) rest

def HasRow (l : Ledger) (sheet row : String) : Prop := ∃ w ∈ l.rows, w.sheet = sheet ∧ w.row = row

/-- Writes that a database does not undo. -/
def Accepts (l : Ledger) : Write → Prop
  | .create name columns rows =>
    name.isSome = true ∧ (∀ c ∈ columns, c.Storable) ∧
      ∀ data ∈ rows, ∃ text, RowText.dumpRecord data = .ok text
  | .updateSheet sheet _ columns => sheet ∈ l.sheets ∧ ∀ cs ∈ columns, ∀ c ∈ cs, c.Storable
  | .deleteSheet sheet => sheet ∈ l.sheets
  | .addRow sheet data => sheet ∈ l.sheets ∧ ∃ text, RowText.dumpRecord data = .ok text
  | .updateRow sheet row data =>
    sheet ∈ l.sheets ∧ l.HasRow sheet row ∧ ∃ text, RowText.dump data = .ok text
  | .deleteRow sheet row => sheet ∈ l.sheets ∧ l.HasRow sheet row
  | .clear => True

instance (l : Ledger) (sheet row : String) : Decidable (l.HasRow sheet row) :=
  inferInstanceAs (Decidable (∃ w ∈ l.rows, w.sheet = sheet ∧ w.row = row))

instance (l : Ledger) : DecidablePred l.Accepts
  | .create _ _ _ => inferInstanceAs (Decidable (_ ∧ _ ∧ _))
  | .updateSheet _ _ _ => inferInstanceAs (Decidable (_ ∧ _))
  | .deleteSheet _ => inferInstanceAs (Decidable (_ ∈ _))
  | .addRow _ _ => inferInstanceAs (Decidable (_ ∧ _))
  | .updateRow _ _ _ => inferInstanceAs (Decidable (_ ∧ _ ∧ _))
  | .deleteRow _ _ => inferInstanceAs (Decidable (_ ∧ _))
  | .clear => .isTrue trivial

/-- The ledger after an accepted write. Only a row update writes data as it is. -/
def put (l : Ledger) (fresh : Fresh) : Write → Ledger
  | .create _ _ rows => ⟨l.sheets ++ [fresh.sheet], l.rows ++ newRows fresh 0 rows⟩
  | .updateSheet _ _ _ => l
  | .deleteSheet sheet => ⟨l.sheets.filter (· ≠ sheet), l.rows.filter fun w => w.sheet ≠ sheet⟩
  | .addRow sheet data =>
    { l with rows := l.rows ++ [⟨sheet, fresh.row 0, RowText.recorded data⟩] }
  | .updateRow sheet row data =>
    { l with rows := l.rows.map fun w =>
        if w.sheet = sheet ∧ w.row = row then { w with data := data } else w }
  | .deleteRow sheet row =>
    { l with rows := l.rows.filter fun w => !(w.sheet = sheet ∧ w.row = row) }
  | .clear => empty

def step (l : Ledger) (e : Event) : Ledger :=
  match e.operation with
  | .write w => if l.Accepts w then l.put e.fresh w else l
  | .read _ => l

/-- The ledger after a run from nothing. -/
def of (events : List Event) : Ledger := events.foldl step empty

end Ledger

structure RowHolds (r : RowEntry) (w : WrittenRow) : Prop where
  sheet : r.sheet = w.sheet
  row : r.id = w.row
  data : RowText.dump w.data = .ok r.data

/-- Tables that hold what a ledger says. -/
structure Holds (t : Tables) (l : Ledger) : Prop where
  sheets : t.sheets.map SheetEntry.id = l.sheets
  rows : List.Forall₂ RowHolds t.rows l.rows

namespace Holds

variable {t t' : Tables} {l : Ledger} {fresh : Fresh} {now : Moment} {clock : Nat → Moment}

theorem require_isOk_iff (h : Holds t l) (sheet : String) :
    (∃ a, t.require sheet = .ok a) ↔ sheet ∈ l.sheets := by
  rw [Tables.require_isOk_iff, h.sheets]

theorem requireRow_isOk_iff (h : Holds t l) (sheet row : String) :
    (∃ r, t.requireRow sheet row = .ok r) ↔ l.HasRow sheet row := by
  rw [Tables.requireRow_isOk_iff]
  exact exists_related h.rows fun r w hr => by rw [hr.sheet, hr.row]

theorem commit_isOk_iff (h : Holds t l) (fresh : Fresh) (clock : Nat → Moment) (w : Write) :
    (∃ t', t.commit fresh clock w = .ok t') ↔ l.Accepts w := by
  cases w with
  | create name columns rows =>
    simp only [Tables.commit, Tables.create, exists_bind_eq_ok, Except.ok.injEq, exists_eq',
      and_true, exists_and_right, Tables.requireName_isOk_iff, Tables.columnEntries_isOk_iff,
      Tables.rowEntries_isOk_iff, Ledger.Accepts, RowText.dumpRecord]
    constructor
    · rintro ⟨records, hrecords, hname, hcolumns, hrows⟩
      exact ⟨hname, hcolumns, exists_mapM_all_iff.mp ⟨records, hrecords, hrows⟩⟩
    · rintro ⟨hname, hcolumns, hrows⟩
      obtain ⟨records, hrecords, hall⟩ := exists_mapM_all_iff.mpr hrows
      exact ⟨records, hrecords, hname, hcolumns, hall⟩
  | updateSheet sheet name columns =>
    simp only [Tables.commit, Tables.updateSheet, exists_bind_eq_ok, Except.ok.injEq, exists_eq',
      and_true, exists_and_right, h.require_isOk_iff, Tables.putColumns_isOk_iff, Ledger.Accepts]
  | deleteSheet sheet =>
    simp only [Tables.commit, Tables.deleteSheet, exists_bind_eq_ok, Except.ok.injEq, exists_eq',
      and_true, h.require_isOk_iff, Ledger.Accepts]
  | addRow sheet data =>
    simp only [Tables.commit, Tables.addRowAt, exists_bind_eq_ok, Except.ok.injEq, exists_eq',
      and_true, h.require_isOk_iff, Ledger.Accepts, RowText.dumpRecord, exists_and_right]
    constructor
    · rintro ⟨r, hr, hsheet, htext⟩
      exact ⟨hsheet, r, hr, htext⟩
    · rintro ⟨hsheet, r, hr, htext⟩
      exact ⟨r, hr, hsheet, htext⟩
  | updateRow sheet row data =>
    simp only [Tables.commit, exists_map_eq_ok, Tables.updateRow, exists_bind_eq_ok,
      Except.ok.injEq, exists_eq', and_true, exists_and_right, h.require_isOk_iff,
      h.requireRow_isOk_iff, Ledger.Accepts]
  | deleteRow sheet row =>
    simp only [Tables.commit, Tables.deleteRow, exists_bind_eq_ok, Except.ok.injEq, exists_eq',
      and_true, exists_and_right, h.require_isOk_iff, h.requireRow_isOk_iff, Ledger.Accepts]
  | clear => exact ⟨fun _ => trivial, fun _ => ⟨_, rfl⟩⟩

theorem newRows {rows : List Cell} {records : List Record} {rs : List RowEntry} {i : Nat}
    (hrecords : rows.mapM Cell.asRecord = .ok records)
    (hrs : Tables.rowEntries fresh now i records = .ok rs) :
    List.Forall₂ RowHolds rs (Ledger.newRows fresh i rows) := by
  rw [mapM_eq_ok] at hrecords
  induction hrecords generalizing i rs with
  | nil =>
    obtain rfl := Except.ok.inj hrs
    exact .nil
  | cons hdata _ ih =>
    obtain ⟨text, htext, hrs⟩ := bind_eq_ok.mp hrs
    obtain ⟨rest, hrest, hrs⟩ := bind_eq_ok.mp hrs
    obtain rfl := Except.ok.inj hrs
    exact .cons ⟨rfl, rfl, by rw [RowText.recorded_of_ok hdata]; exact htext⟩ (ih hrest)

/-- A committed write changes the ledger as it changes the tables. -/
theorem commit (h : Holds t l) {w : Write} (ht : t.commit fresh clock w = .ok t') :
    Holds t' (l.put fresh w) := by
  obtain ⟨hsheets, hrows⟩ := h
  cases Tables.commits_of_commit ht with
  | create name hrecords hcs hrs =>
    refine ⟨?_, List.rel_append hrows (newRows hrecords hrs)⟩
    rw [List.map_append, hsheets]
    rfl
  | updateSheet hsheet hu =>
    obtain ⟨husheets, hurows⟩ := Tables.putColumns_frame hu
    refine ⟨?_, ?_⟩
    · rw [Tables.touch_ids, husheets, Tables.rename_ids, hsheets]
      rfl
    · rw [Tables.touch, hurows, Tables.rename_rows]
      exact hrows
  | deleteSheet sheet =>
    refine ⟨?_, List.rel_filter (fun r w hr => by simp [hr.sheet]) hrows⟩
    rw [Ledger.put, ← hsheets, List.filter_map]
    rfl
  | @addRow sheet data record text hsheet hrecord htext =>
    refine ⟨(Tables.touch_ids _ sheet (clock 1)).trans hsheets,
      List.rel_append hrows (.cons ?_ .nil)⟩
    exact ⟨rfl, rfl, by rw [RowText.recorded_of_ok hrecord]; exact htext⟩
  | updateRow sheet row htext =>
    refine ⟨(Tables.touch_ids _ sheet (clock 0)).trans hsheets, ?_⟩
    refine List.forall₂_map_left_iff.mpr (List.forall₂_map_right_iff.mpr
      (hrows.imp fun r w hr => ?_))
    rw [hr.sheet, hr.row]
    split
    · exact ⟨rfl, rfl, htext⟩
    · exact hr
  | deleteRow sheet row =>
    exact ⟨(Tables.touch_ids _ sheet (clock 0)).trans hsheets,
      List.rel_filter (fun r w hr => by simp [hr.sheet, hr.row]) hrows⟩
  | clear => exact ⟨rfl, .nil⟩

theorem call (h : Holds t l) {c : Store.Call} {s : Store}
    (hs : ((Store.database ⟨t, true⟩).call c).state = s) :
    ∃ t', s = .database ⟨t', true⟩ ∧ Holds t' (l.step c.event) := by
  obtain ⟨operation, fresh, clock⟩ := c
  cases operation with
  | read q => exact ⟨t, hs.symm, h⟩
  | write w =>
    refine ⟨t.afterWrite fresh clock w, hs.symm.trans (Store.write_database t fresh clock w), ?_⟩
    have hcommit := h.commit_isOk_iff fresh clock w
    unfold Tables.afterWrite
    change Holds _ (if l.Accepts w then l.put fresh w else l)
    cases ht : t.commit fresh clock w with
    | ok u =>
      rw [if_pos (hcommit.mp ⟨u, ht⟩)]
      exact h.commit ht
    | error f =>
      rw [if_neg fun haccepts => ?_]
      · exact h
      · obtain ⟨u, hu⟩ := hcommit.mpr haccepts
        rw [ht] at hu
        cases hu

/-! What can be read. -/

theorem owned (h : Holds t l) (hsound : t.Sound) {w : WrittenRow} (hw : w ∈ l.rows) :
    w.sheet ∈ l.sheets := by
  obtain ⟨r, hr, hrow⟩ := exists_partner h.rows hw
  rw [← h.sheets, ← hrow.sheet]
  exact hsound.rowsOwned r hr

theorem readRow_isOk_iff {r : RowEntry} {w : WrittenRow} (h : RowHolds r w) :
    (∃ row, Tables.readRow r = .ok row) ↔ RowText.Readable w.data := by
  rw [Tables.readRow, exists_bind_eq_ok, RowText.load_dump h.data, RowText.readable_iff]
  simp only [Except.ok.injEq, exists_eq', and_true, exists_map_eq_ok]

theorem readSheets_isOk_iff (h : Holds t l) (heads : List SheetEntry) :
    (∃ sheets, heads.mapM t.readSheet = .ok sheets) ↔
      ∀ w ∈ l.rows, w.sheet ∈ heads.map SheetEntry.id → RowText.Readable w.data := by
  rw [exists_mapM_eq_ok, ← forall_related h.rows fun r w hr => by
    rw [← hr.sheet, ← readRow_isOk_iff hr]]
  have hsheet (e : SheetEntry) : (∃ s, t.readSheet e = .ok s) ↔
      ∀ r ∈ t.rowsOf e.id, ∃ row, Tables.readRow r = .ok row := by
    rw [Tables.readSheet, exists_bind_eq_ok, ← exists_mapM_eq_ok]
    simp only [Except.ok.injEq, exists_eq', and_true]
  simp only [hsheet, Tables.mem_rowsOf, List.mem_map]
  constructor
  · rintro hall r hr ⟨e, he, hid⟩
    exact hall e he r ⟨hr, hid.symm⟩
  · rintro hall e he r ⟨hr, hid⟩
    exact hall r hr ⟨e, he, hid.symm⟩

theorem list_isOk_iff (h : Holds t l) (hsound : t.Sound) :
    (∃ sheets, t.list = .ok sheets) ↔ ∀ w ∈ l.rows, RowText.Readable w.data := by
  simp only [Tables.list_eq_ok hsound.inOrder, h.readSheets_isOk_iff, h.sheets]
  exact forall₂_congr fun w hw => ⟨fun hread => hread (h.owned hsound hw), fun hread _ => hread⟩

theorem first_isOk_iff (h : Holds t l) (hsound : t.Sound) : (∃ sheet, t.first = .ok sheet) ↔
    ∀ w ∈ l.rows, l.sheets.head? = some w.sheet → RowText.Readable w.data := by
  simp only [Tables.first_eq_ok hsound.inOrder]
  rw [exists_comm]
  simp only [exists_and_left, exists_eq', and_true, h.readSheets_isOk_iff, List.map_take, h.sheets]
  have hhead (x : String) : x ∈ l.sheets.take 1 ↔ l.sheets.head? = some x := by
    cases l.sheets with
    | nil => simp
    | cons y ys => simp [eq_comm]
  simp only [hhead]

theorem byId_isOk_iff (h : Holds t l) (hsound : t.Sound) (x : String) :
    (∃ sheet, t.byId x = .ok sheet) ↔ ∀ w ∈ l.rows, w.sheet = x → RowText.Readable w.data := by
  simp only [Tables.byId_eq_ok hsound.inOrder]
  rw [exists_comm]
  simp only [exists_and_left, exists_eq', and_true, h.readSheets_isOk_iff]
  refine forall₂_congr fun w hw => imp_congr ?_ Iff.rfl
  have hmem := h.owned hsound hw
  rw [← h.sheets] at hmem
  obtain ⟨e, he, hid⟩ := List.mem_map.mp hmem
  constructor
  · intro hx
    obtain ⟨a, ha, haid⟩ := List.mem_map.mp hx
    rw [← haid]
    exact of_decide_eq_true (List.mem_filter.mp ha).2
  · rintro rfl
    exact List.mem_map.mpr ⟨e, List.mem_filter.mpr ⟨he, decide_eq_true hid⟩, hid⟩

end Holds

namespace Store

/-- Whether a row is found under its id as a map with the keys that were written. -/
def ReadsBack (s : Store) (w : WrittenRow) : Prop :=
  ∃ sheet row fields written, s.reads.byId w.sheet = .ok (some sheet) ∧
    sheet.findRow? w.row = some row ∧ row.data = .record fields ∧
    w.data.asRecord = .ok written ∧ RowText.SameKeys written fields

end Store

namespace Holds

variable {t : Tables} {l : Ledger}

theorem find_row (hsound : t.Sound) {x : String} {rows : List Row} {r : RowEntry}
    (hrows : List.Forall₂ (fun r row => Tables.readRow r = .ok row) (t.rowsOf x) rows)
    (hr : r ∈ t.rowsOf x) :
    ∃ row, rows.find? (fun row => row.id = r.id) = some row ∧ Tables.readRow r = .ok row := by
  have hids : ∀ a row, Tables.readRow a = .ok row → a.id = row.id := by
    intro a row h
    obtain ⟨fields, -, h⟩ := bind_eq_ok.mp h
    obtain rfl := Except.ok.inj h
    rfl
  rcases find_related hids hrows r.id with ⟨hnone, -⟩ | ⟨a, row, ha, hid, hread, -, hfind⟩
  · exact absurd (List.mem_map_of_mem hr) hnone
  · obtain rfl := List.inj_on_of_nodup_map (hsound.rowIdsOf x) ha hr hid
    exact ⟨row, hfind, hread⟩

theorem exists_row (h : Holds t l) (hsound : t.Sound) {w : WrittenRow} (hw : w ∈ l.rows)
    (hread : ∀ v ∈ l.rows, v.sheet = w.sheet → RowText.Readable v.data) :
    ∃ sheet row d, t.byId w.sheet = .ok (some sheet) ∧ sheet.findRow? w.row = some row ∧
      row.data = .record d.fields ∧ RowText.readBack w.data = .ok d := by
  obtain ⟨found, hfound⟩ := (h.byId_isOk_iff hsound w.sheet).mpr hread
  obtain ⟨sheets, hsheets, rfl⟩ := (Tables.byId_eq_ok hsound.inOrder).mp hfound
  obtain ⟨r, hr, hrow⟩ := exists_partner h.rows hw
  obtain ⟨e, he, hid⟩ := List.mem_map.mp (hsound.rowsOwned r hr)
  have hmem : e ∈ t.sheets.filter fun s => s.id = w.sheet :=
    List.mem_filter.mpr ⟨he, decide_eq_true (hid.trans hrow.sheet)⟩
  have hheads : ∀ a ∈ t.sheets.filter fun s => s.id = w.sheet, a.id = w.sheet :=
    fun a ha => of_decide_eq_true (List.mem_filter.mp ha).2
  rw [mapM_eq_ok] at hsheets
  generalize (t.sheets.filter fun s => s.id = w.sheet) = heads at hsheets hmem hheads
  cases hsheets with
  | nil => cases hmem
  | @cons a s _ _ hs _ =>
    obtain ⟨rows, hrows, rfl⟩ := Tables.readSheet_eq_ok.mp hs
    rw [hheads a List.mem_cons_self] at hrows
    obtain ⟨row, hrowFound, hread⟩ := find_row hsound (mapM_eq_ok.mp hrows)
      (Tables.mem_rowsOf.mpr ⟨hr, hrow.sheet⟩)
    obtain ⟨fields, hfields, hrowEq⟩ := bind_eq_ok.mp hread
    obtain rfl := Except.ok.inj hrowEq
    rw [RowText.load_dump hrow.data] at hfields
    obtain ⟨d, hd, rfl⟩ := map_eq_ok.mp hfields
    exact ⟨_, _, d, hfound, hrow.row ▸ hrowFound, rfl, hd⟩

theorem readsBack_iff (h : Holds t l) (hsound : t.Sound) {w : WrittenRow} (hw : w ∈ l.rows) :
    (Store.database ⟨t, true⟩).ReadsBack w ↔
      (∀ v ∈ l.rows, v.sheet = w.sheet → RowText.Readable v.data) ∧ RowText.KeepsKeys w.data := by
  constructor
  · rintro ⟨sheet, row, fields, written, hsheet, hrow, hfields, hwritten, hsame⟩
    have hread := (h.byId_isOk_iff hsound w.sheet).mp ⟨_, hsheet⟩
    refine ⟨hread, ?_⟩
    obtain ⟨sheet', row', d, hsheet', hrow', hdata, hd⟩ := h.exists_row hsound hw hread
    obtain rfl : sheet = sheet' := Option.some.inj (Except.ok.inj (hsheet.symm.trans hsheet'))
    obtain rfl : row = row' := Option.some.inj (hrow.symm.trans hrow')
    obtain rfl : fields = d.fields := Cell.record.inj (hfields.symm.trans hdata)
    exact (RowText.sameKeys_iff hd).mp ⟨written, hwritten, hsame⟩
  · rintro ⟨hread, hkeep⟩
    obtain ⟨sheet, row, d, hsheet, hrow, hdata, hd⟩ := h.exists_row hsound hw hread
    obtain ⟨written, hwritten, hsame⟩ := (RowText.sameKeys_iff hd).mpr hkeep
    exact ⟨sheet, row, d.fields, written, hsheet, hrow, hdata, hwritten, hsame⟩

end Holds

namespace Store

theorem commit_of_returned {t : Tables} {fresh : Fresh} {clock : Nat → Moment} {w : Write}
    {a : Answer} (h : ((Store.database ⟨t, true⟩).writeAt fresh clock w).result = .ok a) :
    ∃ t', t.commit fresh clock w = .ok t' := by
  have htransaction {α : Type} {body : Tables → Except Failure (Tables × α)} {b : α}
      (hb : ((⟨t, true⟩ : Database).transaction body).result = .ok b) : ∃ p, body t = .ok p := by
    rw [Database.transaction_result] at hb
    obtain ⟨p, hp, -⟩ := map_eq_ok.mp hb
    exact ⟨p, hp⟩
  cases w with
  | create name columns rows =>
    obtain ⟨s, hs, -⟩ := map_eq_ok.mp h
    change ((⟨t, true⟩ : Database).create fresh (clock 0) name columns rows).result = .ok s at hs
    unfold Database.create at hs
    split at hs
    · cases hs
    · rename_i records hrecords
      obtain ⟨p, hp⟩ := htransaction hs
      obtain ⟨t', ht', -⟩ := bind_eq_ok.mp hp
      exact ⟨t', bind_eq_ok.mpr ⟨records, hrecords, ht'⟩⟩
  | updateSheet sheet name columns =>
    obtain ⟨s, hs, -⟩ := map_eq_ok.mp h
    obtain ⟨_, hs, -⟩ := bind_eq_ok.mp hs
    obtain ⟨p, hp⟩ := htransaction hs
    obtain ⟨t', ht', -⟩ := bind_eq_ok.mp hp
    exact ⟨t', ht'⟩
  | deleteSheet sheet =>
    obtain ⟨_, hs, -⟩ := map_eq_ok.mp h
    obtain ⟨p, hp⟩ := htransaction hs
    obtain ⟨t', ht', -⟩ := bind_eq_ok.mp hp
    exact ⟨t', ht'⟩
  | addRow sheet data =>
    obtain ⟨r, hr, -⟩ := map_eq_ok.mp h
    change ((⟨t, true⟩ : Database).addRowAt fresh clock sheet data).result = .ok r at hr
    unfold Database.addRowAt at hr
    split at hr
    · cases hr
    · rename_i record hrecord
      obtain ⟨p, hp⟩ := htransaction hr
      obtain ⟨t', ht', -⟩ := bind_eq_ok.mp hp
      exact ⟨t', bind_eq_ok.mpr ⟨record, hrecord, ht'⟩⟩
  | updateRow sheet row data =>
    obtain ⟨r, hr, -⟩ := map_eq_ok.mp h
    obtain ⟨found, hfound, -⟩ := bind_eq_ok.mp hr
    obtain ⟨p, hp⟩ := htransaction hfound
    exact ⟨p.1, map_eq_ok.mpr ⟨p, hp, rfl⟩⟩
  | deleteRow sheet row =>
    obtain ⟨_, hs, -⟩ := map_eq_ok.mp h
    obtain ⟨p, hp⟩ := htransaction hs
    obtain ⟨t', ht', -⟩ := bind_eq_ok.mp hp
    exact ⟨t', ht'⟩
  | clear => exact ⟨_, rfl⟩

theorem runCalls_holds (calls : List Call) :
    ∃ t, (Store.database Database.empty).runCalls calls = .database ⟨t, true⟩ ∧
      Holds t (Ledger.of (calls.map Call.event)) := by
  induction calls using List.reverseRecOn with
  | nil => exact ⟨Tables.empty, rfl, rfl, .nil⟩
  | append_singleton calls c ih =>
    obtain ⟨t, hrun, hholds⟩ := ih
    obtain ⟨t', hstep, hholds'⟩ := hholds.call rfl
    refine ⟨t', by rw [runCalls_append, hrun, hstep], ?_⟩
    rw [Ledger.of, List.map_append, List.foldl_append]
    exact hholds'

theorem run_holds (events : List Event) (h : FreshIds events) :
    ∃ t, (Store.database Database.empty).run events = .database ⟨t, true⟩ ∧ t.Sound ∧
      Holds t (Ledger.of events) := by
  obtain ⟨t, hrun, hholds⟩ := runCalls_holds (events.map Event.call)
  rw [List.map_map, show Call.event ∘ Event.call = id from rfl, List.map_id] at hholds
  rw [← List.append_nil events] at h
  obtain ⟨u, hu, hsound, -⟩ := run_database events [] h
  rw [run_eq_runCalls] at hu ⊢
  obtain rfl := tables_inj (hrun.symm.trans hu)
  exact ⟨t, hrun, hsound, hholds⟩

/-- What a run from an empty database leaves to be read. All of it can be read, the first sheet, or
one sheet, just when the data that was last written into its rows can be read back; and a row comes
back with its keys just when its sheet can be read and its data keeps its keys. -/
theorem reads_back_iff (events : List Event) (h : FreshIds events) :
    let s := (Store.database Database.empty).run events
    let l := Ledger.of events
    (∀ fresh now w a, (s.write fresh now w).result = .ok a → l.Accepts w) ∧
      ((∃ sheets, s.reads.sheets = .ok sheets) ↔ ∀ w ∈ l.rows, RowText.Readable w.data) ∧
      ((∃ sheet, s.reads.first = .ok sheet) ↔
        ∀ w ∈ l.rows, l.sheets.head? = some w.sheet → RowText.Readable w.data) ∧
      (∀ x, (∃ sheet, s.reads.byId x = .ok sheet) ↔
        ∀ w ∈ l.rows, w.sheet = x → RowText.Readable w.data) ∧
      ∀ w ∈ l.rows, s.ReadsBack w ↔
        (∀ v ∈ l.rows, v.sheet = w.sheet → RowText.Readable v.data) ∧ RowText.KeepsKeys w.data := by
  obtain ⟨t, hrun, hsound, hholds⟩ := run_holds events h
  rw [hrun]
  refine ⟨fun fresh now w a hw => ?_, hholds.list_isOk_iff hsound, hholds.first_isOk_iff hsound,
    hholds.byId_isOk_iff hsound, fun w hw => hholds.readsBack_iff hsound hw⟩
  exact (hholds.commit_isOk_iff fresh (fun _ => now) w).mp (commit_of_returned hw)

def tagsNoDate : Cell := .record [(.text "x", .record [(.text "$date", .text "bad")])]

def makesTagged : Event :=
  ⟨.write (.create (some "A") [] [tagsNoDate]), Fresh.lettered 'a', Moment.epoch⟩

/-- The sheet is accepted, and then nothing can be listed. -/
theorem reads_back_makesTagged :
    (∃ a, ((Store.database Database.empty).step makesTagged).result = .ok a) ∧
      ¬ ∃ sheets,
        ((Store.database Database.empty).run [makesTagged]).reads.sheets = .ok sheets := by
  have hfresh : FreshIds [makesTagged] := by
    refine ⟨List.nodup_singleton _, fun e he => ?_, List.pairwise_singleton _ _⟩
    obtain rfl := List.mem_singleton.mp he
    exact Fresh.lettered_injective 'a'
  have haccepts : Ledger.empty.Accepts (.create (some "A") [] [tagsNoDate]) := by
    refine ⟨rfl, fun c hc => (List.not_mem_nil hc).elim, fun data hdata => ?_⟩
    obtain rfl := List.mem_singleton.mp hdata
    exact ⟨_, rfl⟩
  have hledger : (Ledger.of [makesTagged]).rows = [⟨"a", "a", tagsNoDate⟩] := by
    simp only [Ledger.of, List.foldl_cons, List.foldl_nil, Ledger.step, makesTagged,
      if_pos haccepts]
    rfl
  refine ⟨⟨_, rfl⟩, fun hlist => ?_⟩
  have hread := (reads_back_iff [makesTagged] hfresh).2.1.mp hlist
  rw [hledger] at hread
  cases hread _ (List.mem_singleton_self _) with
  | record _ parts _ =>
    cases parts _ (List.mem_singleton_self _) with
    | record _ _ tag =>
      obtain ⟨key, value, text, hlast, htext, m, hm, -⟩ := tag ⟨by simp, by simp; rfl⟩
      obtain ⟨rfl, rfl⟩ := Prod.mk.inj (Option.some.inj hlast)
      cases htext
      cases hm

end Store

end PlainSheets
