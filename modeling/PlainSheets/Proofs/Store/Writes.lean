import PlainSheets.Proofs.Store.Agreement
import PlainSheets.Proofs.Store.Contents
import PlainSheets.Proofs.Store.Effect

/-!
Writes have their effects, in both stores. Main statement: after any calls, a write that succeeds does
to the sheets that are held, and to those that are read, what its effect says.
-/
namespace PlainSheets

variable {fresh : Fresh} {clock : Nat → Moment} {w : Write}

/-- A new state, or the same if the step fails. A step may fail after it has changed the state. -/
def Step.Brings {σ α : Type} (s : σ) (P : σ → Prop) (made : Step σ α) : Prop :=
  (∃ a, made.result = .ok a ∧ P made.state) ∨
    ∃ f, made.result = .error f ∧ (made.state = s ∨ P made.state)

theorem Step.Brings.imp {σ α : Type} {s : σ} {P Q : σ → Prop} {made : Step σ α}
    (h : made.Brings s P) (himp : ∀ s', P s' → Q s') : made.Brings s Q := by
  rcases h with ⟨a, ha, hP⟩ | ⟨f, hf, hsame | hP⟩
  · exact .inl ⟨a, ha, himp _ hP⟩
  · exact .inr ⟨f, hf, .inl hsame⟩
  · exact .inr ⟨f, hf, .inr (himp _ hP)⟩

theorem Step.Brings.map {σ α β : Type} {s : σ} {P : σ → Prop} {made : Step σ α}
    (h : made.Brings s P) (g : α → β) : (made.map g).Brings s P := by
  rcases h with ⟨a, ha, hP⟩ | ⟨f, hf, hP⟩
  · exact .inl ⟨g a, map_eq_ok.mpr ⟨a, ha, rfl⟩, hP⟩
  · exact .inr ⟨f, map_eq_error.mpr hf, hP⟩

/-! Lists of sheets. -/

namespace Memory

variable {m : Memory}

theorem replace_changesOne {sheet : String} {change : Sheet → Sheet → Prop} (h : Distinct m.sheets)
    {s new : Sheet} (hs : m.require sheet = .ok s) (hid : new.id = s.id) (hchange : change s new) :
    ChangesOne Sheet.id sheet change m.sheets (m.replace new).sheets := by
  have hfind := find_of_require hs
  have hsheet : s.id = sheet := by simpa using List.find?_some hfind
  rw [replace, hid, hsheet]
  exact .of_replaceFirst h.sheets hfind hchange

theorem timedRows_eq (fresh : Fresh) (clock : Nat → Moment) (records : List Record) :
    timedRows fresh clock 0 records = (records.map Cell.record).mapIdx (Row.made fresh clock) := by
  have hfrom (i : Nat) : timedRows fresh clock i records =
      (records.map Cell.record).mapIdx fun j data => Row.made fresh clock (i + j) data := by
    induction records generalizing i with
    | nil => rfl
    | cons r records ih =>
      rw [timedRows, ih, List.map_cons, List.mapIdx_cons]
      simp only [Row.made, Nat.add_zero, Nat.add_assoc, Nat.add_comm 1]
  simpa using hfrom 0

theorem create_effect {name : Option String} {columns : List Column} {rows : List Cell}
    {p : Memory × Sheet} (h : m.createAt fresh clock name columns rows = .ok p) :
    Effect .list fresh clock m.sheets p.1.sheets (.create name columns rows) := by
  obtain ⟨records, hrecords, h⟩ := bind_eq_ok.mp h
  obtain rfl := Except.ok.inj h
  refine ⟨records.map .record, ?_, ?_⟩
  · rw [mapM_eq_ok, List.forall₂_map_right_iff]
    exact (mapM_eq_ok.mp hrecords).imp fun data record hdata => map_eq_ok.mpr ⟨record, hdata, rfl⟩
  · rw [timedRows_eq, Sheet.made, List.length_map]
    rfl

theorem updateSheet_effect (h : Distinct m.sheets) {sheet : String} {name : Option String}
    {columns : Option (List Column)} {p : Memory × Sheet}
    (hp : m.updateSheet (clock 0) sheet name columns = .ok p) :
    Effect .list fresh clock m.sheets p.1.sheets (.updateSheet sheet name columns) := by
  obtain ⟨s, hs, hp⟩ := bind_eq_ok.mp hp
  obtain rfl := Except.ok.inj hp
  exact replace_changesOne h hs rfl rfl

theorem deleteSheet_effect (h : Distinct m.sheets) {sheet : String} {p : Memory × Unit}
    (hp : m.deleteSheet sheet = .ok p) :
    Effect .list fresh clock m.sheets p.1.sheets (.deleteSheet sheet) := by
  obtain ⟨s, hs, hrest⟩ := deleteSheet_eq_ok hp
  rw [hrest]
  exact .of_eraseP h.sheets (find_of_require hs)

theorem addRow_effect (h : Distinct m.sheets) {sheet : String} {data : Cell} {p : Memory × Row}
    (hp : m.addRowAt fresh clock sheet data = .ok p) :
    Effect .list fresh clock m.sheets p.1.sheets (.addRow sheet data) := by
  obtain ⟨s, hs, hp⟩ := bind_eq_ok.mp hp
  obtain ⟨record, hrecord, hp⟩ := bind_eq_ok.mp hp
  obtain rfl := Except.ok.inj hp
  exact replace_changesOne h hs rfl ⟨.record record, map_eq_ok.mpr ⟨record, hrecord, rfl⟩, rfl⟩

theorem updateRow_effect (h : Distinct m.sheets) {sheet row : String} {data : Cell}
    {p : Memory × Row} (hp : m.updateRow (clock 0) sheet row data = .ok p) :
    Effect .list fresh clock m.sheets p.1.sheets (.updateRow sheet row data) := by
  obtain ⟨s, hs, hp⟩ := bind_eq_ok.mp hp
  obtain ⟨r, hr, hp⟩ := bind_eq_ok.mp hp
  obtain ⟨record, hrecord, hp⟩ := bind_eq_ok.mp hp
  obtain rfl := Except.ok.inj hp
  refine replace_changesOne h hs rfl ⟨_, ?_, rfl⟩
  exact .of_replaceFirst (h.rows s (mem_of_require hs)) (find_of_requireRow hr)
    ⟨.record record, map_eq_ok.mpr ⟨record, hrecord, rfl⟩, rfl⟩

theorem deleteRow_effect (h : Distinct m.sheets) {sheet row : String} {p : Memory × Unit}
    (hp : m.deleteRow (clock 0) sheet row = .ok p) :
    Effect .list fresh clock m.sheets p.1.sheets (.deleteRow sheet row) := by
  obtain ⟨s, r, hs, hr, hrest⟩ := deleteRow_eq_ok hp
  rw [hrest]
  refine replace_changesOne h hs rfl ⟨_, ?_, rfl⟩
  exact .of_eraseP (h.rows s (mem_of_require hs)) (find_of_requireRow hr)

theorem guarded_brings {α : Type} {P : Store → Prop} {body : Except Failure (Memory × α)}
    (h : ∀ p, body = .ok p → P (.memory p.1)) :
    ((Step.guarded m body).mapState Store.memory).Brings (Store.memory m) P := by
  cases body with
  | ok p => exact .inl ⟨p.2, rfl, h p rfl⟩
  | error f => exact .inr ⟨f, rfl, .inl rfl⟩

theorem writeAt_effect (h : Distinct m.sheets) (fresh : Fresh) (clock : Nat → Moment) (w : Write) :
    ((Store.memory m).writeAt fresh clock w).Brings (Store.memory m) fun s =>
      ∃ m', s = .memory m' ∧ Effect .list fresh clock m.sheets m'.sheets w := by
  cases w with
  | create name columns rows =>
    exact (guarded_brings fun p hp => ⟨p.1, rfl, create_effect hp⟩).map _
  | updateSheet sheet name columns =>
    exact ((guarded_brings fun p hp => ⟨p.1, rfl, updateSheet_effect h hp⟩).map some).map _
  | deleteSheet sheet =>
    exact (guarded_brings fun p hp => ⟨p.1, rfl, deleteSheet_effect h hp⟩).map _
  | addRow sheet data => exact (guarded_brings fun p hp => ⟨p.1, rfl, addRow_effect h hp⟩).map _
  | updateRow sheet row data =>
    exact (guarded_brings fun p hp => ⟨p.1, rfl, updateRow_effect h hp⟩).map _
  | deleteRow sheet row =>
    exact (guarded_brings fun p hp => ⟨p.1, rfl, deleteRow_effect h hp⟩).map _
  | clear => exact .inl ⟨.done, rfl, _, rfl, rfl⟩

end Memory

/-! Tables. -/

namespace Tables

variable {t t' : Tables} {sheet : String}

theorem heldSheet_congr {e : SheetEntry} (hcolumns : t'.columnsOf e.id = t.columnsOf e.id)
    (hrows : t'.rowsOf e.id = t.rowsOf e.id) : t'.heldSheet e = t.heldSheet e := by
  rw [columnsOf, columnsOf] at hcolumns
  rw [rowsOf, rowsOf] at hrows
  rw [heldSheet, heldSheet, hcolumns, hrows]

theorem Sound.changesOne (h : t.Sound) (h' : t'.Sound) (hsheet : sheet ∈ t.sheets.map SheetEntry.id)
    {f : SheetEntry → SheetEntry}
    (hsheets : t'.sheets = t.sheets.map fun e => if e.id = sheet then f e else e)
    (hcolumns : ∀ x, x ≠ sheet → t'.columnsOf x = t.columnsOf x)
    (hrows : ∀ x, x ≠ sheet → t'.rowsOf x = t.rowsOf x) {change : Sheet → Sheet → Prop}
    (hchange : ∀ e, e.id = sheet → change (t.heldSheet e) (t'.heldSheet (f e))) :
    ChangesOne Sheet.id sheet change t.held t'.held := by
  obtain ⟨e, he, rfl⟩ := List.mem_map.mp hsheet
  rw [h.inOrder.held_eq, h'.inOrder.held_eq, hsheets, List.map_map]
  refine .of_map h.sheetIds he (fun _ => rfl) (fun b _ hne => ?_) ?_
  · rw [Function.comp_apply, if_neg hne]
    exact heldSheet_congr (hcolumns _ hne) (hrows _ hne)
  · rw [Function.comp_apply, if_pos rfl]
    exact hchange e rfl

theorem rowEntries_made {rows : List Cell} {records : List Record} {rs : List RowEntry} {i : Nat}
    {now : Moment} (hrecords : rows.mapM Cell.asRecord = .ok records)
    (hrs : rowEntries fresh now i records = .ok rs) :
    ∃ data, rows.mapM Keeping.tables.made = .ok data ∧
      rs.map heldRow = data.mapIdx fun j => Row.made fresh (fun _ => now) (i + j) := by
  rw [mapM_eq_ok] at hrecords
  induction hrecords generalizing i rs with
  | nil =>
    obtain rfl := Except.ok.inj hrs
    exact ⟨[], rfl, rfl⟩
  | cons hdata _ ih =>
    obtain ⟨text, htext, hrs⟩ := bind_eq_ok.mp hrs
    obtain ⟨rest, hrest, hrs⟩ := bind_eq_ok.mp hrs
    obtain rfl := Except.ok.inj hrs
    obtain ⟨data, hmade, hheld⟩ := ih hrest
    refine ⟨.text text :: data, mapM_cons_eq_ok.mpr ⟨_, data, ?_, hmade, rfl⟩, ?_⟩
    · exact map_eq_ok.mpr ⟨text, bind_eq_ok.mpr ⟨_, hdata, htext⟩, rfl⟩
    · rw [List.map_cons, hheld, List.mapIdx_cons]
      simp only [Nat.add_zero, Nat.add_assoc, Nat.add_comm 1]
      rfl

theorem create_effect (h : t.Sound) (hfresh : fresh.NewIn t) (name : String) {columns : List Column}
    {rows : List Cell} {records : List Record} {cs : List ColumnEntry} {rs : List RowEntry}
    (hrecords : rows.mapM Cell.asRecord = .ok records)
    (hcs : columnEntries fresh.sheet 0 columns = .ok cs)
    (hrs : rowEntries fresh (clock 0) 0 records = .ok rs) :
    Effect .tables fresh clock t.held (held ⟨t.sheets ++ [⟨fresh.sheet, name,
      nextPosition (t.sheets.map SheetEntry.position), clock 0, clock 0⟩], t.columns ++ cs,
      t.rows ++ rs⟩) (.create (some name) columns rows) := by
  obtain ⟨data, hmade, hheld⟩ := rowEntries_made hrecords hrs
  obtain ⟨hcolumnSheet, -, hread⟩ := columnEntries_spec hcs
  obtain ⟨hrowSheet, -, -⟩ := rowEntries_spec hrs
  have hcolumnsOf := columnsOf_append t hcolumnSheet
  have hrowsOf := rowsOf_append t hrowSheet
  refine ⟨data, hmade, ?_⟩
  rw [h.inOrder.held_eq, (h.create hfresh name hcs hrs).inOrder.held_eq, List.map_append,
    List.map_singleton]
  congr 1
  · refine List.map_congr_left fun e he => heldSheet_congr ?_ ?_
    · have hne : e.id ≠ fresh.sheet := fun heq => hfresh.sheet (heq ▸ List.mem_map_of_mem he)
      rw [hcolumnsOf, if_neg hne, List.append_nil]
    · have hne : e.id ≠ fresh.sheet := fun heq => hfresh.sheet (heq ▸ List.mem_map_of_mem he)
      rw [hrowsOf, if_neg hne, List.append_nil]
  · rw [(h.create hfresh name hcs hrs).inOrder.heldSheet_eq, hcolumnsOf, hrowsOf, if_pos rfl,
      if_pos rfl, h.columnsOf_of_not_mem hfresh.sheet, h.rowsOf_of_not_mem hfresh.sheet,
      List.nil_append, List.nil_append, hread, hheld]
    simp only [Nat.zero_add]
    rfl

theorem updateSheet_effect (h : t.Sound) {name : Option String} {columns : Option (List Column)}
    {u : Tables} (hsheet : sheet ∈ t.sheets.map SheetEntry.id)
    (hu : (t.rename sheet name).putColumns sheet columns = .ok u)
    (h' : (u.touch sheet (clock 0)).Sound) :
    Effect .tables fresh clock t.held (u.touch sheet (clock 0)).held
      (.updateSheet sheet name columns) := by
  obtain ⟨all, hput, hothers, hthis⟩ :=
    exists_putColumns (t.rename sheet name) sheet ((putColumns_isOk_iff _ _ _).mp ⟨u, hu⟩)
  obtain rfl := Except.ok.inj (hu.symm.trans hput)
  rw [Mirrors.rename_sheets] at hothers hthis h' ⊢
  refine h.changesOne h' (f := fun e => { e with
    name := if name.getD "" = "" then e.name else name.getD "", updatedAt := clock 0 })
    hsheet ?_ hothers (fun _ _ => rfl) ?_
  · rw [touch, List.map_map]
    refine List.map_congr_left fun e _ => ?_
    by_cases he : e.id = sheet <;> simp [he]
  · rintro e rfl
    rw [h.inOrder.heldSheet_eq, h'.inOrder.heldSheet_eq]
    exact congrArg₂ (fun name columns => (⟨e.id, name, columns, _, e.createdAt, _⟩ : Sheet))
      (Mirrors.name_getD name e.name).symm hthis

theorem deleteSheet_effect (h : t.Sound) (hsheet : sheet ∈ t.sheets.map SheetEntry.id) :
    Effect .tables fresh clock t.held (held ⟨t.sheets.filter fun s => s.id ≠ sheet,
      t.columns.filter fun c => c.sheet ≠ sheet, t.rows.filter fun r => r.sheet ≠ sheet⟩)
      (.deleteSheet sheet) := by
  obtain ⟨e, he, rfl⟩ := List.mem_map.mp hsheet
  rw [h.inOrder.held_eq, (h.deleteSheet e.id).inOrder.held_eq]
  refine RemovesOne.of_filter h.sheetIds he (fun _ => rfl) fun b _ hne => ?_
  exact heldSheet_congr (filter_ne_of_sheet ColumnEntry.sheet t.columns hne)
    (filter_ne_of_sheet RowEntry.sheet t.rows hne)

theorem Sound.rowsChange (h : t.Sound) {rows : List RowEntry} {now : Moment}
    (h' : (({ t with rows } : Tables).touch sheet now).Sound)
    (hsheet : sheet ∈ t.sheets.map SheetEntry.id)
    (hrows : ∀ x, x ≠ sheet → ({ t with rows } : Tables).rowsOf x = t.rowsOf x)
    (change : List Row → List Row → Prop) (hchange : change ((t.rowsOf sheet).map heldRow)
      ((({ t with rows } : Tables).rowsOf sheet).map heldRow)) :
    ChangesOne Sheet.id sheet (fun s s' => ∃ rows, change s.rows rows ∧
      s' = { s with rows, updatedAt := some now }) t.held
      (({ t with rows } : Tables).touch sheet now).held := by
  refine h.changesOne h' hsheet rfl (fun _ _ => rfl) hrows ?_
  rintro e rfl
  rw [h.inOrder.heldSheet_eq, h'.inOrder.heldSheet_eq]
  exact ⟨_, hchange, rfl⟩

theorem addRow_effect (h : t.Sound) {position : Nat} {data : Cell} {record : Record} {text : String}
    (hsheet : sheet ∈ t.sheets.map SheetEntry.id) (hrecord : data.asRecord = .ok record)
    (htext : RowText.dump (.record record) = .ok text)
    (h' : (({ t with rows := t.rows ++ [⟨fresh.row 0, sheet, position, text, clock 0, clock 1⟩] } :
      Tables).touch sheet (clock 1)).Sound) :
    Effect .tables fresh clock t.held (({ t with rows := t.rows ++ [⟨fresh.row 0, sheet, position,
      text, clock 0, clock 1⟩] } : Tables).touch sheet (clock 1)).held (.addRow sheet data) := by
  have hrows := rowsOf_append t (List.forall_mem_singleton.mpr rfl :
    ∀ r ∈ [(⟨fresh.row 0, sheet, position, text, clock 0, clock 1⟩ : RowEntry)], r.sheet = sheet)
    t.sheets t.columns
  have hmade : Keeping.tables.made data = .ok (.text text) :=
    map_eq_ok.mpr ⟨text, bind_eq_ok.mpr ⟨record, hrecord, htext⟩, rfl⟩
  refine (h.rowsChange h' hsheet (fun x hx => ?_)
    (fun old new => new = old ++ [Row.made fresh clock 0 (.text text)]) ?_).imp ?_
  · rw [hrows, if_neg hx, List.append_nil]
  · rw [hrows, if_pos rfl, List.map_append]
    rfl
  · rintro s _ ⟨rows, rfl, rfl⟩
    exact ⟨_, hmade, rfl⟩

theorem updateRow_effect (h : t.Sound) {row : String} {data : Cell} {text : String}
    (htext : RowText.dump data = .ok text) (hsheet : sheet ∈ t.sheets.map SheetEntry.id)
    (hrow : ∃ r ∈ t.rows, r.sheet = sheet ∧ r.id = row)
    (h' : (({ t with rows := t.rows.map fun r => if r.sheet = sheet ∧ r.id = row then
      { r with data := text, updatedAt := clock 0 } else r } : Tables).touch sheet (clock 0)).Sound) :
    Effect .tables fresh clock t.held (({ t with rows := t.rows.map fun r =>
      if r.sheet = sheet ∧ r.id = row then { r with data := text, updatedAt := clock 0 } else r } :
        Tables).touch sheet (clock 0)).held (.updateRow sheet row data) := by
  have hrows := rowsOf_map t (fun r => if r.sheet = sheet ∧ r.id = row then
    { r with data := text, updatedAt := clock 0 } else r) fun r => by split <;> rfl
  have hput : Keeping.tables.put data = .ok (.text text) := map_eq_ok.mpr ⟨text, htext, rfl⟩
  obtain ⟨r, hr, hrsheet, rfl⟩ := hrow
  refine h.rowsChange h' hsheet (fun x hx => ?_) _ ?_
  · refine (hrows x).trans ((List.map_congr_left fun b hb => ?_).trans (List.map_id _))
    rw [(mem_rowsOf.mp hb).2, if_neg fun hboth => hx hboth.1]
    rfl
  · rw [hrows, List.map_map]
    refine .of_map (h.rowIdsOf sheet) (mem_rowsOf.mpr ⟨hr, hrsheet⟩) (fun _ => rfl)
      (fun b _ hne => ?_) ?_
    · rw [Function.comp_apply, if_neg fun hboth => hne hboth.2]
    · rw [Function.comp_apply, if_pos ⟨hrsheet, rfl⟩]
      exact ⟨_, hput, rfl⟩

theorem deleteRow_effect (h : t.Sound) {row : String}
    (hsheet : sheet ∈ t.sheets.map SheetEntry.id)
    (hrow : ∃ r ∈ t.rows, r.sheet = sheet ∧ r.id = row) :
    Effect .tables fresh clock t.held (({ t with rows := t.rows.filter fun r =>
      !(r.sheet = sheet ∧ r.id = row) } : Tables).touch sheet (clock 0)).held
      (.deleteRow sheet row) := by
  have hrows := rowsOf_filter t fun r => !decide (r.sheet = sheet ∧ r.id = row)
  obtain ⟨r, hr, hrsheet, rfl⟩ := hrow
  refine h.rowsChange ((h.filterRows _).touch sheet) hsheet (fun x hx => ?_) _ ?_
  · refine (hrows x).trans (List.filter_eq_self.mpr fun b hb => ?_)
    simp [(mem_rowsOf.mp hb).2, hx]
  · have hfilter : ((t.rowsOf sheet).filter fun b => !decide (b.sheet = sheet ∧ b.id = r.id)) =
        (t.rowsOf sheet).filter fun b => b.id ≠ r.id := by
      refine List.filter_congr fun b hb => ?_
      simp [(mem_rowsOf.mp hb).2]
    rw [hrows, hfilter]
    exact .of_filter (h.rowIdsOf sheet) (mem_rowsOf.mpr ⟨hr, hrsheet⟩) (fun _ => rfl)
      fun _ _ _ => rfl

theorem commit_effect (h : t.Sound) (hfresh : fresh.NewIn t)
    (ht : t.commit fresh clock w = .ok t') : Effect .tables fresh clock t.held t'.held w := by
  have h' := h.commit hfresh ht
  cases commits_of_commit ht with
  | create name hrecords hcs hrs => exact create_effect h hfresh name hrecords hcs hrs
  | updateSheet hsheet hu => exact updateSheet_effect h hsheet hu h'
  | deleteSheet sheet hsheet => exact deleteSheet_effect h hsheet
  | addRow hsheet hrecord htext => exact addRow_effect h hsheet hrecord htext h'
  | updateRow sheet row htext hsheet hrow => exact updateRow_effect h htext hsheet hrow h'
  | deleteRow sheet row hsheet hrow => exact deleteRow_effect h hsheet hrow
  | clear => exact sound_empty.inOrder.held_eq

end Tables

/-! Runs. -/

def Write.Readable : Write → Prop
  | .create _ _ rows => ∀ data ∈ rows, RowText.Readable (RowText.recorded data)
  | .addRow _ data => RowText.Readable (RowText.recorded data)
  | .updateRow _ _ data => RowText.Readable data
  | _ => True

def Operation.Readable : Operation → Prop
  | .write w => w.Readable
  | .read _ => True

theorem Ledger.readable_of (events : List Event) (h : ∀ e ∈ events, e.operation.Readable) :
    ∀ v ∈ (Ledger.of events).rows, RowText.Readable v.data := by
  have hnew (i : Nat) (fresh : Fresh) (rows : List Cell)
      (hrows : ∀ data ∈ rows, RowText.Readable (RowText.recorded data)) :
      ∀ v ∈ newRows fresh i rows, RowText.Readable v.data := by
    induction rows generalizing i with
    | nil => simp [newRows]
    | cons data rows ih =>
      rw [List.forall_mem_cons] at hrows
      exact List.forall_mem_cons.mpr ⟨hrows.1, ih (i + 1) hrows.2⟩
  induction events using List.reverseRecOn with
  | nil => simp [Ledger.of, empty]
  | append_singleton events e ih =>
    rw [List.forall_mem_append, List.forall_mem_singleton] at h
    specialize ih h.1
    have he := h.2
    rw [Ledger.of, List.foldl_append]
    change ∀ v ∈ ((Ledger.of events).step e).rows, RowText.Readable v.data
    generalize Ledger.of events = l at ih
    obtain ⟨operation, fresh, now⟩ := e
    cases operation with
    | read q => exact ih
    | write w =>
      change ∀ v ∈ (if l.Accepts w then l.put fresh w else l).rows, RowText.Readable v.data
      split
      · cases w with
        | create name columns rows => exact List.forall_mem_append.mpr ⟨ih, hnew 0 fresh rows he⟩
        | updateSheet sheet name columns => exact ih
        | deleteSheet sheet => exact fun v hv => ih v (List.mem_of_mem_filter hv)
        | addRow sheet data =>
          exact List.forall_mem_append.mpr ⟨ih, List.forall_mem_singleton.mpr he⟩
        | updateRow sheet row data =>
          rintro v hv
          obtain ⟨u, hu, rfl⟩ := List.mem_map.mp hv
          split
          · exact he
          · exact ih u hu
        | deleteRow sheet row => exact fun v hv => ih v (List.mem_of_mem_filter hv)
        | clear => simp [put, empty]
      · exact ih

namespace Store

def IsEmpty (s : Store) : Prop := s = .memory ⟨[]⟩ ∨ s = .database Database.empty

def holding : Store → Keeping
  | database _ => .tables
  | _ => .list

def showing : Store → Keeping
  | database _ => Keeping.tables.read RowText.loadCell
  | _ => .list

theorem runCalls_memory (calls later : List Call)
    (h : FreshIds ((calls ++ later).map Call.event)) :
    ∃ m, (Store.memory ⟨[]⟩).runCalls calls = .memory m ∧ Distinct m.sheets ∧
      ∀ f ∈ later, f.fresh.UnusedIn m.sheets := by
  induction calls using List.reverseRecOn generalizing later with
  | nil =>
    refine ⟨⟨[]⟩, rfl, ⟨List.nodup_nil, by simp⟩, fun f hf => ⟨List.not_mem_nil, by simp, ?_⟩⟩
    exact h.rows f.event (List.mem_map_of_mem hf)
  | append_singleton calls c ih =>
    rw [List.append_assoc, List.singleton_append] at h
    obtain ⟨m, hrun, hdistinct, hunused⟩ := ih (c :: later) h
    have hlater := fun f hf => hunused f (List.mem_cons_of_mem c hf)
    rw [runCalls_append, hrun]
    unfold call
    split
    · rename_i w _
      have hchanged (hbrings : ∃ m', ((Store.memory m).writeAt c.fresh c.clock w).state =
          .memory m' ∧ Effect .list c.fresh c.clock m.sheets m'.sheets w) :
          ∃ m', ((Store.memory m).writeAt c.fresh c.clock w).state = .memory m' ∧
            Distinct m'.sheets ∧ ∀ f ∈ later, f.fresh.UnusedIn m'.sheets := by
        obtain ⟨m', hm', heffect⟩ := hbrings
        refine ⟨m', hm', heffect.distinct hdistinct (hunused c List.mem_cons_self), fun f hf => ?_⟩
        rw [List.map_append, List.map_cons] at h
        obtain ⟨hsheet, hrows⟩ := h.later_apart (List.mem_map_of_mem hf)
        exact heffect.unusedIn (hlater f hf) hsheet hrows
      rcases Memory.writeAt_effect hdistinct c.fresh c.clock w with
        ⟨_, -, hbrings⟩ | ⟨_, -, hsame | hbrings⟩
      · exact hchanged hbrings
      · exact ⟨m, hsame, hdistinct, hlater⟩
      · exact hchanged hbrings
    · exact ⟨m, rfl, hdistinct, hlater⟩

theorem writeAt_database {t : Tables} (h : t.Sound) (hfresh : fresh.NewIn t) :
    ((Store.database ⟨t, true⟩).writeAt fresh clock w).Brings (Store.database ⟨t, true⟩) fun s =>
      ∃ t', s = .database ⟨t', true⟩ ∧ Effect .tables fresh clock t.held t'.held w := by
  have hstate := write_database t fresh clock w
  have heffect {t' : Tables} (ht : t.commit fresh clock w = .ok t') :
      ∃ u, ((Store.database ⟨t, true⟩).writeAt fresh clock w).state = .database ⟨u, true⟩ ∧
        Effect .tables fresh clock t.held u.held w := by
    rw [Tables.afterWrite, ht] at hstate
    exact ⟨t', hstate, Tables.commit_effect h hfresh ht⟩
  cases hresult : ((Store.database ⟨t, true⟩).writeAt fresh clock w).result with
  | ok a =>
    obtain ⟨t', ht⟩ := commit_of_returned hresult
    exact .inl ⟨a, hresult, heffect ht⟩
  | error f =>
    refine .inr ⟨f, hresult, ?_⟩
    cases ht : t.commit fresh clock w with
    | ok t' => exact .inr (heffect ht)
    | error e =>
      rw [Tables.afterWrite, ht] at hstate
      exact .inl hstate

/-- Every call leaves what is held, or does to it what the effect of its write says. It does so if it
succeeds. -/
theorem call_effect {s : Store} (hs : s.IsEmpty) (calls : List Call) (c : Call)
    (hfresh : FreshIds ((calls ++ [c]).map Call.event)) {w : Write} (hw : c.operation = .write w) :
    let before := s.runCalls calls
    (before.call c).Brings before fun after =>
      Effect s.holding c.fresh c.clock before.held after.held w := by
  intro before
  unfold call
  rw [hw]
  change (before.writeAt c.fresh c.clock w).Brings _ _
  rcases hs with rfl | rfl
  · obtain ⟨m, hm, hdistinct, -⟩ := runCalls_memory calls [c] hfresh
    rw [show before = .memory m from hm]
    refine (Memory.writeAt_effect hdistinct c.fresh c.clock w).imp ?_
    rintro _ ⟨m', rfl, heffect⟩
    exact heffect
  · obtain ⟨t, ht, hsound, hnew⟩ := runCalls_database calls [c] hfresh
    rw [show before = .database ⟨t, true⟩ from ht]
    refine (writeAt_database hsound (hnew c (List.mem_singleton_self c))).imp ?_
    rintro _ ⟨t', rfl, heffect⟩
    exact heffect

theorem listed_effect {s : Store} (hs : s.IsEmpty) (calls : List Call) (c : Call) {w : Write}
    (hfresh : FreshIds ((calls ++ [c]).map Call.event))
    (h : Effect s.holding c.fresh c.clock (s.runCalls calls).held (s.runCalls (calls ++ [c])).held w)
    {before after : List Sheet} (hbefore : (s.runCalls calls).reads.sheets = .ok before)
    (hafter : (s.runCalls (calls ++ [c])).reads.sheets = .ok after) :
    Effect s.showing c.fresh c.clock before after w := by
  rcases hs with rfl | rfl
  · obtain ⟨m, hm, -⟩ := runCalls_memory calls [c] hfresh
    obtain ⟨m', hm', -⟩ := runCalls_memory (calls ++ [c]) [] (by rwa [List.append_nil])
    rw [hm] at hbefore h
    rw [hm'] at hafter h
    obtain rfl := Except.ok.inj hbefore
    obtain rfl := Except.ok.inj hafter
    exact h
  · obtain ⟨t, ht, hsound, -⟩ := runCalls_database calls [c] hfresh
    obtain ⟨t', ht', hsound', -⟩ := runCalls_database (calls ++ [c]) [] (by rwa [List.append_nil])
    rw [ht] at hbefore h
    rw [ht'] at hafter h
    exact h.read (hsound.inOrder.list_eq_ok_iff.mp hbefore) (hsound'.inOrder.list_eq_ok_iff.mp hafter)

/-- After calls that give data that can be read again, everything can be listed. -/
theorem exists_listed {s : Store} (hs : s.IsEmpty) (calls : List Call)
    (hfresh : FreshIds (calls.map Call.event)) (h : ∀ c ∈ calls, c.operation.Readable) :
    ∃ sheets, (s.runCalls calls).reads.sheets = .ok sheets := by
  rw [← List.append_nil calls] at hfresh
  rcases hs with rfl | rfl
  · obtain ⟨m, hm, -⟩ := runCalls_memory calls [] hfresh
    rw [hm]
    exact ⟨m.sheets, rfl⟩
  · obtain ⟨t, ht, hholds⟩ := runCalls_holds calls
    obtain ⟨u, hu, hsound, -⟩ := runCalls_database calls [] hfresh
    obtain rfl := tables_inj (ht.symm.trans hu)
    rw [ht]
    refine (hholds.list_isOk_iff hsound).mpr (Ledger.readable_of _ fun e he => ?_)
    obtain ⟨c, hc, rfl⟩ := List.mem_map.mp he
    exact h c hc

/-- What a write does that succeeds, after any calls: its effect on what is held, and on what is
listed as long as no call gave data that cannot be read again. -/
theorem write_effect {s : Store} (hs : s.IsEmpty) (calls : List Call) (c : Call) {w : Write}
    (hw : c.operation = .write w) (hfresh : FreshIds ((calls ++ [c]).map Call.event)) {a : Answer}
    (ha : ((s.runCalls calls).call c).result = .ok a) :
    let before := s.runCalls calls
    let after := s.runCalls (calls ++ [c])
    Effect s.holding c.fresh c.clock before.held after.held w ∧
      ((∀ d ∈ calls, d.operation.Readable) → ∃ listed, before.reads.sheets = .ok listed ∧
        (w.Readable → ∃ listed', after.reads.sheets = .ok listed' ∧
          Effect s.showing c.fresh c.clock listed listed' w)) := by
  intro before after
  have heffect : Effect s.holding c.fresh c.clock before.held after.held w := by
    rw [show after = ((s.runCalls calls).call c).state from s.runCalls_append calls c]
    rcases call_effect hs calls c hfresh hw with ⟨_, -, heffect⟩ | ⟨f, hf, -⟩
    · exact heffect
    · cases ha.symm.trans hf
  refine ⟨heffect, fun hcalls => ?_⟩
  have hbefore : FreshIds (calls.map Call.event) := by
    rw [List.map_append] at hfresh
    exact hfresh.of_append
  obtain ⟨listed, hlisted⟩ := exists_listed hs calls hbefore hcalls
  refine ⟨listed, hlisted, fun hreadable => ?_⟩
  obtain ⟨listed', hlisted'⟩ := exists_listed hs (calls ++ [c]) hfresh
    (List.forall_mem_append.mpr ⟨hcalls, List.forall_mem_singleton.mpr (hw ▸ hreadable)⟩)
  exact ⟨listed', hlisted', listed_effect hs calls c hfresh heffect hlisted hlisted'⟩

def ticking (n : Nat) : Moment := { Moment.epoch with clock := Clock.ofMicros n }

def makesTwins : Call :=
  ⟨.write (.create (some "A") [] [.record [], .record []]), Fresh.lettered 'a', ticking⟩

def deletesTwin : Call := ⟨.write (.deleteRow "a" "ai"), Fresh.lettered 'b', ticking⟩

theorem write_effect_deletesTwin :
    let before := (Store.database Database.empty).runCalls [makesTwins]
    let after := (Store.database Database.empty).runCalls [makesTwins, deletesTwin]
    ∃ listed listed', before.reads.sheets = .ok listed ∧ after.reads.sheets = .ok listed' ∧
      ChangesOne Sheet.id "a" (fun s s' => ∃ rows, RemovesOne Row.id "ai" s.rows rows ∧
        s' = { s with rows, updatedAt := some (ticking 0) }) listed listed' := by
  have hfresh : FreshIds [makesTwins.event, deletesTwin.event] :=
    .of_letters (show ['a', 'b'].Nodup by decide) rfl
  have hreadable : makesTwins.operation.Readable := by
    intro data hdata
    obtain rfl : data = .record [] := by simpa using hdata
    exact .record [] (by simp) fun h => absurd rfl h.1
  have hdone : (((Store.database Database.empty).runCalls [makesTwins]).call deletesTwin).result =
      .ok .done := rfl
  obtain ⟨-, hlisted⟩ := write_effect (.inr rfl) [makesTwins] deletesTwin rfl hfresh hdone
  obtain ⟨listed, hbefore, hafter⟩ := hlisted (List.forall_mem_singleton.mpr hreadable)
  obtain ⟨listed', hafter, heffect⟩ := hafter trivial
  exact ⟨listed, listed', hbefore, hafter, heffect⟩

end Store

end PlainSheets
