import PlainSheets.Proofs.Store.Mirror

/-!
Tables and a list of sheets kept in step. Each write that both take ends alike in both, and leaves
tables that mirror the list; so every run of writes and reads gives the same answers from both.
-/
namespace PlainSheets

variable {t : Tables} {m : Memory} {fresh : Fresh} {now : Moment}

/-! What tables can take, they take. -/

namespace Tables

theorem exists_rowEntries (fresh : Fresh) (now : Moment) {records : List Record}
    (h : ∀ r ∈ records, RowText.IsNormal (.record r)) (i : Nat) :
    ∃ rs, rowEntries fresh now i records = .ok rs ∧
      List.Forall₂ RowMirrors rs (newRows fresh now i records) := by
  induction records generalizing i with
  | nil => exact ⟨[], rfl, .nil⟩
  | cons r records ih =>
    obtain ⟨text, fields, hdump, hload⟩ := (h r List.mem_cons_self).exists_text
    obtain ⟨rs, hrs, hall⟩ := ih (fun a ha => h a (List.mem_cons_of_mem r ha)) (i + 1)
    refine ⟨⟨fresh.row i, fresh.sheet, i, text, now, now⟩ :: rs, ?_, ?_⟩
    · rw [rowEntries, hdump, hrs]
      rfl
    · exact .cons ⟨rfl, hdump, ⟨fields, hload⟩, rfl, rfl⟩ hall

theorem exists_putColumns (t : Tables) (sheet : String) {columns : Option (List Column)}
    (h : ∀ cs ∈ columns, ∀ c ∈ cs, c.Storable) :
    ∃ all, t.putColumns sheet columns = .ok { t with columns := all } ∧
      (∀ y, y ≠ sheet → ({ t with columns := all } : Tables).columnsOf y = t.columnsOf y) ∧
      (({ t with columns := all } : Tables).columnsOf sheet).map readColumn =
        columns.getD ((t.columnsOf sheet).map readColumn) := by
  cases columns with
  | none => exact ⟨t.columns, rfl, fun _ _ => rfl, rfl⟩
  | some columns =>
    obtain ⟨cs, hcs⟩ := (columnEntries_isOk_iff sheet columns 0).mpr (h columns rfl)
    refine ⟨(t.columns.filter fun c => c.sheet ≠ sheet) ++ cs, ?_, ?_, ?_⟩
    · rw [putColumns, hcs]
      rfl
    · intro y hy
      rw [columnsOf_putColumns hcs, if_neg hy]
    · rw [columnsOf_putColumns hcs, if_pos rfl]
      exact (columnEntries_spec hcs).2.2

/-! The columns and rows of each sheet after a write. -/

theorem columnsOf_append (t : Tables) {cs : List ColumnEntry} {sheet : String}
    (h : ∀ c ∈ cs, c.sheet = sheet)
    (sheets : List SheetEntry) (rows : List RowEntry) (x : String) :
    (⟨sheets, t.columns ++ cs, rows⟩ : Tables).columnsOf x =
      t.columnsOf x ++ if x = sheet then cs else [] := by
  rw [← filter_of_sheet h x]
  exact List.filter_append _ _

theorem rowsOf_append (t : Tables) {rs : List RowEntry} {sheet : String}
    (h : ∀ r ∈ rs, r.sheet = sheet)
    (sheets : List SheetEntry) (columns : List ColumnEntry) (x : String) :
    (⟨sheets, columns, t.rows ++ rs⟩ : Tables).rowsOf x =
      t.rowsOf x ++ if x = sheet then rs else [] := by
  rw [← filter_of_sheet h x]
  exact List.filter_append _ _

theorem rowsOf_map (t : Tables) (change : RowEntry → RowEntry)
    (hsheet : ∀ r, (change r).sheet = r.sheet)
    (x : String) :
    ({ t with rows := t.rows.map change } : Tables).rowsOf x = (t.rowsOf x).map change := by
  rw [rowsOf, rowsOf, List.filter_map]
  congr 2
  funext r
  exact congrArg (fun s => decide (s = x)) (hsheet r)

theorem rowsOf_filter (t : Tables) (p : RowEntry → Bool) (x : String) :
    ({ t with rows := t.rows.filter p } : Tables).rowsOf x = (t.rowsOf x).filter p := by
  rw [rowsOf, rowsOf, List.filter_filter, List.filter_filter]
  congr 1
  funext r
  exact Bool.and_comm _ _

end Tables

/-! Each write. -/

namespace Mirrors

theorem create (h : Mirrors t m) (hsound : t.Sound) (hfresh : fresh.NewIn t) (now : Moment)
    (name : String) {columns : List Column} {rows : List Cell} {records : List Record}
    (hcolumns : ∀ c ∈ columns, c.Storable) (hrecords : rows.mapM Cell.asRecord = .ok records)
    (hrows : ∀ r ∈ records, RowText.IsNormal (.record r)) :
    Agree (fun t' p => Mirrors t' p.1 ∧
        p.2 = ⟨fresh.sheet, some name, columns, newRows fresh now 0 records, now, some now⟩)
      (t.create fresh now (some name) columns records)
      (m.create fresh now (some name) columns rows) := by
  obtain ⟨cs, hcs⟩ := (Tables.columnEntries_isOk_iff fresh.sheet columns 0).mpr hcolumns
  obtain ⟨rs, hrs, hall⟩ := Tables.exists_rowEntries fresh now hrows 0
  obtain ⟨hcolumnSheet, -, hread⟩ := Tables.columnEntries_spec hcs
  obtain ⟨hrowSheet, -, -⟩ := Tables.rowEntries_spec hrs
  rw [Tables.create, Memory.create, Memory.createAt, hcs, hrs, hrecords]
  refine .ok ⟨?_, rfl⟩
  refine List.rel_append (forall₂_imp_mem h fun e he s hs => ?_) (.cons ?_ .nil)
  · have hne : e.id ≠ fresh.sheet := fun heq => hfresh.sheet (heq ▸ List.mem_map_of_mem he)
    refine hs.congr ?_ ?_
    · rw [Tables.columnsOf_append t hcolumnSheet, if_neg hne, List.append_nil]
    · rw [Tables.rowsOf_append t hrowSheet, if_neg hne, List.append_nil]
  · refine ⟨rfl, rfl, ?_, ?_, rfl, rfl⟩
    · rw [Tables.columnsOf_append t hcolumnSheet, if_pos rfl,
        hsound.columnsOf_of_not_mem hfresh.sheet, List.nil_append]
      exact hread.symm
    · rw [Tables.rowsOf_append t hrowSheet, if_pos rfl, hsound.rowsOf_of_not_mem hfresh.sheet,
        List.nil_append]
      exact hall

theorem name_getD (name : Option String) (old : String) :
    (if name.getD "" = "" then some old else name) =
      some (if name.getD "" = "" then old else name.getD "") := by
  cases name with
  | none => rfl
  | some n => by_cases hn : n = "" <;> simp [hn]

theorem rename_sheets (t : Tables) (x : String) (name : Option String) :
    t.rename x name = { t with sheets := t.sheets.map fun e => if e.id = x then
      { e with name := if name.getD "" = "" then e.name else name.getD "" } else e } := by
  by_cases hname : name.getD "" = ""
  · simp only [if_pos hname, ite_self, List.map_id']
    cases name with
    | none => rfl
    | some n =>
      rw [Option.getD_some] at hname
      rw [Tables.rename, if_pos hname]
  · simp only [if_neg hname]
    cases name with
    | none => exact absurd rfl hname
    | some n =>
      rw [Option.getD_some] at hname
      rw [Tables.rename, if_neg hname, Option.getD_some]

theorem find_replaceFirst {α : Type} {test : α → Bool} {old new : α} (hnew : test new = true)
    {items : List α} (h : items.find? test = some old) :
    (Memory.replaceFirst test new items).find? test = some new := by
  induction items with
  | nil => cases h
  | cons a rest ih =>
    rw [Memory.replaceFirst]
    by_cases ha : test a = true
    · rw [if_pos ha, List.find?_cons_of_pos hnew]
    · rw [if_neg ha, List.find?_cons_of_neg ha]
      rw [List.find?_cons_of_neg ha] at h
      exact ih h

theorem updateSheet (h : Mirrors t m) (hsound : t.Sound) (now : Moment) (x : String)
    (name : Option String)
    {columns : Option (List Column)} (hcolumns : ∀ cs ∈ columns, ∀ c ∈ cs, c.Storable) :
    Agree (fun t' p => Mirrors t' p.1 ∧ p.1.find? x = some p.2)
      (t.updateSheet now x name columns) (m.updateSheet now x name columns) := by
  rcases h.require x with ⟨ht, hm⟩ | ⟨e, s, he, rfl, hs, ht, hm⟩
  · rw [Tables.updateSheet, Memory.updateSheet, ht, hm]
    exact .error _
  · obtain ⟨all, hput, hothers, hthis⟩ :=
      Tables.exists_putColumns (t.rename e.id name) e.id hcolumns
    rw [Tables.updateSheet, Memory.updateSheet, ht, hm]
    simp only [bind, Except.bind, hput]
    have hfound : m.find? s.id = some s := by
      rw [← hs.id]
      unfold Memory.require at hm
      split at hm
      · exact (Except.ok.inj hm) ▸ by assumption
      · cases hm
    refine .ok ⟨h.replace hsound he (fun e => { e with
      name := if name.getD "" = "" then e.name else name.getD "", updatedAt := now }) hs.id.symm
      ?_ ?_ (fun _ _ => ?_) ?_, ?_⟩
    · rw [rename_sheets, Tables.touch, List.map_map]
      refine List.map_congr_left fun a _ => ?_
      by_cases ha : a.id = e.id <;> simp [ha]
    · intro y hy
      rw [rename_sheets] at hothers
      exact hothers y hy
    · rw [rename_sheets]
      rfl
    · refine ⟨hs.id, ?_, ?_, ?_, hs.createdAt, rfl⟩
      · rw [hs.name]
        exact name_getD name e.name
      · rw [rename_sheets] at hthis
        rw [hs.columns]
        exact hthis.symm
      · rw [rename_sheets]
        exact hs.rows
    · rw [hs.id]
      refine find_replaceFirst ?_ hfound
      exact decide_eq_true rfl

theorem deleteSheet (h : Mirrors t m) (hsound : t.Sound) (x : String) :
    Agree (fun t' p => Mirrors t' p.1) (t.deleteSheet x) (m.deleteSheet x) := by
  rcases h.require x with ⟨ht, hm⟩ | ⟨e, s, he, rfl, hs, ht, hm⟩
  · rw [Tables.deleteSheet, Memory.deleteSheet, ht, hm]
    exact .error _
  · obtain ⟨p, hp⟩ := Memory.exists_deleteSheet h.hasText hm
    obtain ⟨-, -, hrest⟩ := Memory.deleteSheet_eq_ok hp
    rw [Tables.deleteSheet, ht, hp]
    refine .ok (hrest ▸ forall₂_imp_mem (eraseP_related (fun _ _ hs => hs.id) h hsound.sheetIds e.id) ?_)
    intro a ha b hab
    have hne : a.id ≠ e.id := of_decide_eq_true (List.mem_filter.mp ha).2
    refine hab.congr ?_ ?_
    · exact Tables.filter_ne_of_sheet ColumnEntry.sheet t.columns hne
    · exact Tables.filter_ne_of_sheet RowEntry.sheet t.rows hne

theorem addRow (h : Mirrors t m) (hsound : t.Sound) (fresh : Fresh) (now : Moment) (x : String)
    {record : Record}
    (hdata : RowText.IsNormal (.record record)) :
    Agree (fun t' p => Mirrors t' p.1 ∧ p.2 = ⟨fresh.row 0, .record record, now, some now⟩)
      (t.addRow (fresh.row 0) now x record) (m.addRow fresh now x (.record record)) := by
  rcases h.require x with ⟨ht, hm⟩ | ⟨e, s, he, rfl, hs, ht, hm⟩
  · rw [Tables.addRow, Tables.addRowAt, Memory.addRow, Memory.addRowAt, ht, hm]
    exact .error _
  · obtain ⟨text, fields, hdump, hload⟩ := hdata.exists_text
    rw [Tables.addRow, Tables.addRowAt, Memory.addRow, Memory.addRowAt, ht, hm]
    simp only [bind, Except.bind, hdump, Cell.asRecord]
    have hrows := fun position => Tables.rowsOf_append t (List.forall_mem_singleton.mpr rfl :
      ∀ r ∈ [(⟨fresh.row 0, e.id, position, text, now, now⟩ : RowEntry)], r.sheet = e.id)
      t.sheets t.columns
    refine .ok ⟨h.replace hsound he (fun e => { e with updatedAt := now }) hs.id.symm rfl
      (fun _ _ => rfl) ?_ ?_, rfl⟩
    · intro y hy
      refine (hrows _ y).trans ?_
      rw [if_neg hy, List.append_nil]
    · refine ⟨hs.id, hs.name, hs.columns, ?_, hs.createdAt, rfl⟩
      refine (hrows _ e.id).symm ▸ ?_
      rw [if_pos rfl]
      exact List.rel_append hs.rows (.cons ⟨rfl, hdump, ⟨fields, hload⟩, rfl, rfl⟩ .nil)

theorem updateRow (h : Mirrors t m) (hsound : t.Sound) (now : Moment) (x row : String)
    {record : Record}
    (hdata : RowText.IsNormal (.record record)) :
    Agree (fun p q => Mirrors p.1 q.1 ∧ q.2 = ⟨row, .record record, p.2.createdAt, some now⟩)
      (t.updateRow now x row (.record record)) (m.updateRow now x row (.record record)) := by
  rcases h.require x with ⟨ht, hm⟩ | ⟨e, s, he, rfl, hs, ht, hm⟩
  · rw [Tables.updateRow, Memory.updateRow, ht, hm]
    exact .error _
  rcases requireRow hs row with ⟨hrt, hrm⟩ | ⟨a, r, ha, rfl, hr, hrt, hrm⟩
  · rw [Tables.updateRow, Memory.updateRow, ht, hm]
    simp only [bind, Except.bind, hrt, hrm]
    exact .error _
  obtain ⟨text, fields, hdump, hload⟩ := hdata.exists_text
  have hrows := Tables.rowsOf_map t (fun r => if r.sheet = e.id ∧ r.id = a.id then
    { r with data := text, updatedAt := now } else r) fun r => by split <;> rfl
  rw [Tables.updateRow, Memory.updateRow, ht, hm]
  simp only [bind, Except.bind, hrt, hrm, hdump, Cell.asRecord]
  refine .ok ⟨h.replace hsound he (fun e => { e with updatedAt := now }) hs.id.symm rfl
    (fun _ _ => rfl) ?_ ⟨hs.id, hs.name, hs.columns, ?_, hs.createdAt, rfl⟩, ?_⟩
  · intro y hy
    refine (hrows y).trans ((List.map_congr_left fun b hb => ?_).trans (List.map_id _))
    rw [(Tables.mem_rowsOf.mp hb).2, if_neg fun hboth => hy hboth.1]
    rfl
  · refine (hrows e.id).symm ▸ ?_
    have hmap : ((t.rowsOf e.id).map fun r => if r.sheet = e.id ∧ r.id = a.id then
        { r with data := text, updatedAt := now } else r) =
        (t.rowsOf e.id).map fun r => if r.id = a.id then
          { r with data := text, updatedAt := now } else r := by
      refine List.map_congr_left fun b hb => ?_
      simp only [(Tables.mem_rowsOf.mp hb).2, true_and]
    rw [hmap]
    refine replaceFirst_related (fun _ _ hr => hr.id) hs.rows (hsound.rowIdsOf e.id) a.id
      (fun r => { r with data := text, updatedAt := now }) _ ?_ fun _ _ _ _ hr => hr
    intro b hb heq
    rw [List.inj_on_of_nodup_map (hsound.rowIdsOf e.id) hb ha heq]
    exact ⟨hr.id, hdump, ⟨fields, hload⟩, hr.createdAt, rfl⟩
  · rw [hr.id, hr.createdAt]

theorem deleteRow (h : Mirrors t m) (hsound : t.Sound) (x row : String) :
    Agree (fun t' p => Mirrors t' p.1) (t.deleteRow now x row) (m.deleteRow now x row) := by
  rcases h.require x with ⟨ht, hm⟩ | ⟨e, s, he, rfl, hs, ht, hm⟩
  · rw [Tables.deleteRow, Memory.deleteRow, ht, hm]
    exact .error _
  rcases requireRow hs row with ⟨hrt, hrm⟩ | ⟨a, r, ha, rfl, hr, hrt, hrm⟩
  · rw [Tables.deleteRow, Memory.deleteRow, ht, hm]
    simp only [bind, Except.bind, hrt, hrm]
    exact .error _
  have hrows := Tables.rowsOf_filter t fun r => !decide (r.sheet = e.id ∧ r.id = a.id)
  obtain ⟨p, hp⟩ := Memory.exists_deleteRow (h.hasText s (Memory.mem_of_require hm)) hm hrm
  obtain ⟨s', -, hm', -, hrest⟩ := Memory.deleteRow_eq_ok hp
  obtain rfl : s = s' := Except.ok.inj (hm.symm.trans hm')
  rw [Tables.deleteRow, ht, hp]
  simp only [bind, Except.bind, hrt]
  refine .ok (hrest ▸ h.replace hsound he (fun e => { e with updatedAt := now }) hs.id.symm rfl
    (fun _ _ => rfl) ?_ ⟨hs.id, hs.name, hs.columns, ?_, hs.createdAt, rfl⟩)
  · intro y hy
    refine (hrows y).trans (List.filter_eq_self.mpr fun b hb => ?_)
    simp [(Tables.mem_rowsOf.mp hb).2, hy]
  · refine (hrows e.id).symm ▸ ?_
    have hfilter : ((t.rowsOf e.id).filter fun r => !decide (r.sheet = e.id ∧ r.id = a.id)) =
        (t.rowsOf e.id).filter fun r => r.id ≠ a.id := by
      refine List.filter_congr fun b hb => ?_
      simp [(Tables.mem_rowsOf.mp hb).2]
    rw [hfilter]
    exact eraseP_related (fun _ _ hr => hr.id) hs.rows (hsound.rowIdsOf e.id) a.id

end Mirrors

/-! Steps of both stores. -/

def Operation.Storable : Operation → Prop
  | .write w => w.Storable
  | .read _ => True

/-- The same answer, or what is read back where the other is held. -/
def Answer.Matches (a b : Answer) : Prop := a = b ∨ a.ReadFrom b

theorem Step.map_map {σ α β γ : Type} (s : Step σ α) (f : α → β) (g : β → γ) :
    (s.map f).map g = s.map fun a => g (f a) := by
  obtain ⟨state, result⟩ := s
  cases result <;> rfl

/-- A step of a database and a step of a list that end alike. -/
def InStep (d m : Step Store Answer) : Prop :=
  (∃ t' m', d.state = .database ⟨t', true⟩ ∧ m.state = .memory m' ∧ Mirrors t' m') ∧
    Agree Answer.Matches d.result m.result

theorem InStep.transaction {α β : Type} {body : Tables → Except Failure (Tables × α)}
    {other : Except Failure (Memory × β)} {f : α → Answer} {g : β → Answer} (h : Mirrors t m)
    (hagree : Agree (fun p q => Mirrors p.1 q.1 ∧ (f p.2).Matches (g q.2)) (body t) other) :
    InStep ((((⟨t, true⟩ : Database).transaction body).mapState Store.database).map f)
      (((Step.guarded m other).mapState Store.memory).map g) := by
  unfold InStep
  simp only [Step.map, Step.mapState, Database.transaction_state, Database.transaction_result]
  rcases hagree.elim with ⟨p, q, hp, hq, hmirrors, hmatches⟩ | ⟨e, hp, hq⟩
  · rw [hp, hq]
    exact ⟨⟨p.1, q.1, rfl, rfl, hmirrors⟩, .ok hmatches⟩
  · rw [hp, hq]
    exact ⟨⟨t, m, rfl, rfl, h⟩, .error e⟩

theorem InStep.afterTransaction {α β γ : Type} (body : Tables → Except Failure (Tables × α))
    (after : Database → α → Except Failure γ) (f : γ → Answer) {other : Except Failure (Memory × β)}
    (g : β → Answer) (h : Mirrors t m)
    (hagree : Agree (fun p q => Mirrors p.1 q.1 ∧
      ∃ c, after ⟨p.1, true⟩ p.2 = .ok c ∧ (f c).Matches (g q.2)) (body t) other) :
    let written := (⟨t, true⟩ : Database).transaction body
    InStep ((Step.mapState Store.database
        ⟨written.state, written.result >>= fun a => after written.state a⟩).map f)
      (((Step.guarded m other).mapState Store.memory).map g) := by
  unfold InStep
  simp only [Step.map, Step.mapState, Database.transaction_state, Database.transaction_result]
  rcases hagree.elim with ⟨p, q, hp, hq, hmirrors, c, hc, hmatches⟩ | ⟨e, hp, hq⟩
  · rw [hp, hq]
    simp only [Except.map, bind, Except.bind, hc]
    exact ⟨⟨p.1, q.1, rfl, rfl, hmirrors⟩, .ok hmatches⟩
  · rw [hp, hq]
    exact ⟨⟨t, m, rfl, rfl, h⟩, .error e⟩

namespace Mirrors

theorem write (h : Mirrors t m) (hsound : t.Sound) (hfresh : fresh.NewIn t) {w : Write}
    (hw : w.Storable) : InStep ((Store.database ⟨t, true⟩).write fresh now w)
      ((Store.memory m).write fresh now w) := by
  cases w with
  | create name columns rows =>
    obtain ⟨hname, hcolumns, hrows⟩ := hw
    obtain ⟨name, rfl⟩ := Option.isSome_iff_exists.mp hname
    obtain ⟨records, hrecords, hall⟩ : ∃ records, rows.mapM Cell.asRecord = .ok records ∧
        ∀ r ∈ records, RowText.IsNormal (.record r) := by
      refine exists_mapM_all_iff.mpr fun data hdata => ?_
      obtain ⟨fs, rfl⟩ := (hrows data hdata).1
      exact ⟨fs, rfl, hrows _ hdata⟩
    have hagree := h.create hsound hfresh now name hcolumns hrecords hall
    simp only [Store.write, Store.writeAt, Store.createAt, Database.create, hrecords]
    refine InStep.transaction h (hagree.bind_left _ fun t' p hp => ⟨hp.1, .inl ?_⟩)
    exact congrArg (fun s => Answer.sheet (some s)) hp.2.symm
  | updateSheet x name columns =>
    have hagree := h.updateSheet hsound now x name hw
    have hread : Agree (fun t' p => Mirrors t' p.1 ∧ ∃ read, t'.byId x = .ok read ∧
        Option.Rel Sheet.ReadFrom read (some p.2)) (t.updateSheet now x name columns)
        (m.updateSheet now x name columns) := by
      rcases hagree.elim with ⟨t', p, ht, hm, hmirrors, hfound⟩ | ⟨f, ht, hm⟩
      · have hcommit : t.commit fresh (fun _ => now) (.updateSheet x name columns) = .ok t' := ht
        obtain ⟨read, hread, hrel⟩ := hmirrors.byId (hsound.commit hfresh hcommit) x
        rw [ht, hm]
        exact .ok ⟨hmirrors, read, hread, hfound ▸ hrel⟩
      · rw [ht, hm]
        exact .error f
    change InStep _
      (((Step.guarded m (m.updateSheet now x name columns)).mapState Store.memory
        |>.map some).map _)
    rw [Step.map_map]
    refine InStep.afterTransaction
      (fun t => do let t ← t.updateSheet now x name columns; .ok (t, ()))
      (fun d _ => d.reads.byId x) Answer.sheet (fun s => .sheet (some s)) h (hread.bind_left _ ?_)
    rintro t' p ⟨hmirrors, read, hbyId, hrel⟩
    exact ⟨hmirrors, read, hbyId, .inr (.sheet hrel)⟩
  | deleteSheet x =>
    exact InStep.transaction h ((h.deleteSheet hsound x).bind_left _ fun t' p hp => ⟨hp, .inl rfl⟩)
  | addRow x data =>
    obtain ⟨record, rfl⟩ := hw.1
    have hagree := h.addRow hsound fresh now x hw
    refine InStep.transaction h (hagree.bind_left _ fun t' p hp => ⟨hp.1, .inl ?_⟩)
    exact congrArg Answer.row hp.2.symm
  | updateRow x row data =>
    obtain ⟨record, rfl⟩ := hw.1
    have hagree := h.updateRow hsound now x row hw
    refine InStep.afterTransaction (fun t => t.updateRow now x row (.record record))
      (fun _ found => .ok ⟨row, .record record, found.createdAt, some now⟩) Answer.row Answer.row h
      (hagree.imp fun p q hpq => ?_)
    exact ⟨hpq.1, _, rfl, .inl (congrArg Answer.row hpq.2.symm)⟩
  | deleteRow x row =>
    refine InStep.transaction h ((h.deleteRow hsound x row).bind_left _ ?_)
    exact fun t' p hp => ⟨hp, .inl rfl⟩
  | clear => exact ⟨⟨Tables.empty, ⟨[]⟩, rfl, rfl, .nil⟩, .ok (.inl rfl)⟩

theorem step (h : Mirrors t m) (hsound : t.Sound) {e : Event} (hfresh : e.fresh.NewIn t)
    (he : e.operation.Storable) :
    InStep ((Store.database ⟨t, true⟩).step e) ((Store.memory m).step e) := by
  obtain ⟨operation, fresh, now⟩ := e
  cases operation with
  | write w => exact h.write hsound hfresh he
  | read q => exact ⟨⟨t, m, rfl, rfl, h⟩, (h.answer hsound q).imp fun _ _ => .inr⟩

end Mirrors

namespace Store

theorem run_mirrors (events later : List Event) (hfresh : FreshIds (events ++ later))
    (h : ∀ e ∈ events, e.operation.Storable) :
    ∃ t m, (Store.database Database.empty).run events = .database ⟨t, true⟩ ∧
      (Store.memory ⟨[]⟩).run events = .memory m ∧ Mirrors t m ∧ t.Sound ∧
      ∀ f ∈ later, f.fresh.NewIn t := by
  induction events using List.reverseRecOn generalizing later with
  | nil =>
    exact ⟨Tables.empty, ⟨[]⟩, rfl, rfl, .nil, Tables.sound_empty, fun f hf =>
      Fresh.newIn_empty (hfresh.rows f hf)⟩
  | append_singleton events e ih =>
    rw [List.forall_mem_append, List.forall_mem_singleton] at h
    obtain ⟨u, hu, hsound, hnew⟩ := run_database (events ++ [e]) later hfresh
    rw [List.append_assoc, List.singleton_append] at hfresh
    obtain ⟨t, m, hd, hm, hmirrors, hsoundBefore, hnewBefore⟩ := ih (e :: later) hfresh h.1
    obtain ⟨⟨t', m', hd', hm', hmirrors'⟩, -⟩ :=
      hmirrors.step hsoundBefore (hnewBefore e List.mem_cons_self) h.2
    rw [run_append, hd, hd'] at hu
    obtain rfl := tables_inj hu
    rw [run_append, run_append, hd, hm, hd', hm']
    exact ⟨t', m', rfl, rfl, hmirrors', hsound, hnew⟩

/-- After any run, an operation ends alike in both stores, and so does every read after it. -/
theorem memory_agrees_with_database (events : List Event) (e : Event)
    (hfresh : FreshIds (events ++ [e])) (h : ∀ f ∈ events ++ [e], f.operation.Storable) :
    let d := ((Store.database Database.empty).run events).step e
    let m := ((Store.memory ⟨[]⟩).run events).step e
    Agree Answer.Matches d.result m.result ∧
      ∀ q, Agree Answer.ReadFrom (d.state.reads.answer q) (m.state.reads.answer q) := by
  rw [List.forall_mem_append, List.forall_mem_singleton] at h
  obtain ⟨t, m, hd, hm, hmirrors, hsound, hnew⟩ := run_mirrors events [e] hfresh h.1
  have hend := hmirrors.step hsound (hnew e (List.mem_singleton_self e)) h.2
  rw [← List.append_nil (events ++ [e])] at hfresh
  obtain ⟨u, hu, hsound', -⟩ := run_database (events ++ [e]) [] hfresh
  rw [run_append, hd] at hu
  obtain ⟨⟨t', m', hd', hm', hmirrors'⟩, hresult⟩ := hend
  rw [hd'] at hu
  obtain rfl := tables_inj hu
  simp only [hd, hm, hd', hm']
  exact ⟨hresult, fun q => hmirrors'.answer hsound' q⟩

def makesSheet : Event :=
  ⟨.write (.create (some "A") [⟨some "k", .number, some 4⟩] []), Fresh.lettered 'a', Moment.epoch⟩

def addsRow : Event :=
  ⟨.write (.addRow "a" (.record [(.text "k", .integer 1)])), Fresh.lettered 'b', Moment.epoch⟩

theorem memory_agrees_with_database_addsRow :
    Agree Answer.Matches
        (((Store.database Database.empty).run [makesSheet]).step addsRow).result
        (((Store.memory ⟨[]⟩).run [makesSheet]).step addsRow).result ∧
      ∀ q, Agree Answer.ReadFrom
        ((((Store.database Database.empty).run [makesSheet]).step addsRow).state.reads.answer q)
        ((((Store.memory ⟨[]⟩).run [makesSheet]).step addsRow).state.reads.answer q) := by
  refine memory_agrees_with_database [makesSheet] addsRow ⟨by decide, ?_, ?_⟩ ?_
  · intro e he
    rcases List.mem_pair.mp he with rfl | rfl
    · exact Fresh.lettered_injective 'a'
    · exact Fresh.lettered_injective 'b'
  · exact List.pairwise_pair.mpr (Fresh.lettered_apart (by decide))
  · intro e he
    rcases List.mem_pair.mp he with rfl | rfl
    · exact ⟨rfl, by decide, fun data hdata => (List.not_mem_nil hdata).elim⟩
    · exact RowText.isNormal_record_iff.mpr ⟨⟨_, rfl⟩, _, rfl⟩

end Store

end PlainSheets
