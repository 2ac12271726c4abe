import PlainSheets.Proofs.Store.Reading
import PlainSheets.Proofs.Store.Runs

/-!
What a write to tables can do. Each committed write leaves tables of one known form; what holds
after it is read off that form.
-/
namespace PlainSheets

/-- A column that tables take: with a name, and no wider than 32 bits. -/
def Column.Storable (c : Column) : Prop :=
  c.name.isSome = true ∧ ∀ w ∈ c.width, -2147483648 ≤ w ∧ w ≤ 2147483647

instance : DecidablePred Column.Storable := fun _ => inferInstanceAs (Decidable (_ ∧ _))

namespace Tables

variable {t t' : Tables} {fresh : Fresh} {now : Moment} {clock : Nat → Moment}

/-- Tables that a write leaves, and what it found on the way. -/
inductive Commits (t : Tables) (fresh : Fresh) (clock : Nat → Moment) : Write → Tables → Prop where
  | create (name : String) {columns : List Column} {rows : List Cell} {records : List Record}
    {cs : List ColumnEntry} {rs : List RowEntry} (hrecords : rows.mapM Cell.asRecord = .ok records)
    (hcs : columnEntries fresh.sheet 0 columns = .ok cs)
    (hrs : rowEntries fresh (clock 0) 0 records = .ok rs) :
    Commits t fresh clock (.create (some name) columns rows)
      ⟨t.sheets ++ [⟨fresh.sheet, name, nextPosition (t.sheets.map SheetEntry.position), clock 0,
        clock 0⟩], t.columns ++ cs, t.rows ++ rs⟩
  | updateSheet {sheet : String} {name : Option String} {columns : Option (List Column)}
    {u : Tables} (hsheet : sheet ∈ t.sheets.map SheetEntry.id)
    (hu : (t.rename sheet name).putColumns sheet columns = .ok u) :
    Commits t fresh clock (.updateSheet sheet name columns) (u.touch sheet (clock 0))
  | deleteSheet (sheet : String) (hsheet : sheet ∈ t.sheets.map SheetEntry.id) :
    Commits t fresh clock (.deleteSheet sheet) ⟨t.sheets.filter fun s => s.id ≠ sheet,
      t.columns.filter fun c => c.sheet ≠ sheet, t.rows.filter fun r => r.sheet ≠ sheet⟩
  | addRow {sheet : String} {data : Cell} {record : Record} {text : String}
    (hsheet : sheet ∈ t.sheets.map SheetEntry.id) (hrecord : data.asRecord = .ok record)
    (htext : RowText.dump (.record record) = .ok text) :
    Commits t fresh clock (.addRow sheet data) (({ t with rows := t.rows ++ [⟨fresh.row 0, sheet,
      nextPosition ((t.rows.filter fun r => r.sheet = sheet).map RowEntry.position), text, clock 0,
      clock 1⟩] } : Tables).touch sheet (clock 1))
  | updateRow (sheet row : String) {data : Cell} {text : String}
    (htext : RowText.dump data = .ok text) (hsheet : sheet ∈ t.sheets.map SheetEntry.id)
    (hrow : ∃ r ∈ t.rows, r.sheet = sheet ∧ r.id = row) :
    Commits t fresh clock (.updateRow sheet row data) (({ t with rows := t.rows.map fun r =>
      if r.sheet = sheet ∧ r.id = row then { r with data := text, updatedAt := clock 0 } else r } :
        Tables).touch sheet (clock 0))
  | deleteRow (sheet row : String) (hsheet : sheet ∈ t.sheets.map SheetEntry.id)
    (hrow : ∃ r ∈ t.rows, r.sheet = sheet ∧ r.id = row) :
    Commits t fresh clock (.deleteRow sheet row) (({ t with rows := t.rows.filter fun r =>
      !(r.sheet = sheet ∧ r.id = row) } : Tables).touch sheet (clock 0))
  | clear : Commits t fresh clock .clear empty

/-! When each part of a write succeeds. -/

theorem require_isOk_iff (t : Tables) (sheet : String) :
    (∃ a, t.require sheet = .ok a) ↔ sheet ∈ t.sheets.map SheetEntry.id := by
  unfold require
  split
  · rename_i hany
    obtain ⟨s, hs, hid⟩ := List.any_eq_true.mp hany
    exact ⟨fun _ => List.mem_map.mpr ⟨s, hs, of_decide_eq_true hid⟩, fun _ => ⟨(), rfl⟩⟩
  · rename_i hany
    refine ⟨fun h => by simp at h, fun h => absurd ?_ hany⟩
    obtain ⟨s, hs, hid⟩ := List.mem_map.mp h
    exact List.any_eq_true.mpr ⟨s, hs, decide_eq_true hid⟩

theorem requireRow_isOk_iff (t : Tables) (sheet row : String) :
    (∃ r, t.requireRow sheet row = .ok r) ↔ ∃ r ∈ t.rows, r.sheet = sheet ∧ r.id = row := by
  have hfind : (t.rows.find? fun r => r.sheet = sheet ∧ r.id = row).isSome = true ↔
      ∃ r ∈ t.rows, r.sheet = sheet ∧ r.id = row := by
    simp only [List.find?_isSome, decide_eq_true_eq]
  rw [← hfind, requireRow]
  cases t.rows.find? fun r => r.sheet = sheet ∧ r.id = row <;> simp

theorem requireName_isOk_iff (table : String) (name : Option String) :
    (∃ n, requireName table name = .ok n) ↔ name.isSome = true := by
  cases name <;> simp [requireName]

theorem requireWidth_isOk_iff (width : Option Int) :
    (∃ w, requireWidth width = .ok w) ↔ ∀ w ∈ width, -2147483648 ≤ w ∧ w ≤ 2147483647 := by
  cases width with
  | none => simp [requireWidth]
  | some w =>
    rw [requireWidth]
    split
    · rename_i hw
      simpa using hw
    · rename_i hw
      simpa using hw

theorem columnEntries_isOk_iff (sheet : String) (columns : List Column) (i : Nat) :
    (∃ cs, columnEntries sheet i columns = .ok cs) ↔ ∀ c ∈ columns, c.Storable := by
  induction columns generalizing i with
  | nil => simp [columnEntries]
  | cons c columns ih =>
    rw [List.forall_mem_cons, ← ih (i + 1), Column.Storable,
      ← requireName_isOk_iff "sheet_columns", ← requireWidth_isOk_iff]
    constructor
    · rintro ⟨cs, h⟩
      obtain ⟨name, hname, h⟩ := bind_eq_ok.mp h
      obtain ⟨width, hwidth, h⟩ := bind_eq_ok.mp h
      obtain ⟨rest, hrest, -⟩ := bind_eq_ok.mp h
      exact ⟨⟨⟨name, hname⟩, width, hwidth⟩, rest, hrest⟩
    · rintro ⟨⟨⟨name, hname⟩, width, hwidth⟩, rest, hrest⟩
      exact ⟨_, by rw [columnEntries, hname, hwidth, hrest]; rfl⟩

theorem putColumns_isOk_iff (t : Tables) (sheet : String) (columns : Option (List Column)) :
    (∃ u, t.putColumns sheet columns = .ok u) ↔ ∀ cs ∈ columns, ∀ c ∈ cs, c.Storable := by
  cases columns with
  | none => simp [putColumns]
  | some columns =>
    rw [putColumns, exists_bind_eq_ok]
    simp only [Except.ok.injEq, exists_eq', and_true, Option.mem_def, Option.some.injEq, forall_eq',
      columnEntries_isOk_iff]

theorem rowEntries_isOk_iff (records : List Record) (i : Nat) :
    (∃ rs, rowEntries fresh now i records = .ok rs) ↔
      ∀ r ∈ records, ∃ text, RowText.dump (.record r) = .ok text := by
  induction records generalizing i with
  | nil => simp [rowEntries]
  | cons r records ih =>
    rw [List.forall_mem_cons, ← ih (i + 1), rowEntries]
    simp only [exists_bind_eq_ok, Except.ok.injEq, exists_eq', and_true, exists_and_right]

theorem commits_of_commit {w : Write} (h : t.commit fresh clock w = .ok t') :
    Commits t fresh clock w t' := by
  cases w with
  | create name columns rows =>
    obtain ⟨records, hrecords, h⟩ := bind_eq_ok.mp h
    obtain ⟨given, hname, h⟩ := bind_eq_ok.mp h
    obtain ⟨cs, hcs, h⟩ := bind_eq_ok.mp h
    obtain ⟨rs, hrs, h⟩ := bind_eq_ok.mp h
    obtain rfl := Except.ok.inj h
    cases name with
    | none => cases hname
    | some name =>
      obtain rfl := Except.ok.inj hname
      exact .create name hrecords hcs hrs
  | updateSheet sheet name columns =>
    obtain ⟨_, hrequire, h⟩ := bind_eq_ok.mp h
    obtain ⟨u, hu, h⟩ := bind_eq_ok.mp h
    obtain rfl := Except.ok.inj h
    exact .updateSheet ((t.require_isOk_iff sheet).mp ⟨_, hrequire⟩) hu
  | deleteSheet sheet =>
    obtain ⟨_, hrequire, h⟩ := bind_eq_ok.mp h
    obtain rfl := Except.ok.inj h
    exact .deleteSheet sheet ((t.require_isOk_iff sheet).mp ⟨_, hrequire⟩)
  | addRow sheet data =>
    obtain ⟨record, hrecord, h⟩ := bind_eq_ok.mp h
    obtain ⟨_, hrequire, h⟩ := bind_eq_ok.mp h
    obtain ⟨text, htext, h⟩ := bind_eq_ok.mp h
    obtain rfl := Except.ok.inj h
    exact .addRow ((t.require_isOk_iff sheet).mp ⟨_, hrequire⟩) hrecord htext
  | updateRow sheet row data =>
    obtain ⟨⟨u, found⟩, hu, rfl⟩ := map_eq_ok.mp h
    obtain ⟨_, hrequire, hu⟩ := bind_eq_ok.mp hu
    obtain ⟨_, hfound, hu⟩ := bind_eq_ok.mp hu
    obtain ⟨text, htext, hu⟩ := bind_eq_ok.mp hu
    obtain rfl := (Prod.mk.inj (Except.ok.inj hu)).1
    exact .updateRow sheet row htext ((t.require_isOk_iff sheet).mp ⟨_, hrequire⟩)
      ((t.requireRow_isOk_iff sheet row).mp ⟨_, hfound⟩)
  | deleteRow sheet row =>
    obtain ⟨_, hrequire, h⟩ := bind_eq_ok.mp h
    obtain ⟨_, hfound, h⟩ := bind_eq_ok.mp h
    obtain rfl := Except.ok.inj h
    exact .deleteRow sheet row ((t.require_isOk_iff sheet).mp ⟨_, hrequire⟩)
      ((t.requireRow_isOk_iff sheet row).mp ⟨_, hfound⟩)
  | clear =>
    obtain rfl := Except.ok.inj h
    exact .clear

end Tables

end PlainSheets
