import PlainSheets.Proofs.Store.Reading
import PlainSheets.Proofs.Store.Related
import PlainSheets.Proofs.Text.Escaped
import PlainSheets.Store.Basic
import Mathlib.Data.List.Nodup

/-!
Sheets that are asked for by a part of their name. Main statement: the part leads to the first sheet, in
the order of the store, that has it in its name, case ignored, and to no other.
-/
namespace PlainSheets

def hasPart (part : String) (name : Option String) : Bool :=
  (name.map fun n => Text.occursIn part.toList n.toList).getD false

theorem matchName_escape (part : String) (names : List (String × Option String)) :
    matchName (Text.Pattern.escape part) names =
      .ok ((names.find? fun n => hasPart part n.2).map Prod.fst) := by
  obtain ⟨p, hread, hsearch⟩ := Text.Pattern.exists_read?_escape part
  have hpart (name : Option String) : (name.map p.search).getD false = hasPart part name := by
    cases name with
    | none => rfl
    | some n => exact hsearch n
  simp only [matchName, hread, hpart]

/-! Ids with names. -/

def Sheet.label (s : Sheet) : String × Option String := (s.id, s.name)

def SheetEntry.label (e : SheetEntry) : String × Option String := (e.id, some e.name)

def Store.names : Store → List (String × Option String)
  | memory m => m.sheets.map Sheet.label
  | database d => (Tables.orderSheets d.tables.sheets).map SheetEntry.label
  | broken _ => []

theorem exists_find?_label {α : Type} {label : α → String × Option String} {l : List α}
    (hids : (l.map fun a => (label a).1).Nodup) {n : String × Option String} (hn : n ∈ l.map label) :
    ∃ a, l.find? (fun a => (label a).1 = n.1) = some a ∧ label a = n := by
  obtain ⟨b, hb, hlabel⟩ := List.mem_map.mp hn
  have hfound : (l.find? fun a => (label a).1 = n.1).isSome := by
    rw [List.find?_isSome]
    exact ⟨b, hb, decide_eq_true (congrArg Prod.fst hlabel)⟩
  obtain ⟨a, ha⟩ := Option.isSome_iff_exists.mp hfound
  have hid : (label a).1 = n.1 := by simpa using List.find?_some ha
  have heq : a = b := by
    apply List.inj_on_of_nodup_map hids (List.mem_of_find?_eq_some ha) hb
    rw [hid, hlabel]
  exact ⟨a, ha, by rw [heq, hlabel]⟩

/-! Reading by id. -/

namespace Tables

variable {t : Tables}

theorem labels_assemble {heads : List SheetEntry} {sheets : List Sheet}
    (h : t.assemble heads = .ok sheets) : sheets.map Sheet.label = heads.map SheetEntry.label := by
  obtain ⟨rows, -, h⟩ := bind_eq_ok.mp h
  rw [← Except.ok.inj h, List.map_map]
  rfl

theorem exists_assemble_iff {heads : List SheetEntry} :
    (∃ sheets, t.assemble heads = .ok sheets) ↔
      ∀ e ∈ t.rows, e.sheet ∈ heads.map SheetEntry.id → ∃ r, readRow e = .ok r := by
  rw [assemble, exists_bind_eq_ok]
  simp only [exists_eq', and_true, exists_mapM_eq_ok, exists_bind_eq_ok, orderRows,
    List.mem_mergeSort, List.mem_filter, decide_eq_true_eq, and_imp, Except.ok.injEq]

theorem byId_of_mem (hids : (t.sheets.map SheetEntry.id).Nodup) {n : String × Option String}
    (hn : n ∈ t.sheets.map SheetEntry.label) {found : Option Sheet} (h : t.byId n.1 = .ok found) :
    ∃ s, found = some s ∧ s.label = n := by
  obtain ⟨sheets, hsheets, h⟩ := bind_eq_ok.mp h
  obtain ⟨e, he, hlabel⟩ := @exists_find?_label _ SheetEntry.label _ hids _ hn
  have hhead := congrArg List.head? (labels_assemble hsheets)
  have hfind : t.sheets.find? (fun s => s.id = n.1) = some e := he
  rw [List.head?_map, List.head?_map, List.head?_filter, Except.ok.inj h, hfind, Option.map_some,
    hlabel, Option.map_eq_some_iff] at hhead
  exact hhead

theorem exists_byId_of_list (h : ∃ sheets, t.list = .ok sheets) (id : String) :
    ∃ found, t.byId id = .ok found := by
  rw [list, exists_assemble_iff] at h
  have hread : ∃ sheets, t.assemble (t.sheets.filter fun s => s.id = id) = .ok sheets := by
    rw [exists_assemble_iff]
    intro e he hid
    apply h e he
    obtain ⟨s, hs, hsid⟩ := List.mem_map.mp hid
    rw [orderSheets, ← hsid]
    exact List.mem_map_of_mem (List.mem_mergeSort.mpr (List.mem_of_mem_filter hs))
  obtain ⟨sheets, hsheets⟩ := hread
  exact ⟨sheets.head?, bind_eq_ok.mpr ⟨sheets, hsheets, rfl⟩⟩

theorem mem_of_byId {sheets : List Sheet} (hlist : t.list = .ok sheets) {id : String} {s : Sheet}
    (hs : t.byId id = .ok (some s)) : s ∈ sheets := by
  obtain ⟨read, hread, hhead⟩ := bind_eq_ok.mp hs
  have hmem : s ∈ read := List.mem_of_head? (Except.ok.inj hhead)
  have hsome := mapM_eq_ok.mp (mapM_readOrdered_of_assemble hread)
  have hall := mapM_eq_ok.mp (mapM_readOrdered_of_assemble hlist)
  obtain ⟨e, he, hes⟩ := exists_partner hsome hmem
  have hlisted : e ∈ orderSheets t.sheets := List.mem_mergeSort.mpr (List.mem_of_mem_filter he)
  obtain ⟨s', hs', hes'⟩ := exists_partner (R := flip _) hall.flip hlisted
  have heq : s = s' := Except.ok.inj (hes.symm.trans hes')
  rw [heq]
  exact hs'

end Tables

namespace Store

variable {store : Store}

theorem labels_sheets {sheets : List Sheet} (h : store.reads.sheets = .ok sheets) :
    sheets.map Sheet.label = store.names := by
  cases store with
  | memory m =>
    rw [← Except.ok.inj h]
    rfl
  | database d =>
    rw [reads] at h
    by_cases hopen : d.isOpen = true
    · rw [Database.reads_of_open hopen] at h
      exact Tables.labels_assemble h
    · rw [Database.reads_of_closed hopen] at h
      cases h
  | broken f => cases h

theorem byId_of_mem_names (hids : (store.names.map Prod.fst).Nodup) {n : String × Option String}
    (hn : n ∈ store.names) :
    (∃ s, store.reads.byId n.1 = .ok (some s) ∧ s.label = n) ∨
      ∃ f g, store.reads.byId n.1 = .error f ∧ store.reads.sheets = .error g := by
  cases store with
  | memory m =>
    rw [names, List.map_map] at hids
    obtain ⟨s, hs, hlabel⟩ := exists_find?_label hids hn
    exact .inl ⟨s, congrArg Except.ok hs, hlabel⟩
  | database d =>
    rw [reads]
    by_cases hopen : d.isOpen = true
    · rw [Database.reads_of_open hopen]
      have hperm := List.mergeSort_perm d.tables.sheets fun a b => decide (a.position ≤ b.position)
      rw [names, List.map_map] at hids
      have hids' : (d.tables.sheets.map SheetEntry.id).Nodup := (hperm.map _).nodup_iff.mp hids
      have hn' : n ∈ d.tables.sheets.map SheetEntry.label := (hperm.map _).mem_iff.mp hn
      cases hfound : d.tables.byId n.1 with
      | ok found =>
        obtain ⟨s, rfl, hlabel⟩ := Tables.byId_of_mem hids' hn' hfound
        exact .inl ⟨s, hfound, hlabel⟩
      | error f =>
        cases hlist : d.tables.list with
        | ok sheets =>
          obtain ⟨found, hok⟩ := Tables.exists_byId_of_list ⟨sheets, hlist⟩ n.1
          rw [hfound] at hok
          cases hok
        | error g => exact .inr ⟨f, g, hfound, rfl⟩
    · rw [Database.reads_of_closed hopen]
      exact .inr ⟨_, _, rfl, rfl⟩
  | broken f => cases hn

/-- Whether anything can be read from a store: a database has to be open. -/
def Ready : Store → Prop
  | memory _ => True
  | database d => d.isOpen = true
  | broken _ => False

theorem resolve_eq {part : String} (hpart : part ≠ "") (r : Reads) :
    r.resolve (some part) = r.byPattern (Text.Pattern.escape part) := by
  rw [Reads.resolve, if_neg (by simpa using hpart)]

theorem byPattern_escape (hready : store.Ready) (part : String) :
    store.reads.byPattern (Text.Pattern.escape part) =
      match store.names.find? fun n => hasPart part n.2 with
      | none => .ok none
      | some n => if n.1.isEmpty then .ok none else store.reads.byId n.1 := by
  have hmatch := matchName_escape part store.names
  cases store with
  | memory m =>
    change matchName (Text.Pattern.escape part) (memory m).names >>= _ = _
    rw [hmatch]
    cases (memory m).names.find? fun n => hasPart part n.2 with
    | none => rfl
    | some n => exact apply_ite Except.ok _ _ _
  | database d =>
    rw [reads, Database.reads_of_open hready]
    change matchName (Text.Pattern.escape part) (database d).names >>= _ = _
    rw [hmatch]
    cases (database d).names.find? fun n => hasPart part n.2 with
    | none => rfl
    | some n => rfl
  | broken f => exact hready.elim

theorem resolve_part {part : String} (hpart : part ≠ "") {n : String × Option String} (hid : n.1 ≠ "")
    (hfind : store.names.find? (fun n => hasPart part n.2) = some n) :
    store.reads.resolve (some part) = store.reads.byId n.1 := by
  rw [resolve_eq hpart]
  have hopen (hready : store.Ready) :
      store.reads.byPattern (Text.Pattern.escape part) = store.reads.byId n.1 := by
    rw [byPattern_escape hready, hfind]
    exact if_neg (by simpa using hid)
  cases store with
  | memory m => exact hopen trivial
  | database d =>
    by_cases h : d.isOpen = true
    · exact hopen h
    · rw [reads, Database.reads_of_closed h]
      rfl
  | broken f => cases hfind

theorem mem_sheets_of_byId {sheets : List Sheet} (hsheets : store.reads.sheets = .ok sheets)
    {id : String} {s : Sheet} (hs : store.reads.byId id = .ok (some s)) : s ∈ sheets := by
  cases store with
  | memory m =>
    obtain rfl := Except.ok.inj hsheets
    exact List.mem_of_find?_eq_some (Except.ok.inj hs)
  | database d =>
    rw [reads] at hsheets hs
    by_cases hopen : d.isOpen = true
    · rw [Database.reads_of_open hopen] at hsheets hs
      exact Tables.mem_of_byId hsheets hs
    · rw [Database.reads_of_closed hopen] at hs
      cases hs
  | broken f => cases hs

end Store

end PlainSheets
