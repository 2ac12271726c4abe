import PlainSheets.Proofs.Cell.SortPlace
import PlainSheets.Proofs.Query.Ranking

/-!
Sorted rows. Main statement: sorting fails just when some row holds a date that UTC has no date for or a
value without a text, whether or not the row is compared with another one; otherwise the rows are arranged by the places of
their cells, and rows with equal places stay in their order, in both directions.
-/
namespace PlainSheets

namespace SortSpec

def inOrder (s : SortSpec) (a b : Row) : Bool :=
  if s.direction = -1 then (b.lookup s.field).sortPlace ≤ (a.lookup s.field).sortPlace
  else (a.lookup s.field).sortPlace ≤ (b.lookup s.field).sortPlace

variable {s : SortSpec}

theorem inOrder_trans (a b c : Row) :
    s.inOrder a b = true → s.inOrder b c = true → s.inOrder a c = true := by
  by_cases h : s.direction = -1 <;> simp only [inOrder, h, if_true, if_false, decide_eq_true_eq]
  · exact fun hab hbc => hbc.trans hab
  · exact fun hab hbc => hab.trans hbc

theorem inOrder_total (a b : Row) : (s.inOrder a b || s.inOrder b a) = true := by
  by_cases h : s.direction = -1 <;>
    simp only [inOrder, h, if_true, if_false, Bool.or_eq_true, decide_eq_true_eq]
  · exact le_total _ _
  · exact le_total _ _

theorem order_isLE {a b : Row} {x y : SortKey} (hx : (a.lookup s.field).sortKey = .ok x)
    (hy : (b.lookup s.field).sortKey = .ok y) : (s.order x y).isLE = s.inOrder a b := by
  unfold order inOrder descending
  rw [← (Cell.sortKey_eq_ok hx).2, ← (Cell.sortKey_eq_ok hy).2, Bool.eq_iff_iff]
  simp only [beq_iff_eq]
  split <;> rw [← SortKey.le_eq_isLE, SortKey.le_iff, decide_eq_true_iff]

end SortSpec

variable {s : SortSpec} {rows : List Row}

/-- Whether a row can be compared by a field: its cell is found and can be compared. -/
structure Row.SortableBy (field : String) (r : Row) : Prop where
  found : r.fields.isBarred field = false
  cell : (r.lookup field).Sortable

theorem keyed_isOk_iff {field : String} {r : Row} :
    (∃ p, r.keyed field = .ok p) ↔ r.SortableBy field := by
  simp only [Row.keyed_eq_ok]
  constructor
  · rintro ⟨p, hfree, hkey, -⟩
    exact ⟨hfree, (Cell.sortKey_eq_ok hkey).1⟩
  · rintro ⟨hfree, hcell⟩
    obtain ⟨x, hx, -⟩ := Cell.exists_sortKey hcell
    exact ⟨(x, r), hfree, hx, rfl⟩

/-- The first key that cannot be had is the failure, and every row is asked for its key. -/
theorem sortRows_isOk_iff :
    (∃ sorted, sortRows s rows = .ok sorted) ↔ ∀ r ∈ rows, r.SortableBy s.field := by
  rw [sortRows, exists_bind_eq_ok]
  simp only [Except.ok.injEq, exists_eq', and_true, exists_mapM_eq_ok, keyed_isOk_iff]

theorem sortRows_eq_ok {sorted : List Row} : sortRows s rows = .ok sorted ↔
    (∀ r ∈ rows, r.SortableBy s.field) ∧ sorted = rows.mergeSort s.inOrder := by
  have heq (keyed : List (SortKey × Row)) (hkeyed : rows.mapM (Row.keyed s.field) = .ok keyed) :
      (sortByKey s.descending keyed).map Prod.snd = rows.mergeSort s.inOrder := by
    obtain ⟨hrows, hkeys⟩ := keyed_rows hkeyed
    rw [s.sortByKey_eq,
      List.map_mergeSort fun a ha b hb => SortSpec.order_isLE (hkeys a ha) (hkeys b hb), hrows]
  constructor
  · intro h
    refine ⟨sortRows_isOk_iff.mp ⟨sorted, h⟩, ?_⟩
    obtain ⟨keyed, hkeyed, h⟩ := bind_eq_ok.mp h
    rw [← heq keyed hkeyed, Except.ok.inj h]
  · rintro ⟨hall, rfl⟩
    obtain ⟨keyed, hkeyed⟩ := exists_mapM_eq_ok.mpr fun r hr => keyed_isOk_iff.mpr (hall r hr)
    exact bind_eq_ok.mpr ⟨keyed, hkeyed, congrArg Except.ok (heq keyed hkeyed)⟩

theorem not_sortableBy_iff {field : String} {r : Row} : ¬ r.SortableBy field ↔
    r.fields.isBarred field = true ∨
      (∃ m, (r.lookup field).moment? = some m ∧ ¬ m.InCalendar) ∨
      (r.lookup field).kind? = some .text ∧ (r.lookup field).isWritable = false := by
  constructor
  · intro h
    by_contra hnone
    push Not at hnone
    obtain ⟨hfree, hcalendar, htext⟩ := hnone
    exact h ⟨by simpa using hfree, hcalendar, fun hkind => by simpa using htext hkind⟩
  · rintro (hbarred | ⟨m, hm, hout⟩ | ⟨hkind, hunwritten⟩) h
    · exact Bool.noConfusion (hbarred.symm.trans h.found)
    · exact hout (h.cell.inCalendar m hm)
    · exact Bool.noConfusion (hunwritten.symm.trans (h.cell.writable hkind))

theorem sortRows_failed_iff :
    (∃ e, sortRows s rows = .error e) ↔ ∃ r ∈ rows, ¬ r.SortableBy s.field := by
  constructor
  · rintro ⟨e, he⟩
    by_contra h
    push Not at h
    obtain ⟨sorted, hsorted⟩ := sortRows_isOk_iff.mpr h
    cases he.symm.trans hsorted
  · rintro ⟨r, hr, hout⟩
    cases hsorted : sortRows s rows with
    | error e => exact ⟨e, rfl⟩
    | ok sorted => exact absurd (sortRows_isOk_iff.mp ⟨sorted, hsorted⟩ r hr) hout

/-- Rows with equal places stay in their order, in both directions. -/
theorem SortSpec.filter_place (place : SortPlace) :
    ((rows.mergeSort s.inOrder).filter fun r => (r.lookup s.field).sortPlace = place) =
      rows.filter fun r => (r.lookup s.field).sortPlace = place := by
  apply filter_mergeSort inOrder_trans inOrder_total
  apply List.pairwise_of_forall_mem_list
  intro a ha b hb
  have hplace {r : Row} (hr : r ∈ rows.filter fun r => (r.lookup s.field).sortPlace = place) :
      (r.lookup s.field).sortPlace = place := by
    simpa using List.of_mem_filter hr
  simp [inOrder, hplace ha, hplace hb]

/-- A row has nothing under a name if it is no map or no key is the name, case ignored. -/
theorem Row.sortPlace_of_absent {r : Row} {field : String} (h : ∀ fs, r.data = .record fs →
    ∀ f ∈ fs, Text.lower f.1.display ≠ Text.lower field) :
    (r.lookup field).sortPlace = .missing := by
  have hnone : ∀ f ∈ r.fields, Text.lower f.1.display ≠ Text.lower field := by
    unfold Row.fields Cell.fields
    split
    · rename_i fs hfs
      exact h fs hfs
    · simp
  have hfield : Record.field? r.fields field = none := by
    have hexact : r.fields.find? (fun f => f.1.text? = some field) = none := by
      rw [List.find?_eq_none]
      intro f hf htext
      rw [decide_eq_true_iff] at htext
      exact hnone f hf (by rw [Atom.display_of_text htext])
    have hlower : r.fields.find? (fun f => Text.lower f.1.display = Text.lower field) = none := by
      rw [List.find?_eq_none]
      intro f hf hlower
      exact hnone f hf (decide_eq_true_iff.mp hlower)
    rw [Record.field?, hexact, hlower]
    rfl
  rw [Row.lookup, Record.lookup, hfield]
  rfl

/-- What sorting does. It fails just when some row holds a date beyond the calendar of UTC, a list or a map
without a text, or a key without a text before the one that is looked for. Otherwise it arranges the rows by
their keys, up or down, and the rows at one place stay in their order. The keys of cells are ordered as the
cells stand, and so every two cells with keys are in order one way or the other, and transitively. -/
theorem sortRows_sorts (s : SortSpec) (rows : List Row) :
    ((∃ e, sortRows s rows = .error e) ↔
      ∃ r ∈ rows, r.fields.isBarred s.field = true ∨
        (∃ m, (r.lookup s.field).moment? = some m ∧ ¬ m.InCalendar) ∨
        (r.lookup s.field).kind? = some .text ∧ (r.lookup s.field).isWritable = false) ∧
    (∀ sorted, sortRows s rows = .ok sorted → sorted.Perm rows ∧
      (s.direction ≠ -1 →
        sorted.Pairwise fun a b => (a.lookup s.field).NoLater (b.lookup s.field)) ∧
      (s.direction = -1 →
        sorted.Pairwise fun a b => (b.lookup s.field).NoLater (a.lookup s.field)) ∧
      ∀ place : SortPlace, (sorted.filter fun r => (r.lookup s.field).sortPlace = place) =
        rows.filter fun r => (r.lookup s.field).sortPlace = place) ∧
    (∀ a b : Cell, a.NoLater b ↔ a.Sortable ∧ b.Sortable ∧ a.sortPlace ≤ b.sortPlace) ∧
    (∀ a b : Cell, a.Sortable → b.Sortable → a.NoLater b ∨ b.NoLater a) ∧
    (∀ a b c : Cell, a.NoLater b → b.NoLater c → a.NoLater c) ∧
    (∀ (r : Row) (field : String), (∀ fs, r.data = .record fs →
      ∀ f ∈ fs, Text.lower f.1.display ≠ Text.lower field) →
      (r.lookup field).sortPlace = .missing) := by
  refine ⟨by simp only [sortRows_failed_iff, not_sortableBy_iff], fun sorted hsorted => ?_, fun a b => Cell.noLater_iff,
    fun a b => Cell.noLater_total, fun a b c => Cell.noLater_trans,
    fun r field => Row.sortPlace_of_absent⟩
  obtain ⟨hsortable, rfl⟩ := sortRows_eq_ok.mp hsorted
  have hmem {r : Row} (hr : r ∈ rows.mergeSort s.inOrder) : (r.lookup s.field).Sortable :=
    (hsortable r (List.mem_mergeSort.mp hr)).cell
  have hpairs := List.pairwise_mergeSort (SortSpec.inOrder_trans (s := s))
    SortSpec.inOrder_total rows
  refine ⟨List.mergeSort_perm rows s.inOrder, fun hup => ?_, fun hdown => ?_,
    SortSpec.filter_place⟩
  · apply hpairs.imp_of_mem
    intro a b ha hb hab
    rw [SortSpec.inOrder, if_neg hup, decide_eq_true_iff] at hab
    exact Cell.noLater_iff.mpr ⟨hmem ha, hmem hb, hab⟩
  · apply hpairs.imp_of_mem
    intro a b ha hb hab
    rw [SortSpec.inOrder, if_pos hdown, decide_eq_true_iff] at hab
    exact Cell.noLater_iff.mpr ⟨hmem hb, hmem ha, hab⟩

def unevenRows : List Row := Outcome.scores.rows ++ [⟨"d", .null, .epoch, none⟩]

theorem sortRows_sorts_unevenRows : ∃ sorted, sortRows ⟨"k", -1⟩ unevenRows = .ok sorted ∧
    sorted.Perm unevenRows ∧
    (sorted.Pairwise fun a b => (b.lookup "k").NoLater (a.lookup "k")) ∧
    (sorted.filter fun r => (r.lookup "k").sortPlace = .number (Numeral.integer 1).value) =
      unevenRows.filter fun r => (r.lookup "k").sortPlace = .number (Numeral.integer 1).value := by
  obtain ⟨sorted, hsorted⟩ : ∃ sorted, sortRows ⟨"k", -1⟩ unevenRows = .ok sorted := ⟨_, rfl⟩
  obtain ⟨hperm, -, hdown, hplaces⟩ := (sortRows_sorts ⟨"k", -1⟩ unevenRows).2.1 sorted hsorted
  exact ⟨sorted, hsorted, hperm, hdown rfl, hplaces _⟩

end PlainSheets
