import PlainSheets.Proofs.Cell.SortPlace
import PlainSheets.Report.SheetReport

/-!
Which reports are made. The report on all sheets needs their time stamps alone. Main statement: the
report on one sheet is made just when every value in its columns is one value and has a text and, if it has
a column of numbers, every date in a column of dates is within the calendar of UTC.
-/
namespace PlainSheets

variable {year : Nat}

/-! Cells as dates. -/

namespace Cell

theorem moment?_of_kind {c : Cell} (h : c.kind? = some .date) : ∃ m, c.moment? = some m := by
  unfold kind? at h
  split at h
  · cases h
  split at h
  · cases h
  split at h
  · cases h
  split at h
  · rename_i hmoment
    exact Option.isSome_iff_exists.mp hmoment
  · cases h

def Parses (year : Nat) (c : Cell) : Prop := c.kind? = some .text → ∃ m, FreeDate.read year c.display = .ok m

theorem when?_isOk_iff {c : Cell} (hparses : c.Parses year) : (∃ w, c.when? year = .ok w) ↔ c.Sortable := by
  unfold when?
  split
  · rename_i hkind
    obtain ⟨m, hm⟩ := moment?_of_kind hkind
    simp only [hm, exists_map_eq_ok, RowText.utc_isOk_iff]
    refine ⟨fun h => ⟨?_, fun htext => ?_⟩, fun h => h.inCalendar m hm⟩
    · rintro n hn
      obtain rfl := Option.some.inj (hm.symm.trans hn)
      exact h
    · cases hkind.symm.trans htext
  · rename_i hkind
    have hnone (m : Moment) (hm : c.moment? = some m) : m.InCalendar := by
      cases hkind.symm.trans (sortKey_of_moment hm).2.2
    rw [exists_bind_eq_ok]
    constructor
    · rintro ⟨text, htext, -⟩
      exact ⟨hnone, fun _ => (shown_eq_ok.mp htext).1⟩
    · intro h
      refine ⟨_, shown_eq_ok.mpr ⟨h.writable hkind, rfl⟩, ?_⟩
      split
      · exact ⟨none, rfl⟩
      · obtain ⟨w, hw⟩ := hparses hkind
        exact ⟨w, by rw [hw]⟩
  · rename_i hdate htext
    refine iff_of_true ⟨none, rfl⟩ ⟨fun m hm => ?_, fun hkind => absurd hkind htext⟩
    exact absurd (sortKey_of_moment hm).2.2 hdate

end Cell

theorem uniqueCount_isOk_iff {cells : List Cell} :
    (∃ n, uniqueCount cells = .ok n) ↔ ∀ c ∈ cells, c.isWritable := by
  unfold uniqueCount
  rw [← List.all_eq_true]
  split <;> simp_all

theorem Column.asked_isOk_iff {rows : List Row} {c : Column} :
    (∃ present, c.asked rows = .ok present) ↔ ∀ r ∈ rows, (r.cell c.name).isBundle = false := by
  unfold Column.asked
  split
  · rename_i h
    obtain ⟨v, hv, hbundle⟩ := List.any_eq_true.mp h
    obtain ⟨r, hr, rfl⟩ := List.mem_map.mp hv
    exact iff_of_false nofun fun hall => Bool.noConfusion (hbundle.symm.trans (hall r hr))
  · rename_i h
    rw [Bool.not_eq_true, List.any_eq_false, Column.cells, List.forall_mem_map] at h
    exact iff_of_true ⟨_, rfl⟩ fun r hr => Bool.eq_false_of_not_eq_true (h r hr)

theorem Column.asked_eq_ok {rows : List Row} {c : Column} {present : List Cell}
    (h : c.asked rows = .ok present) : present = c.present rows := by
  unfold Column.asked at h
  split at h
  · cases h
  · exact (Except.ok.inj h).symm


namespace SheetReport

variable {s : Sheet}

theorem columnReport_isOk_iff {rows : List Row} {c : Column} : (∃ x, columnReport rows c = .ok x) ↔
    ∀ r ∈ rows, (r.cell c.name).isWritable ∧ (r.cell c.name).isBundle = false := by
  have hbody : (∃ x, columnReport rows c = .ok x) ↔
      (∃ present, c.asked rows = .ok present) ∧ ∃ n, uniqueCount (c.present rows) = .ok n := by
    unfold columnReport
    simp only [exists_bind_eq_ok, Except.ok.injEq, exists_eq', and_true]
    constructor
    · rintro ⟨present, hpresent, hunique⟩
      exact ⟨⟨present, hpresent⟩, Column.asked_eq_ok hpresent ▸ hunique⟩
    · rintro ⟨⟨present, hpresent⟩, hunique⟩
      exact ⟨present, hpresent, Column.asked_eq_ok hpresent ▸ hunique⟩
  rw [hbody, Column.asked_isOk_iff, uniqueCount_isOk_iff, Column.present, Column.cells]
  constructor
  · rintro ⟨hsingle, hwritten⟩ r hr
    refine ⟨?_, hsingle r hr⟩
    by_cases hempty : (r.cell c.name).isEmpty
    · exact Cell.isWritable_of_isEmpty hempty
    · apply hwritten
      rw [List.mem_filter]
      exact ⟨List.mem_map_of_mem hr, by simpa using hempty⟩
  · intro h
    refine ⟨fun r hr => (h r hr).2, fun v hv => ?_⟩
    obtain ⟨r, hr, rfl⟩ := List.mem_map.mp (List.mem_of_mem_filter hv)
    exact (h r hr).1

theorem timeSeries_isOk_iff {dates values : Column} {rows : List Row} :
    (∃ x, timeSeries year dates values rows = .ok x) ↔
      ∀ r ∈ rows, ∃ w, (r.cell dates.name).when? year = .ok w := by
  unfold timeSeries point
  simp only [exists_bind_eq_ok, exists_mapM_eq_ok, Except.ok.injEq, exists_eq', and_true]

theorem trendsOf_isOk_iff : (∃ x, trendsOf year s = .ok x) ↔ (s.columnsOf .number ≠ [] →
    ∀ d ∈ s.columnsOf .date, ∀ r ∈ s.rows, ∃ w, (r.cell d.name).when? year = .ok w) := by
  unfold trendsOf
  simp only [exists_bind_eq_ok, exists_mapM_eq_ok, timeSeries_isOk_iff, Except.ok.injEq, exists_eq',
    and_true, List.mem_flatMap, List.mem_map]
  constructor
  · intro h hnumbers d hd
    obtain ⟨n, hn⟩ := List.exists_mem_of_ne_nil _ hnumbers
    exact h (d, n) ⟨d, hd, n, hn, rfl⟩
  · rintro h _ ⟨d, hd, n, hn, rfl⟩
    exact h (List.ne_nil_of_mem hn) d hd

theorem ofSheet_isOk_iff : (∃ x, ofSheet year s = .ok x) ↔
    (∃ x, s.columns.mapM (columnReport s.rows) = .ok x) ∧ ∃ x, trendsOf year s = .ok x := by
  unfold ofSheet
  simp only [exists_bind_eq_ok, Except.ok.injEq, exists_eq', and_true, exists_and_right]

end SheetReport

namespace Overview

theorem later_isOk_iff {latest : Moment} {t : Option Moment} :
    (∃ m, later latest t = .ok m) ↔ ∀ m, t = some m → m.InCalendar := by
  cases t with
  | none => simp [later]
  | some m => simp only [later, exists_map_eq_ok, RowText.utc_isOk_iff, Option.some.injEq, forall_eq']

theorem foldlM_later_isOk_iff {ts : List (Option Moment)} (latest : Moment) :
    (∃ m, ts.foldlM later latest = .ok m) ↔ ∀ m, some m ∈ ts → m.InCalendar := by
  induction ts generalizing latest with
  | nil => simp [pure, Except.pure]
  | cons t ts ih =>
    rw [List.foldlM_cons, exists_bind_eq_ok]
    simp only [ih, List.mem_cons, or_imp, forall_and]
    rw [exists_and_right, later_isOk_iff]
    simp only [eq_comm]

def Stamped (s : Sheet) : Prop := ∀ m, some m ∈ stamps s → m.InCalendar

theorem ofSheets_isOk_iff {sheets : List Sheet} :
    (∃ o, ofSheets sheets = .ok o) ↔ ∀ s ∈ sheets, Stamped s := by
  unfold ofSheets
  simp only [exists_bind_eq_ok, Except.ok.injEq, exists_eq', and_true, mostRecent,
    foldlM_later_isOk_iff, List.mem_flatMap, Stamped]
  exact ⟨fun h s hs m hm => h m ⟨s, hs, hm⟩, fun h m ⟨s, hs, hm⟩ => h s hs m hm⟩

end Overview

/-- What the report on a sheet asks of its cells. -/
structure Sheet.Reportable (s : Sheet) : Prop where
  written : ∀ c ∈ s.columns, ∀ r ∈ s.rows, (r.cell c.name).isWritable
  single : ∀ c ∈ s.columns, ∀ r ∈ s.rows, (r.cell c.name).isBundle = false
  dated : s.columnsOf .number ≠ [] → ∀ d ∈ s.columnsOf .date, ∀ r ∈ s.rows, ∀ m,
    (r.cell d.name).moment? = some m → m.InCalendar

/-- The report on all sheets is always made, and the report on one sheet unless a value has no text or is
several values, or a date beside numbers leaves the calendar. -/
theorem reports_made_iff (sheets : List Sheet) (stamped : ∀ s ∈ sheets, Overview.Stamped s)
    (parses : ∀ s ∈ sheets, ∀ d ∈ s.columnsOf .date, ∀ r ∈ s.rows, (r.cell d.name).Parses year) :
    (∃ o, Overview.ofSheets sheets = .ok o) ∧
      ∀ s ∈ sheets, (∃ x, SheetReport.ofSheet year s = .ok x) ↔ s.Reportable := by
  refine ⟨Overview.ofSheets_isOk_iff.mpr stamped, fun s hs => ?_⟩
  have hdates : (∃ x, SheetReport.trendsOf year s = .ok x) ↔ (s.columnsOf .number ≠ [] →
      ∀ d ∈ s.columnsOf .date, ∀ r ∈ s.rows, (r.cell d.name).Sortable) := by
    rw [SheetReport.trendsOf_isOk_iff]
    refine forall_congr' fun _ => forall₂_congr fun d hd => forall₂_congr fun r hr => ?_
    exact Cell.when?_isOk_iff (parses s hs d hd r hr)
  rw [SheetReport.ofSheet_isOk_iff, exists_mapM_eq_ok, hdates]
  simp only [SheetReport.columnReport_isOk_iff]
  constructor
  · rintro ⟨hcolumns, htrends⟩
    exact ⟨fun c hc r hr => (hcolumns c hc r hr).1, fun c hc r hr => (hcolumns c hc r hr).2,
      fun hnumbers d hd r hr => (htrends hnumbers d hd r hr).inCalendar⟩
  · intro h
    refine ⟨fun c hc r hr => ⟨h.written c hc r hr, h.single c hc r hr⟩, fun hnumbers d hd r hr => ?_⟩
    exact ⟨h.dated hnumbers d hd r hr, fun _ => h.written d (List.mem_of_mem_filter hd) r hr⟩

/-- The first moment of the calendar, on a clock that is fourteen hours ahead of UTC. -/
def firstMoment : Moment := ⟨(Date.of? 1 1 1).get (by decide), .midnight, Offset.of? 50400000000⟩

/-- It lies before the calendar of UTC, so beside a column of numbers there is no report. -/
theorem reports_made_iff_firstMoment :
    let row : Row := ⟨"r", .named [("d", .moment firstMoment), ("n", .integer 1)], .epoch, some .epoch⟩
    let sheet (type : Kind) : Sheet :=
      ⟨"1", some "A", [⟨some "d", .date, none⟩, ⟨some "n", type, none⟩], [row], .epoch, none⟩
    (∃ o, Overview.ofSheets [sheet .number, sheet .text] = .ok o) ∧
      (¬ ∃ x, SheetReport.ofSheet 2026 (sheet .number) = .ok x) ∧
      ∃ x, SheetReport.ofSheet 2026 (sheet .text) = .ok x := by
  intro row sheet
  have hepoch : Moment.epoch.InCalendar := by decide
  have hstamped (type : Kind) : Overview.Stamped (sheet type) := by
    intro m hm
    have hm : m = .epoch := by simpa [Overview.stamps, sheet, row] using hm
    rw [hm]
    exact hepoch
  have hparses (type : Kind) : ∀ d ∈ (sheet type).columnsOf .date, ∀ r ∈ (sheet type).rows,
      (r.cell d.name).Parses 2026 := by
    have htext (d : Column) (hd : d ∈ (sheet type).columns) (r : Row) (hr : r ∈ (sheet type).rows) :
        (r.cell d.name).kind? ≠ some .text := by
      simp only [sheet, List.mem_cons, List.not_mem_nil, or_false] at hd hr
      subst hr
      rcases hd with rfl | rfl <;> dsimp only <;> decide
    exact fun d hd r hr hkind => absurd hkind (htext d (List.mem_of_mem_filter hd) r hr)
  obtain ⟨hall, hone⟩ := reports_made_iff [sheet .number, sheet .text]
    (List.forall_mem_cons.mpr ⟨hstamped _, List.forall_mem_singleton.mpr (hstamped _)⟩)
    (List.forall_mem_cons.mpr ⟨hparses _, List.forall_mem_singleton.mpr (hparses _)⟩)
  refine ⟨hall, ?_, ?_⟩
  · rw [hone (sheet .number) List.mem_cons_self]
    intro h
    have hfirst := h.dated (by decide) ⟨some "d", .date, none⟩ (by decide) row List.mem_cons_self
      firstMoment rfl
    revert hfirst
    decide
  · rw [hone (sheet .text) (by simp)]
    exact ⟨by decide, by decide, fun h => absurd rfl h⟩

end PlainSheets
