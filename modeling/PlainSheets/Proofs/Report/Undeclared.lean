import PlainSheets.Proofs.Query.Malformed
import PlainSheets.Report.SheetReport

/-!
What reports see of rows: the cells in the columns of their sheet and nothing else. Main statement: rows
that agree there can stand for one another in every report.
-/
namespace PlainSheets

structure Row.AgreesOn (columns : List Column) (r s : Row) : Prop where
  rest : s = { r with data := s.data }
  cell : ∀ c ∈ columns, r.cell c.name = s.cell c.name

/-- Sheets that differ in the data of their rows at most, and there only outside their columns. -/
structure Sheet.AgreesOnColumns (s t : Sheet) : Prop where
  rest : t = { s with rows := t.rows }
  rows : List.Forall₂ (Row.AgreesOn s.columns) s.rows t.rows

namespace Sheet.AgreesOnColumns

variable {year : Nat} {s t : Sheet}

theorem columns (h : s.AgreesOnColumns t) : t.columns = s.columns := by rw [h.rest]

theorem columnsOf (h : s.AgreesOnColumns t) (type : Kind) : t.columnsOf type = s.columnsOf type := by
  rw [Sheet.columnsOf, Sheet.columnsOf, h.columns]

theorem cells (h : s.AgreesOnColumns t) {c : Column} (hc : c ∈ s.columns) :
    c.cells s.rows = c.cells t.rows := by
  apply map_eq_map
  exact h.rows.imp fun r r' hrow => hrow.cell c hc

theorem stamps (h : s.AgreesOnColumns t) : Overview.stamps s = Overview.stamps t := by
  have hupdated : s.rows.map Row.updatedAt = t.rows.map Row.updatedAt := by
    apply map_eq_map
    apply h.rows.imp
    intro r r' hrow
    rw [hrow.rest]
  rw [Overview.stamps, Overview.stamps, hupdated, h.rest]

theorem sizeOf (h : s.AgreesOnColumns t) : Overview.sizeOf s = Overview.sizeOf t := by
  rw [Overview.sizeOf, Overview.sizeOf, h.rows.length_eq, h.rest]

theorem mem_columns {type : Kind} {c : Column} (hc : c ∈ s.columnsOf type) : c ∈ s.columns :=
  List.mem_of_mem_filter hc

theorem anomalies {α : Type} [Add α] [Sub α] [Mul α] [Div α] [Arithmetic α] (read : Binary64 → α)
    (h : s.AgreesOnColumns t) :
    (s.columnsOf .number).filterMap (Overview.anomalyOf read s) =
      (t.columnsOf .number).filterMap (Overview.anomalyOf read t) := by
  rw [h.columnsOf]
  apply List.filterMap_congr
  intro c hc
  have hnumbers : c.numbers s.rows = c.numbers t.rows := by
    rw [Column.numbers, Column.numbers, h.cells (mem_columns hc)]
  unfold Overview.anomalyOf
  rw [hnumbers, h.rest]

/-! The report on one sheet. -/

theorem columnReport (h : s.AgreesOnColumns t) {c : Column} (hc : c ∈ s.columns) :
    SheetReport.columnReport s.rows c = SheetReport.columnReport t.rows c := by
  unfold SheetReport.columnReport Column.asked Column.present Column.numbers
  rw [h.cells hc]

theorem timeSeries (h : s.AgreesOnColumns t) {dates values : Column} (hdates : dates ∈ s.columns)
    (hvalues : values ∈ s.columns) :
    SheetReport.timeSeries year dates values s.rows = SheetReport.timeSeries year dates values t.rows := by
  have hpoints : s.rows.mapM (SheetReport.point year dates values) =
      t.rows.mapM (SheetReport.point year dates values) := by
    apply mapM_eq_mapM
    apply h.rows.imp
    intro r r' hrow
    rw [SheetReport.point, SheetReport.point, hrow.cell dates hdates, hrow.cell values hvalues]
  rw [SheetReport.timeSeries, SheetReport.timeSeries, hpoints]

theorem trends (h : s.AgreesOnColumns t) : SheetReport.trendsOf year s = SheetReport.trendsOf year t := by
  unfold SheetReport.trendsOf
  rw [h.columnsOf, h.columnsOf]
  dsimp only
  congr 1
  apply mapM_eq_mapM
  rw [List.forall₂_same]
  intro p hp
  obtain ⟨d, hd, hp⟩ := List.mem_flatMap.mp hp
  obtain ⟨n, hn, rfl⟩ := List.mem_map.mp hp
  rw [h.timeSeries (mem_columns hd) (mem_columns hn)]

theorem textsOf (h : s.AgreesOnColumns t) {c : Column} (hc : c ∈ s.columns) :
    SheetReport.textsOf s.rows c = SheetReport.textsOf t.rows c := by
  unfold SheetReport.textsOf Column.present
  rw [h.cells hc]

theorem ofSheet (h : s.AgreesOnColumns t) : SheetReport.ofSheet year s = SheetReport.ofSheet year t := by
  have hcolumns : s.columns.mapM (SheetReport.columnReport s.rows) =
      t.columns.mapM (SheetReport.columnReport t.rows) := by
    rw [h.columns]
    apply mapM_eq_mapM
    rw [List.forall₂_same]
    exact fun c hc => h.columnReport hc
  have htexts : (s.columnsOf .text).filterMap (SheetReport.textsOf s.rows) =
      (t.columnsOf .text).filterMap (SheetReport.textsOf t.rows) := by
    rw [h.columnsOf]
    exact List.filterMap_congr fun c hc => h.textsOf (mem_columns hc)
  rw [SheetReport.ofSheet, SheetReport.ofSheet, h.trends, hcolumns, htexts, h.rows.length_eq]
  rw [h.rest]

end Sheet.AgreesOnColumns

/-! The report on all sheets. -/

namespace Overview

variable {sheets others : List Sheet}

theorem ofSheets_agree (h : List.Forall₂ Sheet.AgreesOnColumns sheets others) :
    ofSheets sheets = ofSheets others := by
  have hsizes : sheets.map sizeOf = others.map sizeOf := map_eq_map (h.imp fun s t hs => hs.sizeOf)
  have hrecent : mostRecent sheets = mostRecent others := by
    have hstamps : sheets.map stamps = others.map stamps := map_eq_map (h.imp fun s t hs => hs.stamps)
    rw [mostRecent, mostRecent, List.flatMap_def, List.flatMap_def, hstamps]
  have htypes : typeCounts sheets = typeCounts others := by
    have hcolumns : sheets.map Sheet.columns = others.map Sheet.columns :=
      map_eq_map (h.imp fun s t hs => hs.columns.symm)
    unfold typeCounts
    rw [List.flatMap_def, List.flatMap_def, hcolumns]
  have hanomalies : anomaliesOf id sheets = anomaliesOf id others := by
    rw [anomaliesOf, anomaliesOf, List.flatMap_def, List.flatMap_def]
    exact congrArg List.flatten (map_eq_map (h.imp fun s t hs => hs.anomalies id))
  have hrows (l : List Sheet) : l.foldl (fun n s => n + s.rows.length) 0 =
      (l.map sizeOf).foldl (fun n s => n + s.rows) 0 := by
    rw [List.foldl_map]
    rfl
  have hsmall (l : List Sheet) : smallOf l = (l.map sizeOf).filter fun s => s.rows < fewRows := by
    rw [List.filter_map]
    rfl
  rw [ofSheets, ofSheets, hrecent, htypes, hanomalies, hrows, hrows, hsmall, hsmall, bySize, bySize,
    hsizes, h.length_eq]

end Overview

/-! Data without any declared column. -/

/-- Data that has nothing in any of the columns. -/
inductive Cell.Bare (columns : List Column) : Cell → Prop
  | notMap {d : Cell} (h : ∀ fs, d ≠ .record fs) : Bare columns d
  | empty : Bare columns (.record [])
  | undeclared {fs : Record} (h : ∀ f ∈ fs, ∀ c ∈ columns, ∀ name, c.name = some name →
      f.1.text? ≠ some name) : Bare columns (.record fs)

theorem Record.get?_eq_none {fs : Record} {name : String} (h : ∀ f ∈ fs, f.1.text? ≠ some name) :
    Record.get? fs name = none := by
  induction fs with
  | nil => rfl
  | cons f fs ih =>
    rw [List.forall_mem_cons] at h
    rw [Record.get?, if_neg h.1, ih h.2]

theorem Cell.Bare.get?_fields {columns : List Column} {d : Cell} (h : d.Bare columns) {c : Column}
    (hc : c ∈ columns) {name : String} (hname : c.name = some name) :
    Record.get? d.fields name = none := by
  cases h with
  | notMap h =>
    cases d with
    | record fs => exact absurd rfl (h fs)
    | _ => rfl
  | empty => rfl
  | undeclared h => exact Record.get?_eq_none fun f hf => h f hf c hc name hname

theorem Row.cell_of_bare {columns : List Column} {r : Row} (h : r.data.Bare columns) {c : Column}
    (hc : c ∈ columns) : r.cell c.name = .null := by
  have hnone : c.name.bind r.fields.get? = none := by
    rw [Option.bind_eq_none_iff]
    intro name hname
    exact h.get?_fields hc hname
  rw [Row.cell, hnone]
  rfl

structure Row.Interchanged (columns : List Column) (r s : Row) : Prop where
  rest : s = { r with data := s.data }
  data : r.data = s.data ∨ r.data.Bare columns ∧ s.data.Bare columns

structure Sheet.Interchanged (s t : Sheet) : Prop where
  rest : t = { s with rows := t.rows }
  rows : List.Forall₂ (Row.Interchanged s.columns) s.rows t.rows

theorem Sheet.Interchanged.agreesOnColumns {s t : Sheet} (h : s.Interchanged t) :
    s.AgreesOnColumns t := by
  refine ⟨h.rest, h.rows.imp ?_⟩
  intro r r' hrow
  refine ⟨hrow.rest, fun c hc => ?_⟩
  rcases hrow.data with hdata | ⟨hbare, hbare'⟩
  · rw [Row.cell, Row.cell, Row.fields, Row.fields, hdata]
  · rw [Row.cell_of_bare hbare hc, Row.cell_of_bare hbare' hc]

def SameReports (sheets others : List Sheet) : Prop :=
  Overview.ofSheets sheets = Overview.ofSheets others ∧
    List.Forall₂ (fun s t => ∀ year, SheetReport.ofSheet year s = SheetReport.ofSheet year t)
      sheets others

/-- Data that is no map is as good as the empty map, and reports do not see what is in no column. -/
theorem malformed_as_empty :
    (∀ (i : Intent) (s : Sheet),
      Outcome.ofIntent i (some s.tidied) = Outcome.ofIntent i (some s)) ∧
    (∀ sheets others : List Sheet, List.Forall₂ Sheet.AgreesOnColumns sheets others →
      SameReports sheets others) ∧
    ∀ sheets others : List Sheet, List.Forall₂ Sheet.Interchanged sheets others →
      SameReports sheets others := by
  have hagree (sheets others : List Sheet) (h : List.Forall₂ Sheet.AgreesOnColumns sheets others) :
      SameReports sheets others :=
    ⟨Overview.ofSheets_agree h, h.imp fun s t hs _ => hs.ofSheet⟩
  refine ⟨Outcome.ofIntent_tidied, hagree, fun sheets others h => ?_⟩
  exact hagree sheets others (h.imp fun s t hs => hs.agreesOnColumns)

/-- A text that is the name of the column, and a map with another key. -/
theorem malformed_as_empty_name :
    let sheet (d : Cell) : Sheet :=
      ⟨"1", some "A", [⟨some "n", .number, none⟩], [⟨"r", d, .epoch, none⟩], .epoch, none⟩
    Outcome.ofIntent {} (some (sheet (.record []))) =
        Outcome.ofIntent {} (some (sheet (.text "n"))) ∧
      SameReports [sheet (.text "n")] [sheet (.record [(.text "m", .integer 1)])] ∧
      SameReports [sheet (.text "n")] [sheet (.record [])] := by
  intro sheet
  obtain ⟨htidied, hagree, hswap⟩ := malformed_as_empty
  have hswapped {d e : Cell} (hd : d.Bare [⟨some "n", .number, none⟩])
      (he : e.Bare [⟨some "n", .number, none⟩]) : (sheet d).Interchanged (sheet e) :=
    ⟨rfl, .cons ⟨rfl, .inr ⟨hd, he⟩⟩ .nil⟩
  have htext : Cell.Bare [⟨some "n", .number, none⟩] (.text "n") := .notMap nofun
  have hother : Cell.Bare [⟨some "n", .number, none⟩] (.record [(.text "m", .integer 1)]) := by
    apply Cell.Bare.undeclared
    simp only [List.mem_singleton, forall_eq]
    rintro name ⟨⟩
    decide
  exact ⟨htidied {} (sheet (.text "n")), hswap _ _ (.cons (hswapped htext hother) .nil),
    hagree _ _ (.cons (hswapped htext .empty).agreesOnColumns .nil)⟩

end PlainSheets
