import PlainSheets.Proofs.Cell.JsonForm
import PlainSheets.Proofs.Query.Annotated
import PlainSheets.Proofs.Query.Projected
import PlainSheets.Proofs.Query.Ranking
import PlainSheets.Proofs.Query.Shape
import PlainSheets.Proofs.Report.Joined
import PlainSheets.Proofs.Report.Reconciled
import PlainSheets.Request.Handlers

/-!
What the bodies of responses are made of. All that a question asks for and all that a report counts are
short numbers, so that only the cells of rows, and more rows than a number can tell, keep a body from
being JSON.
-/
namespace PlainSheets

namespace Cell

variable {p q : Int → Prop} {c : Cell}

theorem Admitted.mono (h : c.Admitted p) (hpq : ∀ n, p n → q n) : c.Admitted q := by
  induction h with
  | atom h single => exact .atom (fun n hn => hpq n (h n hn)) single
  | list _ ih => exact .list ih
  | record keys _ ih => exact .record (fun f hf n hn => hpq n (keys f hf n hn)) ih

@[simp] theorem admitted_ofText? (s : Option String) : (ofText? s).Admitted p := by
  cases s <;> simp [ofText?]

theorem asJson_isOk_iff : (∃ j, c.asJson = .ok j) ↔ c.Admitted IsShort := by
  rw [← jsonFailure?_eq_none_iff, asJson]
  cases c.jsonFailure? <;> simp

end Cell

/-! What is asked for. -/

theorem Query.isShort_of_readNumber {ds : List Char} {n : Nat} (h : readNumber ds = .ok n) :
    IsShort n := by
  unfold readNumber at h
  split at h
  · cases h
  · rename_i hlength
    rw [← Except.ok.inj h, isShort_iff, Int.natAbs_natCast]
    exact (Text.digitsValue_lt ds).trans_le (Nat.pow_le_pow_right (by decide) (Nat.not_lt.mp hlength))

namespace Intent

structure IsShown (i : Intent) : Prop where
  filters : i.filtersCell.Admitted IsShort
  limit : IsShort i.limit
  sort : i.sortCell.Admitted IsShort

theorem isShown_of_ofQuestion {question : Option String} {i : Intent}
    (h : ofQuestion question = .ok i) : i.IsShown := by
  obtain ⟨fs, hfs, h⟩ := bind_eq_ok.mp h
  obtain ⟨n, hn, h⟩ := bind_eq_ok.mp h
  obtain rfl := Except.ok.inj h
  refine ⟨?_, ?_, ?_⟩
  · rw [filtersCell, Cell.admitted_named_iff]
    refine List.forall_mem_map.mpr fun f hf => ?_
    cases (Query.filtersOf_filters hfs).read f hf with
    | compares _ _ hnumber =>
      simpa [Condition.toCell, Threshold.toCell] using Query.isShort_of_readNumber hnumber
    | equals => exact Cell.admitted_text _
  · unfold Query.limit at hn
    split at hn
    · have hdefault : IsShort defaultLimit := by decide
      rwa [← Except.ok.inj hn]
    · obtain ⟨m, hm, rfl⟩ := map_eq_ok.mp hn
      exact Query.isShort_of_readNumber hm
  · unfold sortCell
    cases hsort : Query.sort (Text.lowerChars (question.getD "").toList) with
    | none => exact Cell.admitted_null
    | some s =>
      have hdirection : IsShort s.direction := by
        rcases (Query.isWordOf_sort hsort).2 with h | h <;> rw [h] <;> decide
      simpa [SortSpec.toCell] using hdirection

theorem isShown_of_planned {question : String} {i : Intent} (h : planned question = .ok i) :
    i.IsShown := isShown_of_ofQuestion h

theorem isShown_of_plan {a : Annotator} {service : Service} {question : String} {i : Intent}
    (h : (a.plan service question).2 = .ok i) : i.IsShown := by
  rw [Annotator.plan_result] at h
  obtain ⟨i, hi, rfl⟩ := map_eq_ok.mp h
  have hshown := isShown_of_planned hi
  cases a.annotation service with
  | none => exact hshown
  | some n => exact ⟨hshown.filters, hshown.limit, hshown.sort⟩

end Intent

theorem Request.isShown_of_planWith {annotator : Option (Annotator × Service)} {question : String}
    {i : Intent} (h : (planWith annotator question).2 = .ok i) : i.IsShown := by
  rcases annotator with - | ⟨a, service⟩
  · rw [planWith_none] at h
    exact Intent.isShown_of_planned h
  · rw [planWith_some] at h
    exact Intent.isShown_of_plan h

/-! What is found. -/

namespace Outcome

variable {i : Intent}

theorem admitted_operation (h : i.IsShown) (sheet : Option String) {n : Nat} (hn : IsShort n) :
    ∀ f ∈ operation sheet i n, f.2.Admitted IsShort := by
  simp [operation, h.filters, hn]

theorem admitted_found_iff (h : i.IsShown) {sheet : Option String} {records : List Record}
    (hlength : IsShort records.length) : (found sheet i records).toCell.Admitted IsShort ↔
      ∀ r ∈ records, (Cell.record r).Admitted IsShort := by
  have hdatabase : (Cell.named (operation sheet i records.length ++
      [("limit", .integer i.limit), ("sort", i.sortCell)])).Admitted IsShort := by
    rw [Cell.admitted_named_iff, List.forall_mem_append]
    exact ⟨admitted_operation h sheet hlength, by simp [h.limit, h.sort]⟩
  simp [toCell, hdatabase]

theorem admitted_counted_iff (h : i.IsShown) {sheet : Option String} {count : Nat} :
    (counted sheet i count).toCell.Admitted IsShort ↔ IsShort count := by
  simp [toCell, operation, h.filters]

def count? : Outcome → Option Nat
  | counted _ _ n => some n
  | _ => none

/-- The records have a JSON form, and so has the number in their place. -/
structure IsTold (o : Outcome) : Prop where
  records : ∀ r ∈ o.rows, (Cell.record r).Admitted IsShort
  count : ∀ n ∈ o.count?, IsShort n

theorem isTold_iff {o : Outcome} : o.IsTold ↔
    (∀ r ∈ o.rows, (Cell.record r).Admitted IsShort) ∧ ∀ n ∈ o.count?, IsShort n :=
  ⟨fun h => ⟨h.records, h.count⟩, fun h => ⟨h.1, h.2⟩⟩

/-- Nothing else keeps what an intent gives from having a JSON form. -/
theorem admitted_toCell_iff {found : Option Sheet} {o : Outcome} (h : i.IsShown)
    (ho : ofIntent i found = .ok o) : o.toCell.Admitted IsShort ↔ o.IsTold := by
  rw [isTold_iff]
  cases found with
  | none =>
    obtain rfl := Except.ok.inj ho
    simp [toCell, rows, count?]
  | some sheet =>
    by_cases haction : i.action = .count
    · rw [ofIntent_count haction] at ho
      obtain ⟨matching, -, rfl⟩ := map_eq_ok.mp ho
      rw [admitted_counted_iff h]
      simp [rows, count?]
    · obtain ⟨sorted, -, -, -, rfl⟩ := (ofIntent_find_eq_ok haction).mp ho
      have hlength : IsShort ((limited i.limit sorted).map fun r => r.fields.project i.fields).length := by
        refine h.limit.mono ?_
        rw [List.length_map, limited, List.length_take]
        omega
      rw [admitted_found_iff h hlength]
      simp [rows, count?]

end Outcome

/-! Rows that can be told. -/

theorem Record.admitted_putBy {p : Int → Prop} {same : Atom → Atom → Bool} {key : Atom} {v : Cell}
    {r : Record} (hr : (Cell.record r).Admitted p) (hkey : key.Admitted p) (hv : v.Admitted p) :
    (Cell.record (r.putBy same key v)).Admitted p := by
  rw [Cell.admitted_record_iff] at hr ⊢
  induction r with
  | nil => exact List.forall_mem_singleton.mpr ⟨hkey, hv⟩
  | cons f r ih =>
    rw [List.forall_mem_cons] at hr
    rw [putBy]
    split
    · exact List.forall_mem_cons.mpr ⟨⟨hr.1.1, hv⟩, hr.2⟩
    · exact List.forall_mem_cons.mpr ⟨hr.1, ih hr.2⟩

theorem Record.admitted_project {r : Record} (h : (Cell.record r).Admitted IsShort)
    (names : List String) : (Cell.record (r.project names)).Admitted IsShort := by
  unfold project
  split
  · exact h
  · unfold select
    refine List.foldlRecOn (motive := fun out => (Cell.record out).Admitted IsShort) names _
      (.record (List.forall_mem_nil _) (List.forall_mem_nil _)) fun out hout name _ => ?_
    cases hkey : r.resolve? name with
    | none => exact hout
    | some key =>
      rw [Cell.admitted_record_iff] at h
      obtain ⟨f, hf, hcell, -⟩ := exists_field hkey
      have hwritable := (hkey ▸ r.resolves name).isWritable
        (List.forall_mem_map.mpr fun g hg => Atom.isWritable_iff.mpr (h g hg).1)
      exact admitted_putBy hout (Atom.isWritable_iff.mp hwritable) (hcell ▸ (h f hf).2)

/-- All cells of a sheet have a JSON form, and its rows can be counted. -/
structure Sheet.IsTold (s : Sheet) : Prop where
  cells : ∀ r ∈ s.rows, (Cell.record r.fields).Admitted IsShort
  rows : IsShort s.rows.length

theorem Sheet.IsTold.outcome {i : Intent} {s : Sheet} {o : Outcome} (hs : s.IsTold)
    (ho : Outcome.ofIntent i (some s) = .ok o) : o.IsTold := by
  by_cases haction : i.action = .count
  · rw [Outcome.ofIntent_count haction] at ho
    obtain ⟨matching, hmatching, rfl⟩ := map_eq_ok.mp ho
    refine ⟨List.forall_mem_nil _, fun n hn => hs.rows.mono ?_⟩
    obtain rfl := Option.some.inj hn
    rw [matchingRows_eq_ok hmatching]
    exact List.length_filter_le ..
  · obtain ⟨sorted, -, hsorted, -, rfl⟩ := (Outcome.ofIntent_find_eq_ok haction).mp ho
    refine ⟨List.forall_mem_map.mpr fun r hr => Record.admitted_project (hs.cells r ?_) _,
      by simp [Outcome.count?]⟩
    obtain ⟨arranged, hperm, -, rfl⟩ := Intent.sorted_arranged hsorted
    obtain ⟨a, ha, rfl⟩ := List.mem_map.mp (List.mem_of_mem_take hr)
    exact List.mem_of_mem_filter (List.fst_mem_of_mem_zipIdx (hperm.subset ha))

/-! What is counted. -/

def UpTo (size : Nat) (n : Int) : Prop := n.natAbs ≤ size

@[simp] theorem upTo_natCast {size n : Nat} : UpTo size n ↔ n ≤ size := by
  rw [UpTo, Int.natAbs_natCast]

namespace Overview

variable {size : Nat}

theorem upTo_sizeCell {s : SheetSize} (h : s.rows ≤ size) : (sizeCell s).Admitted (UpTo size) := by
  simp [sizeCell, h]

theorem upTo_comparisonCells {sizes : List SheetSize} (h : ∀ s ∈ sizes, s.rows ≤ size) :
    ∀ c ∈ comparisonCells sizes, c.Admitted (UpTo size) := by
  have hdata : ∀ s ∈ sizes, (sizeCell s).Admitted (UpTo size) := fun s hs => upTo_sizeCell (h s hs)
  unfold comparisonCells
  split
  · simpa using hdata
  · exact List.forall_mem_nil _

theorem upTo_typesCell {types : List (Kind × Nat)} (h : ∀ t ∈ types, t.2 ≤ size) :
    (typesCell types).Admitted (UpTo size) := by
  have hcounts : ∀ t ∈ types, (Cell.integer t.2).Admitted (UpTo size) := by simpa using h
  have hdata : (Cell.named (types.map fun t => (t.1.name, .integer t.2))).Admitted (UpTo size) :=
    Cell.admitted_named_iff.mpr (List.forall_mem_map.mpr hcounts)
  simp [typesCell, hdata]

theorem upTo_anomalyCell {a : Anomaly Binary64} (h : a.count ≤ size) :
    (anomalyCell a).Admitted (UpTo size) := by
  simp [anomalyCell, h]

theorem admitted_smallCell {p : Int → Prop} (s : SheetSize) : (smallCell s).Admitted p := by
  simp [smallCell]

theorem admitted_reviewCells {p : Int → Prop} (anomalies : List (Anomaly Binary64)) :
    ∀ c ∈ reviewCells anomalies, c.Admitted p := by
  unfold reviewCells
  split <;> simp

end Overview

/-- What can be counted in a sheet. -/
def Sheet.extent (s : Sheet) : Nat := s.rows.length + s.columns.length

def Sheet.extentOf (sheets : List Sheet) : Nat := sheets.length + (sheets.map extent).sum

theorem Sheet.extent_le {s : Sheet} {sheets : List Sheet} (h : s ∈ sheets) :
    s.extent ≤ extentOf sheets :=
  (List.le_sum_of_mem (List.mem_map_of_mem h)).trans (Nat.le_add_left _ _)

theorem Column.length_numbers_le (c : Column) (rows : List Row) :
    (c.numbers rows).length ≤ rows.length :=
  (List.length_filterMap_le ..).trans_eq (List.length_map _)

theorem Column.length_present_le (c : Column) (rows : List Row) :
    (c.present rows).length ≤ rows.length :=
  (List.length_filter_le ..).trans_eq (List.length_map _)

namespace Overview

variable {sheets : List Sheet} {o : Overview}

theorem count_le_of_anomalyOf {s : Sheet} {c : Column} {a : Anomaly Binary64}
    (h : anomalyOf id s c = some a) : a.count ≤ s.rows.length := by
  unfold anomalyOf at h
  dsimp only at h
  split at h
  · cases h
  · rw [← Option.some.inj h]
    refine List.count_le_length.trans ?_
    rw [Statistics.outlierMask, List.length_map, List.length_map]
    exact c.length_numbers_le s.rows

/-- No number in the report on sheets is greater than what can be counted in them. -/
theorem upTo_toCell (h : ofSheets sheets = .ok o) :
    o.toCell.Admitted (UpTo (Sheet.extentOf sheets)) := by
  obtain ⟨last, -, rfl⟩ := ofSheets_eq h
  have hrows : ∀ s ∈ sheets, s.rows.length ≤ Sheet.extentOf sheets := fun s hs =>
    (Nat.le_add_right _ _).trans (Sheet.extent_le hs)
  have hsheets : sheets.length ≤ Sheet.extentOf sheets := Nat.le_add_right _ _
  have htotal : rowCount sheets ≤ Sheet.extentOf sheets := by
    refine (List.sum_le_sum fun s _ => ?_).trans (Nat.le_add_left _ _)
    exact Nat.le_add_right _ _
  have hsizes : ∀ s ∈ if sheets.length < 2 then [] else bySize sheets,
      s.rows ≤ Sheet.extentOf sheets := by
    split
    · exact List.forall_mem_nil _
    · intro size hsize
      obtain ⟨s, hs, rfl⟩ := List.mem_map.mp (List.mem_mergeSort.mp hsize)
      exact hrows s hs
  have htypes : ∀ t ∈ Kind.all.map fun k => (k, typeCount sheets k),
      t.2 ≤ Sheet.extentOf sheets := by
    refine List.forall_mem_map.mpr fun k _ => (List.length_filter_le ..).trans ?_
    rw [List.length_flatMap]
    refine (List.sum_le_sum fun s _ => ?_).trans (Nat.le_add_left _ _)
    exact Nat.le_add_left _ _
  have hanomalies : ∀ a ∈ anomaliesOf id sheets, a.count ≤ Sheet.extentOf sheets := by
    intro a ha
    obtain ⟨s, hs, ha⟩ := List.mem_flatMap.mp ha
    obtain ⟨c, -, ha⟩ := List.mem_filterMap.mp ha
    exact (count_le_of_anomalyOf ha).trans (hrows s hs)
  have hoverview : ∀ c ∈ (anomaliesOf id sheets).map anomalyCell,
      c.Admitted (UpTo (Sheet.extentOf sheets)) :=
    List.forall_mem_map.mpr fun a ha => upTo_anomalyCell (hanomalies a ha)
  have hadvice : ∀ c ∈ (smallOf sheets).map smallCell ++ reviewCells (anomaliesOf id sheets),
      c.Admitted (UpTo (Sheet.extentOf sheets)) :=
    List.forall_mem_append.mpr ⟨List.forall_mem_map.mpr fun s _ => admitted_smallCell s,
      admitted_reviewCells _⟩
  simp only [toCell, Cell.admitted_named_iff, Cell.admitted_list_iff, List.forall_mem_cons,
    Cell.admitted_integer_iff, Cell.admitted_moment, upTo_natCast, hsheets, htotal,
    List.not_mem_nil, false_implies, implies_true, true_and, and_true]
  exact ⟨upTo_comparisonCells hsizes, upTo_typesCell htypes, hoverview, hadvice⟩

end Overview

namespace SheetReport

variable {size year : Nat} {s : Sheet} {o : SheetReport}

theorem upTo_summaryCell {n : NumberSummary} (h : n.count ≤ size) :
    (summaryCell n).Admitted (UpTo size) := by
  simp [summaryCell, h]

theorem upTo_columnCell {rows : Nat} {c : ColumnReport} (hfilled : c.filled ≤ size)
    (hunique : c.unique ≤ size) : (columnCell rows c).Admitted (UpTo size) := by
  unfold columnCell
  cases c.summary <;> simp [hfilled, hunique]

theorem upTo_trendCell {t : TrendReport} (h : t.points ≤ size) : (trendCell t).Admitted (UpTo size) := by
  have hchange : (((Statistics.percentChange? t.start.2 t.finish.2).map Cell.real).getD
      .null).Admitted (UpTo size) := by
    cases Statistics.percentChange? t.start.2 t.finish.2 <;> simp
  simp [trendCell, h, hchange]

theorem admitted_byName {p : Int → Prop} {columns : List (Column × Cell)}
    (h : ∀ c ∈ columns, c.2.Admitted p) : (Cell.record (byName columns)).Admitted p := by
  unfold byName
  refine List.foldlRecOn (motive := fun r => (Cell.record r).Admitted p) columns _
    (.record (List.forall_mem_nil _) (List.forall_mem_nil _)) fun r hr c hc => ?_
  exact Record.admitted_putBy hr nofun (h c hc)

theorem admitted_adviceCells {p : Int → Prop} (o : SheetReport) : ∀ c ∈ o.adviceCells, c.Admitted p := by
  unfold adviceCells
  refine List.forall_mem_append.mpr ⟨?_, List.forall_mem_map.mpr fun c _ => by simp [sparseCell]⟩
  split <;> simp

theorem upTo_described (rows : List Row) (c : Column) : (described rows c).filled ≤ rows.length ∧
    (described rows c).unique ≤ rows.length ∧
    ∀ n, (described rows c).summary = some n → n.count ≤ rows.length := by
  refine ⟨c.filledRows_le rows, ?_, fun n hn => ?_⟩
  · exact (length_frequencies_le_length _).trans (c.length_present_le rows)
  · rw [NumberSummary.count_of? (summaryOf_eq_some hn)]
    exact c.length_numbers_le rows

theorem points_le {trends : List TrendReport} (h : trendsOf year s = .ok trends) :
    ∀ t ∈ trends, t.points ≤ s.rows.length := by
  obtain ⟨found, hfound, h⟩ := bind_eq_ok.mp h
  obtain rfl := Except.ok.inj h
  intro t ht
  obtain ⟨trend, htrend, rfl⟩ := List.mem_filterMap.mp ht
  obtain ⟨p, -, hp⟩ := exists_partner (mapM_eq_ok.mp hfound) htrend
  obtain ⟨series, hseries, hp⟩ := bind_eq_ok.mp hp
  obtain ⟨points, hpoints, hseries⟩ := bind_eq_ok.mp hseries
  obtain rfl := Except.ok.inj hseries
  have hlength : t.points = ((points.filterMap id).mergeSort
      fun a b => a.1.instant ≤ b.1.instant).length := by
    have hsome := Except.ok.inj hp
    unfold trendOf at hsome
    split at hsome
    · rw [← Option.some.inj hsome]
    · cases hsome
  rw [hlength, List.length_mergeSort]
  exact (List.length_filterMap_le ..).trans_eq (mapM_eq_ok.mp hpoints).length_eq.symm

theorem count_le_of_textsOf {rows : List Row} {c : Column} {texts : Column × List (String × Nat)}
    (h : textsOf rows c = some texts) : ∀ f ∈ texts.2, f.2 ≤ rows.length := by
  rw [textsOf_eq] at h
  split at h
  · obtain rfl := Option.some.inj h
    intro f hf
    rw [count_of_mem_frequencies hf]
    refine List.count_le_length.trans ((List.length_map _).trans_le ?_)
    exact (List.length_filter_le ..).trans (c.length_present_le rows)
  · cases h

theorem upTo_toCell (h : ofSheet year s = .ok o) : o.toCell.Admitted (UpTo s.extent) := by
  obtain ⟨columns, hcolumns, h⟩ := bind_eq_ok.mp h
  obtain ⟨trends, htrends, h⟩ := bind_eq_ok.mp h
  obtain rfl := Except.ok.inj h
  have hrows {n : Nat} (hn : n ≤ s.rows.length) : n ≤ s.extent := hn.trans (Nat.le_add_right _ _)
  have hlength : columns.length ≤ s.extent :=
    (mapM_eq_ok.mp hcolumns).length_eq.symm.trans_le (Nat.le_add_left _ _)
  have hdescribed : ∀ c ∈ columns, ∃ d, c = described s.rows d := by
    intro c hc
    obtain ⟨d, -, hd⟩ := exists_partner (mapM_eq_ok.mp hcolumns) hc
    exact ⟨d, (columnReport_eq hd).symm⟩
  have hanalysis : ∀ c ∈ columns.map (columnCell s.rows.length), c.Admitted (UpTo s.extent) := by
    refine List.forall_mem_map.mpr fun c hc => ?_
    obtain ⟨d, rfl⟩ := hdescribed c hc
    obtain ⟨hfilled, hunique, -⟩ := upTo_described s.rows d
    exact upTo_columnCell (hrows hfilled) (hrows hunique)
  have hnumbers : (Cell.record (byName (columns.filterMap fun c =>
      c.summary.map fun n => (c.column, summaryCell n)))).Admitted (UpTo s.extent) := by
    refine admitted_byName fun e he => ?_
    obtain ⟨c, hc, he⟩ := List.mem_filterMap.mp he
    obtain ⟨n, hn, rfl⟩ := Option.map_eq_some_iff.mp he
    obtain ⟨d, rfl⟩ := hdescribed c hc
    exact upTo_summaryCell (hrows ((upTo_described s.rows d).2.2 n hn))
  have htexts : (Cell.record (byName (((s.columnsOf .text).filterMap (textsOf s.rows)).map fun t =>
      (t.1, .named (t.2.map fun f => (f.1, .integer f.2)))))).Admitted (UpTo s.extent) := by
    refine admitted_byName (List.forall_mem_map.mpr fun t ht => ?_)
    obtain ⟨c, -, hc⟩ := List.mem_filterMap.mp ht
    refine Cell.admitted_named_iff.mpr (List.forall_mem_map.mpr fun f hf => ?_)
    exact Cell.admitted_integer_iff.mpr (upTo_natCast.mpr (hrows (count_le_of_textsOf hc f hf)))
  have htrend : ∀ t ∈ trends.map trendCell, t.Admitted (UpTo s.extent) :=
    List.forall_mem_map.mpr fun t ht => upTo_trendCell (hrows (points_le htrends t ht))
  have hupdated : ((s.updatedAt.map Cell.moment).getD .null).Admitted (UpTo s.extent) := by
    cases s.updatedAt <;> simp
  simp only [toCell, statisticsCell, Cell.admitted_named_iff, Cell.admitted_list_iff,
    List.forall_mem_cons, Cell.admitted_integer_iff, Cell.admitted_ofText?, upTo_natCast,
    List.not_mem_nil, false_implies, implies_true, true_and, and_true]
  exact ⟨⟨hrows le_rfl, hlength, hupdated⟩, hanalysis, htrend,
    ⟨hrows le_rfl, hlength, hnumbers, htexts⟩, admitted_adviceCells _⟩

end SheetReport

end PlainSheets
