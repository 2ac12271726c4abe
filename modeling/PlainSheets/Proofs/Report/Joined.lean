import PlainSheets.Proofs.Query.Ranking
import PlainSheets.Proofs.Report.Latest

/-!
The report on all sheets, put together from parts. Main statement: for two lists of sheets, one behind the
other, totals and counts add up, anomalies and advice follow each other, and the last change is the later
one. Sheets are ranked by size with ties in order, and apart from the ranking, the anomalies and the advice
the order of the sheets is lost.
-/
namespace PlainSheets

open Outcome (told)

namespace Overview

/-! Counts. -/

def typeCount (sheets : List Sheet) (k : Kind) : Nat :=
  ((sheets.flatMap Sheet.columns).filter fun c => c.type = k).length

@[simp] theorem typeCount_append (sheets others : List Sheet) (k : Kind) :
    typeCount (sheets ++ others) k = typeCount sheets k + typeCount others k := by
  unfold typeCount
  rw [List.flatMap_append, List.filter_append, List.length_append]

@[simp] theorem sum_types (columns : List Column) :
    (Kind.all.map fun k => (columns.filter fun c => c.type = k).length).sum = columns.length := by
  induction columns with
  | nil => rfl
  | cons c columns ih =>
    rw [List.length_cons, ← ih]
    simp only [Kind.all, List.map_cons, List.map_nil, List.sum_cons, List.sum_nil, List.filter_cons]
    cases c.type <;> simp <;> omega

def rowCount (sheets : List Sheet) : Nat := (sheets.map fun s => s.rows.length).sum

@[simp] theorem rowCount_append (sheets others : List Sheet) :
    rowCount (sheets ++ others) = rowCount sheets + rowCount others := by
  rw [rowCount, List.map_append, List.sum_append]
  rfl

theorem foldl_rows (sheets : List Sheet) (n : Nat) :
    sheets.foldl (fun n s => n + s.rows.length) n = n + rowCount sheets := by
  induction sheets generalizing n with
  | nil => rfl
  | cons s sheets ih =>
    rw [List.foldl_cons, ih, Nat.add_assoc]
    rfl

theorem ofSheets_eq {sheets : List Sheet} {o : Overview} (h : ofSheets sheets = .ok o) :
    ∃ last, mostRecent sheets = .ok last ∧ o = {
      sheets := sheets.length
      rows := rowCount sheets
      lastUpdated := last
      sizes := if sheets.length < 2 then [] else bySize sheets
      types := Kind.all.map fun k => (k, typeCount sheets k)
      anomalies := anomaliesOf id sheets
      small := smallOf sheets } := by
  obtain ⟨last, hlast, h⟩ := bind_eq_ok.mp h
  refine ⟨last, hlast, ?_⟩
  rw [← Except.ok.inj h, foldl_rows, Nat.zero_add]
  rfl

/-! The record of a report. -/

/-- The numbers at one place of three records, of which the third one is the sum. -/
def Adds (path : List String) (a b c : Cell) : Prop :=
  ∃ m n : Nat, told a path = some (.integer m) ∧ told b path = some (.integer n) ∧
    told c path = some (.integer (m + n : Nat))

/-- How many columns are told to be of each type. -/
def Distributes (report : Cell) (count : Kind → Nat) : Prop :=
  ∃ entry, told report ["dataDistribution"] = some (.list [entry]) ∧
    told entry ["type"] = some (.text "dataTypes") ∧
    told entry ["data"] = some (.named (Kind.all.map fun k => (k.name, .integer (count k))))

/-- The advice of a report: what is told of small sheets, and then a review just when there are
anomalies. -/
def Advises (report : Cell) (volume anomalies : List Cell) : Prop :=
  ∃ review, told report ["anomalies"] = some (.list anomalies) ∧
    told report ["recommendations"] = some (.list (volume ++ review)) ∧
    (∀ v ∈ volume, told v ["type"] = some (.text "dataVolume")) ∧
    (anomalies = [] → review = []) ∧
    (anomalies ≠ [] → ∃ r, review = [r] ∧ told r ["type"] = some (.text "anomalyCheck"))

/-- The record of the report on two lists of sheets, one behind the other, beside those on each. -/
structure Joined (a b c : Cell) : Prop where
  sheets : Adds ["summary", "totalSheets"] a b c
  rows : Adds ["summary", "totalRows"] a b c
  types : ∃ f g : Kind → Nat, Distributes a f ∧ Distributes b g ∧ Distributes c fun k => f k + g k
  last : ∃ x y, told a ["summary", "lastUpdated"] = some (.moment x) ∧
    told b ["summary", "lastUpdated"] = some (.moment y) ∧
    told c ["summary", "lastUpdated"] = some (.moment (x.laterOf y))
  advice : ∃ volume more anomalies others : List Cell, Advises a volume anomalies ∧
    Advises b more others ∧ Advises c (volume ++ more) (anomalies ++ others)

structure Sizes (item : Cell) (s : Sheet) : Prop where
  id : told item ["id"] = some (.text s.id)
  name : told item ["name"] = some (.ofText? s.name)
  rows : told item ["rowCount"] = some (.integer s.rows.length)

/-- Whether a sheet stands before another one by size. Each is given with its place, which counts when
the sizes are equal. -/
def Outranks (a b : Sheet × Nat) : Prop :=
  b.1.rows.length < a.1.rows.length ∨ a.1.rows.length = b.1.rows.length ∧ a.2 < b.2

/-- The comparison of sheets by size in the record of a report. -/
structure Ranks (report : Cell) (sheets : List Sheet) (entry : Cell)
    (items : List Cell) (arranged : List (Sheet × Nat)) : Prop where
  only : told report ["sheetComparisons"] = some (.list [entry])
  type : told entry ["type"] = some (.text "sheetSize")
  data : told entry ["data"] = some (.list items)
  items : List.Forall₂ (fun item p => Sizes item p.1) items arranged
  perm : arranged.Perm sheets.zipIdx
  ranked : arranged.Pairwise Outranks
  total : told report ["summary", "totalRows"] =
    some (.integer ((arranged.map fun p => p.1.rows.length).sum : Nat))
  description : ∃ first last, arranged.head? = some first ∧ arranged.getLast? = some last ∧
    told entry ["description"] = some (.text (sizesDescription (sizeOf first.1) (sizeOf last.1)))

section

variable {A B C : List Sheet} {a b c : Overview}

theorem distributes (h : ofSheets A = .ok a) : Distributes a.toCell (typeCount A) := by
  obtain ⟨last, -, rfl⟩ := ofSheets_eq h
  exact ⟨_, rfl, rfl, rfl⟩

theorem advises (o : Overview) :
    Advises o.toCell (o.small.map smallCell) (o.anomalies.map anomalyCell) := by
  refine ⟨reviewCells o.anomalies, rfl, rfl, fun v hv => ?_, fun hnone => ?_, fun hsome => ?_⟩
  · obtain ⟨s, -, rfl⟩ := List.mem_map.mp hv
    rfl
  · rw [List.map_eq_nil_iff.mp hnone]
    rfl
  · have hne : ¬ o.anomalies.isEmpty := by simpa using hsome
    rw [reviewCells, if_neg hne]
    exact ⟨_, rfl, rfl⟩

theorem joined (ha : ofSheets A = .ok a) (hb : ofSheets B = .ok b) (hc : ofSheets (A ++ B) = .ok c) :
    Joined a.toCell b.toCell c.toCell := by
  have htypes : Distributes c.toCell fun k => typeCount A k + typeCount B k := by
    simp only [← typeCount_append]
    exact distributes hc
  have hadvice : Advises c.toCell (a.small.map smallCell ++ b.small.map smallCell)
      (a.anomalies.map anomalyCell ++ b.anomalies.map anomalyCell) := by
    have hsmall : c.small = a.small ++ b.small := by
      obtain ⟨_, -, rfl⟩ := ofSheets_eq ha
      obtain ⟨_, -, rfl⟩ := ofSheets_eq hb
      obtain ⟨_, -, rfl⟩ := ofSheets_eq hc
      simp [smallOf]
    have hanomalies : c.anomalies = a.anomalies ++ b.anomalies := by
      obtain ⟨_, -, rfl⟩ := ofSheets_eq ha
      obtain ⟨_, -, rfl⟩ := ofSheets_eq hb
      obtain ⟨_, -, rfl⟩ := ofSheets_eq hc
      simp [anomaliesOf]
    rw [← List.map_append, ← List.map_append, ← hsmall, ← hanomalies]
    exact advises c
  refine ⟨?_, ?_, ⟨_, _, distributes ha, distributes hb, htypes⟩, ?_,
    _, _, _, _, advises a, advises b, hadvice⟩
  all_goals
    obtain ⟨x, hx, rfl⟩ := ofSheets_eq ha
    obtain ⟨y, hy, rfl⟩ := ofSheets_eq hb
    obtain ⟨z, hz, rfl⟩ := ofSheets_eq hc
  · refine ⟨A.length, B.length, rfl, rfl, ?_⟩
    rw [← List.length_append]
    rfl
  · refine ⟨rowCount A, rowCount B, rfl, rfl, ?_⟩
    rw [← rowCount_append]
    rfl
  · have hlast : z = x.laterOf y := by
      have hboth := (isLatest_mostRecent hx).append (isLatest_mostRecent hy)
      refine (isLatest_mostRecent hz).unique hboth fun m => ?_
      rw [List.flatMap_append]
    exact ⟨x, y, rfl, rfl, by rw [← hlast]; rfl⟩

def sizeOrder (a b : Sheet) : Ordering := compare b.rows.length a.rows.length

instance : Std.TransCmp sizeOrder :=
  inferInstanceAs (Std.TransCmp (flip (compareOn fun s : Sheet => s.rows.length)))

theorem bySize_eq (sheets : List Sheet) :
    bySize sheets = (sheets.mergeSort fun a b => (sizeOrder a b).isLE).map sizeOf := by
  unfold bySize
  apply Eq.symm
  apply List.map_mergeSort
  intro a _ b _
  rw [Bool.eq_iff_iff, decide_eq_true_iff]
  exact Nat.isLE_compare

theorem bySize_arranged (sheets : List Sheet) :
    ∃ arranged : List (Sheet × Nat), arranged.Perm sheets.zipIdx ∧ arranged.Pairwise Outranks ∧
      bySize sheets = arranged.map fun p => sizeOf p.1 := by
  obtain ⟨arranged, hperm, hranked, hsorted⟩ := mergeSort_stable sizeOrder sheets
  refine ⟨arranged, hperm, hranked.imp fun {p q} h => ?_, ?_⟩
  · rw [sizeOrder, compare_lt_iff_lt, compare_eq_iff_eq] at h
    exact h.imp_right fun h => ⟨h.1.symm, h.2⟩
  · rw [bySize_eq, ← hsorted, List.map_map]
    rfl

theorem comparisonCells_of_ne_nil {sizes : List SheetSize} (h : sizes ≠ []) :
    ∃ first last entry, sizes.head? = some first ∧ sizes.getLast? = some last ∧
      comparisonCells sizes = [entry] ∧ told entry ["type"] = some (.text "sheetSize") ∧
      told entry ["description"] = some (.text (sizesDescription first last)) ∧
      told entry ["data"] = some (.list (sizes.map sizeCell)) := by
  obtain ⟨first, rest, rfl⟩ := List.exists_cons_of_ne_nil h
  have hlast := List.getLast?_eq_some_getLast h
  refine ⟨first, _, .named [("type", .text "sheetSize"), ("title", .text "Sheet Size Comparison"),
    ("description", .text (sizesDescription first _)), ("data", .list ((first :: rest).map sizeCell))],
    rfl, hlast, ?_, rfl, rfl, rfl⟩
  unfold comparisonCells
  simp only [hlast]

theorem sum_rows_of_perm {sheets : List Sheet} {arranged : List (Sheet × Nat)}
    (h : arranged.Perm sheets.zipIdx) :
    (arranged.map fun p => p.1.rows.length).sum = rowCount sheets := by
  have hplaces : (sheets.zipIdx.map fun p => p.1.rows.length) =
      (sheets.zipIdx.map Prod.fst).map fun s => s.rows.length := by
    rw [List.map_map]
    rfl
  rw [(h.map _).sum_eq, hplaces, List.zipIdx_map_fst]
  rfl

theorem ranks (h : ofSheets A = .ok a) (htwo : 2 ≤ A.length) :
    ∃ entry items arranged, Ranks a.toCell A entry items arranged := by
  obtain ⟨_, -, rfl⟩ := ofSheets_eq h
  obtain ⟨arranged, hperm, hranked, hsizes⟩ := bySize_arranged A
  have hne : bySize A ≠ [] := by
    rw [← List.length_pos_iff, hsizes, List.length_map, hperm.length_eq, List.length_zipIdx]
    omega
  obtain ⟨first, last, entry, hfirst, hlast, honly, htype, hdescription, hdata⟩ :=
    comparisonCells_of_ne_nil hne
  rw [hsizes, List.head?_map, Option.map_eq_some_iff] at hfirst
  rw [hsizes, List.getLast?_map, Option.map_eq_some_iff] at hlast
  obtain ⟨p, hp, rfl⟩ := hfirst
  obtain ⟨q, hq, rfl⟩ := hlast
  refine ⟨entry, (bySize A).map sizeCell, arranged, ?_⟩
  exact {
    only := by
      rw [if_neg (by omega), ← honly]
      rfl
    type := htype
    data := hdata
    items := by
      rw [hsizes, List.map_map, List.forall₂_map_left_iff, List.forall₂_same]
      exact fun p _ => ⟨rfl, rfl, rfl⟩
    perm := hperm
    ranked := hranked
    total := by
      rw [sum_rows_of_perm hperm]
      rfl
    description := ⟨p, q, hp, hq, hdescription⟩ }

theorem same_of_perm (ha : ofSheets A = .ok a) (hc : ofSheets C = .ok c) (h : C.Perm A) :
    told c.toCell ["summary"] = told a.toCell ["summary"] ∧
      told c.toCell ["dataDistribution"] = told a.toCell ["dataDistribution"] := by
  obtain ⟨x, hx, rfl⟩ := ofSheets_eq ha
  obtain ⟨y, hy, rfl⟩ := ofSheets_eq hc
  have hlast : y = x :=
    (isLatest_mostRecent hy).unique (isLatest_mostRecent hx) fun m => (h.flatMap_right _).mem_iff
  have hrows : rowCount C = rowCount A := (h.map _).sum_eq
  have htypes : typeCount C = typeCount A := by
    funext k
    exact ((h.flatMap_right _).filter _).length_eq
  rw [hlast, hrows, htypes, h.length_eq]
  exact ⟨rfl, rfl⟩

/-- The report on two lists of sheets, one behind the other, is put together from the reports on each.
Every column is counted under one type. Two sheets or more are compared by size, and the same sheets in
another order have the same totals. -/
theorem ofSheets_append (A B : List Sheet) (hA : ∀ s ∈ A, Stamped s) (hB : ∀ s ∈ B, Stamped s) :
    ∃ a b c, ofSheets A = .ok a ∧ ofSheets B = .ok b ∧ ofSheets (A ++ B) = .ok c ∧
      Joined a.toCell b.toCell c.toCell ∧
      (∃ count, Distributes a.toCell count ∧
        (Kind.all.map count).sum = (A.flatMap Sheet.columns).length) ∧
      (2 ≤ A.length → ∃ entry items arranged, Ranks a.toCell A entry items arranged) ∧
      ∀ C : List Sheet, C.Perm A → ∃ o, ofSheets C = .ok o ∧
        told o.toCell ["summary"] = told a.toCell ["summary"] ∧
        told o.toCell ["dataDistribution"] = told a.toCell ["dataDistribution"] := by
  obtain ⟨a, ha⟩ := ofSheets_isOk_iff.mpr hA
  obtain ⟨b, hb⟩ := ofSheets_isOk_iff.mpr hB
  obtain ⟨c, hc⟩ := ofSheets_isOk_iff.mpr (List.forall_mem_append.mpr ⟨hA, hB⟩)
  refine ⟨a, b, c, ha, hb, hc, joined ha hb hc, ⟨_, distributes ha, sum_types _⟩, ranks ha,
    fun C hperm => ?_⟩
  obtain ⟨o, ho⟩ := ofSheets_isOk_iff.mpr fun s hs => hA s (hperm.subset hs)
  exact ⟨o, ho, same_of_perm ha ho hperm⟩

end

def changedSheet (id : String) (rows : List Row) (micros : Nat) : Sheet :=
  ⟨id, some id, [⟨some "n", .number, none⟩], rows, .epoch,
    some { Moment.epoch with clock := .ofMicros micros }⟩

def emptyRow : Row := ⟨"r", .null, .epoch, none⟩

/-- Two sheets of one size, and a third one that was changed before the second. -/
theorem ofSheets_append_changedSheets :
    let A := [changedSheet "A" [emptyRow] 0, changedSheet "B" [emptyRow] 2]
    let B := [changedSheet "C" [] 1]
    (∀ s ∈ A, Stamped s) ∧ (∀ s ∈ B, Stamped s) ∧
    ∃ a b c, ofSheets A = .ok a ∧ ofSheets B = .ok b ∧ ofSheets (A ++ B) = .ok c ∧
      Joined a.toCell b.toCell c.toCell ∧ told c.toCell ["summary", "totalRows"] = some (.integer 2) ∧
      ∃ entry items arranged, Ranks a.toCell A entry items arranged := by
  intro A B
  have hcalendar : ∀ micros ∈ [0, 1, 2],
      ({ Moment.epoch with clock := .ofMicros micros } : Moment).InCalendar := by decide
  have hstamped (id : String) (rows : List Row) (hrows : ∀ r ∈ rows, r = emptyRow) {micros : Nat}
      (hmicros : micros ∈ [0, 1, 2]) : Stamped (changedSheet id rows micros) := by
    intro m hm
    rcases List.mem_cons.mp hm with heq | hm
    · rw [Option.some.inj heq]
      exact hcalendar micros hmicros
    · obtain ⟨r, hr, hnone⟩ := List.mem_map.mp hm
      rw [hrows r hr] at hnone
      cases hnone
  have hA : ∀ s ∈ A, Stamped s := List.forall_mem_cons.mpr ⟨hstamped _ _ (by simp) (by decide),
    List.forall_mem_singleton.mpr (hstamped _ _ (by simp) (by decide))⟩
  have hB : ∀ s ∈ B, Stamped s := List.forall_mem_singleton.mpr (hstamped _ _ (by simp) (by decide))
  obtain ⟨a, b, c, ha, hb, hc, hjoined, -, hranks, -⟩ := ofSheets_append A B hA hB
  refine ⟨hA, hB, a, b, c, ha, hb, hc, hjoined, ?_, hranks (by decide)⟩
  obtain ⟨_, -, rfl⟩ := ofSheets_eq hc
  rfl

end Overview

end PlainSheets
