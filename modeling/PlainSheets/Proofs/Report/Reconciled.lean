import PlainSheets.Proofs.Query.Ranking
import PlainSheets.Proofs.Report.Frequencies
import PlainSheets.Proofs.Report.Returned

/-!
The report on one sheet and its rows. Main statement: what the report counts in a column, in the analysis
of columns, in the statistics and in the advice, is what the rows have there, though the counts are taken
one by one: cells that are filled, cells with a number, cells of text and distinct texts.
-/
namespace PlainSheets

open Outcome (told)

namespace Cell

/-- Whether there is something in a cell: it is neither missing nor the text without letters. -/
def isFilled (c : Cell) : Bool := !c.isMissing && c.text? != some ""

@[simp] theorem not_isEmpty (c : Cell) : (!c.isEmpty) = c.isFilled := by
  rw [isEmpty, Bool.not_or]
  rfl

theorem isFilled_of_numeral {c : Cell} {n : Numeral} (h : c.numeral? = some n) : c.isFilled := by
  obtain ⟨hmissing, -, htext⟩ := unmixed_of_numeral h
  simp [isFilled, hmissing, htext]

theorem isFilled_of_number {c : Cell} (h : c.number?.isSome) : c.isFilled := by
  obtain ⟨x, hx⟩ := Option.isSome_iff_exists.mp h
  obtain ⟨n, hn, -⟩ := Option.bind_eq_some_iff.mp hx
  exact isFilled_of_numeral hn

end Cell

namespace Column

variable (c : Column) (rows : List Row)

def filledRows : Nat := rows.countP fun r => (r.cell c.name).isFilled

/-- Rows with a number in a column that fits double precision. -/
def numberRows : Nat := rows.countP fun r => (r.cell c.name).number?.isSome

def textRows : Nat :=
  rows.countP fun r => (r.cell c.name).isFilled && (r.cell c.name).kind? = some .text

def texts : List Cell := (c.present rows).filter fun v => v.kind? = some .text

theorem present_eq : c.present rows = (c.cells rows).filter Cell.isFilled := by
  unfold present
  simp only [Cell.not_isEmpty]

@[simp] theorem length_present : (c.present rows).length = c.filledRows rows := by
  rw [present_eq, ← List.countP_eq_length_filter, cells, List.countP_map]
  rfl

@[simp] theorem length_texts : (c.texts rows).length = c.textRows rows := by
  rw [texts, present_eq, List.filter_filter, ← List.countP_eq_length_filter, cells, List.countP_map]
  simp only [textRows, Bool.and_comm]
  rfl

@[simp] theorem length_numbers : (c.numbers rows).length = c.numberRows rows := by
  rw [numbers, List.length_filterMap_eq_countP, cells, List.countP_map]
  rfl

theorem filledRows_le : c.filledRows rows ≤ rows.length := List.countP_le_length

theorem numberRows_le : c.numberRows rows ≤ c.filledRows rows :=
  List.countP_mono_left fun _ _ h => Cell.isFilled_of_number h

theorem textRows_le : c.textRows rows ≤ c.filledRows rows :=
  List.countP_mono_left fun _ _ h => (Bool.and_eq_true_iff.mp h).1

theorem filledRows_of_nameless (h : c.name = none) : c.filledRows rows = 0 := by
  rw [filledRows, h, List.countP_eq_zero]
  exact fun _ _ h => nomatch h

end Column

theorem uniqueCount_eq {cells : List Cell} {n : Nat} (h : uniqueCount cells = .ok n) :
    n = (frequencies cells).length := by
  unfold uniqueCount at h
  split at h
  · exact (Except.ok.inj h).symm
  · cases h

namespace NumberSummary

theorem count_of? {xs : List Binary64} {n : NumberSummary} (h : of? xs = some n) :
    n.count = xs.length := by
  cases xs with
  | nil => cases h
  | cons x xs =>
    obtain ⟨m, -, rfl⟩ := Option.map_eq_some_iff.mp h
    rfl

@[simp] theorem isSome_of? (xs : List Binary64) : (of? xs).isSome ↔ xs ≠ [] := by
  cases xs with
  | nil => simp [of?]
  | cons x xs =>
    have hsorted : (Statistics.sorted (x :: xs)).length = (x :: xs).length := List.length_mergeSort _
    have hmiddle : (x :: xs).length / 2 < (x :: xs).length :=
      Nat.div_lt_self (Nat.succ_pos _) (by decide)
    rw [of?, Option.isSome_map, Statistics.median?, List.getElem?_eq_getElem (hsorted ▸ hmiddle)]
    simp

end NumberSummary

namespace Record

theorem get?_put (r : Record) (name other : String) (v : Cell) :
    get? (put (.text name) v r) other = if name = other then some v else get? r other := by
  induction r with
  | nil =>
    rw [put_nil, get?, get?, get?]
    simp only [Atom.text?, Option.some.injEq]
  | cons f r ih =>
    obtain ⟨k, w⟩ := f
    rw [put_cons]
    by_cases hk : k.text? = some name
    · rw [if_pos ((RowText.sameKey_text k name).mpr hk), get?, get?, hk]
      simp only [Option.some.injEq]
      split <;> rfl
    · rw [if_neg (mt (RowText.sameKey_text k name).mp hk), get?, get?, ih]
      by_cases h : name = other
      · have hother : k.text? ≠ some other := h ▸ hk
        rw [if_neg hother, if_pos h, if_pos h]
      · rw [if_neg h, if_neg h]

end Record

namespace SheetReport

section

variable {columns : List Column} {entry : Column → Option Cell} {name : String}

def entriesOf (columns : List Column) (entry : Column → Option Cell) : List (Column × Cell) :=
  columns.filterMap fun c => (entry c).map (c, ·)

theorem get?_foldl_others {entries : List (Column × Cell)} (h : ∀ e ∈ entries, e.1.title ≠ name)
    (r : Record) :
    Record.get? (entries.foldl (fun r e => Record.put (.text e.1.title) e.2 r) r) name =
      Record.get? r name := by
  induction entries generalizing r with
  | nil => rfl
  | cons e entries ih =>
    rw [List.forall_mem_cons] at h
    rw [List.foldl_cons, ih h.2, Record.get?_put, if_neg h.1]

/-- The entries of other columns. A column without a name has none, so that it takes no other one's
place. -/
theorem title_ne (hentry : ∀ c, c.name = none → entry c = none) {c : Column} (hname : c.name = some name)
    (hother : c.name ∉ columns.map Column.name) : ∀ e ∈ entriesOf columns entry, e.1.title ≠ name := by
  intro e he htitle
  obtain ⟨d, hd, hde⟩ := List.mem_filterMap.mp he
  obtain ⟨v, hv, rfl⟩ := Option.map_eq_some_iff.mp hde
  cases hdname : d.name with
  | none =>
    rw [hentry d hdname] at hv
    cases hv
  | some title =>
    have hsame : d.name = c.name := by
      rw [hname, ← htitle, Column.title, hdname]
      rfl
    exact hother (hsame ▸ List.mem_map_of_mem hd)

/-- If no two columns have one name, every column has its own entry. -/
theorem get?_byName (hnames : (columns.map Column.name).Nodup)
    (hentry : ∀ c, c.name = none → entry c = none) {c : Column} (hc : c ∈ columns)
    (hname : c.name = some name) :
    Record.get? (byName (entriesOf columns entry)) name = entry c := by
  obtain ⟨before, after, rfl⟩ := List.append_of_mem hc
  rw [List.map_append, List.map_cons, List.nodup_middle, List.nodup_cons, List.mem_append,
    not_or] at hnames
  obtain ⟨⟨hbefore, hafter⟩, -⟩ := hnames
  have hsplit : entriesOf (before ++ c :: after) entry =
      entriesOf before entry ++ entriesOf (c :: after) entry := List.filterMap_append
  rw [hsplit, byName, List.foldl_append]
  -- Neither the entries before nor those after stand under the name, so its own entry alone decides.
  cases hown : entry c with
  | none =>
    have hskip : entriesOf (c :: after) entry = entriesOf after entry :=
      List.filterMap_cons_none (by rw [hown]; rfl)
    rw [hskip, get?_foldl_others (title_ne hentry hname hafter),
      get?_foldl_others (title_ne hentry hname hbefore)]
    rfl
  | some v =>
    have hput : entriesOf (c :: after) entry = (c, v) :: entriesOf after entry :=
      List.filterMap_cons_some (by rw [hown]; rfl)
    have htitle : c.title = name := by
      rw [Column.title, hname]
      rfl
    rw [hput, List.foldl_cons, get?_foldl_others (title_ne hentry hname hafter), Record.get?_put,
      if_pos htitle]

end

/-! The report, column by column. -/

section

variable {rows : List Row} {c : Column}

def summaryOf (rows : List Row) (c : Column) : Option NumberSummary :=
  if c.type = .number then NumberSummary.of? (c.numbers rows) else none

def described (rows : List Row) (c : Column) : ColumnReport :=
  ⟨c, c.filledRows rows, (frequencies (c.present rows)).length, summaryOf rows c⟩

theorem columnReport_eq {y : ColumnReport} (h : columnReport rows c = .ok y) : described rows c = y := by
  obtain ⟨present, hpresent, h⟩ := bind_eq_ok.mp h
  obtain ⟨unique, hunique, h⟩ := bind_eq_ok.mp h
  rw [← Except.ok.inj h, uniqueCount_eq hunique, Column.asked_eq_ok hpresent, c.length_present]
  rfl

def numberEntry (rows : List Row) (c : Column) : Option Cell := (summaryOf rows c).map summaryCell

def talliesCell (tallies : List (String × Nat)) : Cell :=
  .named (tallies.map fun f => (f.1, .integer f.2))

def textEntry (rows : List Row) (c : Column) : Option Cell :=
  if c.type = .text ∧ 0 < c.textRows rows then some (talliesCell (frequencies (c.texts rows))) else none

theorem summaryOf_isSome : (summaryOf rows c).isSome ↔ c.type = .number ∧ 0 < c.numberRows rows := by
  rw [summaryOf, ← c.length_numbers, List.length_pos_iff]
  split
  · rename_i htype
    rw [NumberSummary.isSome_of?]
    exact (and_iff_right htype).symm
  · rename_i htype
    exact iff_of_false nofun fun h => htype h.1

theorem summaryOf_eq_some {n : NumberSummary} (h : summaryOf rows c = some n) :
    NumberSummary.of? (c.numbers rows) = some n := by
  unfold summaryOf at h
  split at h
  · exact h
  · cases h

theorem textsOf_eq (rows : List Row) (c : Column) : textsOf rows c =
    if 0 < c.textRows rows then some (c, frequencies (c.texts rows)) else none := by
  change (if (c.texts rows).isEmpty then none else some (c, frequencies (c.texts rows))) = _
  simp only [← c.length_texts, List.length_pos_iff, List.isEmpty_iff, ne_eq, ite_not]

theorem numberEntry_of_nameless (h : c.name = none) : numberEntry rows c = none := by
  have hnone : ¬ (numberEntry rows c).isSome := by
    rw [numberEntry, Option.isSome_map, summaryOf_isSome]
    have hrows := c.numberRows_le rows
    rw [c.filledRows_of_nameless rows h] at hrows
    omega
  exact Option.not_isSome_iff_eq_none.mp hnone

theorem textEntry_of_nameless (h : c.name = none) : textEntry rows c = none := by
  have hrows := c.textRows_le rows
  rw [c.filledRows_of_nameless rows h] at hrows
  exact if_neg fun hpos => by omega

end

variable {year : Nat} {s : Sheet} {x : SheetReport}

theorem ofSheet_eq (h : ofSheet year s = .ok x) : ∃ trends, x = {
    name := s.name
    rows := s.rows.length
    lastUpdated := s.updatedAt
    columns := s.columns.map (described s.rows)
    trends := trends
    texts := (s.columnsOf .text).filterMap (textsOf s.rows) } := by
  obtain ⟨columns, hcolumns, h⟩ := bind_eq_ok.mp h
  obtain ⟨trends, -, h⟩ := bind_eq_ok.mp h
  have hdescribed : s.columns.map (described s.rows) = columns := by
    rw [← List.forall₂_eq_eq_eq, List.forall₂_map_left_iff]
    exact (mapM_eq_ok.mp hcolumns).imp fun _ _ => columnReport_eq
  refine ⟨trends, ?_⟩
  rw [← Except.ok.inj h, hdescribed]

def statistic (report : Cell) (part : String) (c : Column) : Option Cell :=
  c.name.bind fun name => told report ["statistics", part, name]

theorem statistic_eq {part : String} {entry : Column → Option Cell}
    (hpart : told x.toCell ["statistics", part] = some (.record (byName (entriesOf s.columns entry))))
    (hnames : (s.columns.map Column.name).Nodup) (hentry : ∀ c, c.name = none → entry c = none)
    {c : Column} (hc : c ∈ s.columns) : statistic x.toCell part c = entry c := by
  unfold statistic
  cases hname : c.name with
  | none => exact (hentry c hname).symm
  | some name =>
    have hpath : told x.toCell ["statistics", part, name] =
        (told x.toCell ["statistics", part]).bind fun d => told d [name] :=
      Outcome.told_append _ ["statistics", part] [name]
    rw [Option.bind_some, hpath, hpart, Option.bind_some, told]
    exact (Option.bind_fun_some _).trans (get?_byName hnames hentry hc hname)

theorem numericColumns_eq (h : ofSheet year s = .ok x) : told x.toCell ["statistics", "numericColumns"] =
    some (.record (byName (entriesOf s.columns (numberEntry s.rows)))) := by
  obtain ⟨trends, rfl⟩ := ofSheet_eq h
  have hentries : (s.columns.map (described s.rows)).filterMap
      (fun c => c.summary.map fun n => (c.column, summaryCell n)) =
      entriesOf s.columns (numberEntry s.rows) := by
    rw [List.filterMap_map]
    refine List.filterMap_congr fun c _ => ?_
    rw [numberEntry, Option.map_map]
    rfl
  rw [← hentries]
  rfl

theorem categoricalColumns_eq (h : ofSheet year s = .ok x) :
    told x.toCell ["statistics", "categoricalColumns"] =
      some (.record (byName (entriesOf s.columns (textEntry s.rows)))) := by
  obtain ⟨trends, rfl⟩ := ofSheet_eq h
  have hentries : ((s.columnsOf .text).filterMap (textsOf s.rows)).map
      (fun t => (t.1, talliesCell t.2)) = entriesOf s.columns (textEntry s.rows) := by
    rw [Sheet.columnsOf, List.filterMap_filter, List.map_filterMap]
    refine List.filterMap_congr fun c _ => ?_
    simp only [decide_eq_true_eq, textsOf_eq, textEntry]
    by_cases htype : c.type = .text <;> by_cases hrows : 0 < c.textRows s.rows <;> simp [htype, hrows]
  rw [← hentries]
  rfl

theorem statistics_eq (hnames : (s.columns.map Column.name).Nodup) (h : ofSheet year s = .ok x) {c : Column}
    (hc : c ∈ s.columns) :
    statistic x.toCell "numericColumns" c = numberEntry s.rows c ∧
      statistic x.toCell "categoricalColumns" c = textEntry s.rows c :=
  ⟨statistic_eq (numericColumns_eq h) hnames (fun _ => numberEntry_of_nameless) hc,
    statistic_eq (categoricalColumns_eq h) hnames (fun _ => textEntry_of_nameless) hc⟩

/-! What is told of a column, here and there. -/

/-- The counts of a column in the analysis of columns. -/
structure Fills (rows : List Row) (c : Column) (distinct : Nat) (entry : Cell) : Prop where
  name : told entry ["name"] = some (.ofText? c.name)
  filled : told entry ["nonEmptyCount"] = some (.integer (c.filledRows rows))
  unique : told entry ["uniqueValueCount"] = some (.integer distinct)
  filled_le : c.filledRows rows ≤ rows.length
  distinct_le : distinct ≤ c.filledRows rows
  distinct_eq_zero : distinct = 0 ↔ c.filledRows rows = 0

/-- The figures of a column, in the analysis of columns and in the statistics. There is an entry in the
statistics just for a column of numbers with a number in it. -/
structure Measures (rows : List Row) (c : Column) (entry : Cell) (found : Option Cell) : Prop where
  found_iff : found.isSome ↔ c.type = .number ∧ ∃ r ∈ rows, (r.cell c.name).number?.isSome
  same : ∀ key ∈ ["min", "max", "avg"], told entry [key] = found.bind fun d => told d [key]
  figures : ∀ d, found = some d → ∀ key ∈ ["min", "max", "avg"], ∃ y, told d [key] = some (.real y)
  count : ∀ d, found = some d → told d ["count"] = some (.integer (c.numberRows rows))
  count_le : c.numberRows rows ≤ c.filledRows rows

/-- The texts of a column in the statistics, each with its number of cells. There is an entry just for a
column of texts with a text in it. -/
structure Tallies (rows : List Row) (c : Column) (distinct : Nat) (found : Option Cell)
    (tallies : List (String × Nat)) : Prop where
  found_eq : found = if c.type = .text ∧ 0 < c.textRows rows then some (talliesCell tallies) else none
  nodup : (tallies.map Prod.fst).Nodup
  count : ∀ f ∈ tallies, f.2 = ((c.texts rows).map Cell.asText).count f.1
  sum : (tallies.map Prod.snd).sum = c.textRows rows
  length_le : tallies.length ≤ distinct

/-- An entry of the analysis of columns agrees with the rows and with the statistics. -/
def Reconciled (report : Cell) (rows : List Row) (c : Column) (entry : Cell) : Prop :=
  ∃ distinct tallies, Fills rows c distinct entry ∧
    Measures rows c entry (statistic report "numericColumns" c) ∧
    Tallies rows c distinct (statistic report "categoricalColumns" c) tallies

structure Urges (rows : List Row) (c : Column) (advice : Cell) : Prop where
  type : told advice ["type"] = some (.text "dataCompleteness")
  column : told advice ["column"] = some (.ofText? c.name)
  importance : told advice ["importance"] =
    some (.text (if 2 * c.filledRows rows < rows.length then "high" else "medium"))

section

variable (rows : List Row) (c : Column)

theorem fills (n : Nat) :
    Fills rows c (frequencies (c.present rows)).length (columnCell n (described rows c)) where
  name := rfl
  filled := rfl
  unique := rfl
  filled_le := c.filledRows_le rows
  distinct_le := by
    rw [← c.length_present]
    exact length_frequencies_le_length _
  distinct_eq_zero := by rw [length_frequencies_eq_zero, c.length_present]

theorem measures (n : Nat) :
    Measures rows c (columnCell n (described rows c)) (numberEntry rows c) where
  found_iff := by
    rw [numberEntry, Option.isSome_map, summaryOf_isSome, Column.numberRows, List.countP_pos_iff]
  same key hkey := by
    simp only [List.mem_cons, List.not_mem_nil, or_false] at hkey
    unfold columnCell described numberEntry
    cases summaryOf rows c <;> rcases hkey with rfl | rfl | rfl <;> rfl
  figures d hd key hkey := by
    obtain ⟨y, -, rfl⟩ := Option.map_eq_some_iff.mp hd
    simp only [List.mem_cons, List.not_mem_nil, or_false] at hkey
    rcases hkey with rfl | rfl | rfl <;> exact ⟨_, rfl⟩
  count d hd := by
    obtain ⟨y, hy, rfl⟩ := Option.map_eq_some_iff.mp hd
    rw [← c.length_numbers, ← NumberSummary.count_of? (summaryOf_eq_some hy)]
    rfl
  count_le := c.numberRows_le rows

theorem tallies : Tallies rows c (frequencies (c.present rows)).length (textEntry rows c)
    (frequencies (c.texts rows)) where
  found_eq := rfl
  nodup := nodup_frequencies _
  count _ := count_of_mem_frequencies
  sum := by rw [sum_frequencies, c.length_texts]
  length_le := length_frequencies_le (List.filter_subset_self _)

theorem urges : Urges rows c (sparseCell rows.length (described rows c)) where
  type := rfl
  column := rfl
  importance := by
    have htold : told (sparseCell rows.length (described rows c)) ["importance"] =
        some (.text (if isVerySparse rows.length (c.filledRows rows) then "high" else "medium")) := rfl
    rw [htold]
    simp only [isVerySparse, decide_eq_true_eq]

end

/-- The report on one sheet agrees with the rows and with itself, if no two columns have one name. -/
theorem ofSheet_reconciles (hnames : (s.columns.map Column.name).Nodup) (h : ofSheet year s = .ok x) :
    (∃ analysis, told x.toCell ["columnAnalysis"] = some (.list analysis) ∧
      List.Forall₂ (Reconciled x.toCell s.rows) s.columns analysis) ∧
    ∃ volume sparse, told x.toCell ["recommendations"] = some (.list (volume ++ sparse)) ∧
      (s.rows.length < 3 → ∃ v, volume = [v] ∧ told v ["type"] = some (.text "dataVolume")) ∧
      (3 ≤ s.rows.length → volume = []) ∧
      List.Forall₂ (Urges s.rows)
        (s.columns.filter fun c =>
          0 < s.rows.length ∧ 10 * c.filledRows s.rows < 7 * s.rows.length) sparse := by
  have hanalysis : ∀ c ∈ s.columns,
      Reconciled x.toCell s.rows c (columnCell s.rows.length (described s.rows c)) := by
    intro c hc
    obtain ⟨hnumbers, htexts⟩ := statistics_eq hnames h hc
    refine ⟨_, frequencies (c.texts s.rows), fills s.rows c _, ?_, ?_⟩
    · rw [hnumbers]
      exact measures s.rows c _
    · rw [htexts]
      exact tallies s.rows c
  obtain ⟨trends, rfl⟩ := ofSheet_eq h
  refine ⟨⟨(s.columns.map (described s.rows)).map (columnCell s.rows.length), rfl, ?_⟩,
    _, _, rfl, fun hfew => ⟨_, if_pos hfew, rfl⟩, fun hmany => if_neg (Nat.not_lt.mpr hmany), ?_⟩
  · rw [List.forall₂_map_right_iff, List.forall₂_map_right_iff, List.forall₂_same]
    exact hanalysis
  · have hsparse : ∀ c ∈ s.columns,
        decide (0 < s.rows.length ∧ 10 * c.filledRows s.rows < 7 * s.rows.length) =
          isSparse s.rows.length (c.filledRows s.rows) := by
      intro c _
      rw [isSparse, decide_eq_decide]
      omega
    rw [List.forall₂_map_right_iff, List.filter_map, List.forall₂_map_right_iff,
      List.filter_congr hsparse]
    exact List.forall₂_same.mpr fun c _ => urges s.rows c

/-- A number, a flag, a number that is too large and a text without letters, beside two texts, a third one
without letters and a number. -/
def mixture : Sheet :=
  ⟨"s", some "Mixture", [⟨some "n", .number, none⟩, ⟨some "t", .text, none⟩, ⟨some "f", .flag, none⟩],
    [row "a" (.integer 3) (.text "x"), row "b" (.flag true) (.text "x"),
      row "c" (.integer (10 ^ 400)) (.text ""), row "d" (.text "") (.integer 3)], .epoch, some .epoch⟩
where
  row (id : String) (n t : Cell) : Row := ⟨id, .named [("n", n), ("t", t)], .epoch, some .epoch⟩

/-- Only one number is counted, and only the column with nothing in it is to be filled. -/
theorem ofSheet_reconciles_mixture :
    (mixture.columns.map Column.name).Nodup ∧ ∃ x, ofSheet 2026 mixture = .ok x ∧
      (∃ entry, told x.toCell ["statistics", "numericColumns", "n"] = some entry ∧
        told entry ["count"] = some (.integer 1)) ∧
      ∃ advice, told x.toCell ["recommendations"] = some (.list [advice]) ∧
        told advice ["column"] = some (.text "f") ∧
        told advice ["importance"] = some (.text "high") := by
  have hnames : (mixture.columns.map Column.name).Nodup := by decide
  have hmade : ∃ x, ofSheet 2026 mixture = .ok x := by decide +kernel
  obtain ⟨x, hx⟩ := hmade
  obtain ⟨⟨analysis, -, hcolumns⟩, volume, sparse, hadvice, -, hmany, hurged⟩ :=
    ofSheet_reconciles hnames hx
  refine ⟨hnames, x, hx, ?_, ?_⟩
  · cases hcolumns with
    | cons hfirst _ =>
      obtain ⟨-, -, -, hmeasures, -⟩ := hfirst
      have hsome := hmeasures.found_iff.mpr ⟨rfl, by decide +kernel⟩
      obtain ⟨entry, hentry⟩ := Option.isSome_iff_exists.mp hsome
      have hone : (⟨some "n", .number, none⟩ : Column).numberRows mixture.rows = 1 := by decide +kernel
      exact ⟨entry, hentry, by rw [hmeasures.count entry hentry, hone]; rfl⟩
  · have hempty : (mixture.columns.filter fun c => 0 < mixture.rows.length ∧
        10 * c.filledRows mixture.rows < 7 * mixture.rows.length) = [⟨some "f", .flag, none⟩] := by
      decide +kernel
    rw [hempty, List.forall₂_cons_left_iff] at hurged
    obtain ⟨advice, rest, hfirst, hrest, rfl⟩ := hurged
    rw [hmany (by decide), List.forall₂_nil_left_iff.mp hrest] at hadvice
    have hhalf : 2 * (⟨some "f", .flag, none⟩ : Column).filledRows mixture.rows <
        mixture.rows.length := by decide +kernel
    exact ⟨advice, hadvice, hfirst.column, hfirst.importance.trans (by rw [if_pos hhalf])⟩

end SheetReport

end PlainSheets
