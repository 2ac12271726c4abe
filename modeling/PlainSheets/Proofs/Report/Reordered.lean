import PlainSheets.Proofs.Query.Comparison
import PlainSheets.Proofs.Report.Ranks
import PlainSheets.Proofs.Report.Reconciled

/-!
The report on one sheet when its rows are in another order. Main statement: the report is made as before,
and what it tells of each column is the same: how many cells are filled, how many distinct texts there are,
the least, the greatest and the middle number, and how often each text occurs. Means and sums are left out,
since they are rounded in the order of the rows, and so are trends, where rows of one date stay in order.
-/
namespace PlainSheets

open Outcome (told)

theorem rel_map {α β γ δ : Type} {R : α → β → Prop} {S : γ → δ → Prop} {f : α → γ} {g : β → δ}
    {a : Option α} {b : Option β} (h : Option.Rel R a b) (hmap : ∀ a b, R a b → S (f a) (g b)) :
    Option.Rel S (a.map f) (b.map g) := by
  cases h with
  | none => exact .none
  | some hab => exact .some (hmap _ _ hab)

theorem Cell.isNaN_of_number {c : Cell} {x : Binary64} (h : c.number? = some x) : x.isNaN = false := by
  obtain ⟨n, -, hn⟩ := Option.bind_eq_some_iff.mp h
  rcases n.toReal?_cases with ⟨y, hy, -, hreal, -⟩ | ⟨hnone, -⟩
  · rw [hreal] at hn
    exact Option.some.inj hn ▸ hy
  · rw [hnone] at hn
    cases hn

/-- Two cells with one number. The two zeros are one number. -/
def Cell.SameNumber (a b : Cell) : Prop := ∃ x y, a = .real x ∧ b = .real y ∧ x.eqv y

namespace NumberSummary

variable {xs ys : List Binary64}

/-- What two summaries share that are made of the same numbers in different orders. -/
structure Agrees (m n : NumberSummary) : Prop where
  min : m.min.eqv n.min
  max : m.max.eqv n.max
  median : m.median.eqv n.median
  count : m.count = n.count

theorem of?_perm (hperm : xs.Perm ys) (h : ∀ x ∈ xs, x.isNaN = false) :
    Option.Rel Agrees (of? xs) (of? ys) := by
  by_cases hempty : xs = []
  · subst hempty
    rw [hperm.nil_eq.symm]
    exact .none
  · have hempty' : ys ≠ [] := fun hnil => hempty (hnil ▸ hperm).eq_nil
    obtain ⟨m, hm⟩ := Option.isSome_iff_exists.mp ((isSome_of? xs).mpr hempty)
    obtain ⟨n, hn⟩ := Option.isSome_iff_exists.mp ((isSome_of? ys).mpr hempty')
    have h' : ∀ y ∈ ys, y.isNaN = false := fun y hy => h y (hperm.symm.subset hy)
    obtain ⟨hmin, hmax, hmedian⟩ := (ranked_of? h hm).eqv_of_perm (ranked_of? h' hn) hperm h
    have hcount : m.count = n.count := by rw [count_of? hm, count_of? hn, hperm.length_eq]
    rw [hm, hn]
    exact .some ⟨hmin, hmax, hmedian, hcount⟩

/-- A summary is made of any numbers, and its figures are in their places. -/
theorem exists_ranked (hxs : xs ≠ []) (h : ∀ x ∈ xs, x.isNaN = false) :
    ∃ n, of? xs = some n ∧ n.Ranked xs ∧ n.min.le n.median ∧ n.median.le n.max := by
  obtain ⟨n, hn⟩ := Option.isSome_iff_exists.mp ((isSome_of? xs).mpr hxs)
  have hranked := ranked_of? h hn
  exact ⟨n, hn, hranked, hranked.min_le _ hranked.median_mem, hranked.le_max _ hranked.median_mem⟩

end NumberSummary

def Record.Matched (R : Cell → Cell → Prop) (r t : Record) : Prop :=
  List.Forall₂ (fun f g => f.1 = g.1 ∧ R f.2 g.2) r t

theorem Record.Matched.put {R : Cell → Cell → Prop} {r t : Record} (h : r.Matched R t) {k : Atom}
    {v w : Cell} (hvw : R v w) : (r.put k v).Matched R (t.put k w) := by
  induction h with
  | nil => exact .cons ⟨rfl, hvw⟩ .nil
  | @cons f g r t hfg hrest ih =>
    rw [Record.put_cons, Record.put_cons, ← hfg.1]
    split
    · exact .cons ⟨rfl, hvw⟩ hrest
    · exact .cons hfg ih

/-! Texts in another order. -/

theorem Record.get?_texts (texts : List String) (value : String → Cell) (name : String) :
    Record.get? (texts.map fun t => (.text t, value t)) name =
      if name ∈ texts then some (value name) else none := by
  induction texts with
  | nil => rfl
  | cons t texts ih =>
    rw [List.map_cons, Record.get?, ih]
    by_cases ht : t = name
    · subst ht
      have hkey : (Atom.text t).text? = some t := rfl
      rw [if_pos hkey, if_pos List.mem_cons_self]
    · have hkey : (Atom.text t).text? ≠ some name := fun h => ht (Option.some.inj h)
      have hmem : name ∈ t :: texts ↔ name ∈ texts := by
        rw [List.mem_cons, or_iff_right (Ne.symm ht)]
      simp only [if_neg hkey, hmem]

section

variable {cells others : List Cell}

theorem frequencies_perm (h : cells.Perm others) : (frequencies cells).Perm (frequencies others) := by
  have htexts : (cells.map Cell.asText).Perm (others.map Cell.asText) := h.map _
  have hdistinct : (cells.map Cell.asText).eraseDups.Perm (others.map Cell.asText).eraseDups :=
    (eraseDups_perm_dedup _).trans (htexts.dedup.trans (eraseDups_perm_dedup _).symm)
  rw [frequencies_eq, frequencies_eq]
  simp only [htexts.count_eq]
  exact hdistinct.map _

end

namespace SheetReport

theorem told_tallies (cells : List Cell) (text : String) :
    told (talliesCell (frequencies cells)) [text] =
      if text ∈ cells.map Cell.asText then some (.integer ((cells.map Cell.asText).count text))
      else none := by
  have hfields : (talliesCell (frequencies cells)).fields = (cells.map Cell.asText).eraseDups.map
      fun t => (.text t, .integer ((cells.map Cell.asText).count t)) := by
    rw [talliesCell, frequencies_eq, Cell.named, Cell.fields, List.map_map, List.map_map]
    rfl
  rw [told, hfields, Record.get?_texts]
  simp only [List.mem_eraseDups]
  exact Option.bind_fun_some _

/-! What is the same in two reports. -/

/-- Two entries of the analysis of columns that tell the same, means apart. -/
structure SameAnalysis (a b : Cell) : Prop where
  counts : ∀ key ∈ ["name", "type", "nonEmptyCount", "uniqueValueCount", "completeness"],
    ∃ v, told a [key] = some v ∧ told b [key] = some v
  extremes : ∀ key ∈ ["min", "max"], Option.Rel Cell.SameNumber (told a [key]) (told b [key])

/-- Two entries of columns of numbers that tell the same, means and sums apart. -/
structure SameFigures (a b : Cell) : Prop where
  numbers : ∀ key ∈ ["min", "max", "median"],
    ∃ v w, told a [key] = some v ∧ told b [key] = some w ∧ v.SameNumber w
  count : ∃ n, told a ["count"] = some (.integer n) ∧ told b ["count"] = some (.integer n)

/-- Two entries of columns of texts that tell the same number of every text. -/
structure SameTallies (a b : Cell) : Prop where
  fields : a.fields.Perm b.fields
  texts : ∀ text, told a [text] = told b [text]

def SameFields (R : Cell → Cell → Prop) (a b : Option Cell) : Prop :=
  ∃ r t, a = some (.record r) ∧ b = some (.record t) ∧ Record.Matched R r t

/-- Two reports that tell the same of every column. -/
structure SameStatistics (a b : Cell) : Prop where
  analysis : ∃ xs ys, told a ["columnAnalysis"] = some (.list xs) ∧
    told b ["columnAnalysis"] = some (.list ys) ∧ List.Forall₂ SameAnalysis xs ys
  numbers : SameFields SameFigures (told a ["statistics", "numericColumns"])
    (told b ["statistics", "numericColumns"])
  texts : SameFields SameTallies (told a ["statistics", "categoricalColumns"])
    (told b ["statistics", "categoricalColumns"])

section

variable {R : Cell → Cell → Prop}

theorem byName_related {entry other : Column → Option Cell}
    (h : ∀ c, Option.Rel R (entry c) (other c)) (columns : List Column) :
    Record.Matched R (byName (entriesOf columns entry)) (byName (entriesOf columns other)) := by
  have hentries : List.Forall₂ (fun e d => e.1 = d.1 ∧ R e.2 d.2) (entriesOf columns entry)
      (entriesOf columns other) := by
    refine List.rel_filterMap (R := Eq) ?_ (List.forall₂_refl columns)
    rintro c _ rfl
    exact rel_map (h c) fun _ _ hvw => ⟨rfl, hvw⟩
  refine List.rel_foldl (P := Record.Matched R) ?_ .nil hentries
  rintro r t hrt ⟨c, v⟩ ⟨_, w⟩ ⟨rfl, hvw⟩
  exact hrt.put hvw

end

section

variable {rows others : List Row} (hperm : rows.Perm others) (c : Column)

include hperm

theorem summaryOf_perm : Option.Rel NumberSummary.Agrees (summaryOf rows c) (summaryOf others c) := by
  unfold summaryOf
  split
  · refine NumberSummary.of?_perm ((hperm.map _).filterMap _) fun x hx => ?_
    obtain ⟨v, -, hv⟩ := List.mem_filterMap.mp hx
    exact Cell.isNaN_of_number hv
  · exact .none

theorem present_perm : (c.present rows).Perm (c.present others) := (hperm.map _).filter _

theorem columnCell_perm : SameAnalysis (columnCell rows.length (described rows c))
    (columnCell others.length (described others c)) := by
  have hfilled : c.filledRows rows = c.filledRows others := hperm.countP_eq _
  have hunique : (frequencies (c.present rows)).length = (frequencies (c.present others)).length :=
    (frequencies_perm (present_perm hperm c)).length_eq
  unfold columnCell described completeness
  rw [hfilled, hunique, hperm.length_eq]
  have hsummary := summaryOf_perm hperm c
  generalize summaryOf rows c = m at hsummary
  generalize summaryOf others c = n at hsummary
  constructor
  · intro key hkey
    simp only [List.mem_cons, List.not_mem_nil, or_false] at hkey
    rcases hkey with rfl | rfl | rfl | rfl | rfl <;> exact ⟨_, rfl, rfl⟩
  · intro key hkey
    simp only [List.mem_cons, List.not_mem_nil, or_false] at hkey
    cases hsummary with
    | none => rcases hkey with rfl | rfl <;> exact .none
    | some hagrees =>
      rcases hkey with rfl | rfl
      · exact .some ⟨_, _, rfl, rfl, hagrees.min⟩
      · exact .some ⟨_, _, rfl, rfl, hagrees.max⟩

theorem numberEntry_perm : Option.Rel SameFigures (numberEntry rows c) (numberEntry others c) := by
  refine rel_map (summaryOf_perm hperm c) fun m n hagrees => ⟨fun key hkey => ?_, ?_⟩
  · simp only [List.mem_cons, List.not_mem_nil, or_false] at hkey
    rcases hkey with rfl | rfl | rfl
    · exact ⟨_, _, rfl, rfl, _, _, rfl, rfl, hagrees.min⟩
    · exact ⟨_, _, rfl, rfl, _, _, rfl, rfl, hagrees.max⟩
    · exact ⟨_, _, rfl, rfl, _, _, rfl, rfl, hagrees.median⟩
  · exact ⟨_, rfl, by rw [hagrees.count]; rfl⟩

theorem textEntry_perm : Option.Rel SameTallies (textEntry rows c) (textEntry others c) := by
  have hrows : c.textRows rows = c.textRows others := hperm.countP_eq _
  have htexts : (c.texts rows).Perm (c.texts others) := (present_perm hperm c).filter _
  unfold textEntry
  rw [hrows]
  split
  · refine .some ⟨((frequencies_perm htexts).map _).map _, fun text => ?_⟩
    have hshown := htexts.map Cell.asText
    simp only [told_tallies, hshown.mem_iff, hshown.count_eq]
  · exact .none

end

variable {year : Nat} {s : Sheet} {rows : List Row}

theorem ofSheet_isOk_perm (hperm : s.rows.Perm rows) (h : ∃ x, ofSheet year s = .ok x) :
    ∃ y, ofSheet year { s with rows := rows } = .ok y := by
  obtain ⟨hcolumns, htrends⟩ := ofSheet_isOk_iff.mp h
  rw [exists_mapM_eq_ok] at hcolumns
  rw [trendsOf_isOk_iff] at htrends
  simp only [columnReport_isOk_iff, hperm.mem_iff] at hcolumns htrends
  rw [ofSheet_isOk_iff, exists_mapM_eq_ok, trendsOf_isOk_iff]
  simp only [columnReport_isOk_iff]
  exact ⟨hcolumns, htrends⟩

variable {x y : SheetReport}

theorem columnAnalysis_eq (h : ofSheet year s = .ok x) : told x.toCell ["columnAnalysis"] =
    some (.list (s.columns.map fun c => columnCell s.rows.length (described s.rows c))) := by
  obtain ⟨trends, rfl⟩ := ofSheet_eq h
  have hcells : (s.columns.map (described s.rows)).map (columnCell s.rows.length) =
      s.columns.map fun c => columnCell s.rows.length (described s.rows c) := List.map_map
  rw [← hcells]
  rfl

theorem sameStatistics_of_perm (hperm : s.rows.Perm rows) (hx : ofSheet year s = .ok x)
    (hy : ofSheet year { s with rows := rows } = .ok y) : SameStatistics x.toCell y.toCell where
  analysis := by
    refine ⟨_, _, columnAnalysis_eq hx, columnAnalysis_eq hy, ?_⟩
    rw [List.forall₂_map_left_iff, List.forall₂_map_right_iff, List.forall₂_same]
    exact fun c _ => columnCell_perm hperm c
  numbers := ⟨_, _, numericColumns_eq hx, numericColumns_eq hy,
    byName_related (numberEntry_perm hperm) s.columns⟩
  texts := ⟨_, _, categoricalColumns_eq hx, categoricalColumns_eq hy,
    byName_related (textEntry_perm hperm) s.columns⟩

/-- The report on the same rows in another order is made, and tells the same of every column. The least, the
middle and the greatest one of any numbers are among them and in this order; half of the numbers, rounded
down, is the most that can be below the middle one, and the rest without it the most that can be above. -/
theorem ofSheet_reordered :
    (∀ (year : Nat) (s : Sheet) (x : SheetReport) (rows : List Row),
      ofSheet year s = .ok x → rows.Perm s.rows →
      ∃ y, ofSheet year { s with rows := rows } = .ok y ∧ SameStatistics x.toCell y.toCell) ∧
    ∀ xs : List Binary64, xs ≠ [] → (∀ x ∈ xs, x.isNaN = false) →
      ∃ n, NumberSummary.of? xs = some n ∧ n.Ranked xs ∧ n.min.le n.median ∧ n.median.le n.max := by
  refine ⟨fun year s x rows hx hperm => ?_, fun xs => NumberSummary.exists_ranked⟩
  obtain ⟨y, hy⟩ := ofSheet_isOk_perm hperm.symm ⟨x, hx⟩
  exact ⟨y, hy, sameStatistics_of_perm hperm.symm hx hy⟩

def gauge : Sheet :=
  ⟨"g", some "Gauge", [⟨some "n", .number, none⟩, ⟨some "t", .text, none⟩],
    [row "a" (.real (.zero true)) (.text "x"), row "b" (.real (.infinite false)) (.text "y"),
      row "c" (.integer 3) (.text "x"), row "d" (.real (.zero false)) (.flag true)],
    .epoch, some .epoch⟩
where
  row (id : String) (n t : Cell) : Row := ⟨id, .named [("n", n), ("t", t)], .epoch, some .epoch⟩

def gaugeNumbers : List Binary64 := (⟨some "n", .number, none⟩ : Column).numbers gauge.rows

/-- From below, the report tells the same; the middle one of the four numbers is the third smallest. -/
theorem ofSheet_reordered_gauge :
    (∃ x y, ofSheet 2026 gauge = .ok x ∧
      ofSheet 2026 { gauge with rows := gauge.rows.reverse } = .ok y ∧
      SameStatistics x.toCell y.toCell) ∧
    ∃ n, NumberSummary.of? gaugeNumbers = some n ∧ n.Ranked gaugeNumbers ∧
      n.median = Binary64.ofNat 3 := by
  have hmade : ∃ x, ofSheet 2026 gauge = .ok x := by decide +kernel
  obtain ⟨x, hx⟩ := hmade
  obtain ⟨y, hy, hsame⟩ := ofSheet_reordered.1 2026 gauge x gauge.rows.reverse hx
    (List.reverse_perm _)
  obtain ⟨n, hn, hranked, -⟩ :=
    ofSheet_reordered.2 gaugeNumbers (by decide +kernel) (by decide +kernel)
  have hmiddle : ∀ m ∈ gaugeNumbers,
      gaugeNumbers.countP (fun z => z.lt m) ≤ gaugeNumbers.length / 2 →
      gaugeNumbers.countP (fun z => m.lt z) ≤ gaugeNumbers.length - 1 - gaugeNumbers.length / 2 →
      m = Binary64.ofNat 3 := by decide +kernel
  exact ⟨⟨x, y, hx, hy, hsame⟩, n, hn, hranked,
    hmiddle n.median hranked.median_mem hranked.below hranked.above⟩

end SheetReport

end PlainSheets
