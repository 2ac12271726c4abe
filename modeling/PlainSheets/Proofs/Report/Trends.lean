import PlainSheets.Proofs.Query.Ranking
import PlainSheets.Proofs.Report.Returned
import Mathlib.Data.List.ProdSigma

/-!
Trends: how the numbers of a column change along the dates of another one. Main statement: two columns are
reported just when two rows or more have both a date and a number. The report then starts at the first row
of the earliest date and ends at the last row of the latest one. Without equal dates the order of the rows
is lost.
-/
namespace PlainSheets

variable {year : Nat}

open Outcome (told)

theorem Written.utc_offset {w : Written} {m : Moment} (h : w.utc = .ok m) :
    m.offset = some Offset.utc := by
  unfold Written.utc at h
  cases hm : Moment.ofInstant? w.instant with
  | none =>
    rw [hm] at h
    cases h
  | some v =>
    rw [hm] at h
    cases h
    exact (Moment.ofInstant?_spec hm).2

theorem FreeDate.read_utc {text : String} {m : Moment} (h : FreeDate.read year text = .ok (some m)) :
    m.offset = some Offset.utc := by
  unfold FreeDate.read at h
  cases hw : FreeDate.written? year text.toList with
  | none =>
    rw [hw] at h
    cases h
  | some w =>
    rw [hw] at h
    obtain ⟨v, hv, hsome⟩ := map_eq_ok.mp h
    obtain rfl := Option.some.inj hsome
    exact Written.utc_offset hv

theorem Cell.when?_utc {c : Cell} {m : Moment} (h : c.when? year = .ok (some m)) :
    m.offset = some Offset.utc := by
  unfold Cell.when? at h
  split at h
  · cases hmoment : c.moment? with
    | none =>
      rw [hmoment] at h
      cases h
    | some v =>
      rw [hmoment] at h
      obtain ⟨u, hu, hsome⟩ := map_eq_ok.mp h
      obtain rfl := Option.some.inj hsome
      exact (Moment.toUtc?_spec (Moment.utc_eq_ok.mp hu)).2
  · obtain ⟨text, -, h⟩ := bind_eq_ok.mp h
    split at h
    · cases h
    · cases hread : FreeDate.read year text with
      | error out =>
        rw [hread] at h
        cases h
      | ok w =>
        rw [hread] at h
        cases h
        exact FreeDate.read_utc hread
  · cases h

def Row.point? (year : Nat) (r : Row) (dates values : Column) : Option (Moment × Binary64) :=
  match (r.cell dates.name).when? year with
  | .ok (some d) => (r.cell values.name).number?.map (d, ·)
  | _ => none

theorem forall₂_filterMap {α β : Type} {R : α → β → Prop} {p : α → Bool} {f : α → Option β}
    {as : List α} (hsome : ∀ a ∈ as, p a = true → ∃ b, f a = some b ∧ R a b)
    (hnone : ∀ a ∈ as, p a = false → f a = none) :
    List.Forall₂ R (as.filter p) (as.filterMap f) := by
  induction as with
  | nil => exact .nil
  | cons a as ih =>
    rw [List.forall_mem_cons] at hsome hnone
    have hrest := ih hsome.2 hnone.2
    cases ha : p a with
    | true =>
      obtain ⟨b, hb, hab⟩ := hsome.1 ha
      rw [List.filter_cons_of_pos ha, List.filterMap_cons_some hb]
      exact .cons hab hrest
    | false =>
      rw [List.filter_cons_of_neg (by simp [ha]), List.filterMap_cons_none (hnone.1 ha)]
      exact hrest

namespace SheetReport

/-- The points of the rows that have both a date and a number, in the order of the rows. -/
def usable (year : Nat) (dates values : Column) (rows : List Row) : List (Moment × Binary64) :=
  rows.filterMap fun r => r.point? year dates values

def pairs (s : Sheet) : List (Column × Column) := s.columnsOf .date ×ˢ s.columnsOf .number

/-- The first one of the earliest points. -/
def StartsAt (points : List (Moment × Binary64)) (p : Moment × Binary64) : Prop :=
  (∀ q ∈ points, p.1.instant ≤ q.1.instant) ∧
    (points.filter fun q => q.1.instant = p.1.instant).head? = some p

/-- The last one of the latest points. -/
def EndsAt (points : List (Moment × Binary64)) (p : Moment × Binary64) : Prop :=
  (∀ q ∈ points, q.1.instant ≤ p.1.instant) ∧
    (points.filter fun q => q.1.instant = p.1.instant).getLast? = some p

/-- What an entry of the report tells of the points of two columns. -/
structure Describes (columns : Column × Column) (points : List (Moment × Binary64)) (entry : Cell) :
    Prop where
  dates : told entry ["dateColumn"] = some (.ofText? columns.1.name)
  values : told entry ["valueColumn"] = some (.ofText? columns.2.name)
  size : told entry ["dataPoints"] = some (.integer points.length)
  start : ∃ p, StartsAt points p ∧ told entry ["startDate"] = some (.moment p.1) ∧
    told entry ["startValue"] = some (.real p.2)
  finish : ∃ p, EndsAt points p ∧ told entry ["endDate"] = some (.moment p.1) ∧
    told entry ["endValue"] = some (.real p.2)

section

variable {dates values : Column} {rows : List Row}

def place (p : Moment × Binary64) : Int := p.1.instant

theorem usable_utc {p : Moment × Binary64} (hp : p ∈ usable year dates values rows) :
    p.1.offset = some Offset.utc := by
  obtain ⟨r, -, hr⟩ := List.mem_filterMap.mp hp
  unfold Row.point? at hr
  split at hr
  · rename_i d hd
    obtain ⟨x, -, rfl⟩ := Option.map_eq_some_iff.mp hr
    exact Cell.when?_utc hd
  · cases hr

theorem nodup_place (h : ((usable year dates values rows).map Prod.fst).Nodup) :
    ((usable year dates values rows).map place).Nodup := by
  have hinstants : (usable year dates values rows).map place =
      ((usable year dates values rows).map Prod.fst).map Moment.instant := by
    rw [List.map_map]
    rfl
  rw [hinstants]
  refine h.map_on fun a ha b hb hab => ?_
  obtain ⟨p, hp, rfl⟩ := List.mem_map.mp ha
  obtain ⟨q, hq, rfl⟩ := List.mem_map.mp hb
  exact Moment.eq_of_instant_eq ((usable_utc hp).trans (usable_utc hq).symm) hab

theorem point_eq {r : Row} (h : ∃ w, (r.cell dates.name).when? year = .ok w) :
    point year dates values r = .ok (r.point? year dates values) := by
  obtain ⟨w, hw⟩ := h
  unfold point Row.point?
  rw [hw]
  cases w <;> rfl

theorem timeSeries_eq (h : ∀ r ∈ rows, ∃ w, (r.cell dates.name).when? year = .ok w) :
    timeSeries year dates values rows =
      .ok ((usable year dates values rows).mergeSort fun p q => place p ≤ place q) := by
  have hpoints : rows.mapM (point year dates values) = .ok (rows.map fun r => r.point? year dates values) :=
    mapM_eq_ok_map fun r hr => point_eq (h r hr)
  unfold timeSeries
  rw [hpoints]
  change Except.ok (((rows.map fun r => r.point? year dates values).filterMap id).mergeSort _) = _
  rw [List.filterMap_map]
  rfl

end

variable {dates values : Column} {points : List (Moment × Binary64)}

theorem trendOf_short (h : points.length < 2) : trendOf dates values points = none := by
  unfold trendOf
  split
  · simp only [List.length_cons] at h
    omega
  · rfl

theorem trendOf_long (dates values : Column) (h : 2 ≤ points.length) :
    ∃ first last, points.head? = some first ∧ points.getLast? = some last ∧
      trendOf dates values points =
        some ⟨dates, values, Statistics.trend (points.map Prod.snd), points.length, first, last⟩ := by
  obtain ⟨first, second, rest, rfl⟩ : ∃ first second rest, points = first :: second :: rest := by
    cases points with
    | nil => cases h
    | cons first points =>
      obtain ⟨second, rest, rfl⟩ := List.exists_cons_of_length_pos (Nat.lt_of_succ_lt_succ h)
      exact ⟨first, second, rest, rfl⟩
  have hlast := List.getLast?_eq_some_getLast (List.cons_ne_nil first (second :: rest))
  refine ⟨first, _, rfl, hlast, ?_⟩
  unfold trendOf
  simp only [hlast]

theorem trendOf_describes (hlong : 2 ≤ points.length) {t : TrendReport}
    (h : trendOf dates values (points.mergeSort fun p q => place p ≤ place q) = some t) :
    Describes (dates, values) points (trendCell t) := by
  have hlength := length_mergeSort_key place points
  obtain ⟨first, last, hfirst, hlast, hsome⟩ := trendOf_long dates values (hlength ▸ hlong)
  rw [hsome] at h
  obtain rfl := Option.some.inj h
  rw [hlength]
  exact {
    dates := rfl
    values := rfl
    size := rfl
    start := ⟨first, head?_mergeSort_key place hfirst, rfl, rfl⟩
    finish := ⟨last, getLast?_mergeSort_key place hlast, rfl, rfl⟩ }

variable {s : Sheet}

def trendBy (year : Nat) (rows : List Row) (p : Column × Column) : Option TrendReport :=
  trendOf p.1 p.2 ((usable year p.1 p.2 rows).mergeSort fun p q => place p ≤ place q)

theorem trendsOf_eq (h : ∀ d ∈ s.columnsOf .date, ∀ r ∈ s.rows, ∃ w, (r.cell d.name).when? year = .ok w) :
    trendsOf year s = .ok ((pairs s).filterMap (trendBy year s.rows)) := by
  have hfound : ((pairs s).mapM fun p => do
      let points ← timeSeries year p.1 p.2 s.rows
      .ok (trendOf p.1 p.2 points)) = .ok ((pairs s).map (trendBy year s.rows)) := by
    refine mapM_eq_ok_map fun p hp => ?_
    rw [timeSeries_eq (h p.1 (List.mem_product.mp hp).1)]
    rfl
  unfold trendsOf
  change ((pairs s).mapM _ >>= _) = _
  rw [hfound]
  change Except.ok (((pairs s).map (trendBy year s.rows)).filterMap id) = _
  rw [List.filterMap_map]
  rfl

/-- The trends of a sheet whose dates can be told. Two columns are reported, in the order of the columns,
just when two rows or more have both a date and a number, and the entry tells what the first and the last
of them hold. The same rows in another order give the same trends if no two of them have one date. -/
theorem trendsOf_reports (s : Sheet)
    (hdates : ∀ d ∈ s.columnsOf .date, ∀ r ∈ s.rows, ∃ w, (r.cell d.name).when? year = .ok w) :
    ∃ trends, trendsOf year s = .ok trends ∧
      List.Forall₂ (fun p entry => Describes p (usable year p.1 p.2 s.rows) entry)
        ((pairs s).filter fun p => 2 ≤ (usable year p.1 p.2 s.rows).length) (trends.map trendCell) ∧
      ∀ rows : List Row, rows.Perm s.rows →
        (∀ p ∈ pairs s, ((usable year p.1 p.2 s.rows).map Prod.fst).Nodup) →
        trendsOf year { s with rows := rows } = .ok trends := by
  refine ⟨_, trendsOf_eq hdates, ?_, fun rows hperm hdistinct => ?_⟩
  · rw [List.forall₂_map_right_iff]
    apply forall₂_filterMap
    · intro p _ hlong
      rw [decide_eq_true_eq] at hlong
      have hlength := length_mergeSort_key place (usable year p.1 p.2 s.rows)
      obtain ⟨first, last, -, -, ht⟩ := trendOf_long p.1 p.2 (hlength ▸ hlong)
      exact ⟨_, ht, trendOf_describes hlong ht⟩
    · intro p _ hshort
      rw [decide_eq_false_iff_not, Nat.not_le] at hshort
      apply trendOf_short
      rwa [length_mergeSort_key]
  · have hsame : ∀ p ∈ pairs s, trendBy year rows p = trendBy year s.rows p := by
      intro p hp
      have hpoints : (usable year p.1 p.2 s.rows).Perm (usable year p.1 p.2 rows) := hperm.symm.filterMap _
      rw [trendBy, trendBy, mergeSort_key_of_perm place hpoints (nodup_place (hdistinct p hp))]
    have hdates' : ∀ d ∈ s.columnsOf .date, ∀ r ∈ rows, ∃ w, (r.cell d.name).when? year = .ok w :=
      fun d hd r hr => hdates d hd r (hperm.subset hr)
    rw [trendsOf_eq (s := { s with rows := rows }) hdates', ← List.filterMap_congr hsame]
    rfl

def saleColumns : Column × Column := (⟨some "d", .date, none⟩, ⟨some "n", .number, none⟩)

/-- A date, a date in text, a text that names no date, and a number that is none. -/
def sales : Sheet :=
  ⟨"s", some "Sales", [saleColumns.1, saleColumns.2],
    [sale "a" (.moment ⟨(Date.of? 2023 6 1).get (by decide), .midnight, none⟩) (.integer 20),
      sale "b" (.text "2023-01-01") (.integer 10), sale "c" (.text "soon") (.integer 50),
      sale "d" (.moment .epoch) (.text "5")], .epoch, some .epoch⟩
where
  sale (id : String) (date number : Cell) : Row :=
    ⟨id, .named [("d", date), ("n", number)], .epoch, some .epoch⟩

def salePoints : List (Moment × Binary64) := usable 2026 saleColumns.1 saleColumns.2 sales.rows

/-- There is one trend, from the second row to the first one, and it is the same from below. -/
theorem trendsOf_reports_sales :
    (∀ d ∈ sales.columnsOf .date, ∀ r ∈ sales.rows, ∃ w, (r.cell d.name).when? 2026 = .ok w) ∧
    ∃ entry, (∃ trends, trendsOf 2026 sales = .ok trends ∧ trends.map trendCell = [entry] ∧
        trendsOf 2026 { sales with rows := sales.rows.reverse } = .ok trends) ∧
      told entry ["dataPoints"] = some (.integer salePoints.length) ∧
      told entry ["startValue"] = some (.real (Binary64.ofNat 10)) ∧
      told entry ["endValue"] = some (.real (Binary64.ofNat 20)) := by
  have hdates : ∀ d ∈ sales.columnsOf .date, ∀ r ∈ sales.rows,
      ∃ w, (r.cell d.name).when? 2026 = .ok w := by
    decide +kernel
  have hpairs : ((pairs sales).filter fun p => 2 ≤ (usable 2026 p.1 p.2 sales.rows).length) =
      [saleColumns] := by decide +kernel
  have hten : ∀ p ∈ salePoints, (∀ q ∈ salePoints, p.1.instant ≤ q.1.instant) →
      p.2 = Binary64.ofNat 10 := by decide +kernel
  have htwenty : ∀ p ∈ salePoints, (∀ q ∈ salePoints, q.1.instant ≤ p.1.instant) →
      p.2 = Binary64.ofNat 20 := by decide +kernel
  obtain ⟨trends, htrends, hentries, hperm⟩ := trendsOf_reports sales hdates
  rw [hpairs, List.forall₂_cons_left_iff] at hentries
  obtain ⟨entry, rest, hentry, hrest, heq⟩ := hentries
  rw [List.forall₂_nil_left_iff.mp hrest] at heq
  have hreversed := hperm sales.rows.reverse (List.reverse_perm _) (by decide +kernel)
  refine ⟨hdates, entry, ⟨trends, htrends, heq, hreversed⟩, hentry.size, ?_, ?_⟩
  · obtain ⟨p, ⟨hleast, hfirst⟩, -, hvalue⟩ := hentry.start
    rw [hvalue, hten p (List.mem_of_mem_filter (List.mem_of_head? hfirst)) hleast]
  · obtain ⟨p, ⟨hgreatest, hlast⟩, -, hvalue⟩ := hentry.finish
    rw [hvalue, htwenty p (List.mem_of_mem_filter (List.mem_of_getLast? hlast)) hgreatest]

end SheetReport

end PlainSheets
