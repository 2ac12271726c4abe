import PlainSheets.Proofs.Cell.Order
import PlainSheets.Proofs.Query.Found
import PlainSheets.Proofs.Sorting

/-!
Which rows an intent returns, and in which order: the rows that pass its filters, each at most once,
the first of them in the order of the sort. Rows with equal keys stay in the order of the sheet, in
both directions.
-/
namespace PlainSheets

namespace SortSpec

def order (s : SortSpec) (a b : SortKey) : Ordering :=
  if s.descending then b.order a else a.order b

instance (s : SortSpec) : Std.TransCmp s.order := by
  unfold order
  cases s.descending with
  | true => exact inferInstanceAs (Std.TransCmp (flip SortKey.order))
  | false => exact inferInstanceAs (Std.TransCmp SortKey.order)

theorem sortByKey_eq {α : Type} (s : SortSpec) (keyed : List (SortKey × α)) :
    sortByKey s.descending keyed = keyed.mergeSort fun a b => (s.order a.1 b.1).isLE := by
  unfold sortByKey order
  simp only [SortKey.le_eq_isLE]
  cases s.descending <;> rfl

end SortSpec

namespace Intent

def matching (i : Intent) (sheet : Sheet) : List Row :=
  sheet.rows.filter fun r => r.passesAll i.filters

/-- Whether a row comes before another one. Each row is given with its place in the sheet, which
counts when there is no sort, and when the keys are equal. -/
def Before (i : Intent) (a b : Row × Nat) : Prop :=
  match i.sort with
  | none => a.2 < b.2
  | some s => ∃ x y, (a.1.lookup s.field).sortKey = .ok x ∧ (b.1.lookup s.field).sortKey = .ok y ∧
      (s.order x y = .lt ∨ s.order x y = .eq ∧ a.2 < b.2)

end Intent

theorem keyed_rows {field : String} {rows : List Row} {keyed : List (SortKey × Row)}
    (h : rows.mapM (Row.keyed field) = .ok keyed) :
    keyed.map Prod.snd = rows ∧ ∀ p ∈ keyed, (p.2.lookup field).sortKey = .ok p.1 := by
  rw [mapM_eq_ok] at h
  induction h with
  | nil => simp
  | @cons r p rows keyed hr _ ih =>
    obtain ⟨-, hkey, rfl⟩ := Row.keyed_eq_ok.mp hr
    rw [List.map_cons, ih.1, List.forall_mem_cons]
    exact ⟨rfl, hkey, ih.2⟩

theorem sortRows_arranged {i : Intent} {s : SortSpec} (hs : i.sort = some s)
    {rows sorted : List Row} (h : sortRows s rows = .ok sorted) :
    ∃ arranged : List (Row × Nat), arranged.Perm rows.zipIdx ∧ arranged.Pairwise i.Before ∧
      arranged.map Prod.fst = sorted := by
  obtain ⟨keyed, hkeyed, h⟩ := bind_eq_ok.mp h
  obtain rfl := Except.ok.inj h
  have hkeys := keyed_rows hkeyed
  obtain ⟨arranged, hperm, hsorted, hfst⟩ :=
    mergeSort_stable (Ordering.byKey Prod.fst s.order) keyed
  refine ⟨arranged.map (Prod.map Prod.snd id), ?_, ?_, ?_⟩
  · rw [← hkeys.1, List.zipIdx_map]
    exact hperm.map _
  · have hmem : ∀ a ∈ arranged, (a.1.2.lookup s.field).sortKey = .ok a.1.1 := by
      intro a ha
      apply hkeys.2
      exact List.fst_mem_of_mem_zipIdx (hperm.subset ha)
    rw [List.pairwise_map]
    apply hsorted.imp_of_mem
    intro a b ha hb hab
    unfold Intent.Before
    rw [hs]
    exact ⟨a.1.1, b.1.1, hmem a ha, hmem b hb, hab⟩
  · rw [s.sortByKey_eq]
    change _ = List.map Prod.snd (keyed.mergeSort fun a b =>
      (Ordering.byKey Prod.fst s.order a b).isLE)
    rw [← hfst, List.map_map, List.map_map]
    rfl

theorem zipIdx_before {i : Intent} (hs : i.sort = none) (rows : List Row) :
    rows.zipIdx.Pairwise i.Before := by
  have hplaces : (rows.zipIdx.map Prod.snd).Pairwise (· < ·) := by
    rw [List.zipIdx_map_snd]
    exact List.pairwise_lt_range'
  apply (List.pairwise_map.mp hplaces).imp
  intro a b hab
  unfold Intent.Before
  rw [hs]
  exact hab

def Intent.sorted (i : Intent) (rows : List Row) : Except Failure (List Row) :=
  match i.sort with
  | some s => sortRows s rows
  | none => .ok rows

theorem Intent.sorted_arranged {i : Intent} {rows sorted : List Row}
    (h : i.sorted rows = .ok sorted) :
    ∃ arranged : List (Row × Nat), arranged.Perm rows.zipIdx ∧ arranged.Pairwise i.Before ∧
      arranged.map Prod.fst = sorted := by
  unfold Intent.sorted at h
  cases hs : i.sort with
  | none =>
    rw [hs] at h
    obtain rfl := Except.ok.inj h
    exact ⟨rows.zipIdx, .refl _, zipIdx_before hs rows, List.zipIdx_map_fst 0 rows⟩
  | some s =>
    rw [hs] at h
    exact sortRows_arranged hs h

namespace Outcome

def told (c : Cell) : List String → Option Cell
  | [] => some c
  | name :: path => (Record.get? c.fields name).bind fun d => told d path

theorem told_append (c : Cell) (path rest : List String) :
    told c (path ++ rest) = (told c path).bind fun d => told d rest := by
  induction path generalizing c with
  | nil => rfl
  | cons name path ih =>
    rw [List.cons_append, told, told, Option.bind_assoc]
    simp only [ih]

variable {i : Intent} {sheet : Sheet} {o : Outcome}

theorem limited_more {α : Type} {limit more : Int} (h : limit ≤ more) (rows : List α) :
    limited limit rows <+: limited more rows := by
  unfold limited
  apply List.take_prefix_take_left
  omega

theorem ofIntent_count (haction : i.action = .count) : ofIntent i (some sheet) =
    (matchingRows i.filters sheet.rows).map fun matching =>
      .counted sheet.name i matching.length := by
  unfold ofIntent
  simp only [haction, if_true]
  cases matchingRows i.filters sheet.rows <;> rfl

theorem ofIntent_find (haction : i.action ≠ .count) : ofIntent i (some sheet) = (do
    let matching ← matchingRows i.filters sheet.rows
    let sorted ← i.sorted matching
    let rows ← (limited i.limit sorted).mapM (Row.projected i.fields)
    .ok (.found sheet.name i rows)) := by
  unfold ofIntent Intent.sorted
  simp only [if_neg haction]
  cases i.sort <;> rfl

theorem ofIntent_find_eq_ok (haction : i.action ≠ .count) : ofIntent i (some sheet) = .ok o ↔
    ∃ sorted, matchingRows i.filters sheet.rows = .ok (i.matching sheet) ∧
      i.sorted (i.matching sheet) = .ok sorted ∧
      (∀ r ∈ limited i.limit sorted, ∀ name ∈ i.fields, r.fields.isBarred name = false) ∧
      o = .found sheet.name i ((limited i.limit sorted).map fun r => r.fields.project i.fields) := by
  rw [ofIntent_find haction]
  constructor
  · intro h
    obtain ⟨matching, hmatching, h⟩ := bind_eq_ok.mp h
    obtain ⟨sorted, hsorted, h⟩ := bind_eq_ok.mp h
    obtain ⟨rows, hrows, h⟩ := bind_eq_ok.mp h
    cases h
    obtain rfl : matching = i.matching sheet := matchingRows_eq_ok hmatching
    have hfree : ∀ r ∈ limited i.limit sorted, ∀ name ∈ i.fields, r.fields.isBarred name = false := by
      intro r hr
      obtain ⟨record, hrecord⟩ := exists_mapM_eq_ok.mp ⟨rows, hrows⟩ r hr
      exact (Row.projected_eq_ok.mp hrecord).1
    have hproject := mapM_eq_ok_map fun r hr => Row.projected_eq_ok.mpr ⟨hfree r hr, rfl⟩
    exact ⟨sorted, hmatching, hsorted, hfree, by rw [Except.ok.inj (hrows.symm.trans hproject)]⟩
  · rintro ⟨sorted, hmatching, hsorted, hfree, rfl⟩
    have hproject := mapM_eq_ok_map fun r hr => Row.projected_eq_ok.mpr ⟨hfree r hr, rfl⟩
    exact bind_eq_ok.mpr ⟨_, hmatching, bind_eq_ok.mpr ⟨_, hsorted, bind_eq_ok.mpr ⟨_, hproject, rfl⟩⟩⟩

/-- What an intent returns. A count is the number of matching rows. Otherwise the matching rows fall
into those that are returned, as many as the limit allows, and those that are left, all of which come
later; and a greater limit only returns more, as long as every name can be searched for in every row. -/
theorem ofIntent_returns (h : ofIntent i (some sheet) = .ok o) :
    let matching := i.matching sheet
    (i.action = .count →
      told o.toCell ["message"] = some (.text ("Found " ++ toString matching.length ++
        " matching rows in \"" ++ nameText sheet.name ++ "\".")) ∧
      told o.toCell ["database", "resultCount"] = some (.integer matching.length)) ∧
    (i.action ≠ .count → ∃ returned left : List (Row × Nat),
      (returned ++ left).Perm matching.zipIdx ∧ (returned ++ left).Pairwise i.Before ∧
      returned.length = min (max i.limit 0) matching.length ∧
      o.rows = returned.map (fun a => Record.project a.1.fields i.fields) ∧
      told o.toCell ["data"] = some (.list (o.rows.map .record)) ∧
      told o.toCell ["database", "resultCount"] = some (.integer returned.length) ∧
      ∀ limit, i.limit ≤ limit →
        (∀ o', ofIntent { i with limit := limit } (some sheet) = .ok o' → o.rows <+: o'.rows) ∧
        ((∀ r ∈ matching, ∀ name ∈ i.fields, r.fields.isBarred name = false) →
          ∃ o', ofIntent { i with limit := limit } (some sheet) = .ok o')) := by
  intro matching
  constructor
  · intro haction
    rw [ofIntent_count haction] at h
    obtain ⟨found, hfound, rfl⟩ := map_eq_ok.mp h
    obtain rfl : found = matching := matchingRows_eq_ok hfound
    exact ⟨rfl, rfl⟩
  · intro haction
    obtain ⟨sorted, hmatching, hsorted, -, rfl⟩ := (ofIntent_find_eq_ok haction).mp h
    obtain ⟨arranged, hperm, hpairwise, rfl⟩ := Intent.sorted_arranged hsorted
    refine ⟨arranged.take i.limit.toNat, arranged.drop i.limit.toNat, ?_, ?_, ?_, ?_, rfl, ?_,
      fun limit hle => ⟨fun o' ho' => ?_, fun hfree => ?_⟩⟩
    · rwa [List.take_append_drop]
    · rwa [List.take_append_drop]
    · have hlength : arranged.length = matching.length := by
        rw [hperm.length_eq, List.length_zipIdx]
      rw [List.length_take, hlength]
      omega
    · unfold Outcome.rows limited
      rw [← List.map_take, List.map_map]
      rfl
    · change some (Cell.integer ((List.map _ _).length : Nat)) = _
      rw [List.length_map, limited, ← List.map_take, List.length_map]
    · obtain ⟨others, -, hothers, -, rfl⟩ :=
        (ofIntent_find_eq_ok (i := { i with limit := limit }) haction).mp ho'
      obtain rfl : _ = others := Except.ok.inj (hsorted.symm.trans hothers)
      exact (limited_more hle _).map _
    · refine ⟨_, (ofIntent_find_eq_ok (i := { i with limit := limit }) haction).mpr
        ⟨_, hmatching, hsorted, fun r hr => hfree r ?_, rfl⟩⟩
      obtain ⟨a, ha, rfl⟩ := List.mem_map.mp (List.mem_of_mem_take hr)
      exact List.fst_mem_of_mem_zipIdx (hperm.subset ha)

def scores : Sheet :=
  ⟨"s", some "Scores", [], [score "a" (.integer 1), score "b" (.text "x"), score "c" (.integer 1)],
    .epoch, some .epoch⟩
where
  score (id : String) (value : Cell) : Row :=
    ⟨id, .record [(.text "k", value)], .epoch, some .epoch⟩

def topTwo : Intent := { limit := 2, sort := some ⟨"k", -1⟩ }

theorem ofIntent_returns_topTwo : ∃ o, ofIntent topTwo (some scores) = .ok o ∧
    told o.toCell ["database", "resultCount"] = some (.integer 2) ∧
    ∃ o', ofIntent { topTwo with limit := 3 } (some scores) = .ok o' ∧ o.rows <+: o'.rows := by
  obtain ⟨sorted, hsorted⟩ : ∃ sorted, topTwo.sorted (topTwo.matching scores) = .ok sorted := ⟨_, rfl⟩
  obtain ⟨o, ho⟩ : ∃ o, ofIntent topTwo (some scores) = .ok o :=
    ⟨_, (ofIntent_find_eq_ok (by decide)).mpr ⟨sorted, rfl, hsorted, fun _ _ _ => nofun, rfl⟩⟩
  obtain ⟨returned, left, -, -, hlength, -, -, hcount, hmore⟩ :=
    (ofIntent_returns ho).2 (by decide)
  have htwo : (returned.length : Int) = 2 := hlength
  rw [htwo] at hcount
  obtain ⟨hbefore, hexists⟩ := hmore 3 (by decide)
  obtain ⟨o', ho'⟩ := hexists fun _ _ => nofun
  exact ⟨o, ho, hcount, o', ho', hbefore o' ho'⟩

end Outcome

end PlainSheets
