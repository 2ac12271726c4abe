import PlainSheets.Grid.Basic
import PlainSheets.Proofs.Cell.Readable

/-!
The records of a grid and the types of its columns. Main statement: each row of a grid is a record with
the names of the columns as its keys, and what a column of a type other than text holds in any record is
null or of that type, though types are told from the stored cells and records from the converted ones. A
column of objects has such a type just when all its converted cells do that are not null.
-/
namespace PlainSheets

/-! Converted cells. -/

namespace Cell

variable {c : Cell}

/-- Whether a cell is a list of one item, which is looked into for gaps. -/
def IsSingle (c : Cell) : Prop := ∃ item, c = .list [item]

theorem holdsGap_eq (h : ¬ c.IsSingle) : c.holdsGap = c.isGap := by
  match c with
  | .atom _ | .record _ | .list [] | .list (_ :: _ :: _) => rfl
  | .list [item] => exact absurd ⟨item, rfl⟩ h

theorem ofGrid_of_isGap (h : ¬ c.IsSingle) (hgap : c.isGap) : c.ofGrid = .null := by
  unfold ofGrid
  rw [holdsGap_eq h, if_pos hgap]

theorem isSome_kind? (h : c.isMissing = false) : c.kind?.isSome := by
  unfold kind?
  rw [h]
  simp only [Bool.false_eq_true, if_false]
  split_ifs <;> rfl

theorem isMissing_of_not_isGap (h : c.isGap = false) : c.isMissing = false := by
  match c with
  | .decimal _ => rfl
  | .null | .noMoment => cases h
  | .real _ | .sized _ | .flag _ | .integer _ | .text _ | .moment _ | .date _ | .clock _ | .bytes _
  | .bundle _ | .list _ | .record _ => exact h

theorem kind?_ofGrid (h : ¬ c.IsSingle) (hgap : c.isGap = false) : c.ofGrid.kind? = c.kind? := by
  unfold ofGrid
  rw [holdsGap_eq h, hgap]
  match c with
  | .sized s => cases s <;> rfl
  | .null | .noMoment | .real _ | .flag _ | .integer _ | .text _ | .moment _ | .date _ | .clock _
  | .decimal _ | .bytes _ | .bundle _ | .list _ | .record _ => rfl

theorem ofGrid_eq_null_iff (h : ¬ c.IsSingle) : c.ofGrid = .null ↔ c.isGap = true := by
  refine ⟨fun hnull => ?_, ofGrid_of_isGap h⟩
  by_contra hgap
  rw [Bool.not_eq_true] at hgap
  have hsome := isSome_kind? (isMissing_of_not_isGap hgap)
  rw [← kind?_ofGrid h hgap, hnull] at hsome
  cases hsome

end Cell

namespace Storage

/-- Which cells a column can hold. Every storage has gaps. -/
inductive Fits : Storage → Cell → Prop where
  | gap {s : Storage} {c : Cell} (h : c.isGap = true) : Fits s c
  | object (c : Cell) : Fits objects c
  | integer (n : Int) : Fits integers (.integer n)
  | real (x : Binary64) : Fits reals (.real x)
  | flag (b : Bool) : Fits flags (.flag b)
  | moment (m : Moment) : Fits moments (.moment m)

def kind? : Storage → Option Kind
  | objects => none
  | integers => some .number
  | reals => some .number
  | flags => some .flag
  | moments => some .date

theorem Fits.kind_eq {s : Storage} {c : Cell} {k : Kind} (h : s.Fits c) (hk : s.kind? = some k)
    (hgap : c.isGap = false) : c.kind? = some k := by
  cases h with
  | gap h => exact nomatch h.symm.trans hgap
  | object => cases hk
  | real x =>
    cases hk
    cases x with
    | nan => cases hgap
    | finite | infinite => rfl
  | integer | flag | moment =>
    cases hk
    rfl

theorem eq_objects {s : Storage} (h : s.kind? = none) : s = objects := by
  cases s with
  | objects => rfl
  | integers | reals | flags | moments => cases h

end Storage

namespace TypedCells

variable {s t : TypedCells} {k : Kind}

theorem type_of_storage (h : s.storage.kind? = some k) : s.type = k := by
  unfold type
  cases hs : s.storage <;> rw [hs] at h <;> cases h <;> rfl

theorem type_objects_iff (hs : s.storage = .objects) (hk : k ≠ .text) :
    s.type = k ↔ (∃ x, x ∈ s.kinds) ∧ ∀ x ∈ s.kinds, x = some k := by
  unfold type
  rw [hs]
  cases s.kinds with
  | nil => simp [hk.symm]
  | cons first rest =>
    rw [and_iff_right ⟨first, List.mem_cons_self⟩, List.forall_mem_cons]
    simp only
    by_cases hall : rest.all (· = first)
    · have hrest : ∀ x ∈ rest, x = first := by simpa using hall
      rw [if_pos hall]
      cases first with
      | none => simp [hk.symm]
      | some j => exact ⟨fun h => h ▸ ⟨rfl, hrest⟩, fun h => Option.some.inj h.1⟩
    · rw [if_neg hall]
      refine iff_of_false hk.symm fun h => hall (List.all_eq_true.mpr fun x hx => ?_)
      rw [h.1, h.2 x hx, decide_eq_true_eq]

theorem type_eq_of_mem_kinds (hs : s.storage = .objects) (ht : t.storage = .objects)
    (h : ∀ x, x ∈ s.kinds ↔ x ∈ t.kinds) : s.type = t.type := by
  have hsame (k : Kind) (hk : k ≠ .text) : s.type = k ↔ t.type = k := by
    rw [type_objects_iff hs hk, type_objects_iff ht hk]
    simp only [h]
  by_cases htext : s.type = .text
  · by_contra hne
    exact hne ((hsame t.type fun h => hne (htext.trans h.symm)).mpr rfl)
  · exact ((hsame s.type htext).mp rfl).symm

/-- Neither the order of the objects nor the number of gaps matters. -/
theorem type_of_perm (hs : s.storage = .objects) (ht : t.storage = .objects)
    (h : (s.cells.filter fun c => !c.isGap).Perm (t.cells.filter fun c => !c.isGap)) :
    s.type = t.type :=
  type_eq_of_mem_kinds hs ht fun _ => (h.map _).mem_iff

/-- Whether there are converted cells other than null, all of one kind. -/
def Agree (s : TypedCells) (k : Kind) : Prop :=
  (∃ v ∈ s.values, v ≠ .null) ∧ ∀ v ∈ s.values, v ≠ .null → v.kind? = some k

theorem mem_kinds_iff (hsingle : ∀ c ∈ s.cells, ¬ c.IsSingle) {x : Option Kind} :
    x ∈ s.kinds ↔ ∃ v ∈ s.values, v ≠ .null ∧ v.kind? = x := by
  unfold kinds values
  simp only [List.mem_map, List.mem_filter, exists_exists_and_eq_and, and_assoc]
  refine exists_congr fun c => and_congr_right fun hc => and_congr_left' ?_
  rw [ne_eq, Cell.ofGrid_eq_null_iff (hsingle c hc), Bool.not_eq_true, Bool.not_eq_true']

theorem type_iff_agree (hs : s.storage = .objects) (hsingle : ∀ c ∈ s.cells, ¬ c.IsSingle)
    (hk : k ≠ .text) : s.type = k ↔ s.Agree k := by
  rw [type_objects_iff hs hk, Agree]
  simp only [mem_kinds_iff hsingle]
  constructor
  · rintro ⟨⟨x, v, hv, hnull, -⟩, hall⟩
    exact ⟨⟨v, hv, hnull⟩, fun w hw hwnull => hall _ ⟨w, hw, hwnull, rfl⟩⟩
  · rintro ⟨⟨v, hv, hnull⟩, hall⟩
    refine ⟨⟨_, v, hv, hnull, rfl⟩, ?_⟩
    rintro x ⟨w, hw, hwnull, rfl⟩
    exact hall w hw hwnull

theorem value_kind (hfits : ∀ c ∈ s.cells, s.storage.Fits c) (hsingle : ∀ c ∈ s.cells, ¬ c.IsSingle)
    (htype : s.type ≠ .text) {v : Cell} (hv : v ∈ s.values) : v = .null ∨ v.kind? = some s.type := by
  refine or_iff_not_imp_left.mpr fun hvalue => ?_
  obtain ⟨c, hc, rfl⟩ := List.mem_map.mp hv
  have hfilled : c.isGap = false := by
    rwa [Cell.ofGrid_eq_null_iff (hsingle c hc), Bool.not_eq_true] at hvalue
  cases hk : s.storage.kind? with
  | some k =>
    rw [Cell.kind?_ofGrid (hsingle c hc) hfilled, type_of_storage hk]
    exact (hfits c hc).kind_eq hk hfilled
  | none =>
    have hagree := (type_iff_agree (Storage.eq_objects hk) hsingle htype).mp rfl
    exact hagree.2 _ hv hvalue

end TypedCells

/-! Records. -/

namespace Record

variable {α : Type} {as : List α} {name : α → String}

theorem foldl_put (hnames : (as.map name).Nodup) (value : α → Cell) :
    as.foldl (fun r a => put (.text (name a)) (value a) r) [] =
      as.map fun a => (.text (name a), value a) := by
  induction as using List.reverseRecOn with
  | nil => rfl
  | append_singleton as a ih =>
    rw [List.map_append, List.nodup_append] at hnames
    have hnew : ∀ f ∈ as.map fun a => (Atom.text (name a), value a),
        f.1.sameKey (.text (name a)) = false := by
      intro f hf
      obtain ⟨b, hb, rfl⟩ := List.mem_map.mp hf
      rw [Bool.eq_false_iff, ne_eq, RowText.sameKey_text]
      intro heq
      exact hnames.2.2 _ (List.mem_map_of_mem hb) _ (List.mem_singleton_self _) (Option.some.inj heq)
    rw [List.foldl_concat, ih hnames.1, put, putBy_new hnew, List.map_append]
    rfl

theorem get?_map (hnames : (as.map name).Nodup) (value : α → Cell) {a : α} (ha : a ∈ as) :
    get? (as.map fun a => (.text (name a), value a)) (name a) = some (value a) := by
  induction as with
  | nil => cases ha
  | cons b as ih =>
    rw [List.map_cons, List.nodup_cons] at hnames
    rw [List.map_cons, get?]
    rcases List.mem_cons.mp ha with rfl | ha
    · exact if_pos rfl
    · have hne : ¬ (Atom.text (name b)).text? = some (name a) := fun heq =>
        hnames.1 (Option.some.inj heq ▸ List.mem_map_of_mem ha)
      rw [if_neg hne]
      exact ih hnames.2 ha

end Record

namespace Grid

/-- Whether columns have names of their own and a cell for each row that their storage holds, and no cell
is a list of one item. -/
structure IsFrame (g : Grid) : Prop where
  names : (g.columns.map Prod.fst).Nodup
  height : ∀ c ∈ g.columns, c.2.cells.length = g.height
  fits : ∀ c ∈ g.columns, ∀ v ∈ c.2.cells, c.2.storage.Fits v
  single : ∀ c ∈ g.columns, ∀ v ∈ c.2.cells, ¬ v.IsSingle

variable {g : Grid}

theorem row_eq (h : g.IsFrame) (i : Nat) :
    g.row i = g.columns.map fun c => (.text c.1, c.2.values[i]?.getD .null) :=
  Record.foldl_put h.names _

theorem mem_records {r : Record} : r ∈ g.records ↔ ∃ i < g.height, g.row i = r := by
  simp [records]

theorem get?_row (h : g.IsFrame) {i : Nat} (hi : i < g.height) {c : String × TypedCells}
    (hc : c ∈ g.columns) : ∃ v, c.2.cells[i]? = some v ∧ Record.get? (g.row i) c.1 = some v.ofGrid := by
  have hlength : i < c.2.cells.length := h.height c hc ▸ hi
  refine ⟨c.2.cells[i], List.getElem?_eq_getElem hlength, ?_⟩
  rw [row_eq h, Record.get?_map h.names _ hc, TypedCells.values, List.getElem?_map,
    List.getElem?_eq_getElem hlength]
  rfl

/-- What the records of a grid and the types of its columns tell of it. -/
structure Typed (g : Grid) : Prop where
  count : g.records.length = g.height
  /-- The keys of a record are the names of the columns, in order. -/
  keys : ∀ r ∈ g.records, Record.keys r = g.columns.map fun c => .text c.1
  /-- The record of a row has the converted cells of the row. -/
  cells : ∀ (i : Nat) (r : Record), g.records[i]? = some r → ∀ c ∈ g.columns,
    ∃ v : Cell, c.2.cells[i]? = some v ∧ Record.get? r c.1 = some v.ofGrid
  /-- A column of a type other than text has nothing else in any record. -/
  held : ∀ c ∈ g.sheetColumns, c.type ≠ .text → ∀ r ∈ g.records,
    ∃ v : Cell, c.name.bind (Record.get? r) = some v ∧ (v = .null ∨ v.kind? = some c.type)
  /-- Objects have such a type just when all that are not null do. -/
  objects : ∀ c ∈ g.columns, c.2.storage = .objects → ∀ k, k ≠ .text → (c.2.type = k ↔ c.2.Agree k)
  /-- All other objects are text. -/
  others : ∀ c ∈ g.columns, c.2.storage = .objects →
    (c.2.type = .text ↔ ∀ k, k ≠ .text → ¬ c.2.Agree k)

theorem typed (h : g.IsFrame) : g.Typed where
  count := by rw [records, List.length_map, List.length_range]
  keys r hr := by
    obtain ⟨i, -, rfl⟩ := mem_records.mp hr
    rw [row_eq h, Record.keys, List.map_map]
    rfl
  cells i r hr c hc := by
    rw [records, List.getElem?_map, Option.map_eq_some_iff] at hr
    obtain ⟨j, hj, rfl⟩ := hr
    obtain ⟨hi, rfl⟩ := List.getElem?_eq_some_iff.mp hj
    rw [List.length_range] at hi
    rw [List.getElem_range]
    exact get?_row h hi hc
  held := by
    intro column hcolumn htype r hr
    obtain ⟨c, hc, rfl⟩ := List.mem_map.mp hcolumn
    obtain ⟨i, hi, rfl⟩ := mem_records.mp hr
    obtain ⟨v, hv, hget⟩ := get?_row h hi hc
    exact ⟨_, hget, TypedCells.value_kind (h.fits c hc) (h.single c hc) htype
      (List.mem_map_of_mem (List.mem_of_getElem? hv))⟩
  objects c hc hs k hk := TypedCells.type_iff_agree hs (h.single c hc) hk
  others c hc hs := by
    constructor
    · intro htext k hk hagree
      exact hk (((TypedCells.type_iff_agree hs (h.single c hc) hk).mpr hagree).symm.trans htext)
    · intro hnone
      by_contra htype
      exact hnone _ htype ((TypedCells.type_iff_agree hs (h.single c hc) htype).mp rfl)

/-- The records of a grid and the types of its columns. There is one record for each row, with the names
of the columns as its keys, and what a column of a type other than text holds there is null or of that
type. For objects the type is told by the converted cells that are not null, whatever their order and
however many gaps are among them. -/
theorem typed_of_isFrame :
    (∀ g : Grid, g.IsFrame → g.Typed) ∧
    ∀ s t : TypedCells, s.storage = .objects → t.storage = .objects →
      (s.cells.filter fun c => !c.isGap).Perm (t.cells.filter fun c => !c.isGap) → s.type = t.type :=
  ⟨fun _ => typed, fun _ _ => TypedCells.type_of_perm⟩

/-- Numbers with a gap, and objects with a decimal that is no number in front of a date. -/
def shipped : Grid :=
  ⟨[("qty", ⟨.integers, [.integer 10, .null]⟩),
    ("received", ⟨.objects, [.decimal (.nan false false 0), .moment .epoch]⟩)]⟩

theorem typed_of_isFrame_shipped :
    shipped.Typed ∧ shipped.sheetColumns.map Column.type = [.number, .date] ∧
    (⟨.objects, [.moment .epoch, .null, .noMoment]⟩ : TypedCells).type = .date := by
  have hframe : shipped.IsFrame := by
    refine ⟨by decide, by decide, ?_, ?_⟩ <;>
      simp only [shipped, List.forall_mem_cons, List.not_mem_nil, false_imp_iff, implies_true, and_true]
    · exact ⟨⟨.integer 10, .gap rfl⟩, .object _, .object _⟩
    · simp [Cell.IsSingle]
  refine ⟨typed_of_isFrame.1 shipped hframe, rfl, ?_⟩
  exact (typed_of_isFrame.2 _ ⟨.objects, [.moment .epoch]⟩ rfl rfl (.refl _)).trans rfl

end Grid

end PlainSheets
