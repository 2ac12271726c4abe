import PlainSheets.Proofs.Cell.RowText

/-!
Row data that its stored text keeps. It comes back with every part in its place: dates as the same
instant in UTC, values of typed tables as plain values, and all else as it was.
-/
namespace PlainSheets

/-- An offset whose text tells it from none. -/
def Offset.Legible (o : Offset) : Prop := o.micros = 0 ∨ 1000000 ≤ o.micros.natAbs

theorem Offset.Legible.asRead {o : Offset} (h : o.Legible) : o.asRead = o := by
  unfold Offset.asRead
  split
  · rename_i hsub
    have hzero : o.micros = 0 := by
      rcases h with h | h
      · exact h
      · omega
    obtain ⟨micros, small⟩ := o
    subst hzero
    rfl
  · rfl

def Moment.Legible (m : Moment) : Prop := ∀ o, m.offset = some o → o.Legible

theorem Moment.Legible.asRead {m : Moment} (h : m.Legible) : m.asRead = m := by
  obtain ⟨date, clock, offset⟩ := m
  cases offset with
  | none => rfl
  | some o => rw [Moment.asRead, Option.map_some, (h o rfl).asRead]

namespace RowText

/-- Data that keeps its meaning in stored text: no map in it looks like a date, no date is missing
or outside the calendar of UTC, and no integer is too long. Of moments only some may be accepted. -/
inductive Kept (accepted : Moment → Prop) : Cell → Prop where
  | null : Kept accepted .null
  | flag (b : Bool) : Kept accepted (.flag b)
  | integer (n : Int) (short : IsShort n) : Kept accepted (.integer n)
  | real (x : Binary64) : Kept accepted (.real x)
  | text (s : String) : Kept accepted (.text s)
  | moment (m : Moment) (inCalendar : m.InCalendar) (h : accepted m) : Kept accepted (.moment m)
  | date (d : Date) : Kept accepted (.date d)
  | sizedInteger (type : WordType) (n : Int) (short : IsShort n) :
      Kept accepted (.sized (.integer type n))
  | sizedReal (type : RealType) (x : Binary64) : Kept accepted (.sized (.real type x))
  | sizedFlag (b : Bool) : Kept accepted (.sized (.flag b))
  | list (items : List Cell) (kept : ∀ c ∈ items, Kept accepted c) : Kept accepted (.list items)
  | record (fields : List (String × Cell)) (distinct : (fields.map Prod.fst).Nodup)
      (noTag : fields.map Prod.fst ≠ [dateTag]) (kept : ∀ f ∈ fields, Kept accepted f.2) :
      Kept accepted (Cell.named fields)

/-- How data and what is read back of it correspond. -/
inductive ReadsAs : Cell → Cell → Prop where
  | null : ReadsAs .null .null
  | flag (b : Bool) : ReadsAs (.flag b) (.flag b)
  | integer (n : Int) : ReadsAs (.integer n) (.integer n)
  | real (x : Binary64) : ReadsAs (.real x) (.real x)
  | text (s : String) : ReadsAs (.text s) (.text s)
  | moment (m u : Moment) (utc : u.offset = some Offset.utc) (same : u.instant = m.instant) :
      ReadsAs (.moment m) (.moment u)
  | date (d : Date) : ReadsAs (.date d) (.moment ⟨d, Clock.midnight, some Offset.utc⟩)
  | sizedInteger (type : WordType) (n : Int) : ReadsAs (.sized (.integer type n)) (.integer n)
  | sizedReal (type : RealType) (x : Binary64) : ReadsAs (.sized (.real type x)) (.real x)
  | sizedFlag (b : Bool) : ReadsAs (.sized (.flag b)) (.flag b)
  | list {items read : List Cell} (parts : List.Forall₂ ReadsAs items read) :
      ReadsAs (.list items) (.list read)
  | record {fields read : List (String × Cell)}
      (names : read.map Prod.fst = fields.map Prod.fst)
      (parts : List.Forall₂ ReadsAs (fields.map Prod.snd) (read.map Prod.snd)) :
      ReadsAs (Cell.named fields) (Cell.named read)

def RoundTrip (c : Cell) : Prop := ∃ j d, encode c = .ok j ∧ readBack c = .ok d ∧ ReadsAs c d

theorem checkInteger_short {n : Int} (h : IsShort n) : checkInteger n = .ok n := by
  unfold checkInteger
  rw [if_pos h]

theorem roundTrip_moment {m : Moment} (legible : m.Legible) (inCalendar : m.InCalendar) :
    RoundTrip (.moment m) := by
  obtain ⟨u, hu⟩ := Option.isSome_iff_exists.mp ((Moment.toUtc?_isSome_iff m).mpr inCalendar)
  obtain ⟨hinstant, hutc⟩ := Moment.toUtc?_spec hu
  refine ⟨_, .moment u, rfl, ?_, .moment m u hutc hinstant⟩
  have hread : m.asRead.utc = .ok u := by rw [legible.asRead, Moment.utc, hu]
  exact map_eq_ok.mpr ⟨u, hread, rfl⟩

theorem roundTrip_items {items : List Cell} (h : ∀ c ∈ items, RoundTrip c) :
    ∃ js ds, encodeItems items = .ok js ∧ readBackItems items = .ok ds ∧
      List.Forall₂ ReadsAs items ds := by
  induction items with
  | nil => exact ⟨[], [], rfl, rfl, .nil⟩
  | cons c cs ih =>
    obtain ⟨j, d, hj, hd, hread⟩ := h c List.mem_cons_self
    obtain ⟨js, ds, hjs, hds, hreads⟩ := ih fun a ha => h a (List.mem_cons_of_mem c ha)
    refine ⟨j :: js, d :: ds, ?_, ?_, .cons hread hreads⟩
    · rw [encodeItems, hj, hjs]
      rfl
    · rw [readBackItems, hd, hds]
      rfl

theorem roundTrip_fields {fields : List (String × Cell)} (h : ∀ f ∈ fields, RoundTrip f.2)
    (done : List (String × Cell)) (hdistinct : ((done ++ fields).map Prod.fst).Nodup) :
    ∃ js read, encodeFields (fields.map fun f => (.text f.1, f.2)) = .ok js ∧
      readBackFields done (fields.map fun f => (.text f.1, f.2)) = .ok (done ++ read) ∧
      read.map Prod.fst = fields.map Prod.fst ∧
      List.Forall₂ ReadsAs (fields.map Prod.snd) (read.map Prod.snd) := by
  induction fields generalizing done with
  | nil => exact ⟨[], [], rfl, by rw [List.append_nil]; rfl, rfl, .nil⟩
  | cons f fs ih =>
    obtain ⟨j, d, hj, hd, hread⟩ := h f List.mem_cons_self
    have hput := Json.putField_new d (Json.not_mem_of_nodup (List.map_append ▸ hdistinct))
    have hrest : (((done ++ [(f.1, d)]) ++ fs).map Prod.fst).Nodup := by
      simpa using hdistinct
    obtain ⟨js, read, hjs, hreadBack, hnames, hparts⟩ :=
      ih (fun g hg => h g (List.mem_cons_of_mem f hg)) (done ++ [(f.1, d)]) hrest
    refine ⟨(f.1, j) :: js, (f.1, d) :: read, ?_, ?_, congrArg (f.1 :: ·) hnames,
      .cons hread hparts⟩
    · rw [List.map_cons, encodeFields, hj, hjs]
      rfl
    · rw [List.append_assoc] at hreadBack
      rw [List.map_cons, readBackFields, hd]
      exact (congrArg (readBackFields · _) hput).trans hreadBack

theorem decodeObject_named {fields : List (String × Cell)} (h : fields.map Prod.fst ≠ [dateTag]) :
    decodeObject fields = .ok (Cell.named fields) := by
  unfold decodeObject
  split
  · rename_i key value
    rw [if_neg (by simpa using h)]
    rfl
  · rfl

theorem Kept.roundTrip {c : Cell} (h : Kept Moment.Legible c) : RoundTrip c := by
  induction h with
  | null => exact ⟨_, _, rfl, rfl, .null⟩
  | flag b => exact ⟨_, _, rfl, rfl, .flag b⟩
  | integer n short =>
    exact ⟨.integer n, _, map_eq_ok.mpr ⟨n, checkInteger_short short, rfl⟩, rfl, .integer n⟩
  | real x => exact ⟨_, _, rfl, rfl, .real x⟩
  | text s => exact ⟨_, _, rfl, rfl, .text s⟩
  | moment m inCalendar legible => exact roundTrip_moment legible inCalendar
  | date d => exact ⟨_, _, rfl, rfl, .date d⟩
  | sizedInteger type n short =>
    exact ⟨.integer n, _, map_eq_ok.mpr ⟨n, checkInteger_short short, rfl⟩, rfl,
      .sizedInteger type n⟩
  | sizedReal type x => exact ⟨_, _, rfl, rfl, .sizedReal type x⟩
  | sizedFlag b => exact ⟨_, _, rfl, rfl, .sizedFlag b⟩
  | list items _ ih =>
    obtain ⟨js, ds, hjs, hds, hreads⟩ := roundTrip_items ih
    exact ⟨.list js, .list ds, map_eq_ok.mpr ⟨js, hjs, rfl⟩, map_eq_ok.mpr ⟨ds, hds, rfl⟩,
      .list hreads⟩
  | record fields distinct noTag _ ih =>
    obtain ⟨js, read, hjs, hread, hnames, hparts⟩ :=
      roundTrip_fields ih [] (by simpa using distinct)
    refine ⟨.object js, Cell.named read, map_eq_ok.mpr ⟨js, hjs, rfl⟩, ?_, .record hnames hparts⟩
    rw [List.nil_append] at hread
    rw [Cell.named, readBack, hread]
    exact decodeObject_named (hnames ▸ noTag)

theorem ReadsAs.exists_record {c d : Cell} (h : ReadsAs c d) {fs : List (Atom × Cell)}
    (hc : c = .record fs) : ∃ read, d = .record read := by
  cases h with
  | record names parts => exact ⟨_, rfl⟩
  | _ => cases hc

/-- What is dumped of kept data is loaded as the same data with its dates in UTC, unless an offset
of less than a second is lost. -/
theorem load_dump_of_kept (fields : List (String × Cell))
    (h : Kept Moment.Legible (Cell.named fields)) :
    ∃ text record, dump (Cell.named fields) = .ok text ∧ load (some text) = .ok record ∧
      ReadsAs (Cell.named fields) (.record record) := by
  obtain ⟨j, d, hj, hd, hread⟩ := h.roundTrip
  obtain ⟨text, htext⟩ := dump_eq_ok_iff.mpr ⟨j, hj⟩
  obtain ⟨read, rfl⟩ := hread.exists_record rfl
  exact ⟨text, read, htext, by rw [load_dump htext, hd]; rfl, hread⟩

def lateJanuary : Moment :=
  ⟨(Date.of? 2023 1 31).get (by decide), (Clock.of? 10 30 0 0).get (by decide),
    Offset.of? 7200000000⟩

theorem load_dump_lateJanuary :
    ∃ text record, dump (Cell.named [("at", .moment lateJanuary),
        ("list", .list [.real .nan, Cell.named [("$date", .text "x"), ("y", .null)]])]) = .ok text ∧
      load (some text) = .ok record ∧
      ReadsAs (Cell.named [("at", .moment lateJanuary),
        ("list", .list [.real .nan, Cell.named [("$date", .text "x"), ("y", .null)]])])
        (.record record) := by
  have hmoment : Kept Moment.Legible (.moment lateJanuary) := by
    refine .moment _ (by decide) fun o ho => .inr ?_
    obtain rfl : (⟨7200000000, by decide⟩ : Offset) = o := Option.some.inj ho
    decide
  have hinner : Kept Moment.Legible (Cell.named [("$date", .text "x"), ("y", .null)]) := by
    refine .record _ (by decide) (by decide) fun f hf => ?_
    rcases List.mem_pair.mp hf with rfl | rfl
    · exact .text "x"
    · exact .null
  refine load_dump_of_kept _ (.record _ (by decide) (by decide) fun f hf => ?_)
  rcases List.mem_pair.mp hf with rfl | rfl
  · exact hmoment
  · refine .list _ fun c hc => ?_
    rcases List.mem_pair.mp hc with rfl | rfl
    · exact .real .nan
    · exact hinner

def halfSecondAhead : Moment :=
  ⟨(Date.of? 2023 1 1).get (by decide), (Clock.of? 10 0 0 0).get (by decide), Offset.of? 500000⟩

theorem ReadsAs.moment_inv {m u : Moment} (h : ReadsAs (.moment m) (.moment u)) :
    u.instant = m.instant := by
  cases h with
  | moment _ _ _ same => exact same

theorem ReadsAs.record_inv {c d : Cell} (h : ReadsAs c d) {key : String} {x y : Cell}
    (hc : c = Cell.named [(key, x)]) (hd : d = Cell.named [(key, y)]) : ReadsAs x y := by
  cases h with
  | record names parts =>
    rename_i fields read
    have hfields : fields.map Prod.snd = [x] := by
      have := congrArg (fun c => c.fields.map Prod.snd) hc
      simpa [Cell.named, Cell.fields] using this
    have hread : read.map Prod.snd = [y] := by
      have := congrArg (fun c => c.fields.map Prod.snd) hd
      simpa [Cell.named, Cell.fields] using this
    rw [hfields, hread] at parts
    cases parts with
    | cons h _ => exact h
  | _ => cases hc

/-- An offset of half a second is lost, and with it half a second of the instant. -/
theorem load_dump_halfSecondAhead : ¬ ∀ fields : List (String × Cell),
    Kept (fun _ => True) (Cell.named fields) →
    ∃ text record, dump (Cell.named fields) = .ok text ∧ load (some text) = .ok record ∧
      ReadsAs (Cell.named fields) (.record record) := by
  intro hall
  have hkept : Kept (fun _ => True) (Cell.named [("a", .moment halfSecondAhead)]) := by
    refine .record _ (by decide) (by decide) fun f hf => ?_
    obtain rfl := List.mem_singleton.mp hf
    exact .moment _ (by decide) trivial
  obtain ⟨text, record, htext, hload, hread⟩ := hall _ hkept
  have hback : readBack (Cell.named [("a", .moment halfSecondAhead)]) =
      .ok (Cell.named [("a", .moment { halfSecondAhead with offset := some Offset.utc })]) := by
    rfl
  rw [load_dump htext, hback] at hload
  obtain rfl := Except.ok.inj hload
  have hinstant := (hread.record_inv rfl rfl).moment_inv
  revert hinstant
  decide

end RowText

end PlainSheets
