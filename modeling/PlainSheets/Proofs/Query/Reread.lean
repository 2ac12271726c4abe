import PlainSheets.Proofs.Cell.Readable
import PlainSheets.Proofs.Cell.RoundTrip
import PlainSheets.Proofs.Query.RelatedRows
import PlainSheets.Proofs.Query.Shape
import PlainSheets.Proofs.Store.Mirror
import PlainSheets.Proofs.Text.Letters
import PlainSheets.Query.Annotation

/-!
Rows that are written and read again. An intent looks at a cell in four ways: whether it is missing,
which number it is, where it is sorted and which text it has. Of scalars only the texts of dates
change, and no question can ask for one of those.
-/
namespace PlainSheets

/-! Cells. -/

/-- What a cell is to an intent that does not ask for a text with a dash. -/
structure Cell.Alike (read c : Cell) : Prop where
  missing : read.isMissing = c.isMissing
  number : read.number? = c.number?
  key : read.sortKey = c.sortKey
  text : read.asText = c.asText ∨ '-' ∈ read.asText.toList ∧ '-' ∈ c.asText.toList

theorem Cell.Alike.refl (c : Cell) : c.Alike c := ⟨rfl, rfl, rfl, .inl rfl⟩

structure Cell.Reread (read c : Cell) : Prop where
  atom : ∃ a, c = .atom a ∧ a.readBack = .ok read
  legible : ∀ m, c = .moment m → m.Legible
  stored : ∃ j, RowText.encode c = .ok j

theorem Date.dash_mem_iso (d : Date) : '-' ∈ d.iso := by
  rw [d.iso_eq]
  simp

theorem Moment.dash_mem_iso (m : Moment) : '-' ∈ m.iso.toList := by
  rw [iso, String.toList_ofList, isoWith]
  simp [m.date.dash_mem_iso]

theorem Cell.Reread.alike {read c : Cell} (h : read.Reread c) : read.Alike c := by
  obtain ⟨⟨a, rfl, hread⟩, hlegible, -⟩ := h
  cases a with
  | noMoment => cases hread
  | moment m =>
    obtain ⟨u, hu, rfl⟩ := map_eq_ok.mp hread
    rw [(hlegible m rfl).asRead] at hu
    have hutc : u.utc = .ok u :=
      Moment.utc_of_utc (Moment.toUtc?_spec (Moment.utc_eq_ok.mp hu)).2
    refine ⟨rfl, rfl, ?_, .inr ⟨u.dash_mem_iso, m.dash_mem_iso⟩⟩
    change u.utc.map SortKey.date = m.utc.map SortKey.date
    rw [hutc, hu]
  | date d =>
    obtain rfl := Except.ok.inj hread
    refine ⟨rfl, rfl, rfl, .inr ⟨Moment.dash_mem_iso _, ?_⟩⟩
    change '-' ∈ (String.ofList d.iso).toList
    rw [String.toList_ofList]
    exact d.dash_mem_iso
  | sized s =>
    cases s with
    | real type x =>
      obtain rfl := Except.ok.inj hread
      refine ⟨rfl, rfl, ?_, .inl ?_⟩
      all_goals
        cases hnan : x.isNaN <;>
          simp [Cell.sortKey, Cell.asText, Cell.isMissing, Cell.atom?, Atom.isMissing, Cell.flag?,
            Atom.flag?, Cell.numeral?, Atom.numeral?, Numeral.ofReal?, hnan]
    | _ =>
      obtain rfl := Except.ok.inj hread
      exact ⟨rfl, rfl, rfl, .inl rfl⟩
  | _ =>
    obtain rfl := Except.ok.inj hread
    exact .refl _

/-! Conditions. -/

namespace Text

/-- A character below all small letters is one of the lowercase text just when it is one of the text. -/
theorem mem_lowerFrom {d : Char} (hlow : d.toNat < 97) (hpos : 0 < d.toNat) (hsettled : Settled d)
    (before cs : List Char) : d ∈ lowerFrom before cs ↔ d ∈ cs := by
  have hat (before : List Char) (c : Char) (after : List Char) :
      d ∈ lowerAt before c after ↔ d = c := by
    have hlarge {e : Char} (he : 97 ≤ e.toNat) : d ≠ e := by
      rintro rfl
      omega
    unfold lowerAt
    split
    · rename_i hc
      have hsigma : finalSigma.toNat ≥ 97 ∧ smallSigma.toNat ≥ 97 := by decide
      rw [List.mem_singleton, hc]
      apply iff_of_false _ hsettled.1
      split
      · exact hlarge hsigma.1
      · exact hlarge hsigma.2
    · split
      · rename_i hc
        have hdotted : 'i'.toNat ≥ 97 ∧ dotAbove.toNat ≥ 97 := by decide
        rw [hc]
        apply iff_of_false _ hsettled.2.1
        simp only [List.mem_cons, List.not_mem_nil, or_false, not_or]
        exact ⟨hlarge hdotted.1, hlarge hdotted.2⟩
      · rw [List.mem_singleton]
        constructor
        · intro h
          exact (eq_of_lowerChar hlow hpos h.symm).symm
        · rintro rfl
          exact hsettled.2.2.symm
  induction cs generalizing before with
  | nil => simp [lowerFrom]
  | cons c cs ih =>
    rw [lowerFrom, List.mem_append, List.mem_cons]
    exact or_congr (hat before c cs) (ih (c :: before))

@[simp] theorem dash_mem_lower (s : String) : '-' ∈ (lower s).toList ↔ '-' ∈ s.toList := by
  rw [lower, String.toList_ofList]
  exact mem_lowerFrom (by decide) (by decide) (by decide) [] s.toList

end Text

def Condition.Dashless : Condition → Prop
  | .compare _ => True
  | .equals text => '-' ∉ (equalityText text).toList

theorem Cell.Alike.equals {read c : Cell} (h : read.Alike c) {text : String}
    (htext : '-' ∉ text.toList) :
    (!read.isMissing && Text.lower read.asText == Text.lower text) =
      (!c.isMissing && Text.lower c.asText == Text.lower text) := by
  have hother {s : String} (hs : '-' ∈ s.toList) : (Text.lower s == Text.lower text) = false := by
    rw [beq_eq_false_iff_ne]
    intro heq
    rw [← Text.dash_mem_lower, ← heq, Text.dash_mem_lower] at htext
    exact htext hs
  rw [h.missing]
  rcases h.text with heq | ⟨hread, hc⟩
  · rw [heq]
  · rw [hother hread, hother hc]

/-! Records. -/

structure FieldReread (read f : Atom × Cell) : Prop where
  key : ∃ name, f.1.text? = some name ∧ read.1 = .text name
  cell : read.2.Reread f.2

/-- A record that is read again, field by field. -/
def Record.Reread (read r : Record) : Prop := List.Forall₂ FieldReread read r

theorem Cell.reread_null : Cell.null.Reread .null where
  atom := ⟨.null, rfl, rfl⟩
  legible _ h := nomatch h
  stored := ⟨.null, rfl⟩

def Cell.IsPlain (c : Cell) : Prop := ∃ a, c = .atom a ∧ a.isWritable = true ∧ c.isBundle = false

theorem Cell.Reread.isPlain {read c : Cell} (h : read.Reread c) : read.IsPlain ∧ c.IsPlain := by
  obtain ⟨⟨a, rfl, hread⟩, -, j, hj⟩ := h
  have hinteger {n : Int} {made : Int → Json} (hn : (RowText.checkInteger n).map made = .ok j) :
      decide (IsShort n) = true := by
    obtain ⟨k, hk, -⟩ := map_eq_ok.mp hn
    exact decide_eq_true (RowText.checkInteger_eq_ok hk).2
  match a with
  | .integer n | .sized (.integer _ n) =>
    obtain rfl := Except.ok.inj hread
    exact ⟨⟨_, rfl, hinteger hj, rfl⟩, _, rfl, hinteger hj, rfl⟩
  | .moment m =>
    obtain ⟨u, -, rfl⟩ := map_eq_ok.mp hread
    exact ⟨⟨_, rfl, rfl, rfl⟩, _, rfl, rfl, rfl⟩
  | .noMoment => cases hread
  | .clock _ | .decimal _ | .bytes _ | .bundle _ => cases hj
  | .null | .flag _ | .real _ | .text _ | .date _ | .sized (.real ..) | .sized (.flag _)
  | .sized (.text _) =>
    obtain rfl := Except.ok.inj hread
    exact ⟨⟨_, rfl, rfl, rfl⟩, _, rfl, rfl, rfl⟩

theorem Cell.IsPlain.isWritable {c : Cell} (h : c.IsPlain) : c.isWritable = true := by
  obtain ⟨a, rfl, hwritable, -⟩ := h
  exact hwritable

theorem FieldReread.text? {read f : Atom × Cell} (h : FieldReread read f) :
    read.1.text? = f.1.text? := by
  obtain ⟨s, hs, hread⟩ := h.key
  rw [hs, hread]
  rfl

theorem FieldReread.display {read f : Atom × Cell} (h : FieldReread read f) :
    read.1.display = f.1.display := by
  obtain ⟨s, hs, hread⟩ := h.key
  rw [Atom.display_of_text hs, hread]
  rfl

namespace Record

variable {read r : Record}

theorem Reread.writable (h : read.Reread r) :
    (∀ g ∈ read, g.1.isWritable = true) ∧ ∀ f ∈ r, f.1.isWritable = true := by
  induction h with
  | nil => exact ⟨List.forall_mem_nil _, List.forall_mem_nil _⟩
  | @cons g f read r hgf _ ih =>
    obtain ⟨s, hs, hg⟩ := hgf.key
    exact ⟨List.forall_mem_cons.mpr ⟨by rw [hg]; rfl, ih.1⟩,
      List.forall_mem_cons.mpr ⟨Atom.isWritable_of_text hs, ih.2⟩⟩

theorem field?_reread (h : read.Reread r) (name : String) :
    Option.Rel FieldReread (read.field? name) (r.field? name) := by
  have hexact : Option.Rel FieldReread (read.find? fun f => f.1.text? = some name)
      (r.find? fun f => f.1.text? = some name) :=
    find?_related (fun _ _ hf => by rw [hf.text?]) h
  have hlower : Option.Rel FieldReread
      (read.find? fun f => Text.lower f.1.display = Text.lower name)
      (r.find? fun f => Text.lower f.1.display = Text.lower name) :=
    find?_related (fun _ _ hf => by rw [hf.display]) h
  unfold field?
  generalize read.find? (fun f => f.1.text? = some name) = x at hexact
  generalize r.find? (fun f => f.1.text? = some name) = y at hexact
  cases hexact with
  | some hfield => exact .some hfield
  | none =>
    generalize read.find? (fun f => Text.lower f.1.display = Text.lower name) = x at hlower
    generalize r.find? (fun f => Text.lower f.1.display = Text.lower name) = y at hlower
    cases hlower with
    | none => exact .none
    | @some g f hfield =>
      -- neither key is null, since both are texts
      have hkeys : g.1 ≠ .null ∧ f.1 ≠ .null := by
        obtain ⟨s, hs, hg⟩ := hfield.key
        exact ⟨by rw [hg]; nofun, by rintro hf; rw [hf] at hs; cases hs⟩
      rw [Option.none_or, Option.none_or, Option.filter_some, Option.filter_some,
        if_pos (decide_eq_true hkeys.1), if_pos (decide_eq_true hkeys.2)]
      exact .some hfield

theorem lookup_reread (h : read.Reread r) (name : String) :
    (read.lookup name).Reread (r.lookup name) := by
  have hfield := field?_reread h name
  unfold lookup
  generalize read.field? name = x at hfield
  generalize r.field? name = y at hfield
  cases hfield with
  | none => exact Cell.reread_null
  | some hfield => exact hfield.cell

theorem resolve?_reread (h : read.Reread r) (name : String) :
    Option.Rel (fun k l => ∃ s, l.text? = some s ∧ k = .text s) (read.resolve? name)
      (r.resolve? name) := by
  have hfield := field?_reread h name
  unfold resolve?
  generalize read.field? name = x at hfield
  generalize r.field? name = y at hfield
  cases hfield with
  | none => exact .none
  | @some g f hgf =>
    apply Option.Rel.some
    simp only [hgf.text?]
    split
    · exact ⟨name, rfl, rfl⟩
    · exact hgf.key

theorem putBy_reread (h : read.Reread r) {k l : Atom} {s : String} (hl : l.text? = some s)
    (hk : k = .text s) {c d : Cell} (hcell : d.Reread c) :
    Reread (putBy Atom.isOneWith k d read) (putBy Atom.isOneWith l c r) := by
  induction h with
  | nil => exact .cons ⟨⟨s, hl, hk⟩, hcell⟩ .nil
  | @cons g f read r hgf hrest ih =>
    have hsame : g.1.isOneWith k = f.1.isOneWith l := by
      obtain ⟨t, ht, hg⟩ := hgf.key
      rw [Atom.isOneWith_of_text ht hl, hg, hk]
      exact Atom.isOneWith_of_text rfl rfl
    rw [putBy, putBy, hsame]
    split
    · exact .cons ⟨hgf.key, hcell⟩ hrest
    · exact .cons hgf ih

theorem select_reread (h : read.Reread r) (names : List String) :
    Reread (read.select names) (r.select names) := by
  unfold select
  apply List.foldl_rel
  · exact List.Forall₂.nil
  · intro name _ out out' hout
    have hkey := resolve?_reread h name
    generalize read.resolve? name = x at hkey
    generalize r.resolve? name = y at hkey
    cases hkey with
    | none => exact hout
    | some hkey =>
      obtain ⟨s, hl, hk⟩ := hkey
      exact putBy_reread hout hl hk (lookup_reread h name)

theorem project_reread (h : read.Reread r) (names : List String) :
    Reread (read.project names) (r.project names) := by
  unfold project
  split
  · exact h
  · exact select_reread h names

end Record

/-! Rows. -/

structure Row.Reread (read r : Row) : Prop where
  readFrom : read.ReadFrom r
  fields : read.fields.Reread r.fields

namespace Row

variable {read r : Row}

theorem Reread.alike (h : read.Reread r) (field : String) :
    (read.lookup field).Alike (r.lookup field) := (Record.lookup_reread h.fields field).alike

theorem Reread.isBarred (h : read.Reread r) (field : String) :
    read.fields.isBarred field = false ∧ r.fields.isBarred field = false :=
  ⟨Record.isBarred_of_writable (fun _ hg => (Record.Reread.writable h.fields).1 _ hg) field,
    Record.isBarred_of_writable (fun _ hf => (Record.Reread.writable h.fields).2 _ hf) field⟩

theorem passesAll_reread (h : read.Reread r) {filters : Filters}
    (hfilters : ∀ f ∈ filters, f.2.Dashless) : read.passesAll filters = r.passesAll filters := by
  unfold passesAll
  induction filters with
  | nil => rfl
  | cons f filters ih =>
    rw [List.forall_mem_cons] at hfilters
    have hpasses : read.passes f.1 f.2 = r.passes f.1 f.2 := by
      have hcell := h.alike f.1
      cases hf : f.2 with
      | compare c =>
        unfold passes
        simp only [hcell.number]
      | equals text =>
        rw [hf] at hfilters
        exact hcell.equals hfilters.1
    rw [List.all_cons, List.all_cons, hpasses, ih hfilters.2]

theorem testAll_reread (h : read.Reread r) {filters : Filters}
    (hfilters : ∀ f ∈ filters, f.2.Dashless) : read.testAll filters = r.testAll filters := by
  have hcells (f : String × Condition) := (Record.lookup_reread h.fields f.1).isPlain
  rw [testAll_of_found (fun f _ => (h.isBarred f.1).1) (fun f _ _ => (hcells f).1.isWritable),
    testAll_of_found (fun f _ => (h.isBarred f.1).2) (fun f _ _ => (hcells f).2.isWritable),
    passesAll_reread h hfilters]

end Row

namespace Intent

def picked (i : Intent) (sheet : Sheet) : Except Failure (List Row) := do
  let matching ← matchingRows i.filters sheet.rows
  let sorted ← i.sorted matching
  .ok (Outcome.limited i.limit sorted)

variable {i : Intent} {read sheet : Sheet}

theorem matchingRows_reread (hfilters : ∀ f ∈ i.filters, f.2.Dashless)
    (h : List.Forall₂ Row.Reread read.rows sheet.rows) :
    Agree (List.Forall₂ Row.Reread) (matchingRows i.filters read.rows)
      (matchingRows i.filters sheet.rows) :=
  matchingRows_related (fun _ _ hrow => Row.testAll_reread hrow hfilters) h

theorem picked_reread (hfilters : ∀ f ∈ i.filters, f.2.Dashless)
    (h : List.Forall₂ Row.Reread read.rows sheet.rows) :
    Agree (List.Forall₂ Row.Reread) (i.picked read) (i.picked sheet) := by
  refine (matchingRows_reread hfilters h).bind fun rows others hrows => ?_
  have hsorted : Agree (List.Forall₂ Row.Reread) (i.sorted rows) (i.sorted others) :=
    sorted_related (fun field r s hrow =>
      ⟨(hrow.isBarred field).1.trans (hrow.isBarred field).2.symm, (hrow.alike field).key⟩) hrows
  exact hsorted.bind fun rows others hrows => .ok (List.forall₂_take _ hrows)

end Intent

/-! What questions ask for. -/

namespace Query

theorem dash_not_mem_equality {text word value : List Char}
    (h : equality text = some (word, value)) : '-' ∉ value := by
  obtain ⟨before, w, rest, -, h⟩ := exists_of_firstAtWord h
  obtain ⟨after, -, h⟩ := Option.bind_eq_some_iff.mp h
  rw [Option.ite_none_left_eq_some] at h
  obtain ⟨-, h⟩ := h
  obtain rfl := (Prod.mk.inj (Option.some.inj h)).2
  intro hmem
  have hclass := List.all_eq_true.mp List.all_takeWhile '-' (Text.mem_of_mem_trim hmem)
  revert hclass
  decide

theorem filters_dashless {text : List Char} {fs : Filters} (h : filters text = .ok fs) :
    ∀ f ∈ fs, f.2.Dashless := by
  intro f hf
  cases (filtersOf_filters h).read f hf with
  | compares => exact trivial
  | equals hvalue =>
    change '-' ∉ (String.ofList _).toList
    rw [String.toList_ofList]
    exact dash_not_mem_equality hvalue

end Query

theorem Intent.planned_dashless {question : String} {i : Intent}
    (h : Intent.planned question = .ok i) : ∀ f ∈ i.filters, f.2.Dashless := by
  obtain ⟨fs, hfs, h⟩ := bind_eq_ok.mp h
  obtain ⟨n, -, h⟩ := bind_eq_ok.mp h
  obtain rfl := Except.ok.inj h
  exact Query.filters_dashless hfs

/-! Rows of scalars. -/

namespace Atom

def IsText (a : Atom) : Prop := ∃ s, a.text? = some s

/-- Values without parts that rows are made of. Of moments only some may be accepted. -/
def IsScalar (accepted : Moment → Prop) : Atom → Prop
  | moment m => m.InCalendar ∧ accepted m
  | noMoment => False
  | clock _ => False
  | decimal _ => False
  | bytes _ => False
  | bundle _ => False
  | _ => True

end Atom

namespace RowText

def IsScalarMap (key : Atom → Prop) (accepted : Moment → Prop) (data : Cell) : Prop :=
  ∃ fs : Record, data = .record fs ∧ (fs.Pairwise fun f g => f.1.sameKey g.1 = false) ∧
    ∀ f ∈ fs, key f.1 ∧ f.1.text? ≠ some dateTag ∧ ∃ a, f.2 = .atom a ∧ a.IsScalar accepted

theorem readBackFields_distinct {fs : Record} {done out : List (String × Cell)}
    (h : readBackFields done fs = .ok out)
    (hdistinct : (done.map Prod.fst ++ fs.map fun f => storedName f.1).Nodup) :
    ∃ read, out = done ++ read ∧
      List.Forall₂ (fun g f => g.1 = storedName f.1 ∧ readBack f.2 = .ok g.2) read fs := by
  induction fs generalizing done with
  | nil =>
    obtain rfl := Except.ok.inj h
    exact ⟨[], (List.append_nil _).symm, .nil⟩
  | cons f fs ih =>
    obtain ⟨d, hd, h⟩ := bind_eq_ok.mp h
    rw [Json.putField_new d (Json.not_mem_of_nodup hdistinct)] at h
    obtain ⟨read, rfl, hread⟩ := ih h (by simpa using hdistinct)
    exact ⟨(storedName f.1, d) :: read, by simp, .cons ⟨rfl, hd⟩ hread⟩

theorem storedNames_nodup {fs : Record} (hkeys : ∀ f ∈ fs, f.1.IsText)
    (hdistinct : fs.Pairwise fun f g => f.1.sameKey g.1 = false) :
    (fs.map fun f => storedName f.1).Nodup := by
  apply List.pairwise_map.mpr
  apply hdistinct.imp_of_mem
  intro f g hf hg hfg heq
  obtain ⟨s, hs⟩ := hkeys f hf
  obtain ⟨t, ht⟩ := hkeys g hg
  rw [storedName_of_text hs, storedName_of_text ht] at heq
  rw [Atom.sameKey_of_text? hs (heq ▸ ht)] at hfg
  cases hfg

theorem reread_of_normal {fs fields : Record} (h : normal (.record fs) = .ok fields)
    (hscalars : IsScalarMap Atom.IsText Moment.Legible (.record fs)) : fields.Reread fs := by
  obtain ⟨fs', heq, hdistinct, hall⟩ := hscalars
  obtain rfl := Cell.record.inj heq
  obtain ⟨text, htext, hload⟩ := bind_eq_ok.mp h
  obtain ⟨j, hj⟩ := dump_eq_ok_iff.mp ⟨text, htext⟩
  obtain ⟨js, hjs, -⟩ := map_eq_ok.mp hj
  rw [load_dump htext] at hload
  obtain ⟨d, hd, rfl⟩ := map_eq_ok.mp hload
  obtain ⟨out, hout, hd⟩ := readBack_record.mp hd
  have hkeys : ∀ f ∈ fs, f.1.IsText := fun f hf => (hall f hf).1
  obtain ⟨read, hout, hread⟩ := readBackFields_distinct hout
    (by simpa using storedNames_nodup hkeys hdistinct)
  rw [List.nil_append] at hout
  subst hout
  have hnotag : ∀ value, out ≠ [(dateTag, value)] := by
    rintro value rfl
    cases hread with
    | @cons _ f _ fs hf hrest =>
      obtain ⟨s, hs⟩ := hkeys f List.mem_cons_self
      rw [storedName_of_text hs] at hf
      exact (hall f List.mem_cons_self).2.1 (hs.trans (congrArg some hf.1.symm))
  rw [decodeObject_other hnotag] at hd
  obtain rfl := Except.ok.inj hd
  change List.Forall₂ FieldReread (out.map fun f => (Atom.text f.1, f.2)) fs
  rw [List.forall₂_map_left_iff]
  have hfields : List.Forall₂ (fun f (g : String × Cell) => FieldReread (.text g.1, g.2) f) fs out := by
    apply forall₂_imp_mem hread.flip
    rintro f hf g ⟨hname, hback⟩
    obtain ⟨⟨s, hs⟩, -, a, ha, hscalar⟩ := hall f hf
    refine ⟨⟨s, hs, ?_⟩, ⟨a, ha, ?_⟩, ?_, hasText_fields hjs f hf⟩
    · rw [hname, storedName_of_text hs]
    · rwa [ha] at hback
    · rintro m hm
      rw [ha] at hm
      obtain rfl := Cell.atom.inj hm
      exact hscalar.2
  exact hfields.flip

end RowText

theorem Row.ReadFrom.reread {read r : Row} (h : read.ReadFrom r)
    (hr : RowText.IsScalarMap Atom.IsText Moment.Legible r.data) : read.Reread r := by
  refine ⟨h, ?_⟩
  obtain ⟨fields, hfields, rfl⟩ := h
  have hmap := hr
  obtain ⟨fs, hfs, -⟩ := hmap
  unfold Row.fields
  rw [hfs] at hr hfields ⊢
  exact RowText.reread_of_normal hfields hr

/-! What is told of the rows. -/

def Cell.ReadFrom (read c : Cell) : Prop :=
  RowText.normal (Cell.named [("cell", c)]) = .ok [(.text "cell", read)]

theorem Cell.Reread.readFrom {read c : Cell} (h : read.Reread c) : read.ReadFrom c := by
  obtain ⟨⟨a, rfl, hread⟩, -, j, hj⟩ := h
  obtain ⟨text, htext⟩ : ∃ text, RowText.dump (Cell.named [("cell", .atom a)]) = .ok text := by
    rw [RowText.dump_eq_ok_iff]
    refine ⟨.object [("cell", j)], ?_⟩
    simp only [Cell.named, List.map_cons, List.map_nil, RowText.encode, RowText.encodeFields] at hj ⊢
    rw [hj]
    rfl
  have hback : RowText.readBack (Cell.named [("cell", .atom a)]) =
      .ok (Cell.named [("cell", read)]) := by
    apply RowText.readBack_record.mpr
    refine ⟨[("cell", read)], ?_, rfl⟩
    change (a.readBack >>= _) = _
    rw [hread]
    rfl
  apply bind_eq_ok.mpr
  refine ⟨text, htext, ?_⟩
  rw [RowText.load_dump htext, hback]
  rfl

end PlainSheets
