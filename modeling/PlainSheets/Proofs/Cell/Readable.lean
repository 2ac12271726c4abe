import PlainSheets.Proofs.Cell.RowText

/-!
Which row data can be read back from its stored text, and which comes back with the keys it was
written with. A map with the date tag alone is taken for a date: it has to name one, and its own key
is lost.
-/
namespace PlainSheets.RowText

def NamesMoment (text : String) : Prop := ∃ m, Moment.ofIso text = .ok m ∧ m.InCalendar

def IsTag (fields : Record) : Prop := fields ≠ [] ∧ ∀ f ∈ fields, storedName f.1 = dateTag

/-- Data of which every part can be read back: dates are within the calendar of UTC, and so is what
the date tag alone stands over. -/
inductive Readable : Cell → Prop where
  | atom (a : Atom) (present : a ≠ .noMoment)
      (inCalendar : ∀ m, a = .moment m → m.asRead.InCalendar) :
    Readable (.atom a)
  | list (items : List Cell) (parts : ∀ c ∈ items, Readable c) : Readable (.list items)
  | record (fields : Record) (parts : ∀ f ∈ fields, Readable f.2)
    (tag : IsTag fields → ∃ key value text, fields.getLast? = some (key, value) ∧
      value.text? = some text ∧ NamesMoment text) : Readable (.record fields)

theorem utc_isOk_iff (m : Moment) : (∃ u, m.utc = .ok u) ↔ m.InCalendar := by
  rw [← Moment.toUtc?_isSome_iff, Option.isSome_iff_exists, Moment.utc]
  cases m.toUtc? <;> simp

theorem readTag_isOk_iff (text : String) : (∃ d, readTag text = .ok d) ↔ NamesMoment text := by
  unfold readTag NamesMoment
  cases Moment.ofIso text with
  | error e => simp
  | ok m =>
    simp only [map_eq_ok, Except.ok.injEq, exists_eq_left', ← utc_isOk_iff]
    exact ⟨fun ⟨_, u, hu, _⟩ => ⟨u, hu⟩, fun ⟨u, hu⟩ => ⟨_, u, hu, rfl⟩⟩

theorem decodeTag_isOk_iff (value : Cell) : (∃ d, decodeObject [(dateTag, value)] = .ok d) ↔
    ∃ text, value = .text text ∧ NamesMoment text := by
  constructor
  · rintro ⟨d, hd⟩
    unfold decodeObject at hd
    simp only [if_true] at hd
    split at hd
    · rename_i text
      exact ⟨text, rfl, (readTag_isOk_iff text).mp ⟨d, hd⟩⟩
    · cases hd
  · rintro ⟨text, rfl, h⟩
    rw [decodeObject_tag]
    exact (readTag_isOk_iff text).mpr h

theorem decodeObject_other {fields : List (String × Cell)}
    (h : ∀ value, fields ≠ [(dateTag, value)]) :
    decodeObject fields = .ok (.record (fields.map fun f => (.text f.1, f.2))) := by
  unfold decodeObject
  split
  · rename_i key value
    have hkey : ¬ key = dateTag := fun hkey => h value (by rw [hkey])
    rw [if_neg hkey]
    rfl
  · rfl

/-- What a map is read as: a date under the date tag alone, and otherwise a record. -/
theorem decodeObject_cases {fields : List (String × Cell)} {d : Cell}
    (h : decodeObject fields = .ok d) :
    ((∃ value, fields = [(dateTag, value)]) ∧ ∃ m, d = .moment m) ∨
      (∀ value, fields ≠ [(dateTag, value)]) ∧
        d = .record (fields.map fun f => (.text f.1, f.2)) := by
  by_cases htag : ∃ value, fields = [(dateTag, value)]
  · obtain ⟨value, rfl⟩ := htag
    obtain ⟨text, rfl, -⟩ := (decodeTag_isOk_iff value).mp ⟨d, h⟩
    rw [decodeObject_tag, readTag] at h
    split at h
    · obtain ⟨m, -, rfl⟩ := map_eq_ok.mp h
      exact .inl ⟨⟨_, rfl⟩, m, rfl⟩
    · cases h
  · have hother : ∀ value, fields ≠ [(dateTag, value)] := fun value heq => htag ⟨value, heq⟩
    rw [decodeObject_other hother] at h
    exact .inr ⟨hother, (Except.ok.inj h).symm⟩

theorem readBack_record {fs : Record} {d : Cell} : readBack (.record fs) = .ok d ↔
    ∃ read, readBackFields [] fs = .ok read ∧ decodeObject read = .ok d := by
  rw [readBack, bind_eq_ok]

@[simp] theorem readBack_text_iff (c : Cell) (text : String) :
    readBack c = .ok (.text text) ↔ c.text? = some text := by
  cases c with
  | atom a => cases a with
    | sized v => cases v <;> simp [readBack, Atom.readBack, Cell.text?, Cell.atom?, Atom.text?]
    | moment m =>
      simp only [readBack, Atom.readBack, map_eq_ok]
      exact ⟨fun ⟨u, _, hu⟩ => (nomatch hu), fun h => (nomatch h)⟩
    | _ => simp [readBack, Atom.readBack, Cell.text?, Cell.atom?, Atom.text?]
  | list items =>
    simp only [readBack, map_eq_ok]
    exact ⟨fun ⟨u, _, hu⟩ => (nomatch hu), fun h => (nomatch h)⟩
  | record fs =>
    refine ⟨fun h => ?_, fun h => (nomatch h)⟩
    obtain ⟨read, -, hread⟩ := readBack_record.mp h
    rcases decodeObject_cases hread with ⟨-, m, hm⟩ | ⟨-, hr⟩
    · cases hm
    · cases hr

/-! The names of what is read back. -/

theorem readBackFields_cons {done : List (String × Cell)} {k : Atom} {c : Cell} {fs : Record}
    {read : List (String × Cell)} : readBackFields done ((k, c) :: fs) = .ok read ↔
      ∃ d, readBack c = .ok d ∧
        readBackFields (Json.putField (storedName k) d done) fs = .ok read := by
  rw [readBackFields, bind_eq_ok]

theorem readBackFields_keys {fs : Record} {done read : List (String × Cell)}
    (h : readBackFields done fs = .ok read) (hdone : (done.map Prod.fst).Nodup) :
    (read.map Prod.fst).Nodup ∧ ∀ name, name ∈ read.map Prod.fst ↔
      name ∈ done.map Prod.fst ∨ ∃ f ∈ fs, storedName f.1 = name := by
  induction fs generalizing done with
  | nil =>
    obtain rfl := Except.ok.inj h
    exact ⟨hdone, by simp⟩
  | cons f fs ih =>
    obtain ⟨d, -, h⟩ := readBackFields_cons.mp h
    have hkeys := Json.putField_keys (storedName f.1) d done
    have hput : ((Json.putField (storedName f.1) d done).map Prod.fst).Nodup := by
      rw [hkeys]
      split
      · exact hdone
      · rename_i hnew
        exact List.nodup_append.mpr ⟨hdone, List.nodup_singleton _, by
          rintro a ha b hb rfl
          exact hnew (List.mem_singleton.mp hb ▸ ha)⟩
    obtain ⟨hnodup, hmem⟩ := ih h hput
    refine ⟨hnodup, fun name => ?_⟩
    rw [hmem name, hkeys, List.exists_mem_cons_iff, ← or_assoc]
    refine or_congr ?_ Iff.rfl
    split
    · rename_i hold
      exact ⟨.inl, fun h => h.elim id fun heq => heq ▸ hold⟩
    · rw [List.mem_append, List.mem_singleton]
      exact or_congr Iff.rfl eq_comm

theorem readBackFields_tag {fs : Record} {done read : List (String × Cell)}
    (h : readBackFields done fs = .ok read) (htag : ∀ f ∈ fs, storedName f.1 = dateTag)
    (hdone : done = [] ∨ ∃ d, done = [(dateTag, d)]) {key : Atom} {value : Cell}
    (hlast : fs.getLast? = some (key, value)) :
    ∃ d, readBack value = .ok d ∧ read = [(dateTag, d)] := by
  induction fs generalizing done with
  | nil => cases hlast
  | cons f fs ih =>
    obtain ⟨d, hd, h⟩ := readBackFields_cons.mp h
    have hput : Json.putField (storedName f.1) d done = [(dateTag, d)] := by
      rw [htag f List.mem_cons_self]
      rcases hdone with rfl | ⟨old, rfl⟩
      · rfl
      · rw [Json.putField, if_pos rfl]
    rw [hput] at h
    cases fs with
    | nil =>
      obtain rfl := Except.ok.inj h
      obtain rfl := Option.some.inj hlast
      exact ⟨d, hd, rfl⟩
    | cons g gs =>
      rw [List.getLast?_cons_cons] at hlast
      exact ih h (fun a ha => htag a (List.mem_cons_of_mem f ha)) (.inr ⟨d, rfl⟩) hlast

/-- A map is read as a date just when its fields are stored under the date tag alone. -/
theorem read_tag_iff {fs : Record} {read : List (String × Cell)}
    (h : readBackFields [] fs = .ok read) : (∃ value, read = [(dateTag, value)]) ↔ IsTag fs := by
  obtain ⟨hnodup, hnames⟩ := readBackFields_keys h List.nodup_nil
  simp only [List.map_nil, List.not_mem_nil, false_or] at hnames
  constructor
  · rintro ⟨value, rfl⟩
    refine ⟨?_, fun f hf => ?_⟩
    · rintro rfl
      cases h
    · exact List.mem_singleton.mp ((hnames _).mpr ⟨f, hf, rfl⟩)
  · rintro ⟨hne, htag⟩
    obtain ⟨⟨key, value⟩, hlast⟩ := Option.isSome_iff_exists.mp (List.getLast?_isSome.mpr hne)
    obtain ⟨d, -, hread⟩ := readBackFields_tag h htag (.inl rfl) hlast
    exact ⟨d, hread⟩

theorem decode_isOk_iff {fs : Record} {read : List (String × Cell)}
    (h : readBackFields [] fs = .ok read) : (∃ d, decodeObject read = .ok d) ↔
      (IsTag fs → ∃ key value text, fs.getLast? = some (key, value) ∧ value.text? = some text ∧
        NamesMoment text) := by
  by_cases htag : IsTag fs
  · obtain ⟨⟨key, value⟩, hlast⟩ := Option.isSome_iff_exists.mp (List.getLast?_isSome.mpr htag.1)
    obtain ⟨d, hd, rfl⟩ := readBackFields_tag h htag.2 (.inl rfl) hlast
    rw [decodeTag_isOk_iff]
    constructor
    · rintro ⟨text, rfl, hnames⟩ -
      exact ⟨key, value, text, hlast, (readBack_text_iff value text).mp hd, hnames⟩
    · intro hall
      obtain ⟨key', value', text, hlast', htext, hnames⟩ := hall htag
      rw [hlast] at hlast'
      cases hlast'
      rw [(readBack_text_iff value text).mpr htext] at hd
      exact ⟨text, (Except.ok.inj hd).symm, hnames⟩
  · have hother : ∀ value, read ≠ [(dateTag, value)] := fun value heq =>
      htag ((read_tag_iff h).mp ⟨value, heq⟩)
    rw [decodeObject_other hother]
    exact ⟨fun _ hno => absurd hno htag, fun _ => ⟨_, rfl⟩⟩

theorem readable_atom (a : Atom) : Readable (.atom a) ↔ ∃ d, readBack (.atom a) = .ok d := by
  constructor
  · intro h
    cases h with
    | atom _ present inCalendar =>
      cases a with
      | noMoment => exact absurd rfl present
      | moment m =>
        obtain ⟨u, hu⟩ := (utc_isOk_iff m.asRead).mpr (inCalendar m rfl)
        exact ⟨.moment u, map_eq_ok.mpr ⟨u, hu, rfl⟩⟩
      | sized v => cases v <;> exact ⟨_, rfl⟩
      | _ => exact ⟨_, rfl⟩
  · rintro ⟨d, hd⟩
    refine .atom a ?_ ?_
    · rintro rfl
      cases hd
    · rintro m rfl
      obtain ⟨u, hu, -⟩ := map_eq_ok.mp hd
      exact (utc_isOk_iff m.asRead).mp ⟨u, hu⟩

mutual

/-- Data can be read back just when it is readable in every part. -/
theorem readable_iff : ∀ c : Cell, Readable c ↔ ∃ d, readBack c = .ok d
  | .atom a => readable_atom a
  | .list items => by
    rw [readBack]
    simp only [map_eq_ok]
    constructor
    · intro h
      cases h with
      | list _ parts =>
        obtain ⟨ds, hds⟩ := (readableItems_iff items).mp parts
        exact ⟨_, ds, hds, rfl⟩
    · rintro ⟨_, ds, hds, -⟩
      exact .list items ((readableItems_iff items).mpr ⟨ds, hds⟩)
  | .record fs => by
    constructor
    · intro h
      cases h with
      | record _ parts tag =>
        obtain ⟨read, hread⟩ := (readableFields_iff fs []).mp parts
        obtain ⟨d, hd⟩ := (decode_isOk_iff hread).mpr tag
        exact ⟨d, readBack_record.mpr ⟨read, hread, hd⟩⟩
    · rintro ⟨d, h⟩
      obtain ⟨read, hread, hd⟩ := readBack_record.mp h
      exact .record fs ((readableFields_iff fs []).mpr ⟨read, hread⟩)
        ((decode_isOk_iff hread).mp ⟨d, hd⟩)

theorem readableItems_iff : ∀ items : List Cell,
    (∀ c ∈ items, Readable c) ↔ ∃ ds, readBackItems items = .ok ds
  | [] => by
    exact ⟨fun _ => ⟨[], rfl⟩, fun _ => by simp⟩
  | c :: cs => by
    rw [List.forall_mem_cons, readable_iff c, readableItems_iff cs]
    constructor
    · rintro ⟨⟨d, hd⟩, ds, hds⟩
      exact ⟨d :: ds, by rw [readBackItems, hd, hds]; rfl⟩
    · rintro ⟨ds, h⟩
      obtain ⟨d, hd, h⟩ := bind_eq_ok.mp h
      obtain ⟨ds, hds, -⟩ := bind_eq_ok.mp h
      exact ⟨⟨d, hd⟩, ds, hds⟩

theorem readableFields_iff : ∀ (fs : List (Atom × Cell)) (done : List (String × Cell)),
    (∀ f ∈ fs, Readable f.2) ↔ ∃ read, readBackFields done fs = .ok read
  | [], done => by
    exact ⟨fun _ => ⟨done, rfl⟩, fun _ => by simp⟩
  | (k, c) :: fs, done => by
    simp only [readBackFields_cons, List.forall_mem_cons]
    rw [readable_iff c]
    constructor
    · rintro ⟨⟨d, hd⟩, hrest⟩
      obtain ⟨read, hread⟩ := (readableFields_iff fs (Json.putField (storedName k) d done)).mp hrest
      exact ⟨read, d, hd, hread⟩
    · rintro ⟨read, d, hd, hread⟩
      exact ⟨⟨d, hd⟩, (readableFields_iff fs _).mpr ⟨read, hread⟩⟩

end

/-! Keys. -/

def SameKeys (a b : Record) : Prop :=
  (∀ f ∈ a, ∃ g ∈ b, f.1.sameKey g.1 = true) ∧ ∀ g ∈ b, ∃ f ∈ a, f.1.sameKey g.1 = true

/-- Data that comes back with its keys if it comes back at all: a map whose keys are texts and not
the date tag alone, or data without entries. Of other data nothing is read. -/
def KeepsKeys : Cell → Prop
  | .record fields => (∀ f ∈ fields, ∃ name, f.1.text? = some name) ∧ ¬ IsTag fields
  | c => c.asRecord = .ok []

@[simp] theorem sameKey_text (k : Atom) (name : String) :
    k.sameKey (.text name) = true ↔ k.text? = some name :=
  ⟨Atom.text?_eq_of_sameKey, fun h => Atom.sameKey_of_text? h rfl⟩

theorem storedName_of_text {k : Atom} {name : String} (h : k.text? = some name) :
    storedName k = name := by
  cases k with
  | text s => exact Option.some.inj h
  | sized v =>
    cases v with
    | text s => exact Option.some.inj h
    | _ => cases h
  | _ => cases h

@[simp] theorem sameKeys_nil (a : Record) : SameKeys a [] ↔ a = [] := by
  cases a with
  | nil => simp [SameKeys]
  | cons f a =>
    refine ⟨fun h => ?_, fun h => (nomatch h)⟩
    obtain ⟨g, hg, -⟩ := h.1 f List.mem_cons_self
    exact (List.not_mem_nil hg).elim

theorem sameKeys_record {fs : Record} {d : Cell} (h : readBack (.record fs) = .ok d) :
    SameKeys fs d.fields ↔ KeepsKeys (.record fs) := by
  obtain ⟨read, hread, hd⟩ := readBack_record.mp h
  rcases decodeObject_cases hd with ⟨htag, m, rfl⟩ | ⟨hother, rfl⟩
  · have htag := (read_tag_iff hread).mp htag
    change SameKeys fs [] ↔ _
    rw [sameKeys_nil]
    exact ⟨fun hnil => absurd hnil htag.1, fun hkeep => absurd htag hkeep.2⟩
  · have hnot : ¬ IsTag fs := fun htag => by
      obtain ⟨value, heq⟩ := (read_tag_iff hread).mpr htag
      exact hother value heq
    obtain ⟨-, hnames⟩ := readBackFields_keys hread List.nodup_nil
    simp only [List.map_nil, List.not_mem_nil, false_or] at hnames
    change SameKeys fs (read.map fun f => (.text f.1, f.2)) ↔ _
    constructor
    · intro hsame
      refine ⟨fun f hf => ?_, hnot⟩
      obtain ⟨g, hg, hkey⟩ := hsame.1 f hf
      obtain ⟨r, -, rfl⟩ := List.mem_map.mp hg
      exact ⟨r.1, (sameKey_text f.1 r.1).mp hkey⟩
    · intro hkeep
      refine ⟨fun f hf => ?_, fun g hg => ?_⟩
      · obtain ⟨name, hname⟩ := hkeep.1 f hf
        obtain ⟨r, hr, hrname⟩ := List.mem_map.mp ((hnames name).mpr
          ⟨f, hf, storedName_of_text hname⟩)
        exact ⟨_, List.mem_map_of_mem hr, (sameKey_text f.1 r.1).mpr (hrname ▸ hname)⟩
      · obtain ⟨r, hr, rfl⟩ := List.mem_map.mp hg
        obtain ⟨f, hf, hfname⟩ := (hnames r.1).mp (List.mem_map_of_mem hr)
        obtain ⟨name, hname⟩ := hkeep.1 f hf
        rw [storedName_of_text hname] at hfname
        exact ⟨f, hf, (sameKey_text f.1 r.1).mpr (hfname ▸ hname)⟩

theorem readBack_fields {c d : Cell} (h : readBack c = .ok d) (hc : ∀ fs, c ≠ .record fs) :
    d.fields = [] := by
  cases c with
  | record fs => exact absurd rfl (hc fs)
  | list items =>
    obtain ⟨ds, -, rfl⟩ := map_eq_ok.mp h
    rfl
  | atom a =>
    cases a with
    | noMoment => cases h
    | moment m =>
      obtain ⟨u, -, rfl⟩ := map_eq_ok.mp h
      rfl
    | sized v =>
      cases v <;> obtain rfl := Except.ok.inj h <;> rfl
    | _ =>
      obtain rfl := Except.ok.inj h
      rfl

/-- What is read back has the keys of the written record just when the data keeps its keys. -/
theorem sameKeys_iff {c d : Cell} (h : readBack c = .ok d) :
    (∃ written, c.asRecord = .ok written ∧ SameKeys written d.fields) ↔ KeepsKeys c := by
  have hother (hc : ∀ fs, c ≠ .record fs) :
      (∃ written, c.asRecord = .ok written ∧ SameKeys written d.fields) ↔ c.asRecord = .ok [] := by
    simp only [readBack_fields h hc, sameKeys_nil, exists_eq_right]
  cases c with
  | record fs =>
    rw [← sameKeys_record h]
    simp only [Cell.asRecord, Except.ok.injEq, exists_eq_left']
  | atom a => exact hother (by simp)
  | list items => exact hother (by simp)

end PlainSheets.RowText
