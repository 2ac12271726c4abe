import PlainSheets.Proofs.Cell.Readable
import PlainSheets.Proofs.Cell.RoundTrip
import PlainSheets.Proofs.Json.Built

/-!
Row data that came out of a text. Whatever the text was, no map in the data looks like a date, dates
are in UTC and integers are short: the data can be written again, and is then read as it is.
-/
namespace PlainSheets

theorem Moment.utc_spec {m u : Moment} (h : m.utc = .ok u) :
    u.InCalendar ∧ u.offset = some Offset.utc := by
  rw [Moment.utc_eq_ok] at h
  obtain ⟨hinstant, hutc⟩ := Moment.toUtc?_spec h
  have hcalendar := (Moment.toUtc?_isSome_iff m).mp (Option.isSome_of_eq_some h)
  rw [Moment.InCalendar, ← hinstant] at hcalendar
  exact ⟨hcalendar, hutc⟩

theorem Cell.named_injective : Function.Injective Cell.named := by
  intro fields gs h
  have hpair : Function.Injective fun f : String × Cell => ((.text f.1, f.2) : Atom × Cell) := by
    rintro ⟨name, c⟩ ⟨name', c'⟩ heq
    cases heq
    rfl
  exact List.map_injective_iff.mpr hpair (Cell.record.inj h)

namespace RowText

inductive Loaded : Cell → Prop where
  | null : Loaded .null
  | flag (b : Bool) : Loaded (.flag b)
  | integer (n : Int) (short : IsShort n) : Loaded (.integer n)
  | real (x : Binary64) : Loaded (.real x)
  | text (s : String) : Loaded (.text s)
  | moment (m : Moment) (inCalendar : m.InCalendar) (utc : m.offset = some Offset.utc) :
      Loaded (.moment m)
  | list (items : List Cell) (parts : ∀ c ∈ items, Loaded c) : Loaded (.list items)
  | record (fields : List (String × Cell)) (distinct : (fields.map Prod.fst).Nodup)
      (noTag : fields.map Prod.fst ≠ [dateTag]) (parts : ∀ f ∈ fields, Loaded f.2) :
      Loaded (Cell.named fields)

/-! Reading leaves data in this form. -/

theorem gives_utc (m : Moment) : Gives Loaded (m.utc.map .moment) := by
  intro d hd
  obtain ⟨u, hu, rfl⟩ := map_eq_ok.mp hd
  obtain ⟨hcalendar, hutc⟩ := Moment.utc_spec hu
  exact .moment u hcalendar hutc

theorem gives_readTag (text : String) : Gives Loaded (readTag text) := by
  unfold readTag
  split
  · exact gives_utc _
  · exact .error _

/-- The date tag alone never stays a map, on whatever value it stands. -/
theorem gives_decodeObject {fields : List (String × Cell)} (distinct : (fields.map Prod.fst).Nodup)
    (parts : ∀ f ∈ fields, Loaded f.2) : Gives Loaded (decodeObject fields) := by
  by_cases htag : fields.map Prod.fst = [dateTag]
  · obtain ⟨⟨key, value⟩, rfl, rfl⟩ := List.map_eq_singleton_iff.mp htag
    intro d hd
    obtain ⟨text, rfl, -⟩ := (decodeTag_isOk_iff value).mp ⟨d, hd⟩
    exact gives_readTag text d (decodeObject_tag text ▸ hd)
  · rw [decodeObject_named htag]
    exact .ok (.record fields distinct htag parts)

theorem keeps_loaded : builder.Keeps Loaded where
  null := .null
  flag := .flag
  integer := .integer
  real := .real
  text := .text
  list := .list
  object _ := gives_decodeObject

theorem Loaded.fields {c : Cell} (h : Loaded c) : Loaded (.record c.fields) := by
  cases h with
  | record fields distinct noTag parts => exact .record fields distinct noTag parts
  | _ => exact .record [] List.nodup_nil (by decide) nofun

theorem gives_load (raw : Option String) : Gives (fun r => Loaded (.record r)) (load raw) := by
  have hempty : Loaded (.record []) := Loaded.null.fields
  unfold load
  split
  · exact .ok hempty
  · split
    · exact .ok hempty
    · exact (keeps_loaded.readWith _).map fun c hc => hc.fields

/-! Data in this form comes back as it is. -/

theorem Loaded.kept {c : Cell} (h : Loaded c) : Kept Moment.Legible c := by
  induction h with
  | null => exact .null
  | flag b => exact .flag b
  | integer n short => exact .integer n short
  | real x => exact .real x
  | text s => exact .text s
  | moment m inCalendar utc =>
    refine .moment m inCalendar fun o ho => ?_
    obtain rfl : Offset.utc = o := Option.some.inj (utc.symm.trans ho)
    exact .inl rfl
  | list items _ ih => exact .list items ih
  | record fields distinct noTag _ ih => exact .record fields distinct noTag ih

theorem ReadsAs.named_inv {fields : List (String × Cell)} {d : Cell}
    (h : ReadsAs (Cell.named fields) d) : ∃ read, d = Cell.named read ∧
      read.map Prod.fst = fields.map Prod.fst ∧
      List.Forall₂ ReadsAs (fields.map Prod.snd) (read.map Prod.snd) := by
  generalize hc : Cell.named fields = c at h
  cases h with
  | record names parts =>
    obtain rfl := Cell.named_injective hc
    exact ⟨_, rfl, names, parts⟩
  | _ => cases hc

theorem eq_of_forall₂_readsAs {cs ds : List Cell} (hreads : List.Forall₂ ReadsAs cs ds)
    (h : ∀ c ∈ cs, ∀ d, ReadsAs c d → d = c) : ds = cs := by
  induction hreads with
  | nil => rfl
  | cons hread _ ih =>
    rw [List.forall_mem_cons] at h
    rw [h.1 _ hread, ih h.2]

theorem Loaded.eq_of_readsAs {c : Cell} (h : Loaded c) : ∀ d, ReadsAs c d → d = c := by
  induction h with
  | null | flag | integer | real | text =>
    intro d hd
    cases hd
    rfl
  | moment m inCalendar utc =>
    intro d hd
    cases hd with
    | moment _ u hutc same => rw [Moment.eq_of_instant_eq (hutc.trans utc.symm) same]
  | list items _ ih =>
    intro d hd
    cases hd with
    | list parts => rw [eq_of_forall₂_readsAs parts ih]
  | record fields distinct noTag _ ih =>
    intro d hd
    obtain ⟨read, rfl, hnames, hparts⟩ := hd.named_inv
    have hvalues : read.map Prod.snd = fields.map Prod.snd := by
      refine eq_of_forall₂_readsAs hparts fun c hc => ?_
      obtain ⟨f, hf, rfl⟩ := List.mem_map.mp hc
      exact ih f hf
    rw [List.zip_of_prod hnames hvalues, ← List.zip_of_prod rfl rfl]

/-- Whatever text was loaded, the data can be dumped, and loading the dump gives the same data. -/
theorem load_dump_of_load (raw : Option String) (r : Record) (h : load raw = .ok r) :
    ∃ text, dump (.record r) = .ok text ∧ load (some text) = .ok r := by
  have hloaded : Loaded (.record r) := gives_load raw r h
  obtain ⟨j, d, hj, hd, hread⟩ := hloaded.kept.roundTrip
  obtain ⟨text, htext⟩ := dump_eq_ok_iff.mpr ⟨j, hj⟩
  obtain rfl := hloaded.eq_of_readsAs d hread
  exact ⟨text, htext, by rw [load_dump htext, hd]; rfl⟩

def tangledText : String :=
  "\x7b\"a\": 1, \"at\": \x7b\"$date\": \"2023-05-31T10:30:00+02:00\"\x7d, " ++
    "\"a\": [NaN, \x7b\"$date\": \"x\", \"y\": null\x7d]\x7d"

def tangledRecord : Record :=
  [(.text "a", .list [.real .nan, Cell.named [("$date", .text "x"), ("y", .null)]]),
    (.text "at", .moment ⟨(Date.of? 2023 5 31).get (by decide), (Clock.of? 8 30 0 0).get (by decide),
      some Offset.utc⟩)]

theorem load_dump_tangled : load (some tangledText) = .ok tangledRecord ∧
    ∃ text, dump (.record tangledRecord) = .ok text ∧ load (some text) = .ok tangledRecord := by
  have hload : load (some tangledText) = .ok tangledRecord := by rfl
  exact ⟨hload, load_dump_of_load _ _ hload⟩

end RowText

end PlainSheets
