import PlainSheets.Proofs.Store.Named

/-!
Sheets that are asked for by any text. Main statement: every character of the text stands for itself,
case ignored. The first sheet with the text in its name is found, and no sheet just when there is none.
-/
namespace PlainSheets

namespace Text

/-- Whether a text occurs in another one: some part of the same length is the same letter by letter,
case ignored. -/
def Occurs (text cs : List Char) : Prop := ∃ before part after,
  cs = before ++ (part ++ after) ∧ List.Forall₂ (fun a b => sameLetter a b = true) text part

theorem startsAs_iff {text cs : List Char} : startsAs text cs = true ↔ ∃ part after,
    cs = part ++ after ∧ List.Forall₂ (fun a b => sameLetter a b = true) text part := by
  induction text generalizing cs with
  | nil => simp [startsAs]
  | cons a text ih =>
    cases cs with
    | nil => simp [startsAs, List.forall₂_cons_left_iff]
    | cons c cs =>
      simp only [startsAs, Bool.and_eq_true, ih, List.forall₂_cons_left_iff]
      constructor
      · rintro ⟨hc, part, after, rfl, hpart⟩
        exact ⟨c :: part, after, rfl, c, part, hc, hpart, rfl⟩
      · rintro ⟨_, after, hcs, b, part, hb, hpart, rfl⟩
        obtain ⟨rfl, rfl⟩ := List.cons.inj hcs
        exact ⟨hb, part, after, rfl, hpart⟩

theorem occurs_of_startsAs {text cs : List Char} (h : startsAs text cs = true) : Occurs text cs := by
  obtain ⟨part, after, hcs, hpart⟩ := startsAs_iff.mp h
  exact ⟨[], part, after, hcs, hpart⟩

theorem occursIn_iff {text cs : List Char} : occursIn text cs = true ↔ Occurs text cs := by
  induction cs with
  | nil =>
    refine ⟨occurs_of_startsAs, ?_⟩
    rintro ⟨before, part, after, hcs, hpart⟩
    obtain ⟨rfl, hrest⟩ := List.append_eq_nil_iff.mp hcs.symm
    exact startsAs_iff.mpr ⟨part, after, hrest.symm, hpart⟩
  | cons c cs ih =>
    rw [occursIn, Bool.or_eq_true, ih]
    constructor
    · rintro (h | ⟨before, part, after, rfl, hpart⟩)
      · exact occurs_of_startsAs h
      · exact ⟨c :: before, part, after, rfl, hpart⟩
    · rintro ⟨before, part, after, hcs, hpart⟩
      cases before with
      | nil => exact .inl (startsAs_iff.mpr ⟨part, after, hcs, hpart⟩)
      | cons b before =>
        obtain ⟨rfl, rfl⟩ := List.cons.inj hcs
        exact .inr ⟨before, part, after, rfl, hpart⟩

end Text

/-- Whether a text occurs in a name; in no name, nothing does. -/
def HasPart (text : String) (name : Option String) : Prop :=
  ∃ n, name = some n ∧ Text.Occurs text.toList n.toList

theorem hasPart_iff {text : String} {name : Option String} :
    hasPart text name = true ↔ HasPart text name := by
  cases name with
  | none => simp [hasPart, HasPart]
  | some n => simp [hasPart, HasPart, Text.occursIn_iff]

instance (text : String) (name : Option String) : Decidable (HasPart text name) :=
  decidable_of_iff _ hasPart_iff

theorem hasPart_eq (text : String) (name : Option String) :
    hasPart text name = decide (HasPart text name) := by
  rw [Bool.eq_iff_iff, decide_eq_true_iff]
  exact hasPart_iff

namespace Store

variable {store : Store}

theorem id_ne_empty (hempty : "" ∉ store.names.map Prod.fst) {p : String × Option String → Bool}
    {n : String × Option String} (hn : store.names.find? p = some n) : n.1 ≠ "" := by
  intro h
  exact hempty (h ▸ List.mem_map_of_mem (List.mem_of_find?_eq_some hn))

theorem ready_of_resolve {text : String} (htext : text ≠ "") {found : Option Sheet}
    (h : store.reads.resolve (some text) = .ok found) : store.Ready := by
  rw [resolve_eq htext] at h
  cases store with
  | memory m => exact trivial
  | database d =>
    by_contra hclosed
    rw [reads, Database.reads_of_closed hclosed] at h
    cases h
  | broken f => cases h

theorem ready_of_sheets {sheets : List Sheet} (h : store.reads.sheets = .ok sheets) :
    store.Ready := by
  cases store with
  | memory m => exact trivial
  | database d =>
    by_contra hclosed
    rw [reads, Database.reads_of_closed hclosed] at h
    cases h
  | broken f => cases h

theorem resolve_of_ready (hready : store.Ready) (hempty : "" ∉ store.names.map Prod.fst)
    {text : String} (htext : text ≠ "") : store.reads.resolve (some text) =
      match store.names.find? fun n => HasPart text n.2 with
      | none => .ok none
      | some n => store.reads.byId n.1 := by
  rw [resolve_eq htext, byPattern_escape hready]
  simp only [hasPart_eq]
  cases hn : store.names.find? fun n => HasPart text n.2 with
  | none => rfl
  | some n => exact if_neg (by simpa using id_ne_empty hempty hn)

theorem label_of_resolve (hids : (store.names.map Prod.fst).Nodup)
    (hempty : "" ∉ store.names.map Prod.fst) {text : String} (htext : text ≠ "")
    {found : Option Sheet} (h : store.reads.resolve (some text) = .ok found) :
    found.map Sheet.label = store.names.find? fun n => HasPart text n.2 := by
  rw [resolve_of_ready (ready_of_resolve htext h) hempty htext] at h
  cases hn : store.names.find? fun n => HasPart text n.2 with
  | none =>
    rw [hn] at h
    rw [← Except.ok.inj h]
    rfl
  | some n =>
    rw [hn] at h
    rcases byId_of_mem_names hids (List.mem_of_find?_eq_some hn) with
      ⟨s, hs, hlabel⟩ | ⟨f, g, hf, -⟩
    · obtain rfl : some s = found := Except.ok.inj (hs.symm.trans h)
      exact congrArg some hlabel
    · cases hf.symm.trans h

theorem resolve_of_sheets (hids : (store.names.map Prod.fst).Nodup)
    (hempty : "" ∉ store.names.map Prod.fst) {text : String} (htext : text ≠ "")
    {sheets : List Sheet} (hsheets : store.reads.sheets = .ok sheets) :
    store.reads.resolve (some text) = .ok (sheets.find? fun s => HasPart text s.name) := by
  have hlabels := labels_sheets hsheets
  have hresolve := resolve_of_ready (ready_of_sheets hsheets) hempty htext
  have hnames : (store.names.find? fun n => HasPart text n.2) =
      (sheets.find? fun s => HasPart text s.name).map Sheet.label := by
    rw [← hlabels, List.find?_map]
    rfl
  rw [hnames] at hresolve
  cases hs : sheets.find? fun s => HasPart text s.name with
  | none => rw [hresolve, hs]; rfl
  | some s =>
    rw [hs] at hresolve
    have hmem := List.mem_of_find?_eq_some hs
    have hname : s.label ∈ store.names := hlabels ▸ List.mem_map_of_mem hmem
    rcases byId_of_mem_names hids hname with ⟨s', hs', hlabel⟩ | ⟨f, g, -, hg⟩
    · have hmem' := mem_sheets_of_byId hsheets hs'
      rw [← hlabels, List.map_map] at hids
      obtain rfl : s' = s := List.inj_on_of_nodup_map hids hmem' hmem (congrArg Prod.fst hlabel)
      exact hresolve.trans hs'
    · cases hg.symm.trans hsheets

/-- Any text but the empty one is looked for as it stands. It is never refused as a pattern; it leads to
the first name that it occurs in, which a store that can be read then reads by the id; and of the
sheets that a store lists it finds the first one with such a name, or none. -/
theorem resolve_literal (hids : (store.names.map Prod.fst).Nodup)
    (hempty : "" ∉ store.names.map Prod.fst) (text : String) (htext : text ≠ "") :
    matchName (Text.Pattern.escape text) store.names =
        .ok ((store.names.find? fun n => HasPart text n.2).map Prod.fst) ∧
      (store.Ready → store.reads.resolve (some text) =
        match store.names.find? fun n => HasPart text n.2 with
        | none => .ok none
        | some n => store.reads.byId n.1) ∧
      (∀ found, store.reads.resolve (some text) = .ok found →
        found.map Sheet.label = store.names.find? fun n => HasPart text n.2) ∧
      ∀ sheets, store.reads.sheets = .ok sheets →
        store.reads.resolve (some text) = .ok (sheets.find? fun s => HasPart text s.name) := by
  refine ⟨?_, fun hready => resolve_of_ready hready hempty htext,
    fun found => label_of_resolve hids hempty htext, fun sheets => resolve_of_sheets hids hempty htext⟩
  rw [matchName_escape]
  simp only [hasPart_eq]

def signed : Memory := ⟨[⟨"1", some "raw x", [], [], .epoch, none⟩, ⟨"2", none, [], [], .epoch, none⟩,
  ⟨"3", some "Text (raw) [ſ].*\\d", [], [], .epoch, none⟩]⟩

theorem resolve_literal_signed :
    (memory signed).reads.resolve (some "(RAW) [S].*\\D") = .ok signed.sheets[2]? ∧
      (memory signed).reads.resolve (some "raw.x") = .ok none := by
  have hids : ((memory signed).names.map Prod.fst).Nodup := by decide
  have hempty : "" ∉ (memory signed).names.map Prod.fst := by decide
  obtain ⟨-, -, -, hfound⟩ := resolve_literal hids hempty "(RAW) [S].*\\D" (by decide)
  obtain ⟨-, -, -, hnone⟩ := resolve_literal hids hempty "raw.x" (by decide)
  refine ⟨(hfound _ rfl).trans ?_, (hnone _ rfl).trans ?_⟩
  · rfl
  · rfl

end Store

end PlainSheets
