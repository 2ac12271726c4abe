import PlainSheets.Proofs.Query.Projected

/-!
What was found as a table of texts. Main statement: the columns are the keys of the records, each once,
where it appears first; a record has a text in the columns of its own keys and a gap in the others, so that
the texts of its cells are read off the table again.
-/
namespace PlainSheets

namespace Record

variable {r : Record} {name : String} {v : Cell}

structure IsNamed (r : Record) : Prop where
  texts : ∀ f ∈ r, f.1.IsText
  distinct : r.IsMap

def names (r : Record) : List String := r.keys.map Atom.display

theorem mem_names : name ∈ r.names ↔ ∃ f ∈ r, f.1.display = name := by
  simp only [names, keys, List.map_map, List.mem_map, Function.comp_apply]

theorem get?_eq_find? (r : Record) (name : String) :
    get? r name = (r.find? fun f => f.1.text? = some name).map Prod.snd := by
  induction r with
  | nil => rfl
  | cons f r ih =>
    obtain ⟨k, v⟩ := f
    rw [get?, List.find?_cons, ih]
    by_cases hk : k.text? = some name <;> simp [hk]

theorem isNamed_named {fields : List (String × Cell)} (h : (fields.map Prod.fst).Nodup) :
    IsNamed (Cell.named fields).fields where
  texts f hf := by
    obtain ⟨g, -, rfl⟩ := List.mem_map.mp hf
    exact ⟨g.1, rfl⟩
  distinct := by
    refine List.pairwise_map.mpr ((List.pairwise_map.mp h).imp fun hne => ?_)
    exact beq_eq_false_iff_ne.mpr hne

namespace IsNamed

variable (h : r.IsNamed)

include h

theorem text?_display {f : Atom × Cell} (hf : f ∈ r) : f.1.text? = some f.1.display := by
  obtain ⟨s, hs⟩ := h.texts f hf
  rw [hs, Atom.display_of_text hs]

theorem eq_of_display {f g : Atom × Cell} (hf : f ∈ r) (hg : g ∈ r)
    (heq : f.1.display = g.1.display) : f = g :=
  h.distinct.eq_of_sameKey hf hg
    (Atom.sameKey_of_text? (h.text?_display hf) (heq ▸ h.text?_display hg))

theorem get?_eq_some : get? r name = some v ↔ ∃ f ∈ r, f.1.display = name ∧ f.2 = v := by
  rw [get?_eq_find?, Option.map_eq_some_iff]
  constructor
  · rintro ⟨f, hfound, hv⟩
    have htext : f.1.text? = some name := by simpa using List.find?_some hfound
    exact ⟨f, List.mem_of_find?_eq_some hfound, Atom.display_of_text htext, hv⟩
  · rintro ⟨f, hf, rfl, hv⟩
    refine ⟨f, ?_, hv⟩
    have hown : decide (f.1.text? = some f.1.display) = true := decide_eq_true (h.text?_display hf)
    have hsome : (r.find? fun g => g.1.text? = some f.1.display).isSome :=
      List.find?_isSome.mpr ⟨f, hf, hown⟩
    obtain ⟨g, hg⟩ := Option.isSome_iff_exists.mp hsome
    have htext : g.1.text? = some f.1.display := by simpa using List.find?_some hg
    rw [hg, h.eq_of_display (List.mem_of_find?_eq_some hg) hf (Atom.display_of_text htext)]

theorem mem_names_iff : name ∈ r.names ↔ ∃ v, get? r name = some v := by
  simp only [mem_names, h.get?_eq_some]
  exact ⟨fun ⟨f, hf, hname⟩ => ⟨f.2, f, hf, hname, rfl⟩, fun ⟨_, f, hf, hname, _⟩ => ⟨f, hf, hname⟩⟩

theorem nodup_names : r.names.Nodup := by
  refine List.pairwise_map.mpr (List.pairwise_map.mpr (h.distinct.imp_of_mem ?_))
  intro f g hf hg hapart heq
  rw [Atom.sameKey_of_text? (h.text?_display hf) (heq ▸ h.text?_display hg)] at hapart
  cases hapart

theorem project (names : List String) : (r.project names).IsNamed := by
  by_cases hnames : names = []
  · subst hnames
    exact h
  · have hparts := projects_select h.distinct names
    rw [project_of_ne_nil hnames]
    constructor
    · intro f hf
      obtain ⟨g, hg, hone, -⟩ := hparts.part f hf
      rw [Atom.IsText, Atom.text?_eq_of_isOneWith hone]
      exact h.texts g hg
    · refine (List.pairwise_map.mp hparts.once).imp fun hapart => ?_
      exact (Bool.or_eq_false_iff.mp hapart).2

end IsNamed

end Record

namespace TextTable

variable {records : List Record} {r : Record} {i : Nat}

/-! Columns. -/

theorem addKeys_eraseDupsBy (as ks : List Atom) :
    addKeys (as.eraseDupsBy Atom.sameKey) ks = (as ++ ks).eraseDupsBy Atom.sameKey := by
  induction ks generalizing as with
  | nil => rw [addKeys, List.append_nil]
  | cons k ks ih => rw [addKeys, ← eraseDupsBy_concat, ih, List.append_assoc, List.singleton_append]

theorem keys_eq (records : List Record) :
    keys records = (records.flatMap Record.keys).eraseDupsBy Atom.sameKey := by
  induction records using List.reverseRecOn with
  | nil => rfl
  | append_singleton records r ih =>
    rw [keys, List.foldl_concat, ← keys, ih, addKeys_eraseDupsBy, List.flatMap_append,
      List.flatMap_singleton]

def names (records : List Record) : List String := (records.flatMap Record.names).eraseDups

def texts (records : List Record) (name : String) : List (Option String) :=
  records.map fun r => (Record.get? r name).map Cell.asText

theorem column_eq {key : Atom} {name : String} (h : key.text? = some name) :
    column records key = (name, texts records name) := by
  have hsame (k : Atom) : k.sameKey key = decide (k.text? = some name) := by
    rw [Bool.eq_iff_iff, decide_eq_true_iff]
    exact ⟨fun hk => (Atom.text?_eq_of_sameKey hk).trans h, fun hk => Atom.sameKey_of_text? hk h⟩
  rw [column, texts, Atom.display_of_text h]
  simp only [hsame, Record.get?_eq_find?, Option.map_map]
  rfl

theorem columns_eq (h : ∀ r ∈ records, r.IsNamed) :
    (ofRecords records).columns = (names records).map fun n => (n, texts records n) := by
  have htext : ∀ k ∈ records.flatMap Record.keys, k.text? = some k.display := by
    intro k hk
    obtain ⟨r, hr, hk⟩ := List.mem_flatMap.mp hk
    obtain ⟨f, hf, rfl⟩ := List.mem_map.mp hk
    exact (h r hr).text?_display hf
  have hsame : ∀ k ∈ records.flatMap Record.keys, ∀ l ∈ records.flatMap Record.keys,
      k.sameKey l = decide (k.display = l.display) := by
    intro k hk l hl
    rw [Atom.sameKey, htext k hk, htext l hl]
    rfl
  have hnames : (keys records).map Atom.display = names records := by
    rw [keys_eq, map_eraseDupsBy hsame, List.map_flatMap]
    rfl
  rw [← hnames, List.map_map]
  refine List.map_congr_left fun k hk => column_eq (htext k ?_)
  rw [keys_eq] at hk
  exact (eraseDupsBy_sublist _ _).subset hk

/-! Cells. -/

def row (t : TextTable) (i : Nat) : List (String × String) :=
  t.columns.filterMap fun c => c.2[i]?.join.map (c.1, ·)

/-- A table has a column for every key, and every cell of the records in its place. -/
structure Shows (t : TextTable) (records : List Record) : Prop where
  names : t.columns.map Prod.fst = (records.flatMap Record.names).eraseDups
  nodup : (t.columns.map Prod.fst).Nodup
  size : ∀ c ∈ t.columns, c.2.length = records.length
  filled : ∀ (i : Nat) (r : Record), records[i]? = some r → ∀ name,
    name ∈ r.names ↔ ∃ c ∈ t.columns, c.1 = name ∧ ∃ text, c.2[i]? = some (some text)
  cells : ∀ (i : Nat) (r : Record), records[i]? = some r → ∀ c ∈ t.columns,
    c.2[i]? = some ((Record.get? r c.1).map Cell.asText)
  /-- A cell that is missing under a key of its record is a text without letters, and no gap. -/
  blank : ∀ (i : Nat) (r : Record), records[i]? = some r → ∀ name v, Record.get? r name = some v →
    v.isMissing = true → ∃ c ∈ t.columns, c.1 = name ∧ c.2[i]? = some (some "")
  rows : ∀ (i : Nat) (r : Record), records[i]? = some r →
    (t.row i).Perm (r.map fun f => (f.1.display, f.2.asText))

theorem texts_getElem? (hi : records[i]? = some r) (name : String) :
    (texts records name)[i]? = some ((Record.get? r name).map Cell.asText) := by
  rw [texts, List.getElem?_map, hi]
  rfl

theorem mem_names_of_mem (hr : r ∈ records) {name : String} (h : name ∈ r.names) :
    name ∈ names records :=
  List.mem_eraseDups.mpr (List.mem_flatMap.mpr ⟨r, hr, h⟩)

theorem row_perm (h : ∀ r ∈ records, r.IsNamed) (hi : records[i]? = some r) :
    ((ofRecords records).row i).Perm (r.map fun f => (f.1.display, f.2.asText)) := by
  have hr := List.mem_of_getElem? hi
  have hrow : (ofRecords records).row i =
      (names records).filterMap fun n => (Record.get? r n).map fun v => (n, v.asText) := by
    rw [row, columns_eq h, List.filterMap_map]
    refine List.filterMap_congr fun n _ => ?_
    rw [Function.comp_apply, texts_getElem? hi, Option.join_some, Option.map_map]
    rfl
  have hfields : (r.map fun f => (f.1.display, f.2.asText)).map Prod.fst = r.names := by
    rw [Record.names, Record.keys, List.map_map, List.map_map]
    rfl
  rw [hrow]
  refine (List.perm_ext_iff_of_nodup ?_ (.of_map Prod.fst (hfields ▸ (h r hr).nodup_names))).mpr fun p => ?_
  · refine (nodup_eraseDups _).filterMap fun n m p hn hm => ?_
    obtain ⟨v, -, rfl⟩ := Option.map_eq_some_iff.mp hn
    obtain ⟨w, -, heq⟩ := Option.map_eq_some_iff.mp hm
    exact (congrArg Prod.fst heq).symm
  · simp only [List.mem_filterMap, List.mem_map, Option.map_eq_some_iff, (h r hr).get?_eq_some]
    constructor
    · rintro ⟨n, -, v, ⟨f, hf, rfl, rfl⟩, rfl⟩
      exact ⟨f, hf, rfl⟩
    · rintro ⟨f, hf, rfl⟩
      exact ⟨f.1.display, mem_names_of_mem hr (Record.mem_names.mpr ⟨f, hf, rfl⟩), f.2,
        ⟨f, hf, rfl, rfl⟩, rfl⟩

theorem shows_ofRecords (h : ∀ r ∈ records, r.IsNamed) : (ofRecords records).Shows records := by
  have hnames : (ofRecords records).columns.map Prod.fst = names records := by
    rw [columns_eq h, List.map_map]
    exact List.map_id _
  have hcolumn : ∀ c ∈ (ofRecords records).columns, c.2 = texts records c.1 := by
    intro c hc
    rw [columns_eq h] at hc
    obtain ⟨n, -, rfl⟩ := List.mem_map.mp hc
    rfl
  have hcells : ∀ (i : Nat) (r : Record), records[i]? = some r →
      ∀ c ∈ (ofRecords records).columns, c.2[i]? = some ((Record.get? r c.1).map Cell.asText) := by
    intro i r hi c hc
    rw [hcolumn c hc, texts_getElem? hi]
  have hheld : ∀ (i : Nat) (r : Record), records[i]? = some r → ∀ name v,
      Record.get? r name = some v →
        ∃ c ∈ (ofRecords records).columns, c.1 = name ∧ c.2[i]? = some (some v.asText) := by
    intro i r hi name v hv
    have hr := List.mem_of_getElem? hi
    have hname := mem_names_of_mem hr ((h r hr).mem_names_iff.mpr ⟨v, hv⟩)
    rw [← hnames] at hname
    obtain ⟨c, hc, rfl⟩ := List.mem_map.mp hname
    exact ⟨c, hc, rfl, by rw [hcells i r hi c hc, hv]; rfl⟩
  exact {
    names := hnames
    nodup := hnames ▸ nodup_eraseDups _
    size := fun c hc => by rw [hcolumn c hc, texts, List.length_map]
    filled := by
      intro i r hi name
      rw [(h r (List.mem_of_getElem? hi)).mem_names_iff]
      constructor
      · rintro ⟨v, hv⟩
        obtain ⟨c, hc, hname, htext⟩ := hheld i r hi name v hv
        exact ⟨c, hc, hname, v.asText, htext⟩
      · rintro ⟨c, hc, rfl, text, htext⟩
        rw [hcells i r hi c hc, Option.some_inj, Option.map_eq_some_iff] at htext
        obtain ⟨v, hv, -⟩ := htext
        exact ⟨v, hv⟩
    cells := hcells
    blank := by
      intro i r hi name v hv hmissing
      have hblank : v.asText = "" := if_pos hmissing
      exact hblank ▸ hheld i r hi name v hv
    rows := fun i r hi => row_perm h hi }

theorem tell_isOk_iff : (∃ t, tell records = .ok t) ↔ ∀ r ∈ records, ∀ f ∈ r, f.2.isWritable := by
  unfold tell
  simp only [← List.all_eq_true]
  split
  · rename_i hall
    exact iff_of_true ⟨_, rfl⟩ hall
  · rename_i hnot
    exact iff_of_false nofun hnot

theorem eq_of_tell {t : TextTable} (h : tell records = .ok t) : t = ofRecords records := by
  unfold tell at h
  split at h
  · exact (Except.ok.inj h).symm
  · cases h

end TextTable

namespace Outcome

theorem rows_named {i : Intent} {sheet : Sheet} {o : Outcome}
    (h : ∀ row ∈ sheet.rows, row.fields.IsNamed) (ho : ofIntent i (some sheet) = .ok o) :
    ∀ r ∈ o.rows, r.IsNamed := by
  by_cases haction : i.action = .count
  · rw [ofIntent_count haction] at ho
    obtain ⟨matching, -, rfl⟩ := map_eq_ok.mp ho
    exact fun _ hr => nomatch hr
  · obtain ⟨sorted, -, hsorted, -, rfl⟩ := (ofIntent_find_eq_ok haction).mp ho
    obtain ⟨arranged, hperm, -, rfl⟩ := Intent.sorted_arranged hsorted
    intro r hr
    obtain ⟨row, hrow, rfl⟩ := List.mem_map.mp hr
    obtain ⟨a, ha, rfl⟩ := List.mem_map.mp (List.mem_of_mem_take hrow)
    have hmatching := List.fst_mem_of_mem_zipIdx (hperm.subset ha)
    exact (h a.1 (List.mem_of_mem_filter hmatching)).project i.fields

/-- The table of what an intent finds on a sheet whose rows have texts as keys is made just when every cell
has a text, and shows the records: there is a column for every key, and nothing is lost. -/
theorem table_shows (i : Intent) (sheet : Sheet) (h : ∀ row ∈ sheet.rows, row.fields.IsNamed)
    (o : Outcome) (ho : ofIntent i (some sheet) = .ok o) :
    ((∃ t, o.table = .ok t) ↔ ∀ r ∈ o.rows, ∀ f ∈ r, f.2.isWritable) ∧
      ∀ t, o.table = .ok t → t.Shows o.rows := by
  refine ⟨TextTable.tell_isOk_iff, fun t ht => ?_⟩
  rw [TextTable.eq_of_tell ht]
  exact TextTable.shows_ofRecords (rows_named h ho)

def roster : Sheet :=
  ⟨"s", some "Roster", [], [row "a" [("name", .text "Ann"), ("age", .null)],
    row "b" [("age", .integer 30)], row "c" [("city", .flag true), ("name", .text "Cid")]],
    .epoch, some .epoch⟩
where
  row (id : String) (fields : List (String × Cell)) : Row := ⟨id, .named fields, .epoch, some .epoch⟩

/-- The cell that is missing is a text without letters, and where there is no key there is a gap. -/
theorem table_shows_roster : ∃ o t, ofIntent {} (some roster) = .ok o ∧ o.table = .ok t ∧
    t.columns.map Prod.fst = ["name", "age", "city"] ∧
    (∀ c ∈ t.columns, c.1 = "age" → c.2[0]? = some (some "") ∧ c.2[2]? = some none) ∧
    (t.row 2).Perm [("city", "true"), ("name", "Cid")] := by
  have hnamed : ∀ row ∈ roster.rows, row.fields.IsNamed := by
    intro row hrow
    simp only [roster, List.mem_cons, List.not_mem_nil, or_false] at hrow
    rcases hrow with rfl | rfl | rfl <;> exact Record.isNamed_named (by decide)
  have hfound : ofIntent {} (some roster) =
      .ok (.found (some "Roster") {} (roster.rows.map Row.fields)) := rfl
  obtain ⟨hmade, hshows⟩ := table_shows {} roster hnamed _ hfound
  obtain ⟨t, ht⟩ := hmade.mpr (by decide +kernel)
  have ht' := hshows t ht
  refine ⟨_, t, hfound, ht, ht'.names.trans (by decide +kernel), fun c hc hname => ⟨?_, ?_⟩, ?_⟩
  · rw [ht'.cells 0 _ rfl c hc, hname]
    rfl
  · rw [ht'.cells 2 _ rfl c hc, hname]
    rfl
  · exact ht'.rows 2 _ rfl

end Outcome

end PlainSheets
