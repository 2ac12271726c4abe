import PlainSheets.Proofs.Distinct
import PlainSheets.Proofs.Query.Found
import PlainSheets.Proofs.Query.RelatedRows
import PlainSheets.Proofs.Query.Reread

/-!
Fields by name. Main statement: a name stands for the key that is the name itself, or else for the first
key that is shown with the same letters, case ignored, unless that key is null; a projection has the keys
that its names stand for, each once, where it is asked for first, with the cells that filters and sorting
see under these names.
-/
namespace PlainSheets

namespace Atom

def Alike (k : Atom) (name : String) : Prop := Text.lower k.display = Text.lower name

instance (k : Atom) (name : String) : Decidable (k.Alike name) :=
  inferInstanceAs (Decidable (Text.lower k.display = Text.lower name))

end Atom

namespace Record

variable {r : Record} {name other : String} {k l : Atom}

def IsMap (r : Record) : Prop := r.Pairwise fun f g => f.1.sameKey g.1 = false

instance (r : Record) : Decidable r.IsMap :=
  inferInstanceAs (Decidable (List.Pairwise _ _))

theorem IsMap.eq_of_sameKey (h : r.IsMap) {f g : Atom × Cell} (hf : f ∈ r) (hg : g ∈ r)
    (hsame : f.1.sameKey g.1 = true) : f = g := by
  by_contra hne
  have hsymm : Std.Symm fun f g : Atom × Cell => f.1.sameKey g.1 = false :=
    ⟨fun f g hfg => (Atom.sameKey_comm _ _).trans hfg⟩
  have hother := List.Pairwise.forall h hf hg hne
  rw [hsame] at hother
  cases hother

/-! What a name stands for. -/

/-- What a name stands for: itself, if it is a key, or else the first key alike, which is none at all if it
is null. -/
inductive Resolves (r : Record) (name : String) : Option Atom → Prop
  | itself (h : ∃ k ∈ r.keys, k.text? = some name) : Resolves r name (some (.text name))
  | alike {before after : List Atom} {k : Atom} (hother : ∀ l ∈ r.keys, l.text? ≠ some name)
      (hkeys : r.keys = before ++ k :: after) (hbefore : ∀ l ∈ before, ¬ l.Alike name)
      (hk : k.Alike name) (hheld : k ≠ .null) : Resolves r name (some k)
  | null {before after : List Atom} (hother : ∀ l ∈ r.keys, l.text? ≠ some name)
      (hkeys : r.keys = before ++ .null :: after) (hbefore : ∀ l ∈ before, ¬ l.Alike name)
      (hk : Atom.null.Alike name) : Resolves r name none
  | missing (h : ∀ k ∈ r.keys, ¬ k.Alike name) : Resolves r name none

theorem field?_cases (r : Record) (name : String) :
    (∃ f ∈ r, f.1.text? = some name ∧ r.field? name = some f) ∨
    (∀ f ∈ r, f.1.text? ≠ some name) ∧
      r.field? name = (r.find? fun f => f.1.Alike name).filter fun f => f.1 ≠ .null := by
  unfold field?
  cases hexact : r.find? fun f => f.1.text? = some name with
  | some f =>
    exact .inl ⟨f, List.mem_of_find?_eq_some hexact, by simpa using List.find?_some hexact, rfl⟩
  | none => exact .inr ⟨by simpa using List.find?_eq_none.mp hexact, rfl⟩

theorem resolves (r : Record) (name : String) : r.Resolves name (r.resolve? name) := by
  unfold resolve?
  rcases r.field?_cases name with ⟨f, hf, htext, hfield⟩ | ⟨hother, hfield⟩
  · rw [hfield, Option.map_some, if_pos htext]
    exact .itself ⟨f.1, List.mem_map_of_mem hf, htext⟩
  · rw [hfield]
    cases halike : r.find? fun f => f.1.Alike name with
    | some f =>
      obtain ⟨hf, before, after, rfl, hbefore⟩ := List.find?_eq_some_iff_append.mp halike
      have hearlier : ∀ l ∈ keys before, ¬ l.Alike name :=
        List.forall_mem_map.mpr (by simpa using hbefore)
      have hkeys : keys (before ++ f :: after) = keys before ++ f.1 :: keys after := List.map_append
      have hothers : ∀ l ∈ keys (before ++ f :: after), l.text? ≠ some name :=
        List.forall_mem_map.mpr hother
      rw [Option.filter_some]
      by_cases hnull : f.1 = .null
      · rw [if_neg (by simpa using hnull)]
        rw [hnull] at hkeys hf
        exact .null hothers hkeys hearlier (of_decide_eq_true hf)
      · rw [if_pos (by simpa using hnull), Option.map_some, if_neg (hother f (by simp))]
        exact .alike hothers hkeys hearlier (of_decide_eq_true hf) hnull
    | none => exact .missing (List.forall_mem_map.mpr (by simpa using List.find?_eq_none.mp halike))

/-- A name stands for no key if no key is alike, or if null is the first one that is. -/
theorem resolve?_eq_none : r.resolve? name = none ↔ (∀ k ∈ r.keys, ¬ k.Alike name) ∨
    (∀ k ∈ r.keys, k.text? ≠ some name) ∧ r.keys.find? (fun k => k.Alike name) = some .null := by
  have h := r.resolves name
  generalize r.resolve? name = found at h
  cases h with
  | itself h =>
    obtain ⟨k, hk, htext⟩ := h
    refine iff_of_false nofun ?_
    rintro (hnot | ⟨hother, -⟩)
    · exact hnot k hk (congrArg Text.lower (Atom.display_of_text htext))
    · exact hother k hk htext
  | @alike before after k _ hkeys hbefore hk hheld =>
    have hfirst : r.keys.find? (fun k => k.Alike name) = some k :=
      List.find?_eq_some_iff_append.mpr ⟨decide_eq_true hk, before, after, hkeys, by simpa using hbefore⟩
    refine iff_of_false nofun ?_
    rintro (hnot | ⟨-, hnull⟩)
    · exact hnot k (by simp [hkeys]) hk
    · exact hheld (Option.some.inj (hfirst.symm.trans hnull))
  | @null before after hother hkeys hbefore hk =>
    have hfirst : r.keys.find? (fun k => k.Alike name) = some .null :=
      List.find?_eq_some_iff_append.mpr ⟨decide_eq_true hk, before, after, hkeys, by simpa using hbefore⟩
    exact iff_of_true rfl (.inr ⟨hother, hfirst⟩)
  | missing h => exact iff_of_true rfl (.inl h)

theorem exists_field (h : r.resolve? name = some k) :
    ∃ f ∈ r, r.lookup name = f.2 ∧ k.isOneWith f.1 = true ∧ (k.text? = none →
      k = f.1 ∧ f.1.Alike name ∧ r.find? (fun f => f.1.Alike name) = some f) := by
  obtain ⟨f, hfield, hk⟩ := Option.map_eq_some_iff.mp h
  have hcell : r.lookup name = f.2 := by
    rw [lookup, hfield]
    rfl
  rcases r.field?_cases name with ⟨g, hg, htext, hfield'⟩ | ⟨hother, hfield'⟩
  · obtain rfl := Option.some.inj (hfield'.symm.trans hfield)
    rw [if_pos htext] at hk
    subst hk
    exact ⟨g, hg, hcell, (Atom.isOneWith_of_text rfl htext).trans (beq_self_eq_true name),
      fun hnone => nomatch hnone⟩
  · obtain ⟨halike, -⟩ := Option.filter_eq_some_iff.mp (hfield'.symm.trans hfield)
    have hf := List.mem_of_find?_eq_some halike
    have hletters := List.find?_some (p := fun f : Atom × Cell => f.1.Alike name) halike
    rw [if_neg (hother f hf)] at hk
    subst hk
    exact ⟨f, hf, hcell, f.1.isOneWith_self, fun _ => ⟨rfl, of_decide_eq_true hletters, halike⟩⟩

theorem lookup_eq_of_isOneWith (hr : r.IsMap) (hk : r.resolve? name = some k)
    (hl : r.resolve? other = some l) (hkl : k.isOneWith l = true) : r.lookup name = r.lookup other := by
  obtain ⟨f, hf, hcell, hkf, hfound⟩ := exists_field hk
  obtain ⟨g, hg, hcell', hlg, hfound'⟩ := exists_field hl
  suffices hfg : f = g by rw [hcell, hcell', hfg]
  have htext := Atom.text?_eq_of_isOneWith hkl
  cases hkey : k.text? with
  | some s =>
    have hftext : f.1.text? = some s := (Atom.text?_eq_of_isOneWith hkf).symm.trans hkey
    have hgtext : g.1.text? = some s :=
      (Atom.text?_eq_of_isOneWith hlg).symm.trans (htext.symm.trans hkey)
    exact hr.eq_of_sameKey hf hg (Atom.sameKey_of_text? hftext hgtext)
  | none =>
    obtain ⟨rfl, halike, hfirst⟩ := hfound hkey
    obtain ⟨rfl, halike', hfirst'⟩ := hfound' (htext.symm.trans hkey)
    rcases Atom.isOneWith_iff.mp hkl with heq | hsame
    · -- What is no number is one key with itself alone, so the letters of both names decide.
      have hnames : Text.lower name = Text.lower other := by
        rw [← halike, ← halike', heq]
      simp only [Atom.Alike, hnames] at hfirst hfirst'
      exact Option.some.inj (hfirst.symm.trans hfirst')
    · exact hr.eq_of_sameKey hf hg hsame

/-! Cells put in. -/

theorem putBy_held {same : Atom → Atom → Bool} {key : Atom} {v : Cell}
    (hcell : ∀ f ∈ r, same f.1 key = true → f.2 = v) (hheld : r.keys.any (same · key) = true) :
    putBy same key v r = r := by
  induction r with
  | nil => cases hheld
  | cons f r ih =>
    rw [List.forall_mem_cons] at hcell
    rw [putBy]
    cases hsame : same f.1 key with
    | true => rw [if_pos rfl, ← hcell.1 hsame]
    | false =>
      have hany : (keys (f :: r)).any (same · key) = (keys r).any (same · key) := by
        rw [keys, List.map_cons, List.any_cons, hsame, Bool.false_or]
        rfl
      rw [if_neg Bool.false_ne_true, ih hcell.2 (hany ▸ hheld)]

theorem select_concat (names : List String) (name : String) : r.select (names ++ [name]) =
    (r.resolve? name).elim (r.select names) fun key =>
      putBy Atom.isOneWith key (r.lookup name) (r.select names) := by
  unfold select
  rw [List.foldl_concat]
  cases r.resolve? name <;> rfl

theorem select_spec (hr : r.IsMap) (names : List String) :
    (r.select names).keys = (names.filterMap r.resolve?).eraseDupsBy Atom.isOneWith ∧
    ∀ f ∈ r.select names, ∃ name ∈ names, r.resolve? name = some f.1 ∧ f.2 = r.lookup name := by
  induction names using List.reverseRecOn with
  | nil => exact ⟨rfl, fun _ hf => absurd hf List.not_mem_nil⟩
  | append_singleton names name ih =>
    obtain ⟨hkeys, hcells⟩ := ih
    have hbefore : ∀ f ∈ r.select names,
        ∃ n ∈ names ++ [name], r.resolve? n = some f.1 ∧ f.2 = r.lookup n := by
      intro f hf
      obtain ⟨n, hn, h⟩ := hcells f hf
      exact ⟨n, List.mem_append_left _ hn, h⟩
    rw [select_concat, List.filterMap_append]
    cases hname : r.resolve? name with
    | none =>
      rw [List.filterMap_cons_none hname, List.filterMap_nil, List.append_nil]
      exact ⟨hkeys, hbefore⟩
    | some key =>
      have hflip : key.isOneWith = (Atom.isOneWith · key) := funext key.isOneWith_comm
      rw [List.filterMap_cons_some hname, List.filterMap_nil, eraseDupsBy_concat, ← hkeys, hflip,
        Option.elim_some]
      cases hany : (r.select names).keys.any (Atom.isOneWith · key) with
      | true =>
        -- What is there under the key already is the same cell, so that nothing is overwritten.
        have hheld : ∀ f ∈ r.select names, f.1.isOneWith key = true → f.2 = r.lookup name := by
          intro f hf hsame
          obtain ⟨n, -, hn, hcell⟩ := hcells f hf
          rw [hcell, lookup_eq_of_isOneWith hr hn hname hsame]
        rw [putBy_held hheld hany]
        exact ⟨rfl, hbefore⟩
      | false =>
        have hnew : ∀ f ∈ r.select names, f.1.isOneWith key = false := fun f hf =>
          Bool.eq_false_iff.mpr (List.any_eq_false.mp hany f.1 (List.mem_map_of_mem hf))
        rw [putBy_new hnew]
        refine ⟨List.map_append, List.forall_mem_append.mpr ⟨hbefore, ?_⟩⟩
        rw [List.forall_mem_singleton]
        exact ⟨name, List.mem_append_right _ (List.mem_singleton_self name), hname, rfl⟩

/-- What a projection to names has of a record. -/
structure Projects (r : Record) (names : List String) (out : Record) : Prop where
  part : ∀ f ∈ out, ∃ g ∈ r, f.1.isOneWith g.1 = true ∧ f.2 = g.2
  once : out.keys.Pairwise fun k l => k.isOneWith l = false
  keys : out.keys = (names.filterMap r.resolve?).eraseDupsBy Atom.isOneWith
  /-- The cell under the key of a name is the one that filters and sorting look up. -/
  cells : ∀ name ∈ names, ∀ k, r.resolve? name = some k →
    ∃ f ∈ out, f.1.isOneWith k = true ∧ f.2 = r.lookup name

theorem projects_select (hr : r.IsMap) (names : List String) :
    r.Projects names (r.select names) where
  part f hf := by
    obtain ⟨name, -, hname, hcell⟩ := (select_spec hr names).2 f hf
    obtain ⟨g, hg, hlookup, hone, -⟩ := exists_field hname
    exact ⟨g, hg, hone, hcell.trans hlookup⟩
  once := by
    rw [(select_spec hr names).1]
    exact (pairwise_eraseDupsBy Atom.isOneWith _).imp fun h => (Atom.isOneWith_comm _ _).trans h
  keys := (select_spec hr names).1
  cells name hname k hk := by
    obtain ⟨hkeys, hcells⟩ := select_spec hr names
    obtain ⟨l, hl, hone⟩ := exists_mem_eraseDupsBy Atom.isOneWith Atom.isOneWith_self
      (List.mem_filterMap.mpr ⟨name, hname, hk⟩)
    rw [← hkeys] at hl
    obtain ⟨f, hf, rfl⟩ := List.mem_map.mp hl
    obtain ⟨n, -, hn, hcell⟩ := hcells f hf
    have hflip := (Atom.isOneWith_comm f.1 k).trans hone
    exact ⟨f, hf, hflip, hcell.trans (lookup_eq_of_isOneWith hr hn hk hflip)⟩

/-! All fields by their own names. -/

def plain (f : Atom × Cell) : Atom × Cell := (.text f.1.display, f.2)

theorem map_plain (h : ∀ f ∈ r, ∃ s, f.1 = .text s) : r.map plain = r := by
  refine (List.map_congr_left fun f hf => ?_).trans (List.map_id r)
  obtain ⟨s, hs⟩ := h f hf
  have hkey : .text f.1.display = f.1 := by
    rw [hs]
    rfl
  exact Prod.ext hkey rfl

theorem resolve?_own (hr : r.IsMap) {f : Atom × Cell} (hf : f ∈ r) (htext : f.1.IsText) :
    r.resolve? f.1.display = some (.text f.1.display) ∧ r.lookup f.1.display = f.2 := by
  obtain ⟨s, hs⟩ := htext
  rw [Atom.display_of_text hs]
  rcases r.field?_cases s with ⟨g, hg, hgs, hfield⟩ | ⟨hother, -⟩
  · obtain rfl := hr.eq_of_sameKey hf hg (Atom.sameKey_of_text? hs hgs)
    rw [resolve?, lookup, hfield]
    exact ⟨congrArg some (if_pos hs), rfl⟩
  · exact absurd hs (hother f hf)

theorem select_own (hr : r.IsMap) (htexts : ∀ f ∈ r, f.1.IsText) {fs : Record} (hfs : fs <+: r) :
    r.select (fs.map fun f => f.1.display) = fs.map plain := by
  induction fs using List.reverseRecOn with
  | nil => rfl
  | append_singleton fs f ih =>
    have hf : f ∈ r := hfs.subset (List.mem_append_right _ (List.mem_singleton_self f))
    obtain ⟨hkey, hcell⟩ := resolve?_own hr hf (htexts f hf)
    have hnew : ∀ g ∈ fs.map plain, g.1.isOneWith (.text f.1.display) = false := by
      refine List.forall_mem_map.mpr fun g hg => ?_
      have hapart := (List.pairwise_append.mp (hr.sublist hfs.sublist)).2.2 g hg f
        (List.mem_singleton_self f)
      obtain ⟨s, hs⟩ := htexts f hf
      obtain ⟨t, ht⟩ := htexts g (hfs.subset (List.mem_append_left _ hg))
      rw [Atom.sameKey, hs, ht] at hapart
      rw [plain, Atom.display_of_text hs, Atom.display_of_text ht, Atom.isOneWith_of_text rfl rfl]
      exact hapart
    rw [List.map_append, List.map_singleton, select_concat, hkey,
      ih ((List.prefix_append _ _).trans hfs), List.map_append, List.map_singleton, hcell]
    exact putBy_new hnew f.2

theorem project_of_ne_nil {names : List String} (h : names ≠ []) : r.project names = r.select names :=
  if_neg (mt List.isEmpty_iff.mp h)

theorem project_own (hr : r.IsMap) (htexts : ∀ f ∈ r, f.1.IsText) :
    r.project (r.keys.map Atom.display) = r.map plain := by
  have hnames : r.keys.map Atom.display = r.map fun f => f.1.display := List.map_map
  rw [hnames, project]
  split
  · rename_i hempty
    rw [List.map_eq_nil_iff.mp (List.isEmpty_iff.mp hempty)]
    rfl
  · exact select_own hr htexts List.prefix_rfl

/-! One field alone. -/

theorem Resolves.alike_of_some (h : r.Resolves name (some k)) : k.Alike name ∧ k ≠ .null := by
  cases h with
  | itself _ => exact ⟨rfl, nofun⟩
  | alike _ _ _ hk hheld => exact ⟨hk, hheld⟩

theorem lookup_singleton (h : k.Alike name) (hheld : k ≠ .null) (v : Cell) :
    lookup [(k, v)] name = v := by
  have hfield : field? [(k, v)] name = some (k, v) := by
    rcases field?_cases [(k, v)] name with ⟨f, hf, -, hfield⟩ | ⟨-, hfield⟩
    · rw [hfield, List.mem_singleton.mp hf]
    · have hfirst : [(k, v)].find? (fun f => f.1.Alike name) = some (k, v) :=
        List.find?_cons_of_pos (decide_eq_true h)
      rw [hfield, hfirst, Option.filter_some, if_pos (decide_eq_true hheld)]
  rw [lookup, hfield]
  rfl

theorem project_singleton (r : Record) (name : String) :
    r.project [name] = (r.resolve? name).elim [] fun key => [(key, r.lookup name)] :=
  r.select_concat [] name

@[simp] theorem lookup_project_singleton (r : Record) (name : String) :
    (r.project [name]).lookup name = r.lookup name := by
  rw [project_singleton]
  cases hkey : r.resolve? name with
  | none =>
    have hnone : r.field? name = none := Option.map_eq_none_iff.mp hkey
    rw [lookup, lookup, hnone]
    rfl
  | some key =>
    obtain ⟨halike, hheld⟩ := (hkey ▸ r.resolves name).alike_of_some
    exact lookup_singleton halike hheld _

theorem Resolves.isWritable (h : r.Resolves name (some k)) (hr : ∀ l ∈ r.keys, l.isWritable = true) :
    k.isWritable = true := by
  cases h with
  | itself _ => rfl
  | alike _ hkeys _ _ _ => exact hr k (by simp [hkeys])

theorem writable_project_singleton (hr : ∀ l ∈ r.keys, l.isWritable = true) (name : String) :
    ∀ f ∈ r.project [name], f.1.isWritable = true := by
  rw [project_singleton]
  cases hkey : r.resolve? name with
  | none => exact List.forall_mem_nil _
  | some key => exact List.forall_mem_singleton.mpr ((hkey ▸ r.resolves name).isWritable hr)

end Record

namespace Row

/-- The keys of a row all have texts, so that no search among them fails. -/
def HasNames (r : Row) : Prop := ∀ k ∈ r.fields.keys, k.isWritable = true

instance (r : Row) : Decidable r.HasNames := inferInstanceAs (Decidable (∀ _ ∈ _, _))

def only (name : String) (r : Row) : Row := { r with data := .record (r.fields.project [name]) }

variable {r : Row}

theorem HasNames.isBarred (h : r.HasNames) (name : String) : r.fields.isBarred name = false :=
  Record.isBarred_of_writable (List.forall_mem_map.mp h) name

theorem HasNames.projected (h : r.HasNames) (names : List String) :
    r.projected names = .ok (r.fields.project names) :=
  projected_eq_ok.mpr ⟨fun name _ => h.isBarred name, rfl⟩

theorem HasNames.only (h : r.HasNames) (name : String) : (r.only name).HasNames :=
  List.forall_mem_map.mpr (Record.writable_project_singleton h name)

@[simp] theorem lookup_only (name : String) (r : Row) : (r.only name).lookup name = r.lookup name :=
  r.fields.lookup_project_singleton name

theorem find_only (h : r.HasNames) (name : String) : (r.only name).find name = r.find name :=
  (find_eq_ok.mpr ⟨(h.only name).isBarred name, rfl⟩).trans
    ((congrArg Except.ok (lookup_only name r)).trans (find_eq_ok.mpr ⟨h.isBarred name, rfl⟩).symm)

theorem test_only (h : r.HasNames) (name : String) (c : Condition) :
    (r.only name).test name c = r.test name c := by
  have hpasses : (r.only name).passes name c = r.passes name c := by
    unfold passes
    rw [lookup_only]
  unfold test
  rw [find_only h, hpasses]

theorem sortRows_only (spec : SortSpec) {rows : List Row} (h : ∀ r ∈ rows, r.HasNames) :
    sortRows spec (rows.map (only spec.field)) =
      (sortRows spec rows).map (List.map (only spec.field)) := by
  have hrows : List.Forall₂ (fun a b => a = only spec.field b ∧ b.HasNames)
      (rows.map (only spec.field)) rows := by
    rw [List.forall₂_map_left_iff, List.forall₂_same]
    exact fun r hr => ⟨rfl, h r hr⟩
  have hkey : ∀ a b, a = only spec.field b ∧ b.HasNames →
      a.fields.isBarred spec.field = b.fields.isBarred spec.field ∧
        (a.lookup spec.field).sortKey = (b.lookup spec.field).sortKey := by
    rintro _ b ⟨rfl, hb⟩
    rw [(hb.only _).isBarred, hb.isBarred, lookup_only]
    exact ⟨rfl, rfl⟩
  rcases (sortRows_related hkey hrows).elim with ⟨as, bs, has, hbs, hrel⟩ | ⟨e, has, hbs⟩
  · have hmap : as = bs.map (only spec.field) := by
      rw [← List.forall₂_eq_eq_eq, List.forall₂_map_right_iff]
      exact hrel.imp fun _ _ hab => hab.1
    rw [has, hbs, hmap]
    rfl
  · rw [has, hbs]
    rfl

end Row

/-- A name stands for one key of a record, or for none. A projection has the keys of its names, each once
and in the order of the names, with the cells of the record; asked for all its keys, a record is projected
to itself. The cell of a name is the one that a filter or a sort order of this name looks at: neither can
tell a row from its projection to the name. A search fails only at a key without a text. -/
theorem project_resolved :
    (∀ r : Row, r.fields.IsMap → r.HasNames →
      (∀ name, r.fields.Resolves name (r.fields.resolve? name)) ∧
      (∀ name, r.fields.resolve? name = none ↔ (∀ k ∈ r.fields.keys, ¬ k.Alike name) ∨
        (∀ k ∈ r.fields.keys, k.text? ≠ some name) ∧
          r.fields.keys.find? (fun k => k.Alike name) = some .null) ∧
      (∀ names, names ≠ [] → ∃ out, r.projected names = .ok out ∧ r.fields.Projects names out) ∧
      ((∀ f ∈ r.fields, f.1.IsText) →
        r.projected (r.fields.keys.map Atom.display) = .ok (r.fields.map Record.plain)) ∧
      ((∀ f ∈ r.fields, ∃ s, f.1 = .text s) →
        r.projected (r.fields.keys.map Atom.display) = .ok r.fields)) ∧
    (∀ (name : String) (r : Row) (c : Condition), r.HasNames →
      (r.only name).test name c = r.test name c) ∧
    ∀ (spec : SortSpec) (rows : List Row), (∀ r ∈ rows, r.HasNames) →
      sortRows spec (rows.map (Row.only spec.field)) =
        (sortRows spec rows).map (List.map (Row.only spec.field)) := by
  refine ⟨fun r hr hnames => ⟨r.fields.resolves, fun _ => Record.resolve?_eq_none, fun names hne => ?_,
    fun htexts => ?_, fun hplain => ?_⟩, fun name _ c hr => Row.test_only hr name c,
    fun spec _ hrows => Row.sortRows_only spec hrows⟩
  · refine ⟨_, hnames.projected names, ?_⟩
    rw [Record.project_of_ne_nil hne]
    exact Record.projects_select hr names
  · rw [hnames.projected, Record.project_own hr htexts]
  · have htexts : ∀ f ∈ r.fields, f.1.IsText := by
      intro f hf
      obtain ⟨s, hs⟩ := hplain f hf
      exact ⟨s, hs ▸ rfl⟩
    rw [hnames.projected, Record.project_own hr htexts, Record.map_plain hplain]

def Row.patchwork : Row :=
  ⟨"p", .record [(.text "Name", .text "Ann"), (.text "name", .text "Bob"), (.text "AGE", .integer 30),
    (.integer 7, .flag true), (.null, .integer 5)], .epoch, none⟩

/-- Asked for in capitals, the first of both keys comes; asked for by itself, the second one does. -/
theorem project_resolved_patchwork :
    let r := Row.patchwork
    let names := ["NAME", "age", "name", "Age", "zip", "7", "none"]
    r.fields.IsMap ∧ r.HasNames ∧ (∃ out, r.projected names = .ok out ∧ r.fields.Projects names out ∧
      out.keys = [.text "Name", .text "AGE", .text "name", .integer 7] ∧
      ∃ f ∈ out, f.1.isOneWith (.text "name") = true ∧ f.2 = .text "Bob") ∧
    r.fields.resolve? "zip" = none ∧ (r.only "age").test "age" (.equals "30") = .ok true ∧
    sortRows ⟨"age", 1⟩ ([r].map (Row.only "age")) = .ok [r.only "age"] := by
  intro r names
  have hmap : r.fields.IsMap := by decide +kernel
  have hnames : r.HasNames := by decide +kernel
  obtain ⟨-, hmissing, hprojects, -⟩ := project_resolved.1 r hmap hnames
  obtain ⟨out, hout, hparts⟩ := hprojects names (List.cons_ne_nil _ _)
  have hkeys : (names.filterMap r.fields.resolve?).eraseDupsBy Atom.isOneWith =
      [.text "Name", .text "AGE", .text "name", .integer 7] := by decide +kernel
  obtain ⟨f, hf, hone, hcell⟩ := hparts.cells "name" (by decide) (.text "name") (by decide +kernel)
  have hbob : r.fields.lookup "name" = .text "Bob" := by rfl
  refine ⟨hmap, hnames, ⟨out, hout, hparts, hparts.keys.trans hkeys, f, hf, hone, hcell.trans hbob⟩,
    (hmissing "zip").mpr (.inl (by decide +kernel)), ?_, ?_⟩
  · rw [project_resolved.2.1 "age" r _ hnames]
    exact Row.test_eq_ok.mpr ⟨hnames.isBarred _, fun _ => by decide +kernel, by decide +kernel⟩
  · have hcell : r.lookup "age" = .integer 30 := by rfl
    have hkey : r.keyed "age" = .ok (.number (.integer 30), r) :=
      Row.keyed_eq_ok.mpr ⟨hnames.isBarred "age", congrArg Cell.sortKey hcell, rfl⟩
    have hsorted : sortRows ⟨"age", 1⟩ [r] = .ok [r] := by
      simp [sortRows, hkey, sortByKey, bind, Except.bind, pure, Except.pure]
    rw [project_resolved.2.2 ⟨"age", 1⟩ [r] (List.forall_mem_singleton.mpr hnames), hsorted]
    rfl

/-- A null key is shown as "None", but no name stands for it. -/
theorem null_key_unresolved :
    let r : Row := ⟨"n", .record [(.null, .integer 5)], .epoch, none⟩
    r.fields.IsMap ∧ r.HasNames ∧ (∃ k ∈ r.fields.keys, k.Alike "none") ∧
      r.fields.resolve? "none" = none ∧ r.projected ["none"] = .ok [] := by
  intro r
  exact ⟨by decide +kernel, by decide +kernel, by decide +kernel, by decide +kernel, rfl⟩

end PlainSheets
