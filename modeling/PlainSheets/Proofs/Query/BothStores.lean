import PlainSheets.Proofs.Query.Alike
import PlainSheets.Proofs.Store.Agreement
import PlainSheets.Proofs.Store.Contents
import PlainSheets.Proofs.Store.Ledger

/-!
Questions to a list of sheets and to a database that were written alike. Main statement: as long as
rows are maps of scalars under text keys, a question selects the same rows in the same order from
both, and each cell that the database gives is what is read back of the other one.
-/
namespace PlainSheets

/-! Runs of writes. -/

def Store.Completes (s : Store) : List Event → Prop
  | [] => True
  | e :: events => (∃ a, (s.step e).result = .ok a) ∧ Completes (s.step e).state events

/-- Writes that succeed in a list of sheets and in a database, with the same ids and times. -/
structure SharedRun (P : Cell → Prop) (events : List Event) : Prop where
  fresh : FreshIds events
  writes : ∀ e ∈ events, ∃ w, e.operation = .write w ∧ w.Gives P
  memory : (Store.memory ⟨[]⟩).Completes events
  database : (Store.database Database.empty).Completes events

namespace RowText

theorem isNormal_of_scalars {data : Cell} (h : IsScalarMap Atom.IsText Moment.Legible data)
    (htext : ∃ text, dump data = .ok text) : IsNormal data := by
  obtain ⟨fs, rfl, -, hall⟩ := h
  rw [isNormal_record_iff, ← dump_eq_ok_iff, ← readable_iff]
  refine ⟨htext, .record fs ?_ ?_⟩
  · intro f hf
    obtain ⟨-, -, a, ha, hscalar⟩ := hall f hf
    rw [ha]
    apply Readable.atom
    · rintro rfl
      exact hscalar
    · rintro m rfl
      rw [Moment.Legible.asRead hscalar.2]
      exact hscalar.1
  · rintro ⟨hne, htag⟩
    obtain ⟨f, hf⟩ := List.exists_mem_of_ne_nil fs hne
    obtain ⟨⟨s, hs⟩, hkey, -⟩ := hall f hf
    have hname := htag f hf
    rw [storedName_of_text hs] at hname
    exact absurd (hs.trans (congrArg some hname)) hkey

end RowText

namespace Store

variable {t : Tables} {m : Memory}

theorem storable_of_returned {fresh : Fresh} {now : Moment} {w : Write} {a : Answer}
    (h : ((Store.database ⟨t, true⟩).write fresh now w).result = .ok a)
    (hw : w.Gives (RowText.IsScalarMap Atom.IsText Moment.Legible)) : w.Storable := by
  obtain ⟨t', ht'⟩ := commit_of_returned h
  cases Tables.commits_of_commit ht' with
  | @create name columns rows records cs rs hrecords hcs hrs =>
    refine ⟨rfl, (Tables.columnEntries_isOk_iff _ columns 0).mp ⟨cs, hcs⟩, ?_⟩
    intro data hdata
    apply RowText.isNormal_of_scalars (hw data hdata)
    obtain ⟨record, hrecord, htext⟩ := exists_mapM_all_iff.mp
      ⟨records, hrecords, (Tables.rowEntries_isOk_iff records 0).mp ⟨rs, hrs⟩⟩ data hdata
    obtain ⟨fs, rfl, -⟩ := hw data hdata
    obtain rfl := Except.ok.inj hrecord
    exact htext
  | updateSheet hsheet hu => exact (Tables.putColumns_isOk_iff _ _ _).mp ⟨_, hu⟩
  | deleteSheet sheet => trivial
  | @addRow sheet data record text hsheet hrecord htext =>
    apply RowText.isNormal_of_scalars hw
    have hmap := hw
    obtain ⟨fs, rfl, -⟩ := hmap
    obtain rfl := Except.ok.inj hrecord
    exact ⟨text, htext⟩
  | updateRow sheet row htext => exact RowText.isNormal_of_scalars hw ⟨_, htext⟩
  | deleteRow sheet row => trivial
  | clear => trivial

theorem storable_of_completes {events : List Event}
    (h : (Store.database ⟨t, true⟩).Completes events)
    (hwrites : ∀ e ∈ events, ∃ w, e.operation = .write w ∧
      w.Gives (RowText.IsScalarMap Atom.IsText Moment.Legible)) :
    ∀ e ∈ events, e.operation.Storable := by
  induction events generalizing t with
  | nil => simp
  | cons e events ih =>
    obtain ⟨⟨a, ha⟩, hrest⟩ := h
    rw [List.forall_mem_cons] at hwrites ⊢
    obtain ⟨⟨w, hw, hgives⟩, hwrites⟩ := hwrites
    unfold step at ha hrest
    rw [hw] at ha hrest ⊢
    change ((Store.database ⟨t, true⟩).writeAt e.fresh _ w).state.Completes events at hrest
    rw [write_database] at hrest
    exact ⟨storable_of_returned ha hgives, ih hrest hwrites⟩

theorem mem_of_resolve {name : Option String} {s : Sheet}
    (h : m.reads.resolve name = .ok (some s)) : s ∈ m.sheets := by
  have hfirst (h : m.reads.first = .ok (some s)) : s ∈ m.sheets :=
    List.mem_of_head? (Except.ok.inj h)
  unfold Reads.resolve at h
  split at h
  · exact hfirst h
  · split at h
    · exact hfirst h
    · obtain ⟨found, -, h⟩ := bind_eq_ok.mp h
      cases found with
      | none => cases h
      | some id =>
        have hid := Except.ok.inj h
        split at hid
        · cases hid
        · exact List.mem_of_find?_eq_some hid

theorem reread_of_mirrors (h : Mirrors t m) (hsound : t.Sound)
    (hrows : m.Holds (RowText.IsScalarMap Atom.IsText Moment.Legible)) :
    (Store.database ⟨t, true⟩).reads.Reread (Store.memory m).reads := by
  intro name
  have hresolve : Agree (Option.Rel Sheet.ReadFrom) ((⟨t, true⟩ : Database).reads.resolve name)
      (m.reads.resolve name) := by
    have hfirst : Agree (Option.Rel Sheet.ReadFrom) t.first m.reads.first := by
      obtain ⟨read, hread, hrel⟩ := h.first hsound
      rw [hread]
      exact .ok hrel
    rw [Database.reads_of_open rfl]
    unfold Reads.resolve
    split
    · exact hfirst
    · split
      · exact hfirst
      · exact h.byPattern hsound _
  have hmem : ∀ s, m.reads.resolve name = .ok (some s) → s ∈ m.sheets := fun s => mem_of_resolve
  change Agree (Option.Rel Sheet.Reread) ((⟨t, true⟩ : Database).reads.resolve name)
    (m.reads.resolve name)
  generalize (⟨t, true⟩ : Database).reads.resolve name = x at hresolve
  generalize m.reads.resolve name = y at hresolve hmem
  cases hresolve with
  | error f => exact .error f
  | ok hrel =>
    apply Agree.ok
    cases hrel with
    | none => exact .none
    | @some read s hread =>
      apply Option.Rel.some
      refine ⟨hread, ?_⟩
      obtain ⟨rows, hall, rfl⟩ := hread
      have hflip : List.Forall₂ (fun r read => Row.Reread read r) s.rows rows :=
        forall₂_imp_mem hall.flip fun r hr _ hread =>
          Row.ReadFrom.reread hread (hrows s (hmem s rfl) r hr)
      exact hflip.flip

end Store

theorem mergeSort_pair {α : Type} (le : α → α → Bool) (a b : α) :
    [a, b].mergeSort le = if le a b then [a, b] else [b, a] := by
  cases h : le a b <;> simp [List.mergeSort, h]

/-- Where a record stands when records are sorted by a field. -/
structure Record.SortsAt (fs : Record) (field : String) (k : SortKey) : Prop where
  free : fs.isBarred field = false
  key : (fs.lookup field).sortKey = .ok k

theorem sortRows_pair {spec : SortSpec} {r s : Row} {k l : SortKey}
    (hr : r.fields.SortsAt spec.field k) (hs : s.fields.SortsAt spec.field l) :
    sortRows spec [r, s] = .ok (if (spec.order k l).isLE then [r, s] else [s, r]) := by
  have hkeyed : [r, s].mapM (Row.keyed spec.field) = .ok [(k, r), (l, s)] := by
    apply mapM_eq_ok.mpr
    exact .cons (Row.keyed_eq_ok.mpr ⟨hr.free, hr.key, rfl⟩)
      (.cons (Row.keyed_eq_ok.mpr ⟨hs.free, hs.key, rfl⟩) .nil)
  unfold sortRows
  rw [hkeyed]
  change Except.ok _ = _
  rw [spec.sortByKey_eq, mergeSort_pair]
  split <;> rfl

/-! Two rows in one sheet. -/

def makesTwo (a b : Cell) : Event :=
  ⟨.write (.create (some "A") [] [a, b]), Fresh.lettered 'a', Moment.epoch⟩

def twoRows (a b : Cell) : Sheet :=
  ⟨"a", some "A", [], [⟨"a", a, .epoch, some .epoch⟩, ⟨"ai", b, .epoch, some .epoch⟩], .epoch,
    some .epoch⟩

theorem freshIds_makesTwo (a b : Cell) : FreshIds [makesTwo a b] where
  sheets := List.nodup_singleton _
  rows e he := by
    obtain rfl := List.mem_singleton.mp he
    exact Fresh.lettered_injective 'a'
  apart := List.pairwise_singleton _ _

variable {fs gs : Record} {P : Cell → Prop}

theorem storable_makesTwo (hf : RowText.IsNormal (.record fs)) (hg : RowText.IsNormal (.record gs)) :
    (Write.create (some "A") [] [.record fs, .record gs]).Storable := by
  refine ⟨rfl, by simp, ?_⟩
  intro data hdata
  rcases List.mem_pair.mp hdata with rfl | rfl
  · exact hf
  · exact hg

theorem sharedRun_makesTwo (hf : P (.record fs)) (hg : P (.record gs))
    (hnormal : RowText.IsNormal (.record fs)) (hnormal' : RowText.IsNormal (.record gs)) :
    SharedRun P [makesTwo (.record fs) (.record gs)] where
  fresh := freshIds_makesTwo _ _
  writes e he := by
    obtain rfl := List.mem_singleton.mp he
    refine ⟨_, rfl, ?_⟩
    intro data hdata
    rcases List.mem_pair.mp hdata with rfl | rfl
    · exact hf
    · exact hg
  memory := ⟨⟨_, rfl⟩, trivial⟩
  database := by
    refine ⟨?_, trivial⟩
    have hmirrors : Mirrors Tables.empty ⟨[]⟩ := .nil
    obtain ⟨-, hresult⟩ := hmirrors.write Tables.sound_empty
      (Fresh.newIn_empty (Fresh.lettered_injective 'a')) (storable_makesTwo hnormal hnormal')
    rcases hresult.elim with ⟨a, -, ha, -⟩ | ⟨f, -, hf⟩
    · exact ⟨a, ha⟩
    · cases hf

theorem resolve_makesTwo {fs' gs' : Record} (hf : RowText.normal (.record fs) = .ok fs')
    (hg : RowText.normal (.record gs) = .ok gs') :
    ((Store.memory ⟨[]⟩).run [makesTwo (.record fs) (.record gs)]).reads.resolve none =
        .ok (some (twoRows (.record fs) (.record gs))) ∧
      ((Store.database Database.empty).run
          [makesTwo (.record fs) (.record gs)]).reads.resolve none =
        .ok (some (twoRows (.record fs') (.record gs'))) := by
  refine ⟨rfl, ?_⟩
  have hstorable := storable_makesTwo ⟨⟨fs, rfl⟩, fs', hf⟩ ⟨⟨gs, rfl⟩, gs', hg⟩
  obtain ⟨t, m, hd, hm, hmirrors, hsound, -⟩ :=
    Store.run_mirrors [makesTwo (.record fs) (.record gs)] [] (freshIds_makesTwo _ _)
      (List.forall_mem_singleton.mpr hstorable)
  obtain ⟨read, hread, hrel⟩ := hmirrors.first hsound
  obtain rfl : m = ⟨[twoRows (.record fs) (.record gs)]⟩ := by
    have hheld : Store.memory m = .memory ⟨[twoRows (.record fs) (.record gs)]⟩ := hm.symm
    injection hheld
  rw [hd]
  change t.first = _
  rw [hread]
  cases hrel with
  | some hsheet =>
    obtain ⟨rows, hrows, rfl⟩ := hsheet
    cases hrows with
    | cons ha hrows =>
      cases hrows with
      | cons hb hrows =>
        cases hrows
        obtain ⟨fields, hfields, rfl⟩ := ha
        obtain rfl := Except.ok.inj (hf.symm.trans hfields)
        obtain ⟨fields, hfields, rfl⟩ := hb
        obtain rfl := Except.ok.inj (hg.symm.trans hfields)
        rfl

theorem finds_sorted {store : Reads} {question field : String} {a b : Cell} {k l : SortKey}
    (hasked : Text.isAllBlank question.toList = false)
    (hplanned : Intent.planned question = .ok { sort := some ⟨field, 1⟩ })
    (hresolve : store.resolve none = .ok (some (twoRows a b)))
    (ha : Record.SortsAt a.fields field k) (hb : Record.SortsAt b.fields field l) :
    ∃ rows, Request.Finds store question { sort := some ⟨field, 1⟩ } (twoRows a b) rows ∧
      rows.map Row.id = if (k.order l).isLE then ["a", "ai"] else ["ai", "a"] := by
  have hsorted := @sortRows_pair ⟨field, 1⟩ ⟨"a", a, .epoch, some .epoch⟩
    ⟨"ai", b, .epoch, some .epoch⟩ k l ha hb
  have hpicked : Intent.picked { sort := some ⟨field, 1⟩ } (twoRows a b) = .ok _ :=
    bind_eq_ok.mpr ⟨_, rfl, bind_eq_ok.mpr ⟨_, hsorted, rfl⟩⟩
  refine ⟨_, ⟨hasked, hplanned, nofun, hresolve, hpicked⟩, ?_⟩
  change List.map Row.id (List.take 100 (if (k.order l).isLE then _ else _)) = _
  split <;> rfl

theorem normal_of_readBack {fs gs : Record} (hdump : ∃ text, RowText.dump (.record fs) = .ok text)
    (hback : RowText.readBack (.record fs) = .ok (.record gs)) :
    RowText.normal (.record fs) = .ok gs := by
  obtain ⟨text, htext⟩ := hdump
  apply bind_eq_ok.mpr
  refine ⟨text, htext, ?_⟩
  rw [RowText.load_dump htext, hback]
  rfl

/-! Keys that are no texts. -/

def nullKey (n : Int) : Record := [(.null, .integer n)]

theorem normal_nullKey (n : Int) (h : RowText.checkInteger n = .ok n) :
    RowText.normal (.record (nullKey n)) = .ok [(.text "null", .integer n)] := by
  apply normal_of_readBack
  · rw [RowText.dump_eq_ok_iff]
    refine ⟨.object [("null", .integer n)], ?_⟩
    simp [nullKey, RowText.encode, RowText.encodeFields, RowText.encodeAtom, RowText.keyName, h,
      bind, Except.bind, Except.map]
  · rfl

/-- Null is no name, so that nothing is found under it until it has become one. -/
theorem sortsAt_nullKey (n : Int) : (nullKey n).SortsAt "null" .missing ∧
    Record.SortsAt [(.text "null", .integer n)] "null" (.number (.integer n)) := by
  have hother : Text.lower "None" ≠ Text.lower "null" := by decide
  refine ⟨⟨Record.isBarred_of_writable (List.forall_mem_singleton.mpr rfl) _, ?_⟩,
    ⟨Record.isBarred_of_writable (List.forall_mem_singleton.mpr rfl) _, ?_⟩⟩
  · have hfield : Record.field? (nullKey n) "null" = none := by
      simp [Record.field?, nullKey, Atom.text?, Atom.display, Atom.inspect, hother]
    rw [Record.lookup, hfield]
    rfl
  · have hfield : Record.field? [(.text "null", .integer n)] "null" = some (.text "null", .integer n) := by
      simp [Record.field?, Atom.text?]
    rw [Record.lookup, hfield]
    rfl

/-! Offsets of less than a second. -/

def dated (m : Moment) : Record := [(.text "d", .moment m)]

theorem normal_dated {m : Moment} (h : m.asRead.InCalendar) :
    ∃ u, RowText.normal (.record (dated m)) = .ok (dated u) ∧ u.instant = m.asRead.instant ∧
      u.InCalendar := by
  obtain ⟨u, hu⟩ := Option.isSome_iff_exists.mp ((Moment.toUtc?_isSome_iff _).mpr h)
  have hinstant := (Moment.toUtc?_spec hu).1
  refine ⟨u, ?_, hinstant, ?_⟩
  · apply normal_of_readBack
    · rw [RowText.dump_eq_ok_iff]
      exact ⟨.object [("d", RowText.tagged m.iso)], rfl⟩
    · apply RowText.readBack_record.mpr
      refine ⟨[("d", .moment u)], ?_, rfl⟩
      have hutc : m.asRead.utc = .ok u := by rw [Moment.utc, hu]
      change (m.asRead.utc.map Cell.moment >>= _) = _
      rw [hutc]
      rfl
  · unfold Moment.InCalendar at h ⊢
    rwa [hinstant]

theorem sortsAt_dated {m : Moment} (h : m.InCalendar) :
    ∃ u, (dated m).SortsAt "d" (.date u) ∧ u.instant = m.instant := by
  obtain ⟨u, hu⟩ := Option.isSome_iff_exists.mp ((Moment.toUtc?_isSome_iff m).mpr h)
  refine ⟨u, ⟨Record.isBarred_of_writable (List.forall_mem_singleton.mpr rfl) _, ?_⟩,
    (Moment.toUtc?_spec hu).1⟩
  change m.utc.map SortKey.date = _
  rw [Moment.utc, hu]
  rfl

def shortlyBefore : Moment :=
  { RowText.halfSecondAhead with
    clock := (Clock.of? 9 59 59 700000).get (by decide), offset := some Offset.utc }

/-! Where the stores differ. -/

theorem not_alike_of_order {fs gs fs' gs' : Record} {question field : String} {k l k' l' : SortKey}
    (hf : RowText.normal (.record fs) = .ok fs') (hg : RowText.normal (.record gs) = .ok gs')
    (hasked : Text.isAllBlank question.toList = false)
    (hplanned : Intent.planned question = .ok { sort := some ⟨field, 1⟩ })
    (hk : fs.SortsAt field k) (hl : gs.SortsAt field l) (hk' : fs'.SortsAt field k')
    (hl' : gs'.SortsAt field l')
    (hne : (k'.order l').isLE ≠ (k.order l).isLE) :
    ¬ Request.Alike ((Store.database Database.empty).run [makesTwo (.record fs) (.record gs)]).reads
      ((Store.memory ⟨[]⟩).run [makesTwo (.record fs) (.record gs)]).reads question := by
  intro halike
  obtain ⟨hheld, hread⟩ := resolve_makesTwo hf hg
  obtain ⟨rows, hm, hids⟩ := finds_sorted hasked hplanned hheld hk hl
  obtain ⟨reads, hd, hids'⟩ := finds_sorted hasked hplanned hread hk' hl'
  have heq := halike.ids hd hm
  rw [hids, hids'] at heq
  revert heq hne
  cases (k'.order l').isLE <;> cases (k.order l).isLE <;> simp

theorem isScalarMap_single {key : Atom → Prop} {accepted : Moment → Prop} {k a : Atom}
    (hkey : key k) (hne : k.text? ≠ some RowText.dateTag) (ha : a.IsScalar accepted) :
    RowText.IsScalarMap key accepted (.record [(k, .atom a)]) := by
  refine ⟨_, rfl, List.pairwise_singleton _ _, ?_⟩
  rw [List.forall_mem_singleton]
  exact ⟨hkey, hne, a, rfl, ha⟩

namespace Store

/-- Questions after a run that both stores take. They find the same rows, in the same order, and
differ in the cells of those rows alone: the database gives what is read back of them. Every question gets
a response, as long as the rows of a sheet can be counted. -/
theorem questions_agree (events : List Event)
    (h : SharedRun (RowText.IsScalarMap Atom.IsText Moment.Legible) events) (question : String) :
    Request.Alike ((Store.database Database.empty).run events).reads
      ((Store.memory ⟨[]⟩).run events).reads question ∧
    ((∀ name s, ((Store.memory ⟨[]⟩).run events).reads.resolve name = .ok (some s) →
        IsShort s.rows.length) →
      ∃ r, Request.ask ((Store.memory ⟨[]⟩).run events).reads question = .ok r) := by
  have hfresh := h.fresh
  rw [← List.append_nil events] at hfresh
  obtain ⟨t, m, hd, hm, hmirrors, hsound, -⟩ :=
    run_mirrors events [] hfresh (storable_of_completes h.database h.writes)
  obtain ⟨m', hm', hrows⟩ := Memory.run_holds (fun data hdata => ⟨_, hdata.choose_spec.1⟩) h.writes
  obtain rfl : m' = m := by
    rw [hm] at hm'
    injection hm' with hm'
    exact hm'.symm
  have hreread := reread_of_mirrors hmirrors hsound hrows
  rw [hd, hm]
  exact ⟨Request.alike_of_reread hreread question, fun hcount => Request.exists_ask hreread hcount question⟩

theorem questions_agree_dated :
    SharedRun (RowText.IsScalarMap Atom.IsText Moment.Legible)
        [makesTwo (.record (dated RowText.lateJanuary)) (.record (dated shortlyBefore))] ∧
      Request.Alike
        ((Store.database Database.empty).run
          [makesTwo (.record (dated RowText.lateJanuary)) (.record (dated shortlyBefore))]).reads
        ((Store.memory ⟨[]⟩).run
          [makesTwo (.record (dated RowText.lateJanuary)) (.record (dated shortlyBefore))]).reads
        "sort by d" := by
  have hscalars {m : Moment} (hm : m.InCalendar) (hlegible : m.Legible) :
      RowText.IsScalarMap Atom.IsText Moment.Legible (.record (dated m)) :=
    isScalarMap_single ⟨"d", rfl⟩ (by decide) ⟨hm, hlegible⟩
  have hlate : RowText.lateJanuary.Legible := by
    intro o ho
    obtain rfl : (⟨7200000000, by decide⟩ : Offset) = o := Option.some.inj ho
    exact .inr (by decide)
  have hbefore : shortlyBefore.Legible := by
    intro o ho
    obtain rfl : Offset.utc = o := Option.some.inj ho
    exact .inl rfl
  obtain ⟨u, hu, -⟩ := @normal_dated RowText.lateJanuary (by decide)
  obtain ⟨v, hv, -⟩ := @normal_dated shortlyBefore (by decide)
  have hrun := sharedRun_makesTwo (hscalars (by decide) hlate) (hscalars (by decide) hbefore)
    ⟨⟨_, rfl⟩, _, hu⟩ ⟨⟨_, rfl⟩, _, hv⟩
  exact ⟨hrun, (questions_agree _ hrun _).1⟩

/-- A key that is no text changes its name, and an offset of less than a second is lost. -/
theorem questions_disagree :
    (¬ ∀ events, SharedRun (RowText.IsScalarMap (fun _ => True) Moment.Legible) events →
      ∀ question, Request.Alike ((Store.database Database.empty).run events).reads
        ((Store.memory ⟨[]⟩).run events).reads question) ∧
    ¬ ∀ events, SharedRun (RowText.IsScalarMap Atom.IsText fun _ => True) events →
      ∀ question, Request.Alike ((Store.database Database.empty).run events).reads
        ((Store.memory ⟨[]⟩).run events).reads question := by
  constructor
  · intro hall
    have htwo := normal_nullKey 2 rfl
    have hone := normal_nullKey 1 rfl
    have hscalars (n : Int) : RowText.IsScalarMap (fun _ => True) Moment.Legible
        (.record (nullKey n)) := isScalarMap_single trivial (by decide) trivial
    have hrun := sharedRun_makesTwo (hscalars 2) (hscalars 1) ⟨⟨_, rfl⟩, _, htwo⟩ ⟨⟨_, rfl⟩, _, hone⟩
    have hasked : Text.isAllBlank "sort by null".toList = false := by decide +kernel
    have hplanned : Intent.planned "sort by null" = .ok { sort := some ⟨"null", 1⟩ } := by
      apply toOption_eq_some.mp
      decide +kernel
    refine not_alike_of_order htwo hone hasked hplanned (sortsAt_nullKey 2).1 (sortsAt_nullKey 1).1
      (sortsAt_nullKey 2).2 (sortsAt_nullKey 1).2 ?_ (hall _ hrun _)
    decide +kernel
  · intro hall
    obtain ⟨u, hu, huinstant, hucal⟩ := @normal_dated RowText.halfSecondAhead (by decide)
    obtain ⟨v, hv, hvinstant, hvcal⟩ := @normal_dated shortlyBefore (by decide)
    obtain ⟨k, hk, hkinstant⟩ := @sortsAt_dated RowText.halfSecondAhead (by decide)
    obtain ⟨l, hl, hlinstant⟩ := @sortsAt_dated shortlyBefore (by decide)
    obtain ⟨k', hk', hkinstant'⟩ := sortsAt_dated hucal
    obtain ⟨l', hl', hlinstant'⟩ := sortsAt_dated hvcal
    have hscalars {m : Moment} (hm : m.InCalendar) : RowText.IsScalarMap Atom.IsText (fun _ => True)
        (.record (dated m)) := isScalarMap_single ⟨"d", rfl⟩ (by decide) ⟨hm, trivial⟩
    have hrun := sharedRun_makesTwo (@hscalars RowText.halfSecondAhead (by decide))
      (@hscalars shortlyBefore (by decide)) ⟨⟨_, rfl⟩, _, hu⟩ ⟨⟨_, rfl⟩, _, hv⟩
    have hasked : Text.isAllBlank "sort by d".toList = false := by decide +kernel
    have hplanned : Intent.planned "sort by d" = .ok { sort := some ⟨"d", 1⟩ } := by
      apply toOption_eq_some.mp
      decide +kernel
    refine not_alike_of_order hu hv hasked hplanned hk hl hk' hl' ?_ (hall _ hrun _)
    change (compare k'.instant l'.instant).isLE ≠ (compare k.instant l.instant).isLE
    rw [hkinstant', hlinstant', huinstant, hvinstant, hkinstant, hlinstant]
    decide

end Store

end PlainSheets
