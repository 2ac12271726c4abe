import PlainSheets.Proofs.Query.Ranking
import PlainSheets.Proofs.Report.Latest
import PlainSheets.Proofs.Store.Writes

/-!
Times under a clock that never goes back. Nothing is changed before it was made, and no row is changed
after its sheet: every write that changes a row brings its sheet up to the same time. So the reports
tell the last change of all.
-/
namespace PlainSheets

variable {P Q : Moment → Prop}

/-- Whether a row was changed at a time of the clock, after it was made and not after a moment. -/
def Row.InTime (P : Moment → Prop) (latest : Moment) (r : Row) : Prop :=
  ∃ u, r.updatedAt = some u ∧ P u ∧ r.createdAt.instant ≤ u.instant ∧ u.instant ≤ latest.instant

/-- Whether a sheet was changed at a time of the clock, after it was made and not before its rows. -/
def Sheet.InTime (P : Moment → Prop) (s : Sheet) : Prop :=
  ∃ u, s.updatedAt = some u ∧ P u ∧ s.createdAt.instant ≤ u.instant ∧ ∀ r ∈ s.rows, r.InTime P u

/-- A clock that shows UTC and never goes back, within a call and from one call to a later one. A call
reads it finitely often; what it shows after that stands for nothing. -/
structure SteadyClock (calls : List Store.Call) : Prop where
  utc : ∀ c ∈ calls, ∀ i, (c.clock i).offset = some Offset.utc
  within : ∀ c ∈ calls, ∀ i j, i ≤ j → (c.clock i).instant ≤ (c.clock j).instant
  across : calls.Pairwise fun c d => ∀ i j, (c.clock i).instant ≤ (d.clock j).instant

def Shown (calls : List Store.Call) (u : Moment) : Prop := ∃ c ∈ calls, ∃ i, u = c.clock i

/-! One write. -/

/-- A store that reads its clock forwards while a sheet is made. -/
def Keeping.Forwards (k : Keeping) : Prop :=
  ∀ clock, ∃ order : Nat → Nat, Monotone order ∧ k.times clock = fun i => clock (order i)

theorem Store.forwards_holding (s : Store) : s.holding.Forwards := by
  intro clock
  cases s with
  | memory m => exact ⟨id, monotone_id, rfl⟩
  | database d => exact ⟨fun _ => 0, monotone_const, rfl⟩
  | broken f => exact ⟨id, monotone_id, rfl⟩

theorem Row.InTime.imp {u v : Moment} {r : Row} (h : r.InTime P u) (hP : ∀ m, P m → Q m)
    (huv : u.instant ≤ v.instant) : r.InTime Q v := by
  obtain ⟨w, hw, hPw, hcreated, hlatest⟩ := h
  exact ⟨w, hw, hP w hPw, hcreated, hlatest.trans huv⟩

theorem Row.inTime_made {fresh : Fresh} {clock : Nat → Moment} {latest : Moment} (i : Nat)
    (data : Cell) (hclock : (clock (2 * i)).instant ≤ (clock (2 * i + 1)).instant)
    (hP : P (clock (2 * i + 1))) (hlatest : (clock (2 * i + 1)).instant ≤ latest.instant) :
    (Row.made fresh clock i data).InTime P latest :=
  ⟨_, rfl, hP, hclock, hlatest⟩

theorem Sheet.InTime.touch {s s' : Sheet} {now : Moment} (h : s.InTime P) (hP : ∀ m, P m → Q m)
    (hnow : Q now) (hlater : ∀ m, P m → m.instant ≤ now.instant)
    (hcreated : s'.createdAt = s.createdAt) (hupdated : s'.updatedAt = some now)
    (hrows : ∀ r' ∈ s'.rows, (∃ r ∈ s.rows, r'.createdAt = r.createdAt ∧
      (r'.updatedAt = r.updatedAt ∨ r'.updatedAt = some now)) ∨ r'.InTime Q now) :
    s'.InTime Q := by
  obtain ⟨u, -, hPu, hmade, hall⟩ := h
  refine ⟨now, hupdated, hnow, hcreated ▸ hmade.trans (hlater u hPu), fun r' hr' => ?_⟩
  rcases hrows r' hr' with ⟨r, hr, hcreated', hupdated'⟩ | hnew
  · obtain ⟨v, hv, hPv, hmade', -⟩ := hall r hr
    rcases hupdated' with hsame | hchanged
    · exact ⟨v, hsame.trans hv, hP v hPv, hcreated' ▸ hmade', hlater v hPv⟩
    · exact ⟨now, hchanged, hnow, hcreated' ▸ hmade'.trans (hlater v hPv), le_refl _⟩
  · exact hnew

theorem Sheet.InTime.imp {s : Sheet} (h : s.InTime P) (hP : ∀ m, P m → Q m) : s.InTime Q := by
  obtain ⟨u, hu, hPu, hmade, hrows⟩ := h
  exact ⟨u, hu, hP u hPu, hmade, fun r hr => (hrows r hr).imp hP (le_refl _)⟩

theorem ChangesOne.inTime {sheet : String} {change : Sheet → Sheet → Prop} {before after : List Sheet}
    (h : ChangesOne Sheet.id sheet change before after) (hbefore : ∀ s ∈ before, s.InTime P)
    (hP : ∀ m, P m → Q m) (hchange : ∀ s s', s.InTime P → change s s' → s'.InTime Q) :
    ∀ s ∈ after, s.InTime Q := by
  intro s' hs'
  rcases h.mem hs' with hs' | ⟨s, hs, -, hs'⟩
  · exact (hbefore s' hs').imp hP
  · exact hchange s s' (hbefore s hs) hs'

/-- A write at times that follow all that were there keeps sheets in time. -/
theorem Effect.inTime {k : Keeping} {fresh : Fresh} {clock : Nat → Moment}
    {before after : List Sheet} {w : Write} (h : Effect k fresh clock before after w)
    (hk : k.Forwards) (hbefore : ∀ s ∈ before, s.InTime P) (hP : ∀ m, P m → Q m)
    (hnow : ∀ i, Q (clock i)) (hclock : ∀ i j, i ≤ j → (clock i).instant ≤ (clock j).instant)
    (hlater : ∀ m, P m → ∀ i, m.instant ≤ (clock i).instant) : ∀ s ∈ after, s.InTime Q := by
  cases w with
  | create name columns rows =>
    obtain ⟨data, -, rfl⟩ := h
    obtain ⟨order, horder, htimes⟩ := hk clock
    have hforwards {i j : Nat} (hij : i ≤ j) : (clock (order i)).instant ≤ (clock (order j)).instant :=
      hclock _ _ (horder hij)
    refine List.forall_mem_append.mpr ⟨fun s hs => (hbefore s hs).imp hP,
      List.forall_mem_singleton.mpr ?_⟩
    rw [htimes]
    refine ⟨_, rfl, hnow _, hforwards (Nat.le_succ _), fun r hr => ?_⟩
    obtain ⟨i, hi, rfl⟩ := List.mem_mapIdx.mp hr
    exact Row.inTime_made i _ (hforwards (Nat.le_succ _)) (hnow _) (hforwards (by omega))
  | updateSheet sheet name columns =>
    refine ChangesOne.inTime h hbefore hP ?_
    rintro s _ hs rfl
    exact hs.touch hP (hnow 0) (fun m hm => hlater m hm 0) rfl rfl
      fun r hr => .inl ⟨r, hr, rfl, .inl rfl⟩
  | deleteSheet sheet => exact fun s hs => (hbefore s (h.sublist.subset hs)).imp hP
  | addRow sheet data =>
    refine ChangesOne.inTime h hbefore hP ?_
    rintro s _ hs ⟨kept, -, rfl⟩
    refine hs.touch hP (hnow 1) (fun m hm => hlater m hm 1) rfl rfl fun r hr => ?_
    rcases List.mem_append.mp hr with hr | hr
    · exact .inl ⟨r, hr, rfl, .inl rfl⟩
    · obtain rfl := List.mem_singleton.mp hr
      exact .inr (Row.inTime_made 0 kept (hclock _ _ (Nat.le_succ _)) (hnow _) (le_refl _))
  | updateRow sheet row data =>
    refine ChangesOne.inTime h hbefore hP ?_
    rintro s _ hs ⟨rows, hrow, rfl⟩
    refine hs.touch hP (hnow 0) (fun m hm => hlater m hm 0) rfl rfl fun r' hr' => ?_
    rcases hrow.mem hr' with hr' | ⟨r, hr, -, kept, -, rfl⟩
    · exact .inl ⟨r', hr', rfl, .inl rfl⟩
    · exact .inl ⟨r, hr, rfl, .inr rfl⟩
  | deleteRow sheet row =>
    refine ChangesOne.inTime h hbefore hP ?_
    rintro s _ hs ⟨rows, hrow, rfl⟩
    exact hs.touch hP (hnow 0) (fun m hm => hlater m hm 0) rfl rfl
      fun r hr => .inl ⟨r, hrow.sublist.subset hr, rfl, .inl rfl⟩
  | clear =>
    obtain rfl := h
    exact fun s hs => (List.not_mem_nil hs).elim

theorem Sheet.InTime.load {f : Cell → Except Failure Cell} {s s' : Sheet} (h : s.InTime P)
    (hs : s.load f = .ok s') : s'.InTime P := by
  obtain ⟨rows, hrows, rfl⟩ := Sheet.load_eq_ok.mp hs
  obtain ⟨u, hu, hPu, hmade, hall⟩ := h
  refine ⟨u, hu, hPu, hmade, fun r' hr' => ?_⟩
  obtain ⟨r, hr, hload⟩ := exists_partner (mapM_eq_ok.mp hrows) hr'
  obtain ⟨data, -, rfl⟩ := Row.load_eq_ok.mp hload
  exact hall r hr

/-! Runs. -/

namespace Store

theorem held_inTime {s : Store} (hs : s.IsEmpty) (calls : List Call)
    (hfresh : FreshIds (calls.map Call.event)) (hclock : SteadyClock calls) :
    ∀ sheet ∈ (s.runCalls calls).held, sheet.InTime (Shown calls) := by
  induction calls using List.reverseRecOn with
  | nil =>
    rcases hs with rfl | rfl
    · exact fun sheet hsheet => (List.not_mem_nil hsheet).elim
    · intro sheet hsheet
      rw [show (runCalls (.database Database.empty) []).held = [] from
        Tables.sound_empty.inOrder.held_eq] at hsheet
      exact (List.not_mem_nil hsheet).elim
  | append_singleton calls c ih =>
    have hmem : c ∈ calls ++ [c] := List.mem_append_right calls (List.mem_singleton_self c)
    have hacross := List.pairwise_append.mp hclock.across
    have hbefore := ih
      (by rw [List.map_append] at hfresh; exact hfresh.of_append)
      ⟨fun d hd => hclock.utc d (List.mem_append_left _ hd),
        fun d hd => hclock.within d (List.mem_append_left _ hd), hacross.1⟩
    have hshown (u : Moment) (hu : Shown calls u) : Shown (calls ++ [c]) u := by
      obtain ⟨d, hd, i, rfl⟩ := hu
      exact ⟨d, List.mem_append_left _ hd, i, rfl⟩
    have hsame := fun sheet hsheet => (hbefore sheet hsheet).imp hshown
    rw [runCalls_append]
    cases hoperation : c.operation with
    | read q =>
      unfold call
      rw [hoperation]
      exact hsame
    | write w =>
      have hchanged (heffect : Effect s.holding c.fresh c.clock (s.runCalls calls).held
          ((s.runCalls calls).call c).state.held w) :
          ∀ sheet ∈ ((s.runCalls calls).call c).state.held, sheet.InTime (Shown (calls ++ [c])) := by
        refine heffect.inTime s.forwards_holding hbefore hshown (fun i => ⟨c, hmem, i, rfl⟩)
          (hclock.within c hmem) ?_
        rintro _ ⟨d, hd, i, rfl⟩ j
        exact hacross.2.2 d hd c (List.mem_singleton_self c) i j
      rcases call_effect hs calls c hfresh hoperation with ⟨_, -, heffect⟩ | ⟨_, -, hstate | heffect⟩
      · exact hchanged heffect
      · rw [hstate]
        exact hsame
      · exact hchanged heffect

theorem listed_inTime {s : Store} (hs : s.IsEmpty) (calls : List Call)
    (hfresh : FreshIds (calls.map Call.event)) (hclock : SteadyClock calls) {listed : List Sheet}
    (hlisted : (s.runCalls calls).reads.sheets = .ok listed) :
    ∀ sheet ∈ listed, sheet.InTime (Shown calls) := by
  have hheld := held_inTime hs calls hfresh hclock
  rw [← List.append_nil calls] at hfresh
  rcases hs with rfl | rfl
  · obtain ⟨m, hm, -⟩ := runCalls_memory calls [] hfresh
    rw [hm] at hheld hlisted
    obtain rfl := Except.ok.inj hlisted
    exact hheld
  · obtain ⟨t, ht, hsound, -⟩ := runCalls_database calls [] hfresh
    rw [ht] at hheld hlisted
    intro sheet hsheet
    obtain ⟨h, hh, hload⟩ :=
      exists_partner (mapM_eq_ok.mp (hsound.inOrder.list_eq_ok_iff.mp hlisted)) hsheet
    exact (hheld h hh).load hload

end Store

/-! Reports. -/

namespace Overview

/-- The last change that is told of sheets in time is that of the sheet which was changed last. -/
theorem lastUpdated_of_inTime {sheets : List Sheet} (hsome : sheets ≠ [])
    (h : ∀ s ∈ sheets, s.InTime P) (hutc : ∀ m, P m → m.offset = some Offset.utc)
    (hepoch : ∀ s ∈ sheets, ∀ u, s.updatedAt = some u → Moment.epoch.instant ≤ u.instant) :
    ∃ o, ofSheets sheets = .ok o ∧ (∃ s ∈ sheets, s.updatedAt = some o.lastUpdated) ∧
      ∀ s ∈ sheets, ∀ u, s.updatedAt = some u → u.instant ≤ o.lastUpdated.instant := by
  -- every stamp is followed by that of its sheet
  have hstamp (t : Option Moment) (ht : t ∈ sheets.flatMap stamps) :
      ∃ m, t = some m ∧ P m ∧ ∃ s ∈ sheets, ∃ u, s.updatedAt = some u ∧ P u ∧
        m.instant ≤ u.instant := by
    obtain ⟨s, hs, ht⟩ := List.mem_flatMap.mp ht
    obtain ⟨u, hu, hPu, -, hrows⟩ := h s hs
    rcases List.mem_cons.mp ht with rfl | ht
    · exact ⟨u, hu, hPu, s, hs, u, hu, hPu, le_refl _⟩
    · obtain ⟨r, hr, rfl⟩ := List.mem_map.mp ht
      obtain ⟨v, hv, hPv, -, hvu⟩ := hrows r hr
      exact ⟨v, hv, hPv, s, hs, u, hu, hPu, hvu⟩
  have hown (s : Sheet) (hs : s ∈ sheets) (u : Moment) (hu : s.updatedAt = some u) :
      some u ∈ sheets.flatMap stamps :=
    List.mem_flatMap.mpr ⟨s, hs, hu ▸ List.mem_cons_self⟩
  obtain ⟨last, hlast⟩ := (foldlM_later_isOk_iff Moment.epoch).mpr fun m hm => by
    obtain ⟨n, hn, hPn, -⟩ := hstamp _ hm
    obtain rfl := Option.some.inj hn
    exact (RowText.utc_isOk_iff m).mp ⟨m, Moment.utc_of_utc (hutc m hPn)⟩
  have hlatest := isLatest_mostRecent hlast
  have hall : ∀ s ∈ sheets, ∀ u, s.updatedAt = some u → u.instant ≤ last.instant :=
    fun s hs u hu => hlatest.le u (hown s hs u hu)
  -- there is a sheet that was not changed before the last moment, so it was changed at it
  obtain ⟨s, hs, u, hu, hPu, hle⟩ : ∃ s ∈ sheets, ∃ u, s.updatedAt = some u ∧ P u ∧
      last.instant ≤ u.instant := by
    rcases hlatest.reached with heq | ⟨m, hmem, heq⟩
    · obtain ⟨s, hs⟩ := List.exists_mem_of_ne_nil sheets hsome
      obtain ⟨u, hu, hPu, -⟩ := h s hs
      exact ⟨s, hs, u, hu, hPu, heq.trans_le (hepoch s hs u hu)⟩
    · obtain ⟨n, hn, -, s, hs, u, hu, hPu, hnu⟩ := hstamp _ hmem
      obtain rfl := Option.some.inj hn
      exact ⟨s, hs, u, hu, hPu, heq.symm.trans_le hnu⟩
  have heq : last = u := Moment.eq_of_instant_eq (hlatest.utc.trans (hutc u hPu).symm)
    (Int.le_antisymm hle (hall s hs u hu))
  refine ⟨_, bind_eq_ok.mpr ⟨last, hlast, rfl⟩, ⟨s, hs, ?_⟩, hall⟩
  rw [hu, heq]

end Overview

theorem SheetReport.lastUpdated_of_ofSheet {year : Nat} {s : Sheet} {x : SheetReport}
    (h : SheetReport.ofSheet year s = .ok x) : x.lastUpdated = s.updatedAt := by
  obtain ⟨columns, -, h⟩ := bind_eq_ok.mp h
  obtain ⟨trends, -, h⟩ := bind_eq_ok.mp h
  obtain rfl := Except.ok.inj h
  rfl

namespace Store

/-- After any calls under a clock that never goes back, everything that is listed was changed after it
was made, and no row after its sheet. So the report on all sheets tells the last change of all of them,
and the report on a sheet tells no time before the last change of one of its rows. -/
theorem times_in_order {s : Store} (hs : s.IsEmpty) (calls : List Call)
    (hfresh : FreshIds (calls.map Call.event)) (hclock : SteadyClock calls)
    (hreadable : ∀ c ∈ calls, c.operation.Readable) :
    ∃ listed, (s.runCalls calls).reads.sheets = .ok listed ∧
      (∀ sheet ∈ listed, sheet.InTime (Shown calls)) ∧
      (listed ≠ [] → (∀ sheet ∈ listed, ∀ u, sheet.updatedAt = some u →
          Moment.epoch.instant ≤ u.instant) →
        ∃ o last, Overview.ofSheets listed = .ok o ∧
          Outcome.told o.toCell ["summary", "lastUpdated"] = some (.moment last) ∧
          (∃ sheet ∈ listed, sheet.updatedAt = some last) ∧
          ∀ sheet ∈ listed, ∀ u, sheet.updatedAt = some u → u.instant ≤ last.instant) ∧
      ∀ sheet ∈ listed, ∀ year x, SheetReport.ofSheet year sheet = .ok x →
        ∃ last, Outcome.told x.toCell ["summary", "lastUpdated"] = some (.moment last) ∧
          ∀ r ∈ sheet.rows, ∀ u, r.updatedAt = some u → u.instant ≤ last.instant := by
  obtain ⟨listed, hlisted⟩ := exists_listed hs calls hfresh hreadable
  have htimes := listed_inTime hs calls hfresh hclock hlisted
  refine ⟨listed, hlisted, htimes, fun hsome hepoch => ?_, fun sheet hsheet year x hx => ?_⟩
  · have hutc (m : Moment) (hm : Shown calls m) : m.offset = some Offset.utc := by
      obtain ⟨c, hc, i, rfl⟩ := hm
      exact hclock.utc c hc i
    obtain ⟨o, ho, hlast, hall⟩ := Overview.lastUpdated_of_inTime hsome htimes hutc hepoch
    exact ⟨o, o.lastUpdated, ho, rfl, hlast, hall⟩
  · obtain ⟨last, hlast, -, -, hrows⟩ := htimes sheet hsheet
    refine ⟨last, ?_, fun r hr u hu => ?_⟩
    · change some (((x.lastUpdated).map Cell.moment).getD .null) = _
      rw [SheetReport.lastUpdated_of_ofSheet hx, hlast]
      rfl
    · obtain ⟨v, hv, -, -, hvu⟩ := hrows r hr
      rw [hv] at hu
      exact Option.some.inj hu ▸ hvu

def addsLater : List Call :=
  [⟨.write (.create (some "A") [] []), Fresh.lettered 'a', fun _ => ticking 0⟩,
    ⟨.write (.addRow "a" (.record [])), Fresh.lettered 'b', fun i => ticking (min i 1)⟩]

/-- The report tells the time of the row, which is also that of its sheet. -/
theorem times_in_order_addsLater :
    ∃ listed o, ((Store.memory ⟨[]⟩).runCalls addsLater).reads.sheets = .ok listed ∧
      Overview.ofSheets listed = .ok o ∧
      Outcome.told o.toCell ["summary", "lastUpdated"] = some (.moment (ticking 1)) := by
  have hfresh : FreshIds (addsLater.map Call.event) :=
    .of_letters (show ['a', 'b'].Nodup by decide) rfl
  have hticks : ∀ i ≤ 1, ∀ j ≤ 1, i ≤ j → (ticking i).instant ≤ (ticking j).instant := by decide
  have hclock : SteadyClock addsLater := by
    refine ⟨fun c hc i => ?_, fun c hc i j hij => ?_, List.pairwise_pair.mpr fun i j => ?_⟩
    · rcases List.mem_pair.mp hc with rfl | rfl <;> rfl
    · rcases List.mem_pair.mp hc with rfl | rfl
      · exact le_refl _
      · exact hticks _ (Nat.min_le_right i 1) _ (Nat.min_le_right j 1) (by omega)
    · exact hticks 0 (Nat.zero_le 1) _ (Nat.min_le_right j 1) (Nat.zero_le _)
  have hreadable : ∀ c ∈ addsLater, c.operation.Readable := by
    intro c hc
    rcases List.mem_pair.mp hc with rfl | rfl
    · exact fun data hdata => (List.not_mem_nil hdata).elim
    · exact .record [] (by simp) fun h => absurd rfl h.1
  obtain ⟨listed, hlisted, -, hoverview, -⟩ :=
    times_in_order (.inl rfl) addsLater hfresh hclock hreadable
  obtain rfl := Except.ok.inj hlisted
  obtain ⟨o, last, ho, htold, ⟨sheet, hsheet, hlast⟩, -⟩ := hoverview (List.cons_ne_nil _ _) (by
    intro sheet hsheet u hu
    obtain rfl := List.mem_singleton.mp hsheet
    obtain rfl := Option.some.inj hu
    decide)
  obtain rfl := List.mem_singleton.mp hsheet
  obtain rfl := Option.some.inj hlast
  exact ⟨_, o, rfl, ho, htold⟩

end Store

end PlainSheets
