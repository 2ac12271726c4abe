import PlainSheets.Proofs.Report.Returned

/-!
The last change of all. Each time stamp is told in UTC and taken if it is later than those before, so that
the outcome is the latest one, whatever the order of the stamps.
-/
namespace PlainSheets

/-- The later one of two moments; of two at one instant the first. -/
def Moment.laterOf (a b : Moment) : Moment := if a.instant < b.instant then b else a

namespace Overview

/-- The latest of a moment and of time stamps, in UTC. -/
structure IsLatest (start : Moment) (stamps : List (Option Moment)) (last : Moment) : Prop where
  utc : last.offset = some Offset.utc
  reached : last.instant = start.instant ∨ ∃ m, some m ∈ stamps ∧ m.instant = last.instant
  start_le : start.instant ≤ last.instant
  le : ∀ m, some m ∈ stamps → m.instant ≤ last.instant

section

variable {start last x y : Moment} {stamps others : List (Option Moment)}

theorem later_spec (hstart : start.offset = some Offset.utc) {m : Moment}
    (h : later start (some m) = .ok last) :
    last.offset = some Offset.utc ∧ last.instant = max start.instant m.instant := by
  obtain ⟨u, hu, hlast⟩ := map_eq_ok.mp h
  obtain ⟨hinstant, hoffset⟩ := Moment.toUtc?_spec (Moment.utc_eq_ok.mp hu)
  rw [← hlast]
  split
  · rename_i hlt
    exact ⟨hoffset, by omega⟩
  · rename_i hle
    exact ⟨hstart, by omega⟩

theorem isLatest_foldlM (hstart : start.offset = some Offset.utc)
    (h : stamps.foldlM later start = .ok last) : IsLatest start stamps last := by
  induction stamps generalizing start with
  | nil =>
    obtain rfl := Except.ok.inj h
    exact ⟨hstart, .inl rfl, le_refl _, fun m hm => (List.not_mem_nil hm).elim⟩
  | cons t stamps ih =>
    rw [List.foldlM_cons] at h
    obtain ⟨next, hnext, hrest⟩ := bind_eq_ok.mp h
    cases t with
    | none =>
      obtain rfl : start = next := Except.ok.inj hnext
      obtain ⟨hutc, hreached, hstart_le, hle⟩ := ih hstart hrest
      exact ⟨hutc, by simpa using hreached, hstart_le, by simpa using hle⟩
    | some m =>
      obtain ⟨hoffset, hmax⟩ := later_spec hstart hnext
      obtain ⟨hutc, hreached, hstart_le, hle⟩ := ih hoffset hrest
      refine ⟨hutc, ?_, by omega, fun n hn => ?_⟩
      -- If the rest gets no further than its own start, that is the later of the old one and the stamp.
      · rcases hreached with hreached | ⟨n, hn, hreached⟩
        · rcases le_total start.instant m.instant with hmore | hless
          · exact .inr ⟨m, List.mem_cons_self, by omega⟩
          · exact .inl (by omega)
        · exact .inr ⟨n, List.mem_cons_of_mem _ hn, hreached⟩
      · rcases List.mem_cons.mp hn with heq | hn
        · obtain rfl := Option.some.inj heq
          omega
        · exact hle n hn

theorem IsLatest.append (hx : IsLatest start stamps x) (hy : IsLatest start others y) :
    IsLatest start (stamps ++ others) (x.laterOf y) := by
  have hxle := hx.start_le
  have hbounds : x.instant ≤ (x.laterOf y).instant ∧ y.instant ≤ (x.laterOf y).instant := by
    unfold Moment.laterOf
    split <;> omega
  refine ⟨?_, ?_, by omega, fun m hm => ?_⟩
  · unfold Moment.laterOf
    split
    · exact hy.utc
    · exact hx.utc
  · unfold Moment.laterOf
    split
    · exact hy.reached.imp_right fun ⟨m, hm, heq⟩ => ⟨m, List.mem_append_right _ hm, heq⟩
    · exact hx.reached.imp_right fun ⟨m, hm, heq⟩ => ⟨m, List.mem_append_left _ hm, heq⟩
  · rcases List.mem_append.mp hm with hm | hm
    · exact (hx.le m hm).trans hbounds.1
    · exact (hy.le m hm).trans hbounds.2

theorem IsLatest.instant_le (hx : IsLatest start stamps x) (hy : IsLatest start others y)
    (h : ∀ m, some m ∈ stamps → some m ∈ others) : x.instant ≤ y.instant := by
  rcases hx.reached with heq | ⟨m, hm, heq⟩
  · exact heq.trans_le hy.start_le
  · exact heq.symm.trans_le (hy.le m (h m hm))

/-- Only one moment of UTC is the latest, whatever the order of the stamps. -/
theorem IsLatest.unique (hx : IsLatest start stamps x) (hy : IsLatest start others y)
    (h : ∀ m, some m ∈ stamps ↔ some m ∈ others) : x = y :=
  Moment.eq_of_instant_eq (hx.utc.trans hy.utc.symm)
    (Int.le_antisymm (hx.instant_le hy fun m => (h m).mp) (hy.instant_le hx fun m => (h m).mpr))

end

theorem isLatest_mostRecent {sheets : List Sheet} {last : Moment} (h : mostRecent sheets = .ok last) :
    IsLatest .epoch (sheets.flatMap stamps) last :=
  isLatest_foldlM rfl h

end Overview

end PlainSheets
