import PlainSheets.Moment.Basic
import Mathlib.Tactic.Common

/-!
Days and dates. The days of the calendar are counted without a gap, so every count within it has a
date, and a moment carried to UTC is the same instant. It can be carried there just when the instant
lies within the calendar.
-/
namespace PlainSheets

namespace Date

def calendarDays : Nat := 3652059

theorem daysBeforeMonth_succ (year : Nat) {month : Nat} (hmonth : 1 ≤ month) :
    daysBeforeMonth year (month + 1) = daysBeforeMonth year month + daysInMonth year month := by
  obtain ⟨m, rfl⟩ := Nat.exists_eq_succ_of_ne_zero (Nat.ne_zero_of_lt hmonth)
  rfl

theorem daysBeforeMonth_mono (year : Nat) {a b : Nat} (h : a ≤ b) :
    daysBeforeMonth year a ≤ daysBeforeMonth year b := by
  induction h with
  | refl => exact Nat.le_refl _
  | step _ ih =>
    refine Nat.le_trans ih ?_
    rename_i m _
    cases m with
    | zero => exact Nat.le_refl _
    | succ m => exact Nat.le_add_right _ _

def yearLength (year : Nat) : Nat := if isLeapYear year then 366 else 365

@[simp] theorem daysBeforeMonth_thirteen (year : Nat) : daysBeforeMonth year 13 = yearLength year := by
  cases hleap : isLeapYear year <;> simp [daysBeforeMonth, daysInMonth, yearLength, hleap]

theorem monthFrom_spec (year month rest fuel : Nat) (hmonth : 1 ≤ month)
    (hrest : daysBeforeMonth year month + rest < daysBeforeMonth year (month + fuel + 1)) :
    month ≤ (monthFrom year month rest fuel).1 ∧
      (monthFrom year month rest fuel).1 ≤ month + fuel ∧
      1 ≤ (monthFrom year month rest fuel).2 ∧
      (monthFrom year month rest fuel).2 ≤ daysInMonth year (monthFrom year month rest fuel).1 ∧
      daysBeforeMonth year (monthFrom year month rest fuel).1 +
        ((monthFrom year month rest fuel).2 - 1) = daysBeforeMonth year month + rest := by
  induction fuel generalizing month rest with
  | zero =>
    rw [Nat.add_zero, daysBeforeMonth_succ year hmonth] at hrest
    simp only [monthFrom]
    omega
  | succ fuel ih =>
    have hnext := daysBeforeMonth_succ year hmonth
    unfold monthFrom
    split
    · simp only
      omega
    · have hsum : month + (fuel + 1) + 1 = month + 1 + fuel + 1 := by omega
      rw [hsum] at hrest
      have hspec := ih (month + 1) (rest - daysInMonth year month) (by omega)
        (by omega)
      omega

theorem yearLength_succ (y : Nat) : yearLength (y + 1) =
    365 + (if 4 ∣ y + 1 then 1 else 0) - (if 100 ∣ y + 1 then 1 else 0) +
      if 400 ∣ y + 1 then 1 else 0 := by
  have hleap : isLeapYear (y + 1) = true ↔ 4 ∣ y + 1 ∧ (¬ 100 ∣ y + 1 ∨ 400 ∣ y + 1) := by
    simp [isLeapYear, Nat.dvd_iff_mod_eq_zero]
  unfold yearLength
  simp only [hleap]
  by_cases hfour : 4 ∣ y + 1
  · by_cases hhundred : 100 ∣ y + 1 <;> by_cases hcycle : 400 ∣ y + 1 <;>
      simp [hfour, hhundred, hcycle]
    omega
  · have hhundred : ¬ 100 ∣ y + 1 := by omega
    have hcycle : ¬ 400 ∣ y + 1 := by omega
    simp [hfour, hhundred, hcycle]

theorem daysBeforeYear_succ {year : Nat} (hyear : 1 ≤ year) :
    daysBeforeYear (year + 1) = daysBeforeYear year + yearLength year := by
  obtain ⟨y, rfl⟩ := Nat.exists_eq_succ_of_ne_zero (Nat.ne_zero_of_lt hyear)
  have hhundred : y / 100 ≤ y / 4 := by omega
  rw [Nat.succ_eq_add_one, yearLength_succ]
  simp only [daysBeforeYear, Nat.add_sub_cancel, Nat.succ_div]
  by_cases h4 : 4 ∣ y + 1
  · by_cases h100 : 100 ∣ y + 1 <;> by_cases h400 : 400 ∣ y + 1 <;>
      simp only [h4, h100, h400, if_true, if_false] <;> omega
  · have h100 : ¬ 100 ∣ y + 1 := by omega
    have h400 : ¬ 400 ∣ y + 1 := by omega
    simp only [h4, h100, h400, if_false]
    omega

theorem daysBeforeYear_mono {a b : Nat} (ha : 1 ≤ a) (h : a ≤ b) :
    daysBeforeYear a ≤ daysBeforeYear b := by
  induction h with
  | refl => exact Nat.le_refl _
  | step h ih =>
    rw [daysBeforeYear_succ (Nat.le_trans ha h)]
    exact Nat.le_trans ih (Nat.le_add_right _ _)

theorem toDays_lt_month (d : Date) :
    d.toDays < daysBeforeYear d.year + daysBeforeMonth d.year (d.month + 1) := by
  have hday := d.day_ok
  rw [daysBeforeMonth_succ d.year d.month_ok.1, toDays]
  omega

theorem toDays_lt_year (d : Date) : d.toDays < daysBeforeYear (d.year + 1) := by
  have hmonth := daysBeforeMonth_mono d.year (show d.month + 1 ≤ 13 by have := d.month_ok; omega)
  rw [daysBeforeMonth_thirteen] at hmonth
  rw [daysBeforeYear_succ d.year_ok.1]
  exact Nat.lt_of_lt_of_le d.toDays_lt_month (Nat.add_le_add_left hmonth _)

theorem toDays_lt (d : Date) : d.toDays < calendarDays :=
  Nat.lt_of_lt_of_le d.toDays_lt_year
    (daysBeforeYear_mono (Nat.le_add_left 1 d.year) (show d.year + 1 ≤ 10000 by
      have := d.year_ok; omega))

/-- Years by cycles of 400, centuries, cycles of four and single years. -/
theorem daysBeforeYear_parts {cycles centuries leaps years : Nat} (hcenturies : centuries ≤ 3)
    (hleaps : leaps ≤ 24) (hyears : years ≤ 3) :
    daysBeforeYear (400 * cycles + 100 * centuries + 4 * leaps + years + 1) =
      146097 * cycles + 36524 * centuries + 1461 * leaps + 365 * years := by
  have hfour : (400 * cycles + 100 * centuries + 4 * leaps + years) / 4 =
      100 * cycles + 25 * centuries + leaps := by omega
  have hhundred : (400 * cycles + 100 * centuries + 4 * leaps + years) / 100 =
      4 * cycles + centuries := by omega
  have hcycle : (400 * cycles + 100 * centuries + 4 * leaps + years) / 400 = cycles := by omega
  simp only [daysBeforeYear, Nat.add_sub_cancel, hfour, hhundred, hcycle]
  omega

/-- The last day of a year of 366 days is only met at the end of four years that have one. -/
theorem lt_yearLength {cycles centuries leaps years rest : Nat} (hrest : rest ≤ 365)
    (hlast : rest = 365 → years = 3 ∧ (leaps = 24 → centuries = 3) ∧ leaps ≤ 24) :
    rest < yearLength (400 * cycles + 100 * centuries + 4 * leaps + years + 1) := by
  have hlength := yearLength_succ (400 * cycles + 100 * centuries + 4 * leaps + years)
  rw [hlength]
  by_cases heq : rest = 365
  · obtain ⟨rfl, hcentury, hleaps⟩ := hlast heq
    have hfour : 4 ∣ 400 * cycles + 100 * centuries + 4 * leaps + 3 + 1 := by omega
    have hhundred : 100 ∣ 400 * cycles + 100 * centuries + 4 * leaps + 3 + 1 →
        400 ∣ 400 * cycles + 100 * centuries + 4 * leaps + 3 + 1 := by omega
    rw [if_pos hfour]
    split
    · rename_i h
      rw [if_pos (hhundred h)]
      omega
    · split <;> omega
  · split <;> split <;> split <;> omega

theorem ofDays?_year (days : Nat) : ∃ year rest, 1 ≤ year ∧ rest < yearLength year ∧
    days = daysBeforeYear year + rest ∧
    ofDays? days = of? year (monthFrom year 1 rest 11).1 (monthFrom year 1 rest 11).2 := by
  obtain ⟨inCycle, hinCycle⟩ : ∃ n, n = days % 146097 := ⟨_, rfl⟩
  obtain ⟨centuries, hcenturies⟩ : ∃ n, n = min (inCycle / 36524) 3 := ⟨_, rfl⟩
  obtain ⟨inCentury, hinCentury⟩ : ∃ n, n = inCycle - 36524 * centuries := ⟨_, rfl⟩
  obtain ⟨inLeap, hinLeap⟩ : ∃ n, n = inCentury % 1461 := ⟨_, rfl⟩
  obtain ⟨years, hyears⟩ : ∃ n, n = min (inLeap / 365) 3 := ⟨_, rfl⟩
  have hcentury : centuries ≤ 3 ∧ 36524 * centuries ≤ inCycle ∧ inCentury ≤ 36524 ∧
      (inCentury = 36524 → centuries = 3) := by omega
  have hleap : inCentury / 1461 ≤ 24 := by omega
  have hyear : years ≤ 3 ∧ 365 * years ≤ inLeap ∧ inLeap - 365 * years ≤ 365 := by omega
  refine ⟨400 * (days / 146097) + 100 * centuries + 4 * (inCentury / 1461) + years + 1,
    inLeap - 365 * years, by omega, lt_yearLength hyear.2.2 ?_, ?_, ?_⟩
  · intro hlast
    have hthree : years = 3 := by omega
    have hend : inLeap = 1460 := by omega
    refine ⟨hthree, fun h => hcentury.2.2.2 ?_, hleap⟩
    omega
  · rw [daysBeforeYear_parts hcentury.1 hleap hyear.1]
    omega
  · subst hyears hinLeap hinCentury hcenturies hinCycle
    rfl

theorem of?_eq_some {year month day : Nat} {d : Date} (h : of? year month day = some d) :
    d.year = year ∧ d.month = month ∧ d.day = day := by
  unfold of? at h
  split at h
  · split at h
    · split at h
      · cases h
        exact ⟨rfl, rfl, rfl⟩
      · cases h
    · cases h
  · cases h

/-- The date of a count is as many days from the start, and every count in the calendar has one. -/
theorem ofDays?_spec (days : Nat) :
    (∀ d, ofDays? days = some d → d.toDays = days) ∧
      (days < calendarDays → ∃ d, ofDays? days = some d) := by
  obtain ⟨year, rest, hyear, hrest, hdays, heq⟩ := ofDays?_year days
  rw [← daysBeforeMonth_thirteen] at hrest
  have hzero : daysBeforeMonth year 1 = 0 := rfl
  obtain ⟨hfirst, hlast, hday, hdayLast, hsum⟩ :=
    monthFrom_spec year 1 rest 11 (Nat.le_refl 1)
      (by rw [hzero, Nat.zero_add]; exact hrest)
  rw [heq]
  constructor
  · intro d hd
    obtain ⟨hy, hm, hd⟩ := of?_eq_some hd
    rw [toDays, hy, hm, hd]
    omega
  · intro hlt
    have hbound : year ≤ 9999 := by
      by_contra hlarge
      have hmono := daysBeforeYear_mono (show 1 ≤ 10000 by decide) (show 10000 ≤ year by omega)
      have hall : daysBeforeYear 10000 = calendarDays := rfl
      omega
    unfold of?
    rw [dif_pos ⟨hyear, hbound⟩, dif_pos ⟨hfirst, hlast⟩, dif_pos ⟨hday, hdayLast⟩]
    exact ⟨_, rfl⟩

theorem year_le_of_toDays_le {a b : Date} (h : a.toDays ≤ b.toDays) : a.year ≤ b.year := by
  by_contra hlt
  have hmono := daysBeforeYear_mono (Nat.le_add_left 1 b.year) (show b.year + 1 ≤ a.year by omega)
  have hb := b.toDays_lt_year
  have ha : daysBeforeYear a.year ≤ a.toDays := by
    rw [toDays, Nat.add_assoc]
    exact Nat.le_add_right _ _
  omega

theorem month_le_of_toDays_le {a b : Date} (hyear : a.year = b.year) (h : a.toDays ≤ b.toDays) :
    a.month ≤ b.month := by
  by_contra hlt
  have hmono := daysBeforeMonth_mono b.year (show b.month + 1 ≤ a.month by omega)
  have hb := b.toDays_lt_month
  have ha : daysBeforeYear b.year + daysBeforeMonth b.year a.month ≤ a.toDays := by
    rw [toDays, hyear]
    exact Nat.le_add_right _ _
  omega

theorem toDays_injective : Function.Injective toDays := by
  intro a b h
  have hle := Nat.le_of_eq h
  have hge := Nat.le_of_eq h.symm
  have hyear := Nat.le_antisymm (year_le_of_toDays_le hle) (year_le_of_toDays_le hge)
  have hmonth := Nat.le_antisymm (month_le_of_toDays_le hyear hle)
    (month_le_of_toDays_le hyear.symm hge)
  have hday : a.day = b.day := by
    have ha := a.day_ok
    have hb := b.day_ok
    rw [toDays, toDays, hyear, hmonth] at h
    omega
  cases a
  cases b
  simp_all

end Date

theorem Clock.toMicros_lt (c : Clock) : c.toMicros < microsPerDay := by
  have := c.hour_ok
  have := c.minute_ok
  have := c.second_ok
  have := c.micro_ok
  unfold Clock.toMicros microsPerDay
  omega

theorem Clock.toMicros_injective : Function.Injective Clock.toMicros := by
  intro a b h
  have ha := a.micro_ok
  have hb := b.micro_ok
  have ha' := a.second_ok
  have hb' := b.second_ok
  have ha'' := a.minute_ok
  have hb'' := b.minute_ok
  unfold Clock.toMicros at h
  have hparts : a.hour = b.hour ∧ a.minute = b.minute ∧ a.second = b.second ∧ a.micro = b.micro := by
    omega
  cases a
  cases b
  simp_all

theorem Clock.toMicros_ofMicros {n : Nat} (hn : n < microsPerDay) :
    (Clock.ofMicros n).toMicros = n := by
  unfold microsPerDay at hn
  simp only [Clock.ofMicros, Clock.toMicros]
  omega

namespace Moment

def InCalendar (m : Moment) : Prop := 0 ≤ m.instant ∧ m.instant < Date.calendarDays * microsPerDay

instance (m : Moment) : Decidable m.InCalendar := inferInstanceAs (Decidable (_ ∧ _))

theorem localMicros_lt (m : Moment) :
    m.date.toDays * microsPerDay + m.clock.toMicros < Date.calendarDays * microsPerDay := by
  have hdays := m.date.toDays_lt
  have hclock := m.clock.toMicros_lt
  calc m.date.toDays * microsPerDay + m.clock.toMicros
      < (m.date.toDays + 1) * microsPerDay := by rw [Nat.succ_mul]; omega
    _ ≤ Date.calendarDays * microsPerDay := Nat.mul_le_mul_right _ hdays

theorem ofInstant?_spec {micros : Int} {m : Moment} (h : ofInstant? micros = some m) :
    m.instant = micros ∧ m.offset = some Offset.utc := by
  unfold ofInstant? at h
  split at h
  · cases h
  · obtain ⟨d, hd, rfl⟩ := Option.map_eq_some_iff.mp h
    have hdays := (Date.ofDays?_spec _).1 d hd
    have hclock := Clock.toMicros_ofMicros (Nat.mod_lt micros.toNat
      (show 0 < microsPerDay by decide))
    have hsplit := Nat.div_add_mod' micros.toNat microsPerDay
    refine ⟨?_, rfl⟩
    simp only [instant, hdays, hclock, hsplit, Option.map_some, Option.getD_some, Offset.utc]
    omega

@[simp] theorem ofInstant?_isSome_iff (micros : Int) :
    (ofInstant? micros).isSome ↔ 0 ≤ micros ∧ micros < Date.calendarDays * microsPerDay := by
  constructor
  · intro h
    obtain ⟨m, hm⟩ := Option.isSome_iff_exists.mp h
    obtain ⟨hinstant, hoffset⟩ := ofInstant?_spec hm
    have hlt := m.localMicros_lt
    simp only [instant, hoffset, Option.map_some, Option.getD_some, Offset.utc] at hinstant
    omega
  · rintro ⟨hnonneg, hlt⟩
    have hdays : micros.toNat / microsPerDay < Date.calendarDays := by
      rw [Nat.div_lt_iff_lt_mul (by decide)]
      omega
    obtain ⟨d, hd⟩ := (Date.ofDays?_spec _).2 hdays
    unfold ofInstant?
    rw [if_neg (by omega)]
    simp [hd]

theorem eq_of_instant_eq {a b : Moment} (hoffset : a.offset = b.offset)
    (h : a.instant = b.instant) : a = b := by
  have ha := a.clock.toMicros_lt
  have hb := b.clock.toMicros_lt
  have hlocal : a.date.toDays * microsPerDay + a.clock.toMicros =
      b.date.toDays * microsPerDay + b.clock.toMicros := by
    simp only [instant, hoffset] at h
    omega
  have hdate : a.date = b.date := by
    apply Date.toDays_injective
    unfold microsPerDay at hlocal ha hb
    omega
  have hclock : a.clock = b.clock := by
    apply Clock.toMicros_injective
    rw [hdate] at hlocal
    omega
  cases a
  cases b
  simp_all

theorem toUtc?_spec {m u : Moment} (h : m.toUtc? = some u) :
    u.instant = m.instant ∧ u.offset = some Offset.utc := by
  unfold toUtc? at h
  cases hoffset : m.offset with
  | none =>
    rw [hoffset] at h
    cases h
    simp [instant, hoffset, Offset.utc]
  | some o =>
    simp only [hoffset] at h
    split at h
    · rename_i hutc
      cases h
      exact ⟨rfl, by rw [hoffset, hutc]⟩
    · exact ofInstant?_spec h

/-- Every moment of the calendar can be carried to UTC, and no other one. -/
@[simp] theorem toUtc?_isSome_iff (m : Moment) : m.toUtc?.isSome ↔ m.InCalendar := by
  have hlt := m.localMicros_lt
  cases hoffset : m.offset with
  | none =>
    simp only [toUtc?, hoffset, Option.isSome_some, InCalendar, instant, Option.map_none,
      Option.getD_none, true_iff]
    omega
  | some o =>
    by_cases hutc : o = Offset.utc
    · have hinstant : m.instant = (m.date.toDays * microsPerDay + m.clock.toMicros : Nat) := by
        simp [instant, hoffset, hutc, Offset.utc]
      have hsome : m.toUtc? = some m := by simp only [toUtc?, hoffset, if_pos hutc]
      rw [hsome, InCalendar, hinstant]
      simp only [Option.isSome_some, true_iff]
      omega
    · simp only [toUtc?, hoffset, if_neg hutc]
      exact ofInstant?_isSome_iff m.instant

end Moment

end PlainSheets
