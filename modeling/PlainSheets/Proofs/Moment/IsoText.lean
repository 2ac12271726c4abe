import PlainSheets.Moment.Iso
import PlainSheets.Proofs.Text.Digits
import Mathlib.Tactic.Common

/-!
The ISO text of a moment read back. Dates, clocks and offsets are read as they were written, except
that an offset of less than a second is read as no offset at all.
-/
namespace PlainSheets

open Text (fixedDigits)

theorem padded_eq {width n : Nat} (hwidth : 0 < width) (hn : n < 10 ^ width) :
    padded width n = fixedDigits 10 width n :=
  Text.replicate_append_toDigits (by decide) hwidth hn

namespace Iso

theorem byteChars_ascii {cs : List Char} (h : ∀ c ∈ cs, c.toNat < 128) :
    byteChars (String.ofList cs) = cs := by
  have hbytes : (String.ofList cs).toUTF8.data.toList = cs.flatMap String.utf8EncodeChar := by
    simp [List.utf8Encode]
  rw [byteChars, hbytes, List.map_flatMap]
  induction cs with
  | nil => rfl
  | cons c cs ih =>
    have hc := h c List.mem_cons_self
    have hsize : c.utf8Size = 1 := by
      rw [Char.utf8Size_eq_one_iff, UInt32.le_iff_toNat_le]
      exact Nat.le_of_lt_succ hc
    have hchar : Char.ofNat c.val.toUInt8.toNat = c := by
      have hval : c.val.toUInt8.toNat = c.toNat := by
        rw [UInt32.toNat_toUInt8]
        exact Nat.mod_eq_of_lt (Nat.lt_trans hc (by decide))
      rw [hval, Char.ofNat_toNat]
    rw [List.flatMap_cons, String.utf8EncodeChar_eq_singleton hsize]
    simp only [List.map_cons, List.map_nil, List.singleton_append, hchar]
    rw [ih (fun d hd => h d (List.mem_cons_of_mem c hd)) (by simp [List.utf8Encode])]

theorem digitValue?_eq {c : Char} (hc : Json.isAsciiDigit c) :
    digitValue? c = some (c.toNat - 48) := by
  rw [Json.isAsciiDigit, Bool.and_eq_true, decide_eq_true_eq, decide_eq_true_eq] at hc
  rw [digitValue?, if_pos hc]

theorem takeNumber_go (value : Nat) {ds : List Char} (hds : ∀ c ∈ ds, Json.isAsciiDigit c)
    (rest : List Char) :
    takeNumber.go value ds.length (ds ++ rest) =
      some (ds.foldl (fun n c => 10 * n + (c.toNat - 48)) value, rest) := by
  induction ds generalizing value with
  | nil => rfl
  | cons d ds ih =>
    have hd := digitValue?_eq (hds d List.mem_cons_self)
    rw [List.length_cons, List.cons_append, takeNumber.go, hd, List.foldl_cons]
    exact ih _ fun c hc => hds c (List.mem_cons_of_mem d hc)

theorem takeNumber_fixedDigits (width : Nat) {n : Nat} (hn : n < 10 ^ width) (rest : List Char) :
    takeNumber width (fixedDigits 10 width n ++ rest) = some (n, rest) := by
  have hgo := takeNumber_go 0 (Text.isAsciiDigit_fixedDigits width n) rest
  have hvalue := Text.natOfDigits_fixedDigits width n
  rw [Text.length_fixedDigits] at hgo
  rw [Nat.mod_eq_of_lt hn] at hvalue
  rw [takeNumber, hgo]
  exact congrArg (fun v => some (v, rest)) hvalue

/-! Fields of two digits with colons between them. -/

theorem readFields_colon (offsetFollows : Bool) (k : Nat) {colons? : Option Bool} {v : Nat}
    (hv : v < 100) (hcolons : colons?.getD true = true) {rest : List Char} (hrest : rest ≠ []) :
    readFields offsetFollows (k + 1) colons? (fixedDigits 10 2 v ++ ':' :: rest) =
      (readFields offsetFollows k (some true) rest).map fun p => (v :: p.1, p.2) := by
  obtain ⟨c, cs, rfl⟩ := List.exists_cons_of_ne_nil hrest
  rw [readFields, takeNumber_fixedDigits 2 (by simpa using hv)]
  have htrue : colons?.getD (':' == ':') = true := hcolons
  simp only [Option.bind_eq_bind, Option.bind_some, htrue]
  rfl

theorem readFields_last (offsetFollows : Bool) (k : Nat) {colons? : Option Bool} {v : Nat}
    (hv : v < 100) :
    readFields offsetFollows (k + 1) colons? (fixedDigits 10 2 v) = some ([v], 0) := by
  have htake := takeNumber_fixedDigits 2 (n := v) (by simpa using hv) []
  rw [List.append_nil] at htake
  rw [readFields, htake]
  rfl

theorem readFields_micro (offsetFollows : Bool) (k : Nat) {v micro : Nat} (hv : v < 100)
    (hmicro : micro < 1000000) :
    readFields offsetFollows (k + 1) (some true)
      (fixedDigits 10 2 v ++ '.' :: fixedDigits 10 6 micro) =
      some ([v], micro) := by
  have htake := takeNumber_fixedDigits 6 (n := micro) (by simpa using hmicro) []
  rw [List.append_nil] at htake
  have hfraction : readFraction offsetFollows (fixedDigits 10 6 micro) = some micro := by
    simp [readFraction, htake]
  obtain ⟨c, cs, hcs⟩ := List.exists_cons_of_ne_nil
    (show fixedDigits 10 6 micro ≠ [] by simp [fixedDigits])
  rw [readFields, takeNumber_fixedDigits 2 (by simpa using hv), hcs]
  rw [hcs] at hfraction
  simp [hfraction]

end Iso

def microChars (micro : Nat) : List Char := if micro = 0 then [] else '.' :: fixedDigits 10 6 micro

theorem Clock.iso_eq (c : Clock) :
    c.iso = fixedDigits 10 2 c.hour ++ ':' :: (fixedDigits 10 2 c.minute ++
      ':' :: (fixedDigits 10 2 c.second ++ microChars c.micro)) := by
  have := c.hour_ok
  have := c.minute_ok
  have := c.second_ok
  have := c.micro_ok
  rw [iso, padded_eq (by decide) (by omega), padded_eq (by decide) (by omega),
    padded_eq (by decide) (by omega), padded_eq (by decide) (by omega), microChars]
  simp only [List.append_assoc, List.cons_append]

theorem Date.iso_eq (d : Date) :
    d.iso = fixedDigits 10 4 d.year ++ '-' :: (fixedDigits 10 2 d.month ++
      '-' :: fixedDigits 10 2 d.day) := by
  have := d.year_ok
  have := d.month_ok
  have hday := d.day_ok
  have hmonth : daysInMonth d.year d.month ≤ 31 := by
    unfold daysInMonth
    split
    · split <;> decide
    split <;> decide
  rw [iso, padded_eq (by decide) (by omega), padded_eq (by decide) (by omega),
    padded_eq (by decide) (by omega)]
  simp only [List.append_assoc, List.cons_append]

namespace Iso

theorem readFields_seconds (offsetFollows : Bool) (k : Nat) {v micro : Nat} (hv : v < 100)
    (hmicro : micro < 1000000) :
    readFields offsetFollows (k + 1) (some true) (fixedDigits 10 2 v ++ microChars micro) =
      some ([v], micro) := by
  unfold microChars
  split
  · rename_i hzero
    rw [List.append_nil, hzero]
    exact readFields_last offsetFollows k hv
  · exact readFields_micro offsetFollows k hv hmicro

theorem readFields_three (offsetFollows : Bool) {hour minute second micro : Nat}
    (hhour : hour < 100)
    (hminute : minute < 100) (hsecond : second < 100) (hmicro : micro < 1000000) :
    readTime offsetFollows (fixedDigits 10 2 hour ++ ':' :: (fixedDigits 10 2 minute ++
      ':' :: (fixedDigits 10 2 second ++ microChars micro))) =
      some ⟨hour, minute, second, micro⟩ := by
  rw [readTime, readFields_colon offsetFollows 2 hhour rfl (by simp [fixedDigits]),
    readFields_colon offsetFollows 1 hminute rfl (by simp [fixedDigits]),
    readFields_seconds offsetFollows 0 hsecond hmicro]
  rfl

theorem readFields_two (offsetFollows : Bool) {hour minute : Nat} (hhour : hour < 100)
    (hminute : minute < 100) :
    readTime offsetFollows (fixedDigits 10 2 hour ++ ':' :: fixedDigits 10 2 minute) =
      some ⟨hour, minute, 0, 0⟩ := by
  rw [readTime, readFields_colon offsetFollows 2 hhour rfl (by simp [fixedDigits]),
    readFields_last offsetFollows 1 hminute]
  rfl

@[simp] theorem readTime_clock (offsetFollows : Bool) (c : Clock) :
    readTime offsetFollows c.iso = some ⟨c.hour, c.minute, c.second, c.micro⟩ := by
  have := c.hour_ok
  have := c.minute_ok
  have := c.second_ok
  rw [c.iso_eq]
  exact readFields_three offsetFollows (by omega) (by omega) (by omega) c.micro_ok

end Iso

namespace Offset

/-- An offset as it is read back: one of less than a second counts for nothing. -/
def asRead (o : Offset) : Offset := if o.micros.natAbs < 1000000 then utc else o

def unsignedIso (o : Offset) : List Char := o.iso.tail

theorem iso_cons (o : Offset) :
    o.iso = (if o.micros < 0 then '-' else '+') :: o.unsignedIso := rfl

theorem unsignedIso_eq (o : Offset) :
    o.unsignedIso = fixedDigits 10 2 (o.micros.natAbs / 3600000000) ++
      ':' :: (fixedDigits 10 2 (o.micros.natAbs / 60000000 % 60) ++
        if o.micros.natAbs / 1000000 % 60 = 0 ∧ o.micros.natAbs % 1000000 = 0 then []
        else ':' :: (fixedDigits 10 2 (o.micros.natAbs / 1000000 % 60) ++
          microChars (o.micros.natAbs % 1000000))) := by
  have hsmall := o.small
  unfold microsPerDay at hsmall
  rw [unsignedIso, iso]
  simp only [List.cons_append, List.append_assoc, List.tail_cons]
  rw [padded_eq (by decide) (by omega), padded_eq (by decide) (by omega),
    padded_eq (by decide) (by omega), padded_eq (by decide) (by omega)]
  unfold microChars
  split
  · rename_i h
    simp [h.2]
  · rfl

theorem asRead_micros (o : Offset) :
    o.asRead.micros = if o.micros.natAbs < 1000000 then 0 else o.micros := by
  unfold asRead
  split <;> rfl

@[simp] theorem readOffset_unsignedIso (o : Offset) :
    Iso.readOffset (o.micros < 0) o.unsignedIso = some o.asRead.micros := by
  have hsmall := o.small
  unfold microsPerDay at hsmall
  have htime : Iso.readTime false o.unsignedIso =
      some ⟨o.micros.natAbs / 3600000000, o.micros.natAbs / 60000000 % 60,
        o.micros.natAbs / 1000000 % 60, o.micros.natAbs % 1000000⟩ := by
    rw [unsignedIso_eq]
    split
    · rename_i hzero
      rw [List.append_nil, Iso.readFields_two false (by omega) (by omega), hzero.1, hzero.2]
    · exact Iso.readFields_three false (by omega) (by omega) (by omega) (by omega)
  have hseconds : (o.micros.natAbs / 3600000000 * 60 + o.micros.natAbs / 60000000 % 60) * 60 +
      o.micros.natAbs / 1000000 % 60 = o.micros.natAbs / 1000000 := by omega
  rw [Iso.readOffset, htime, asRead_micros]
  simp only [Option.bind_eq_bind, Option.bind_some, hseconds, Option.some.injEq]
  by_cases hsub : o.micros.natAbs < 1000000
  · have hzero : o.micros.natAbs / 1000000 = 0 := by omega
    simp only [hsub, hzero, if_true]
    split <;> rfl
  · have hzero : ¬ o.micros.natAbs / 1000000 = 0 := by omega
    simp only [hsub, hzero, if_false, decide_eq_true_eq]
    split <;> omega

end Offset

/-! The parts of a moment put together. -/

def IsClockChar (c : Char) : Prop := Json.isAsciiDigit c ∨ c = ':' ∨ c = '.'

theorem isClockChar_fixedDigits (width n : Nat) : ∀ c ∈ fixedDigits 10 width n, IsClockChar c :=
  fun c hc => .inl (Text.isAsciiDigit_fixedDigits width n c hc)

theorem isClockChar_iso (c : Clock) : ∀ a ∈ c.iso, IsClockChar a := by
  intro a ha
  rw [c.iso_eq] at ha
  simp only [List.mem_append, List.mem_cons, microChars] at ha
  rcases ha with ha | rfl | ha | rfl | ha | ha
  · exact isClockChar_fixedDigits _ _ a ha
  · exact .inr (.inl rfl)
  · exact isClockChar_fixedDigits _ _ a ha
  · exact .inr (.inl rfl)
  · exact isClockChar_fixedDigits _ _ a ha
  · split at ha
    · cases ha
    · rcases List.mem_cons.mp ha with rfl | ha
      · exact .inr (.inr rfl)
      · exact isClockChar_fixedDigits _ _ a ha

theorem IsClockChar.not_offset {c : Char} (h : IsClockChar c) :
    (!(c = '+' || c = '-' || c = 'Z')) = true := by
  have hne (a : Char) (ha : ¬ Json.isAsciiDigit a) (hcolon : a ≠ ':') (hpoint : a ≠ '.') :
      c ≠ a := by
    rintro rfl
    rcases h with h | h | h
    · exact ha h
    · exact hcolon h
    · exact hpoint h
  simp [hne '+' (by decide) (by decide) (by decide), hne '-' (by decide) (by decide) (by decide),
    hne 'Z' (by decide) (by decide) (by decide)]

namespace Iso

theorem readClock_iso (c : Clock) (offset : Option Offset) :
    readClock (c.iso ++ (offset.map Offset.iso).getD []) =
      some (⟨c.hour, c.minute, c.second, c.micro⟩, offset.map fun o => o.asRead.micros) := by
  have hclock := fun a ha => (isClockChar_iso c a ha).not_offset
  cases offset with
  | none =>
    have htake : (c.iso ++ []).takeWhile (fun a => !(a = '+' || a = '-' || a = 'Z')) = c.iso := by
      rw [List.takeWhile_append_of_pos hclock]
      exact List.append_nil _
    simp only [readClock, Option.map_none, Option.getD_none, htake]
    simp
  | some o =>
    have htake (sign : Char) (hsign : sign = '-' ∨ sign = '+') :
        (c.iso ++ sign :: o.unsignedIso).takeWhile (fun a => !(a = '+' || a = '-' || a = 'Z')) =
          c.iso := by
      rw [List.takeWhile_append_of_pos hclock]
      rcases hsign with rfl | rfl <;> exact List.append_nil _
    have hoffset := o.readOffset_unsignedIso
    simp only [Option.map_some, Option.getD_some, o.iso_cons]
    by_cases hneg : o.micros < 0
    · simp only [hneg, if_true, decide_true] at hoffset ⊢
      simp only [readClock, htake '-' (.inl rfl), List.drop_left]
      simp [hoffset]
    · simp only [hneg, if_false, decide_false] at hoffset ⊢
      simp only [readClock, htake '+' (.inr rfl), List.drop_left]
      simp [hoffset]

@[simp] theorem readDate_iso (d : Date) : readDate d.iso = some (d.year, d.month, d.day) := by
  have hyear := d.year_ok
  have hmonth := d.month_ok
  have hday : d.day < 10 ^ 2 := by
    have := d.day_ok
    have hlength : daysInMonth d.year d.month ≤ 31 := by
      unfold daysInMonth
      split
      · split <;> decide
      split <;> decide
    omega
  have hlast := takeNumber_fixedDigits 2 hday []
  rw [List.append_nil] at hlast
  have hhead : ∃ c cs, fixedDigits 10 2 d.month ++ '-' :: fixedDigits 10 2 d.day = c :: cs ∧
      Json.isAsciiDigit c := by
    refine ⟨_, _, rfl, ?_⟩
    exact Text.isAsciiDigit_digitChar _ (Nat.mod_lt _ (by decide))
  have hnext := takeNumber_fixedDigits 2 (n := d.month) (by omega)
    ('-' :: fixedDigits 10 2 d.day)
  obtain ⟨c, cs, hcs, hc⟩ := hhead
  have hW : c ≠ 'W' := by
    rintro rfl
    revert hc
    decide
  rw [d.iso_eq, readDate, takeNumber_fixedDigits 4 (by omega)]
  simp only [Option.bind_eq_bind, Option.bind_some]
  rw [hcs] at hnext ⊢
  split
  · rename_i heq
    exact absurd (List.cons.inj heq).1 hW
  · simp [hnext, hlast]

theorem isAsciiDigit_ascii {c : Char} (hc : Json.isAsciiDigit c) : c.toNat < 128 := by
  rw [Json.isAsciiDigit, Bool.and_eq_true, decide_eq_true_eq, decide_eq_true_eq] at hc
  have hle : c.toNat ≤ '9'.toNat := hc.2
  exact Nat.lt_of_le_of_lt hle (by decide)

theorem ascii_date (d : Date) : ∀ c ∈ d.iso, c.toNat < 128 := by
  intro c hc
  rw [d.iso_eq] at hc
  simp only [List.mem_append, List.mem_cons] at hc
  rcases hc with hc | rfl | hc | rfl | hc
  · exact isAsciiDigit_ascii (Text.isAsciiDigit_fixedDigits _ _ c hc)
  · decide
  · exact isAsciiDigit_ascii (Text.isAsciiDigit_fixedDigits _ _ c hc)
  · decide
  · exact isAsciiDigit_ascii (Text.isAsciiDigit_fixedDigits _ _ c hc)

theorem ascii_clockChar {c : Char} (hc : IsClockChar c) : c.toNat < 128 := by
  rcases hc with hc | rfl | rfl
  · exact isAsciiDigit_ascii hc
  · decide
  · decide

theorem ascii_offset (o : Offset) : ∀ c ∈ o.iso, c.toNat < 128 := by
  intro c hc
  rw [o.iso_cons, o.unsignedIso_eq] at hc
  simp only [List.mem_cons, List.mem_append, microChars] at hc
  rcases hc with rfl | hc | rfl | hc | hc
  · split <;> decide
  · exact isAsciiDigit_ascii (Text.isAsciiDigit_fixedDigits _ _ c hc)
  · decide
  · exact isAsciiDigit_ascii (Text.isAsciiDigit_fixedDigits _ _ c hc)
  · split at hc
    · cases hc
    · simp only [List.mem_cons, List.mem_append] at hc
      rcases hc with rfl | hc | hc
      · decide
      · exact isAsciiDigit_ascii (Text.isAsciiDigit_fixedDigits _ _ c hc)
      · split at hc
        · cases hc
        · rcases List.mem_cons.mp hc with rfl | hc
          · decide
          · exact isAsciiDigit_ascii (Text.isAsciiDigit_fixedDigits _ _ c hc)

@[simp] theorem length_date (d : Date) : d.iso.length = 10 := by simp [d.iso_eq]

@[simp] theorem dateLength_iso (d : Date) (tail : List Char) :
    dateLength (d.iso ++ tail) = 10 := by
  have hsize : ¬ (d.iso ++ tail).length = 7 := by
    rw [List.length_append, length_date]
    omega
  have hdash : (d.iso ++ tail)[4]? = some '-' := by simp [d.iso_eq, fixedDigits]
  have hdigit : ∃ c, (d.iso ++ tail)[5]? = some c ∧ Json.isAsciiDigit c := by
    refine ⟨Nat.digitChar (d.month / 10 % 10), by simp [d.iso_eq, fixedDigits], ?_⟩
    exact Text.isAsciiDigit_digitChar _ (Nat.mod_lt _ (by decide))
  obtain ⟨c, hc, hdigit⟩ := hdigit
  have hW : c ≠ 'W' := by
    rintro rfl
    revert hdigit
    decide
  simp only [dateLength, if_neg hsize, hdash, if_true, hc, Option.some.injEq, hW, if_false]

end Iso

namespace Moment

/-- A moment as it is read back from its text. -/
def asRead (m : Moment) : Moment := { m with offset := m.offset.map Offset.asRead }

theorem ofFields_self (text : String) (d : Date) (c : Clock) (offset : Option Offset) :
    ofFields text (d.year, d.month, d.day) ⟨c.hour, c.minute, c.second, c.micro⟩
      (offset.map Offset.micros) = .ok ⟨d, c, offset⟩ := by
  have hyear := d.year_ok
  have hmonth := d.month_ok
  have hhour := c.hour_ok
  have hminute := c.minute_ok
  have hsecond := c.second_ok
  have hclock : Clock.of? c.hour c.minute c.second c.micro = some c := by
    rw [Clock.of?, dif_pos ⟨hhour, hminute, hsecond, c.micro_ok⟩]
  have hdate : Date.of? d.year d.month d.day = some d := by
    rw [Date.of?, dif_pos hyear, dif_pos hmonth, dif_pos d.day_ok]
  have hyear' : ¬ (d.year = 0 ∨ 9999 < d.year) := by omega
  have hmonth' : ¬ (d.month = 0 ∨ 12 < d.month) := by omega
  have hhour' : ¬ 24 ≤ c.hour := by omega
  have hminute' : ¬ 60 ≤ c.minute := by omega
  have hsecond' : ¬ 60 ≤ c.second := by omega
  cases offset with
  | none =>
    simp [ofFields, hyear', hmonth', hhour', hminute', hsecond', hdate, hclock]
  | some o =>
    have hoffset : Offset.of? o.micros = some o := by rw [Offset.of?, dif_pos o.small]
    simp [ofFields, hyear', hmonth', hhour', hminute', hsecond', hdate, hclock, hoffset]

@[simp] theorem ofIso_date (d : Date) : ofIso (String.ofList d.iso) = .ok (ofDate d) := by
  have hbytes := Iso.byteChars_ascii (Iso.ascii_date d)
  have hlength := Iso.length_date d
  have hdate := Iso.dateLength_iso d []
  rw [List.append_nil] at hdate
  have hfields := ofFields_self (String.ofList d.iso) d Clock.midnight none
  have htake : d.iso.take 10 = d.iso := by rw [← hlength, List.take_length]
  have hdrop : d.iso.drop 10 = [] := by rw [← hlength, List.drop_length]
  have hshort : ¬ (String.ofList d.iso).length < 7 := by
    rw [String.length_ofList, hlength]
    decide
  simp only [ofIso, hbytes, hdate, if_neg hshort, htake, hdrop, Iso.readDate_iso]
  exact hfields

/-- The text of a moment is read as the moment, but for an offset of less than a second. -/
@[simp] theorem ofIso_iso (m : Moment) : ofIso m.iso = .ok m.asRead := by
  have hlist : m.isoWith 'T' = m.date.iso ++ ('T' :: (m.clock.iso ++
      (m.offset.map Offset.iso).getD [])) := by
    simp [isoWith]
  have hascii : ∀ c ∈ m.isoWith 'T', c.toNat < 128 := by
    intro c hc
    rw [hlist] at hc
    simp only [List.mem_append, List.mem_cons] at hc
    rcases hc with hc | rfl | hc | hc
    · exact Iso.ascii_date m.date c hc
    · decide
    · exact Iso.ascii_clockChar (isClockChar_iso m.clock c hc)
    · cases hoffset : m.offset with
      | none => simp [hoffset] at hc
      | some o => exact Iso.ascii_offset o c (by simpa [hoffset] using hc)
  have hbytes := Iso.byteChars_ascii hascii
  have hlength := Iso.length_date m.date
  have hdate := Iso.dateLength_iso m.date
    ('T' :: (m.clock.iso ++ (m.offset.map Offset.iso).getD []))
  have hfields := ofFields_self m.iso m.date m.clock (m.offset.map Offset.asRead)
  have htake : (m.isoWith 'T').take 10 = m.date.iso := by rw [hlist, ← hlength, List.take_left]
  have hdrop : (m.isoWith 'T').drop 10 =
      'T' :: (m.clock.iso ++ (m.offset.map Offset.iso).getD []) := by
    rw [hlist, ← hlength, List.drop_left]
  have hshort : ¬ m.iso.length < 7 := by
    rw [iso, String.length_ofList, hlist, List.length_append, hlength]
    omega
  have hclock := Iso.readClock_iso m.clock m.offset
  rw [← hlist] at hdate
  rw [Option.map_map] at hfields
  unfold ofIso
  simp only [if_neg hshort]
  simp only [iso, hbytes, hdate, htake, hdrop, Iso.readDate_iso]
  have hbytesAfter : Iso.bytesAfter 'T' = 0 := rfl
  simp only [hbytesAfter, List.drop_zero, hclock]
  exact hfields

end Moment

end PlainSheets
