import Mathlib.Tactic.IntervalCases
import PlainSheets.Proofs.Json.Numbers
import PlainSheets.Proofs.Query.Comparison
import PlainSheets.Proofs.Query.Found
import PlainSheets.Proofs.Report.Frequencies
import PlainSheets.Proofs.Text.Letters

/-!
Numbers by their texts. A whole number is written without a point however it is stored, and any other
number with the fewest digits that read back. Main statement: cells with numbers have one text just when
they have one number, so that distinct texts count distinct numbers and a filter for a number's text
keeps the cells with that number.
-/
namespace PlainSheets

theorem Text.integerChars_injective : Function.Injective Text.integerChars := by
  intro j k h
  have hparts (n : ℤ) : Json.takeMinus (integerChars n) = (decide (n < 0), Nat.toDigits 10 n.natAbs) := by
    obtain ⟨d, ds, hds, hd⟩ := (Json.isWhole_toDigits n.natAbs).exists_head
    have hminus : (Nat.toDigits 10 n.natAbs).head? ≠ some '-' := by
      rw [hds, List.head?_cons, ne_eq, Option.some_inj]
      rintro rfl
      exact absurd hd (by decide)
    rw [Json.integerChars_eq, ← Json.takeMinus_signChars _ hminus]
    simp [Json.numberChars, Json.fractionChars, Json.exponentChars]
  have hboth : (decide (j < 0), Nat.toDigits 10 j.natAbs) = (decide (k < 0), Nat.toDigits 10 k.natAbs) := by
    rw [← hparts j, ← hparts k, h]
  obtain ⟨hsign, hdigits⟩ := Prod.mk.inj hboth
  have habs : j.natAbs = k.natAbs := by
    rw [← natOfDigits_toDigits j.natAbs, hdigits, natOfDigits_toDigits]
  rw [decide_eq_decide] at hsign
  omega

/-! What is read from the texts of numbers tells them apart. -/

namespace Json

theorem read_integer (k : ℤ) :
    readScalar plainBuilder (Text.integer k).toList = .ok (.integer k, []) ∨
      ∃ size, readScalar plainBuilder (Text.integer k).toList = .error (.integerTooLong size) := by
  have hread := readScalar_integer plainBuilder k stops_nil
  rw [List.append_nil] at hread
  rw [Text.integer, String.toList_ofList, hread]
  unfold integerValue
  simp only
  split
  · exact .inr ⟨_, rfl⟩
  · exact .inl rfl

/-- Infinity is written by another word than the reader knows. -/
theorem read_real (x : Binary64) :
    readScalar plainBuilder x.toText.toList = .ok (.real x, []) ∨
      (x.isFinite = false ∧ readScalar plainBuilder x.toText.toList = .error .notJson) := by
  cases x with
  | finite s u h =>
    have hread := readScalar_real plainBuilder (.finite s u h) stops_nil
    rw [List.append_nil] at hread
    exact .inl hread
  | infinite s => cases s <;> exact .inr ⟨rfl, rfl⟩
  | nan => exact .inr ⟨rfl, rfl⟩

end Json

namespace Binary64

@[simp] theorem natAbs_signed (s : Bool) (u : Nat) : (signed s u).natAbs = u := by
  unfold signed
  split <;> omega

theorem signed_inj {s t : Bool} {u v : Nat} (hu : u ≠ 0) (h : signed s u = signed t v) : s = t ∧ u = v := by
  cases s <;> cases t <;> simp [signed] at h ⊢ <;> omega

theorem units_of_toInt? {s : Bool} {u : Nat} {h : OnGrid u} {k : ℤ}
    (hk : (finite s u h).toInt? = some k) : ∃ m, u = m * unit ∧ k = signed s m := by
  rw [toInt?, Option.ite_none_right_eq_some, Option.some_inj] at hk
  exact ⟨u / unit, (Nat.div_mul_cancel (Nat.dvd_of_mod_eq_zero hk.1)).symm, hk.2.symm⟩

theorem toInt?_eq_none_iff {s : Bool} {u : Nat} {h : OnGrid u} :
    (finite s u h).toInt? = none ↔ ¬ unit ∣ u := by
  rw [toInt?, ite_eq_right_iff, Nat.dvd_iff_mod_eq_zero]
  exact forall_congr' fun _ => iff_false_intro (Option.some_ne_none _)

theorem toText_injective : Function.Injective toText := by
  intro x y h
  rcases Json.read_real x with hx | ⟨hx, hxread⟩ <;> rcases Json.read_real y with hy | ⟨hy, hyread⟩
  · rw [h, hy] at hx
    cases hx
    rfl
  · rw [h, hyread] at hx
    cases hx
  · rw [← h, hxread] at hy
    cases hy
  · match x, y with
    | .infinite true, .infinite true | .infinite false, .infinite false | .nan, .nan => rfl
    | .infinite true, .infinite false | .infinite false, .infinite true | .infinite true, .nan
    | .infinite false, .nan | .nan, .infinite true | .nan, .infinite false => exact absurd h (by decide)
    | .finite .., _ => cases hx
    | _, .finite .. => cases hy

end Binary64

theorem Text.integer_ne_toText (k : ℤ) (x : Binary64) : Text.integer k ≠ x.toText := by
  intro h
  have hk := Json.read_integer k
  rw [h] at hk
  rcases hk with hk | ⟨size, hk⟩ <;> rcases Json.read_real x with hx | ⟨-, hx⟩ <;>
    rw [hx] at hk <;> cases hk

namespace Numeral

def normal : Numeral → Numeral
  | integer k => integer k
  | real x h =>
    match x.toInt? with
    | some k => integer k
    | none => real x h

def IsNormal : Numeral → Prop
  | integer _ => True
  | real x _ => x.toInt? = none

variable {a b : Numeral}

theorem normal_real (x : Binary64) (h : x.isNaN = false) :
    (∃ k, x.toInt? = some k ∧ (real x h).normal = integer k) ∨
      (x.toInt? = none ∧ (real x h).normal = real x h) := by
  cases hx : x.toInt? with
  | some k => exact .inl ⟨k, rfl, by rw [normal, hx]⟩
  | none => exact .inr ⟨rfl, by rw [normal, hx]⟩

theorem isNormal_normal (n : Numeral) : n.normal.IsNormal := by
  match n with
  | integer k => trivial
  | real x h =>
    rcases normal_real x h with ⟨k, -, hnormal⟩ | ⟨hx, hnormal⟩ <;> rw [hnormal]
    · trivial
    · exact hx

@[simp] theorem text_normal (n : Numeral) : n.normal.text = n.text := by
  match n with
  | integer k => rfl
  | real x h =>
    rcases normal_real x h with ⟨k, hx, hnormal⟩ | ⟨-, hnormal⟩ <;> rw [hnormal]
    rw [text, text, hx]

theorem value_of_toInt? {x : Binary64} {k : ℤ} (hx : x.toInt? = some k) (h : x.isNaN = false) :
    (real x h).value = (integer k).value := by
  match x with
  | .finite s u hu =>
    obtain ⟨m, hm, hk⟩ := Binary64.units_of_toInt? hx
    have hwhole : (real (.finite s (m * Binary64.unit) (hm ▸ hu)) rfl).value = (integer k).value :=
      hk ▸ value_whole s m _
    rw [← hwhole]
    simp only [value, hm]
  | .infinite _ | .nan => cases hx

@[simp] theorem value_normal (n : Numeral) : n.normal.value = n.value := by
  match n with
  | integer k => rfl
  | real x h =>
    rcases normal_real x h with ⟨k, hx, hnormal⟩ | ⟨-, hnormal⟩ <;> rw [hnormal]
    exact (value_of_toInt? hx h).symm

theorem IsNormal.eq_of_text (ha : a.IsNormal) (hb : b.IsNormal) (h : a.text = b.text) : a = b := by
  match a, b with
  | integer j, integer k => rw [Text.integerChars_injective (String.ofList_injective h)]
  | integer j, real y _ =>
    simp only [text, show y.toInt? = none from hb] at h
    exact absurd h (Text.integer_ne_toText j y)
  | real x _, integer k =>
    simp only [text, show x.toInt? = none from ha] at h
    exact absurd h.symm (Text.integer_ne_toText k x)
  | real x _, real y _ =>
    simp only [text, show x.toInt? = none from ha, show y.toInt? = none from hb] at h
    cases Binary64.toText_injective h
    rfl

theorem order_eq_iff_place : a.order b = .eq ↔ a.place = b.place := by
  rw [order, Ordering.then_eq_eq, compare_eq_iff_eq, compare_eq_iff_eq, Prod.ext_iff]

theorem order_eq_iff_value : a.order b = .eq ↔ a.value = b.value := (order_compares a b).eq_eq

theorem integer_place_ne {k : ℤ} {x : Binary64} {h : x.isNaN = false} (hx : x.toInt? = none) :
    (integer k).place ≠ (real x h).place := by
  match x with
  | .finite s u hu =>
    intro hplace
    have hunits : k * Binary64.unit = Binary64.signed s u := (Prod.mk.inj hplace).2
    have habs : k.natAbs * Binary64.unit = u := by
      rw [← Binary64.natAbs_signed s u, ← hunits, Int.natAbs_mul, Int.natAbs_natCast]
    exact Binary64.toInt?_eq_none_iff.mp hx (habs ▸ Nat.dvd_mul_left _ _)
  | .infinite s => cases s <;> exact fun hplace => nomatch (Prod.mk.inj hplace).1

theorem IsNormal.eq_of_value (ha : a.IsNormal) (hb : b.IsNormal) (h : a.value = b.value) : a = b := by
  have hplace := order_eq_iff_place.mp (order_eq_iff_value.mpr h)
  match a, b with
  | integer j, integer k =>
    have hunits : j * (Binary64.unit : ℤ) = k * Binary64.unit := (Prod.mk.inj hplace).2
    rw [Int.eq_of_mul_eq_mul_right (by exact_mod_cast Binary64.unit_pos.ne') hunits]
  | integer j, real y _ => exact absurd hplace (integer_place_ne hb)
  | real x _, integer k => exact absurd hplace.symm (integer_place_ne ha)
  | real (.finite s u hu) _, real (.finite t v hv) _ =>
    have hzero : u ≠ 0 := fun h => Binary64.toInt?_eq_none_iff.mp ha (h ▸ Nat.dvd_zero _)
    obtain ⟨rfl, rfl⟩ := Binary64.signed_inj hzero (Prod.mk.inj hplace).2
    rfl
  | real (.infinite true) _, real (.infinite true) _ | real (.infinite false) _, real (.infinite false) _ =>
    rfl
  | real (.infinite true) _, real (.infinite false) _ | real (.infinite false) _, real (.infinite true) _ =>
    cases hplace
  | real (.finite ..) _, real (.infinite t) _ => cases t <;> cases hplace
  | real (.infinite s) _, real (.finite ..) _ => cases s <;> cases hplace

theorem text_eq_iff : a.text = b.text ↔ a.value = b.value := by
  rw [← a.text_normal, ← b.text_normal, ← a.value_normal, ← b.value_normal]
  constructor
  · intro h
    rw [a.isNormal_normal.eq_of_text b.isNormal_normal h]
  · intro h
    rw [a.isNormal_normal.eq_of_value b.isNormal_normal h]

end Numeral

/-! Lowercase keeps the texts of numbers. -/

theorem Text.settled_of_isAsciiDigit {c : Char} (h : Json.isAsciiDigit c) : Settled c := by
  simp only [Json.isAsciiDigit, Bool.and_eq_true, decide_eq_true_eq] at h
  have hlow : 48 ≤ c.toNat := h.1
  have hhigh : c.toNat ≤ 57 := h.2
  have hdigit : c = Nat.digitChar (c.toNat - 48) := by
    rw [← Char.ofNat_toNat c]
    interval_cases c.toNat <;> rfl
  rw [hdigit]
  exact (digitChar_facts _ (by omega)).2.2.1

theorem Json.settled_numberChars (negative : Bool) {whole fraction : List Char}
    {exponent : Option (Bool × List Char)} (h : IsNumber whole fraction exponent) :
    ∀ c ∈ numberChars negative whole fraction exponent, Text.Settled c := by
  have hsigns : Text.Settled '-' ∧ Text.Settled '+' ∧ Text.Settled '.' ∧ Text.Settled 'e' := by decide
  have hwhole : ∀ c ∈ whole, Text.Settled c := by
    cases h.whole with
    | zero => decide
    | digits d ds _ hdigits => exact fun c hc => Text.settled_of_isAsciiDigit (hdigits c hc)
  have hfraction (c : Char) (hc : c ∈ fraction) := Text.settled_of_isAsciiDigit (h.fraction c hc)
  unfold numberChars signChars fractionChars
  simp only [List.forall_mem_append]
  refine ⟨?_, hwhole, ?_, ?_⟩
  · split <;> simp [hsigns]
  · split
    · exact List.forall_mem_nil _
    · simpa [hsigns] using hfraction
  · match exponent with
    | none => simp [exponentChars]
    | some (negative, ds) =>
      have hdigits (c : Char) (hc : c ∈ ds) := Text.settled_of_isAsciiDigit ((h.exponent _ rfl).2 c hc)
      cases negative <;> simpa [exponentChars, hsigns] using hdigits

theorem Text.settled_integer (k : ℤ) : ∀ c ∈ (Text.integer k).toList, Settled c := by
  rw [Text.integer, String.toList_ofList, Json.integerChars_eq]
  exact Json.settled_numberChars _ (Json.isNumber_toDigits _)

theorem Binary64.settled_toText (x : Binary64) : ∀ c ∈ x.toText.toList, Text.Settled c := by
  match x with
  | .finite s u h =>
    obtain ⟨whole, fraction, exponent, hnumber, htext, -⟩ := Json.realText_finite Json.plainBuilder s h
    have hchars : (finite s u h).toText.toList = _ := htext
    rw [hchars]
    exact Json.settled_numberChars s hnumber
  | .infinite true | .infinite false | .nan => decide

@[simp] theorem Numeral.lower_text (n : Numeral) : Text.lower n.text = n.text := by
  have hsettled : ∀ c ∈ n.text.toList, Text.Settled c := by
    match n with
    | integer k => exact Text.settled_integer k
    | real x _ =>
      rw [text]
      split
      · exact Text.settled_integer _
      · exact x.settled_toText
  rw [Text.lower, Text.lowerChars_eq_self_iff.mpr hsettled, String.ofList_toList]

/-! Distinct numbers. -/

theorem length_eraseDups_map {α β γ : Type} [DecidableEq β] [DecidableEq γ] {f : α → β}
    {g : α → Option γ} {as : List α} (hsome : ∀ a ∈ as, (g a).isSome)
    (h : ∀ a ∈ as, ∀ b ∈ as, f a = f b ↔ g a = g b) :
    (as.map f).eraseDups.length = (as.filterMap g).toFinset.card := by
  rw [(eraseDups_perm_dedup _).length_eq, ← List.card_toFinset]
  induction as with
  | nil => rfl
  | cons a as ih =>
    rw [List.forall_mem_cons] at hsome
    obtain ⟨v, hv⟩ := Option.isSome_iff_exists.mp hsome.1
    have hrest := ih hsome.2 fun b hb c hc =>
      h b (List.mem_cons_of_mem a hb) c (List.mem_cons_of_mem a hc)
    have hmem : f a ∈ (as.map f).toFinset ↔ v ∈ (as.filterMap g).toFinset := by
      rw [List.mem_toFinset, List.mem_toFinset, List.mem_map, List.mem_filterMap, ← hv]
      exact exists_congr fun b => and_congr_right fun hb =>
        h b (List.mem_cons_of_mem a hb) a List.mem_cons_self
    rw [List.map_cons, List.filterMap_cons_some hv, List.toFinset_cons, List.toFinset_cons,
      Finset.card_insert_eq_ite, Finset.card_insert_eq_ite, hrest]
    simp only [hmem]

namespace Cell

variable {a b : Cell}

def exactNumber? (c : Cell) : Option (WithBot (WithTop ℚ)) := c.numeral?.map Numeral.value

def TiesWith (a b : Cell) : Prop :=
  ∃ k l, a.sortKey = .ok k ∧ b.sortKey = .ok l ∧ k.order l = .eq

theorem asText_of_numeral {c : Cell} {n : Numeral} (h : c.numeral? = some n) :
    c.isMissing = false ∧ c.asText = n.text := by
  obtain ⟨hmissing, hflag, -⟩ := unmixed_of_numeral h
  refine ⟨hmissing, ?_⟩
  unfold asText
  rw [hmissing, hflag, h]
  rfl

@[simp] theorem isSome_exactNumber? {c : Cell} : c.exactNumber?.isSome ↔ c.kind? = some .number := by
  rw [exactNumber?, Option.isSome_map, Option.isSome_iff_exists]
  exact ⟨fun ⟨_, h⟩ => (key_of_numeral h).1, numeral?_of_kind⟩

theorem asText_eq_iff_exactNumber (ha : a.kind? = some .number) (hb : b.kind? = some .number) :
    a.asText = b.asText ↔ a.exactNumber? = b.exactNumber? := by
  obtain ⟨m, hm⟩ := numeral?_of_kind ha
  obtain ⟨n, hn⟩ := numeral?_of_kind hb
  rw [(asText_of_numeral hm).2, (asText_of_numeral hn).2, exactNumber?, exactNumber?, hm, hn, Option.map_some,
    Option.map_some, Option.some_inj]
  exact Numeral.text_eq_iff

theorem tiesWith_iff_exactNumber (ha : a.kind? = some .number) (hb : b.kind? = some .number) :
    a.TiesWith b ↔ a.exactNumber? = b.exactNumber? := by
  obtain ⟨m, hm⟩ := numeral?_of_kind ha
  obtain ⟨n, hn⟩ := numeral?_of_kind hb
  have hkeys : a.TiesWith b ↔ (SortKey.number m).order (.number n) = .eq := by
    simp [TiesWith, (key_of_numeral hm).2, (key_of_numeral hn).2]
  rw [hkeys, exactNumber?, exactNumber?, hm, hn, Option.map_some, Option.map_some, Option.some_inj]
  exact Numeral.order_eq_iff_value

theorem uniqueCount_numbers {cells : List Cell} (h : ∀ c ∈ cells, c.kind? = some .number)
    (hwritable : ∀ c ∈ cells, c.isWritable) :
    uniqueCount cells = .ok (cells.filterMap exactNumber?).toFinset.card := by
  rw [uniqueCount, if_pos (List.all_eq_true.mpr hwritable), length_frequencies]
  exact congrArg Except.ok (length_eraseDups_map (fun c hc => isSome_exactNumber?.mpr (h c hc))
    fun a ha b hb => asText_eq_iff_exactNumber (h a ha) (h b hb))

end Cell

namespace Row

variable {r : Row} {field : String}

theorem passesAll_number {a : Cell} (ha : a.kind? = some .number)
    (hr : (r.lookup field).kind? = some .number) :
    r.passesAll [(field, .equals (some a.asText))] = true ↔
      (r.lookup field).exactNumber? = a.exactNumber? := by
  obtain ⟨m, hm⟩ := Cell.numeral?_of_kind ha
  obtain ⟨n, hn⟩ := Cell.numeral?_of_kind hr
  obtain ⟨hpresent, htext⟩ := Cell.asText_of_numeral hn
  have hlower (c : Cell) (k : Numeral) (hk : c.numeral? = some k) : Text.lower c.asText = c.asText := by
    rw [(Cell.asText_of_numeral hk).2, Numeral.lower_text]
  rw [← Cell.asText_eq_iff_exactNumber hr ha, passesAll, List.all_cons, List.all_nil, Bool.and_true]
  unfold passes
  simp [equalityText, hpresent, hlower _ m hm, hlower _ n hn]

end Row

/-- Numbers by their texts. Two cells with numbers, whole or not and however they are stored, have one
text just when they stand at one place in the order of rows, which is when they hold one number. So the
number of distinct texts among such cells is the number of distinct numbers, and of the rows with a
number in a field those pass a filter for a number's text that have the number there. A row whose cell can
be found and has a text is tested so. -/
theorem Cell.numbers_by_text :
    (∀ a b : Cell, a.kind? = some .number → b.kind? = some .number →
      (a.asText = b.asText ↔ a.TiesWith b) ∧ (a.TiesWith b ↔ a.exactNumber? = b.exactNumber?)) ∧
    (∀ cells : List Cell, (∀ c ∈ cells, c.kind? = some .number ∧ c.isWritable) →
      uniqueCount cells = .ok (cells.filterMap Cell.exactNumber?).toFinset.card) ∧
    (∀ (a : Cell) (r : Row) (field : String), a.kind? = some .number →
      ((r.lookup field).kind? = some .number ∧ r.passesAll [(field, .equals (some a.asText))] = true ↔
        (r.lookup field).exactNumber? = a.exactNumber?)) ∧
    (∀ (r : Row) (field : String) (c : Condition), r.fields.isBarred field = false →
      (r.lookup field).isWritable → r.testAll [(field, c)] = .ok (r.passesAll [(field, c)])) := by
  refine ⟨fun a b ha hb => ?_, fun cells h => ?_, fun a r field ha => ?_, fun r field c hfree htext => ?_⟩
  · have hkey := tiesWith_iff_exactNumber ha hb
    exact ⟨(asText_eq_iff_exactNumber ha hb).trans hkey.symm, hkey⟩
  · exact uniqueCount_numbers (fun c hc => (h c hc).1) fun c hc => (h c hc).2
  · constructor
    · rintro ⟨hr, hpasses⟩
      exact (Row.passesAll_number ha hr).mp hpasses
    · intro hsame
      have hr : (r.lookup field).kind? = some .number := by
        rw [← isSome_exactNumber?, hsame, isSome_exactNumber?]
        exact ha
      exact ⟨hr, (Row.passesAll_number ha hr).mpr hsame⟩
  · exact Row.testAll_of_found (List.forall_mem_singleton.mpr hfree)
      (List.forall_mem_singleton.mpr fun _ => htext)

/-- The two zeros, of which only one is an integer, are one number, and infinity is another. -/
theorem Cell.numbers_by_text_zero :
    (Cell.integer 0).asText = (Cell.real (.zero true)).asText ∧
    uniqueCount [.integer 0, .real (.zero true), .real (.infinite true)] = .ok 2 ∧
    (⟨"r", .named [("n", .real (.zero true))], .epoch, none⟩ : Row).testAll
      [("n", .equals (some (Cell.integer 0).asText))] = .ok true := by
  obtain ⟨htext, hcount, hfilter, htest⟩ := numbers_by_text
  have hinteger : (Cell.integer 0).exactNumber? = some (Numeral.integer 0).value := rfl
  have hzero : (Cell.real (.zero true)).exactNumber? = (Cell.integer 0).exactNumber? :=
    congrArg some (Numeral.value_of_toInt? (by decide +kernel) rfl)
  have hinfinite : (Cell.real (.infinite true)).exactNumber? = some ⊥ := rfl
  have hkinds : ∀ c ∈ [Cell.integer 0, .real (.zero true), .real (.infinite true)],
      c.kind? = some .number ∧ c.isWritable := by
    decide
  refine ⟨?_, ?_, ?_⟩
  · obtain ⟨hiff, hties⟩ := htext (.integer 0) (.real (.zero true)) rfl rfl
    exact hiff.mpr (hties.mpr hzero.symm)
  · rw [hcount _ hkinds, List.filterMap_cons_some hinteger,
      List.filterMap_cons_some (hzero.trans hinteger), List.filterMap_cons_some hinfinite]
    simp [Numeral.value]
  · rw [htest _ _ _ (by decide) (by decide)]
    exact congrArg Except.ok
      ((hfilter (.integer 0) ⟨"r", .named [("n", .real (.zero true))], .epoch, none⟩ "n" rfl).mpr hzero).2

end PlainSheets
