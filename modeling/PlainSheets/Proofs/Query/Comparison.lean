import PlainSheets.Proofs.Binary64.Whole
import PlainSheets.Proofs.Cell.SortPlace
import PlainSheets.Proofs.Query.Found

/-!
Comparisons with a whole number. The number of a cell is carried to double precision before it is
compared, while the keys that rows are sorted by keep it exact. Main statement: a row passes just when
its number, as it was carried, is beyond the threshold. That is the order of the keys unless the
threshold stands between an integer and its carried value, which takes an integer of more than 53 bits.
-/
namespace PlainSheets

namespace Comparator

/-- Whether a value is beyond a threshold, on the side that is asked for. -/
def Beyond {α : Type} [LT α] (c : Comparator) (threshold v : α) : Prop :=
  match c with
  | greater => threshold < v
  | less => v < threshold
  | other _ => False

def accepts : Comparator → Ordering → Bool
  | greater, o => o == .gt
  | less, o => o == .lt
  | other _, _ => false

/-- Whether one of two values is beyond a threshold and the other one is not. -/
def Between (c : Comparator) (threshold v w : ℤ) : Prop :=
  match c with
  | greater => min v w ≤ threshold ∧ threshold < max v w
  | less => min v w < threshold ∧ threshold ≤ max v w
  | other _ => False

theorem accepts_iff {α : Type} [LinearOrder α] {v threshold : α} {o : Ordering} (c : Comparator)
    (h : o.Compares v threshold) : c.accepts o = true ↔ c.Beyond threshold v := by
  cases c with
  | greater => exact beq_iff_eq.trans h.eq_gt
  | less => exact beq_iff_eq.trans h.eq_lt
  | other name => exact iff_of_false Bool.false_ne_true id

variable {c : Comparator} {threshold v w : ℤ}

theorem beyond_iff_iff_not_between :
    (c.Beyond threshold v ↔ c.Beyond threshold w) ↔ ¬ c.Between threshold w v := by
  cases c with
  | greater =>
    simp only [Beyond, Between]
    omega
  | less =>
    simp only [Beyond, Between]
    omega
  | other name => exact iff_of_true Iff.rfl id

theorem Between.distance_le (h : c.Between threshold v w) :
    v ≠ w ∧ (threshold - v).natAbs ≤ (w - v).natAbs := by
  cases c <;> simp only [Between] at h <;> omega

end Comparator

namespace Numeral

variable {n : Numeral} {c : Comparator} {N : ℤ}

/-- A number as it is carried to double precision: an integer by its nearest one of 53 significant bits,
if there is a finite one. -/
def carried? : Numeral → Option Numeral
  | integer k => if k.natAbs < Binary64.wholeLimit then some (integer (Binary64.roundInt k)) else none
  | real x h => some (real x h)

theorem carried?_integer {k : ℤ} : (integer k).carried? =
    if k.natAbs < Binary64.wholeLimit then some (integer (Binary64.roundInt k)) else none := by
  rw [carried?]

theorem value_whole (s : Bool) (m : Nat) (h : Binary64.OnGrid (m * Binary64.unit)) {ho} :
    (real (.finite s (m * Binary64.unit) h) ho).value = (integer (Binary64.signed s m)).value := by
  have hsigned : Binary64.signed s (m * Binary64.unit) = Binary64.signed s m * Binary64.unit := by
    unfold Binary64.signed
    split <;> push_cast <;> ring
  simp only [value]
  rw [hsigned, Binary64.ofUnits_whole]

theorem toReal?_cases (n : Numeral) :
    (∃ x h m, n.toReal? = some x ∧ n.carried? = some m ∧ (real x h).value = m.value) ∨
      (n.toReal? = none ∧ n.carried? = none) := by
  match n with
  | integer k =>
    rcases Binary64.ofInt?_cases k with ⟨hlt, h, hreal⟩ | ⟨hge, hreal⟩
    · refine .inl ⟨_, rfl, _, hreal, ?_, value_whole _ _ h⟩
      rw [carried?_integer, if_pos hlt]
      rfl
    · refine .inr ⟨hreal, ?_⟩
      rw [carried?_integer, if_neg (Nat.not_lt.mpr hge)]
  | real x h => exact .inl ⟨x, h, _, rfl, rfl, rfl⟩

theorem toReal?_eq_none_iff :
    n.toReal? = none ↔ ∃ k, n = .integer k ∧ Binary64.wholeLimit ≤ k.natAbs := by
  have hsame : n.toReal? = none ↔ n.carried? = none := by
    rcases n.toReal?_cases with ⟨x, h, m, hreal, hcarried, -⟩ | ⟨hreal, hcarried⟩ <;>
      rw [hreal, hcarried] <;> simp
  rw [hsame]
  cases n <;> simp [carried?]

theorem order_integer (x : Binary64) (h : x.isNaN = false) (N : ℤ) :
    x.compareInt? N = some ((real x h).order (.integer N)) := by
  match x with
  | .finite s u _ => rfl
  | .infinite true => rfl
  | .infinite false => rfl
  | .nan => cases h

theorem holds_iff (x : Binary64) (h : x.isNaN = false) :
    (⟨c, .integer N⟩ : Comparison).holds x = true ↔
      c.Beyond (integer N).value (real x h).value := by
  rw [← c.accepts_iff (order_compares (real x h) (integer N))]
  unfold Comparison.holds Threshold.compare?
  simp only [order_integer x h N]
  cases c <;> rfl

@[simp] theorem beyond_integer_iff {k : ℤ} :
    c.Beyond (integer N).value (integer k).value ↔ c.Beyond N k := by
  have hmono : StrictMono fun k : ℤ => (integer k).value := fun a b h =>
    WithBot.coe_lt_coe.mpr (WithTop.coe_lt_coe.mpr (Int.cast_lt.mpr h))
  cases c with
  | greater => exact hmono.lt_iff_lt
  | less => exact hmono.lt_iff_lt
  | other name => exact Iff.rfl

/-- A threshold can stand between an integer and its nearest one only if the integer has more than 53
bits, and only within one part in 2^53 of it. -/
theorem near_of_between {k : ℤ} (h : c.Between N k (Binary64.roundInt k)) :
    2 ^ 53 < k.natAbs ∧ 2 ^ 53 * (N - k).natAbs ≤ k.natAbs := by
  obtain ⟨hne, hle⟩ := h.distance_le
  constructor
  · by_contra hsmall
    exact hne (Binary64.roundInt_eq_iff.mpr (Binary64.fits_of_le (Nat.not_lt.mp hsmall))).symm
  · have herror := Binary64.roundInt_error k
    omega

theorem carried_beyond_iff {m : Numeral} (hm : n.carried? = some m) :
    (c.Beyond (integer N).value m.value ↔ c.Beyond (integer N).value n.value) ↔
      ∀ k, n = .integer k → ¬ c.Between N k (Binary64.roundInt k) := by
  cases n with
  | real x h =>
    cases hm
    simp
  | integer k =>
    rw [carried?_integer, Option.ite_none_right_eq_some, Option.some_inj] at hm
    rw [← hm.2, beyond_integer_iff, beyond_integer_iff, Comparator.beyond_iff_iff_not_between]
    simp

theorem carried?_nearest {k : ℤ} {m : Numeral} (h : (integer k).carried? = some m) :
    ∃ e, m = .integer e ∧ Binary64.Fits e ∧
      ∀ e', Binary64.Fits e' → (e - k).natAbs ≤ (e' - k).natAbs := by
  rw [carried?_integer, Option.ite_none_right_eq_some, Option.some_inj] at h
  exact ⟨_, h.2.symm, Binary64.fits_roundInt k, fun _ => Binary64.roundInt_nearest⟩

/-- What a comparison with a whole number makes of a number. -/
structure Compared (c : Comparator) (N : ℤ) (n : Numeral) (kept : Bool) : Prop where
  /-- The number decides as it was carried. -/
  kept_iff : kept = true ↔ ∃ m, n.carried? = some m ∧ c.Beyond (integer N).value m.value
  nearest : ∀ k m, n = .integer k → n.carried? = some m → ∃ e, m = .integer e ∧ Binary64.Fits e ∧
    ∀ e', Binary64.Fits e' → (e - k).natAbs ≤ (e' - k).natAbs
  /-- The keys are in the order of the exact values. -/
  key_iff : c.accepts ((SortKey.number n).order (.number (.integer N))) = true ↔
    c.Beyond (integer N).value n.value
  /-- Only integers beyond every finite number are lost. -/
  lost_iff : n.toReal? = none ↔ ∃ k, n = .integer k ∧ Binary64.wholeLimit ≤ k.natAbs
  /-- For the others that is the exact order unless the threshold stands between. -/
  exact_iff : n.toReal? ≠ none →
    ((kept = true ↔ c.Beyond (integer N).value n.value) ↔
      ∀ k, n = .integer k → ¬ c.Between N k (Binary64.roundInt k))
  near : ∀ k, n = .integer k → c.Between N k (Binary64.roundInt k) →
    2 ^ 53 < k.natAbs ∧ 2 ^ 53 * (N - k).natAbs ≤ k.natAbs

theorem compared (c : Comparator) (N : ℤ) (n : Numeral) {kept : Bool}
    (hkept : kept = true ↔ ∃ x, n.toReal? = some x ∧ (⟨c, .integer N⟩ : Comparison).holds x = true) :
    Compared c N n kept where
  kept_iff := by
    rw [hkept]
    rcases n.toReal?_cases with ⟨x, h, m, hreal, hcarried, hvalue⟩ | ⟨hreal, hcarried⟩
    · simp [hreal, hcarried, holds_iff x h, hvalue]
    · simp [hreal, hcarried]
  nearest k m hn hm := carried?_nearest (hn ▸ hm)
  key_iff := c.accepts_iff (n.order_compares (integer N))
  lost_iff := toReal?_eq_none_iff
  exact_iff hsome := by
    rcases n.toReal?_cases with ⟨x, h, m, hreal, hcarried, hvalue⟩ | ⟨hreal, -⟩
    · have hholds : kept = true ↔ c.Beyond (integer N).value m.value := by
        simp [hkept, hreal, holds_iff x h, hvalue]
      rw [hholds]
      exact carried_beyond_iff hcarried
    · exact absurd hreal hsome
  near _ _ := near_of_between

end Numeral

/-! Cells as numbers. -/

namespace Cell

theorem key_of_numeral {c : Cell} {n : Numeral} (h : c.numeral? = some n) :
    c.kind? = some .number ∧ c.sortKey = .ok (.number n) := by
  obtain ⟨hmissing, hflag, -⟩ := unmixed_of_numeral h
  constructor
  · simp [kind?, hmissing, hflag, h]
  · simp [sortKey, hmissing, hflag, h]

theorem numeral?_of_kind {c : Cell} (h : c.kind? = some .number) : ∃ n, c.numeral? = some n := by
  unfold kind? at h
  split at h
  · cases h
  split at h
  · cases h
  split at h
  · rename_i hnumeral
    exact Option.isSome_iff_exists.mp hnumeral
  split at h <;> cases h

end Cell

namespace Row

variable {r : Row} {field : String} {c : Comparison}

theorem passesAll_compare : r.passesAll [(field, .compare c)] = true ↔
    ∃ n, (r.lookup field).numeral? = some n ∧ ∃ x, n.toReal? = some x ∧ c.holds x = true := by
  rw [passesAll, List.all_cons, List.all_nil, Bool.and_true]
  unfold passes Cell.number?
  cases (r.lookup field).numeral? with
  | none => simp
  | some n => cases h : n.toReal? <;> simp [h]

theorem testAll_compare : r.testAll [(field, .compare c)] =
    if r.fields.isBarred field then .error (.integerTooLong none)
    else .ok (r.passesAll [(field, .compare c)]) := by
  split
  · rename_i hbarred
    have hfind : r.find field = .error (.integerTooLong none) :=
      if_pos (List.any_eq_true.mpr ⟨field, List.mem_singleton_self field, hbarred⟩)
    rw [testAll, test, hfind]
    rfl
  · rename_i hfree
    exact testAll_of_found (List.forall_mem_singleton.mpr (Bool.eq_false_of_not_eq_true hfree))
      (List.forall_mem_singleton.mpr fun h => absurd h Bool.false_ne_true)

/-- What a comparison with a whole number makes of a row. A row passes only with a number, and just when
the number is beyond the threshold as it is carried to double precision. In the order of the keys the
number is beyond the threshold just when its exact value is. The two agree on every number that can be
carried, but for integers with the threshold between them and their nearest one of 53 bits. A row is
tested with that result unless a key without a text bars the search. -/
theorem passes_threshold (r : Row) (field : String) (c : Comparator) (N : ℤ) :
    (r.testAll [(field, .compare ⟨c, .integer N⟩)] =
      if r.fields.isBarred field then .error (.integerTooLong none)
      else .ok (r.passesAll [(field, .compare ⟨c, .integer N⟩)])) ∧
    ((∃ n, (r.lookup field).kind? = some .number ∧ (r.lookup field).sortKey = .ok (.number n) ∧
      Numeral.Compared c N n (r.passesAll [(field, .compare ⟨c, .integer N⟩)])) ∨
    ((r.lookup field).kind? ≠ some .number ∧
      r.passesAll [(field, .compare ⟨c, .integer N⟩)] = false)) := by
  refine ⟨testAll_compare, ?_⟩
  by_cases hkind : (r.lookup field).kind? = some .number
  · obtain ⟨n, hn⟩ := Cell.numeral?_of_kind hkind
    refine .inl ⟨n, hkind, (Cell.key_of_numeral hn).2, Numeral.compared c N n ?_⟩
    rw [passesAll_compare]
    simp [hn]
  · refine .inr ⟨hkind, Bool.eq_false_iff.mpr fun hpasses => ?_⟩
    obtain ⟨n, hn, -⟩ := passesAll_compare.mp hpasses
    exact hkind (Cell.key_of_numeral hn).1

def oddRow : Row := ⟨"r", .named [("n", .integer (2 ^ 53 + 1))], .epoch, none⟩

/-- Greater than 2^53, in the order of the keys too, but not as it is carried. -/
theorem passes_threshold_oddRow :
    (oddRow.lookup "n").sortKey = .ok (.number (.integer (2 ^ 53 + 1))) ∧
    Comparator.greater.Beyond (Numeral.integer (2 ^ 53)).value (Numeral.integer (2 ^ 53 + 1)).value ∧
    Comparator.greater.accepts
      ((SortKey.number (.integer (2 ^ 53 + 1))).order (.number (.integer (2 ^ 53)))) = true ∧
    oddRow.testAll [("n", .compare ⟨.greater, .integer (2 ^ 53)⟩)] = .ok false := by
  have hbeyond : Comparator.greater.Beyond (Numeral.integer (2 ^ 53)).value
      (Numeral.integer (2 ^ 53 + 1)).value :=
    Numeral.beyond_integer_iff.mpr (show (2 ^ 53 : ℤ) < 2 ^ 53 + 1 by decide)
  obtain ⟨htest, hcases⟩ := passes_threshold oddRow "n" .greater (2 ^ 53)
  have hfree : oddRow.fields.isBarred "n" = false :=
    Record.isBarred_of_writable (by decide +kernel) _
  rcases hcases with ⟨n, -, hkey, h⟩ | ⟨hkind, -⟩
  · cases hkey
    rw [hfree, if_neg Bool.false_ne_true] at htest
    refine ⟨rfl, hbeyond, h.key_iff.mpr hbeyond, htest.trans (congrArg Except.ok ?_)⟩
    refine Bool.eq_false_iff.mpr fun hpasses => ?_
    have hcarried : (Numeral.integer (2 ^ 53 + 1)).toReal? ≠ none := by
      rw [ne_eq, h.lost_iff]
      rintro ⟨k, hk, hge⟩
      cases hk
      revert hge
      decide +kernel
    have hbetween : Comparator.greater.Between (2 ^ 53) (2 ^ 53 + 1)
        (Binary64.roundInt (2 ^ 53 + 1)) := by
      change min _ _ ≤ _ ∧ _ < max _ _
      decide +kernel
    exact (h.exact_iff hcarried).mp (iff_of_true hpasses hbeyond) _ rfl hbetween
  · exact absurd rfl hkind

end Row

end PlainSheets
