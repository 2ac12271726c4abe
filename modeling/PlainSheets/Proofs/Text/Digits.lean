import PlainSheets.Json.Reader
import Mathlib.Data.List.Induction
import Mathlib.Data.Nat.Digits.Defs
import PlainSheets.Text.Digit

/-!
Digits written and read. A number filled up with zeros to a width is a fixed run of digits; the
digits of a number read back as the number and have no zero in front.
-/
namespace PlainSheets.Text

/-- The last digits of a number, as many as the width says. -/
def fixedDigits (base : Nat) : Nat → Nat → List Char
  | 0, _ => []
  | width + 1, n => fixedDigits base width (n / base) ++ [Nat.digitChar (n % base)]

@[simp] theorem length_fixedDigits (base width n : Nat) :
    (fixedDigits base width n).length = width := by
  induction width generalizing n with
  | zero => rfl
  | succ width ih => simp [fixedDigits, ih]

@[simp] theorem fixedDigits_zero (base width : Nat) :
    fixedDigits base width 0 = List.replicate width '0' := by
  induction width with
  | zero => rfl
  | succ width ih =>
    rw [fixedDigits, Nat.zero_div, ih, Nat.zero_mod, List.replicate_succ']
    rfl

theorem replicate_append_toDigits {base : Nat} (hbase : 1 < base) {width n : Nat}
    (hwidth : 0 < width)
    (hn : n < base ^ width) :
    List.replicate (width - (Nat.toDigits base n).length) '0' ++ Nat.toDigits base n =
      fixedDigits base width n := by
  induction width generalizing n with
  | zero => exact absurd hwidth (Nat.lt_irrefl 0)
  | succ width ih =>
    by_cases hlt : n < base
    · rw [Nat.toDigits_of_lt_base hlt, fixedDigits, Nat.div_eq_of_lt hlt, Nat.mod_eq_of_lt hlt,
        fixedDigits_zero]
      rfl
    · have hle : base ≤ n := Nat.le_of_not_lt hlt
      have hquotient : n / base < base ^ width := by
        rw [Nat.div_lt_iff_lt_mul (by omega), ← Nat.pow_succ]
        exact hn
      have hpos : 0 < width := by
        rcases Nat.eq_zero_or_pos width with rfl | h
        · simp at hn
          omega
        · exact h
      rw [Nat.toDigits_of_base_le hbase hle, fixedDigits, ← ih hpos hquotient, List.length_append,
        List.append_assoc]
      congr 2
      simp

theorem mem_fixedDigits {base width n : Nat} (hbase : 0 < base) :
    ∀ c ∈ fixedDigits base width n, ∃ d < base, c = Nat.digitChar d := by
  induction width generalizing n with
  | zero => simp [fixedDigits]
  | succ width ih =>
    intro c hc
    rcases List.mem_append.mp hc with hc | hc
    · exact ih c hc
    · exact ⟨n % base, Nat.mod_lt n hbase, by simpa using hc⟩

/-! Decimal digits. -/

theorem natOfDigits_eq (cs : List Char) : Json.natOfDigits cs = Nat.ofDigitChars 10 cs 0 := by
  rw [Nat.ofDigitChars_eq_foldl]
  rfl

@[simp] theorem natOfDigits_toDigits (n : Nat) : Json.natOfDigits (Nat.toDigits 10 n) = n := by
  rw [natOfDigits_eq, Nat.ofDigitChars_ten_toDigits]

theorem natOfDigits_append (cs ds : List Char) :
    Json.natOfDigits (cs ++ ds) = 10 ^ ds.length * Json.natOfDigits cs + Json.natOfDigits ds := by
  rw [natOfDigits_eq, natOfDigits_eq, natOfDigits_eq, Nat.ofDigitChars_append,
    Nat.ofDigitChars_eq_ofDigitChars_zero]

@[simp] theorem natOfDigits_zeros (n : Nat) : Json.natOfDigits (List.replicate n '0') = 0 := by
  rw [natOfDigits_eq, Nat.ofDigitChars_replicate_zero, Nat.mul_zero]

theorem isAsciiDigit_toDigits (n : Nat) : ∀ c ∈ Nat.toDigits 10 n, Json.isAsciiDigit c :=
  fun _ hc => Nat.isDigit_of_mem_toDigits (by decide) (by decide) hc

theorem isAsciiDigit_zeros (n : Nat) : ∀ c ∈ List.replicate n '0', Json.isAsciiDigit c := by
  intro c hc
  rw [List.eq_of_mem_replicate hc]
  decide

theorem isAsciiDigit_digitChar : ∀ d < 10, Json.isAsciiDigit (Nat.digitChar d) := by decide

theorem isAsciiDigit_fixedDigits (width n : Nat) :
    ∀ c ∈ fixedDigits 10 width n, Json.isAsciiDigit c := by
  intro c hc
  obtain ⟨d, hd, rfl⟩ := mem_fixedDigits (by decide) c hc
  exact isAsciiDigit_digitChar d hd

theorem natOfDigits_digitChar : ∀ d < 10, Json.natOfDigits [Nat.digitChar d] = d := by decide

@[simp] theorem natOfDigits_fixedDigits (width n : Nat) :
    Json.natOfDigits (fixedDigits 10 width n) = n % 10 ^ width := by
  induction width generalizing n with
  | zero => simp [fixedDigits, Json.natOfDigits, Nat.mod_one]
  | succ width ih =>
    rw [fixedDigits, natOfDigits_append, ih, natOfDigits_digitChar _ (Nat.mod_lt n (by decide)),
      Nat.pow_succ', Nat.mod_mul]
    exact Nat.add_comm _ _

theorem natOfDigits_lt {cs : List Char} (h : ∀ c ∈ cs, Json.isAsciiDigit c) :
    Json.natOfDigits cs < 10 ^ cs.length := by
  induction cs with
  | nil => simp [Json.natOfDigits]
  | cons c cs ih =>
    rw [List.forall_mem_cons] at h
    have hfirst : Json.natOfDigits [c] ≤ 9 := by
      have hnine : c ≤ '9' := by
        have hc := h.1
        simp only [Json.isAsciiDigit, Bool.and_eq_true, decide_eq_true_eq] at hc
        exact hc.2
      have hcode : c.toNat ≤ 57 := hnine
      simp only [Json.natOfDigits, List.foldl_cons, List.foldl_nil]
      omega
    have hrest := ih h.2
    have hscaled := Nat.mul_le_mul_left (10 ^ cs.length) hfirst
    rw [← List.singleton_append, natOfDigits_append, List.singleton_append, List.length_cons,
      Nat.pow_succ]
    omega

theorem digitsValue_lt (cs : List Char) : digitsValue cs < 10 ^ cs.length := by
  induction cs using List.reverseRecOn with
  | nil => exact Nat.one_pos
  | append_singleton cs c ih =>
    have hlast := digit_lt c
    rw [digitsValue, List.foldl_append, List.foldl_cons, List.foldl_nil, List.length_append, List.length_singleton, Nat.pow_succ]
    change 10 * digitsValue cs + _ < _
    omega

theorem head_toDigits {n : Nat} (hn : 0 < n) : ∃ c cs, Nat.toDigits 10 n = c :: cs ∧ c ≠ '0' := by
  induction n using Nat.strongRecOn with
  | ind n ih =>
    by_cases hlt : n < 10
    · refine ⟨Nat.digitChar n, [], Nat.toDigits_of_lt_base hlt, ?_⟩
      rw [Ne, Nat.digitChar_eq_zero]
      omega
    · obtain ⟨c, cs, hcs, hc⟩ := ih (n / 10) (by omega) (by omega)
      exact ⟨c, cs ++ [Nat.digitChar (n % 10)],
        by rw [Nat.toDigits_of_base_le (by decide) (by omega), hcs, List.cons_append], hc⟩

end PlainSheets.Text
