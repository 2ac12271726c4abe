import PlainSheets.Proofs.Binary64.Shortest
import PlainSheets.Proofs.Text.Digits
import PlainSheets.Json.Reader
import Mathlib.Data.List.TakeWhile

/-!
Numbers in JSON text. A number is read as far as its written form goes, whatever follows it there;
an integer comes back as long as it is not too long, and a double precision number always does.
-/
namespace PlainSheets

theorem isShort_iff {n : Int} : IsShort n ↔ n.natAbs < 10 ^ maxIntegerDigits := by
  constructor
  · intro h
    calc n.natAbs = Json.natOfDigits (Nat.toDigits 10 n.natAbs) := (Text.natOfDigits_toDigits _).symm
      _ < 10 ^ (Nat.toDigits 10 n.natAbs).length := Text.natOfDigits_lt (Text.isAsciiDigit_toDigits _)
      _ ≤ 10 ^ maxIntegerDigits := Nat.pow_le_pow_right (by decide) h
  · exact Nat.toDigits_length 10 _ _ (by decide)

theorem IsShort.mono {n m : Int} (h : IsShort n) (hle : m.natAbs ≤ n.natAbs) : IsShort m :=
  isShort_iff.mpr (Nat.lt_of_le_of_lt hle (isShort_iff.mp h))

namespace Json

/-- Whether a number before this text has come to its end. -/
def Stops (rest : List Char) : Prop :=
  ∀ c, rest.head? = some c → ¬ isAsciiDigit c ∧ c ≠ '.' ∧ c ≠ 'e' ∧ c ≠ 'E'

theorem stops_nil : Stops [] := by simp [Stops]

theorem takeWhile_digits {ds rest : List Char} (hds : ∀ d ∈ ds, isAsciiDigit d)
    (hrest : ∀ c, rest.head? = some c → ¬ isAsciiDigit c) :
    (ds ++ rest).takeWhile isAsciiDigit = ds := by
  rw [List.takeWhile_append_of_pos hds]
  cases rest with
  | nil => simp
  | cons c rest =>
    have hc := hrest c rfl
    simp [hc]

/-- The digits of a whole part: zero alone, or a first digit other than zero. -/
inductive IsWhole : List Char → Prop where
  | zero : IsWhole ['0']
  | digits (d : Char) (ds : List Char) (hzero : d ≠ '0') (h : ∀ c ∈ d :: ds, isAsciiDigit c) :
      IsWhole (d :: ds)

theorem IsWhole.wholeDigits_append {whole rest : List Char} (h : IsWhole whole)
    (hrest : ∀ c, rest.head? = some c → ¬ isAsciiDigit c) :
    wholeDigits (whole ++ rest) = whole := by
  cases h with
  | zero => rfl
  | digits d ds hzero hdigits =>
    rw [List.cons_append, wholeDigits, ← List.cons_append]
    · exact takeWhile_digits hdigits hrest
    · rintro _ heq
      exact hzero (List.cons.inj heq).1

theorem IsWhole.isEmpty {whole : List Char} (h : IsWhole whole) : whole.isEmpty = false := by
  cases h <;> rfl

theorem isWhole_toDigits (n : Nat) : IsWhole (Nat.toDigits 10 n) := by
  rcases Nat.eq_zero_or_pos n with rfl | hn
  · exact .zero
  · obtain ⟨d, ds, hds, hzero⟩ := Text.head_toDigits hn
    rw [hds]
    exact .digits d ds hzero (hds ▸ Text.isAsciiDigit_toDigits n)

/-! Written forms by their parts. -/

def signChars (negative : Bool) : List Char := if negative then ['-'] else []

def fractionChars (fraction : List Char) : List Char :=
  if fraction.isEmpty then [] else '.' :: fraction

def exponentChars : Option (Bool × List Char) → List Char
  | none => []
  | some (negative, ds) => 'e' :: (if negative then '-' else '+') :: ds

def exponentValue : Option (Bool × List Char) → Option Int :=
  Option.map fun e => if e.1 then -(natOfDigits e.2 : Int) else natOfDigits e.2

theorem takeMinus_signChars (negative : Bool) {cs : List Char} (hcs : cs.head? ≠ some '-') :
    takeMinus (signChars negative ++ cs) = (negative, cs) := by
  cases negative with
  | true => rfl
  | false =>
    rw [signChars]
    cases cs with
    | nil => rfl
    | cons c cs =>
      have hc : c ≠ '-' := by simpa using hcs
      simp only [Bool.false_eq_true, if_false, List.nil_append]
      rw [takeMinus]
      rintro _ heq
      exact hc (List.cons.inj heq).1

theorem readFraction_fractionChars {fraction rest : List Char}
    (hfraction : ∀ c ∈ fraction, isAsciiDigit c)
    (hrest : ∀ c, rest.head? = some c → ¬ isAsciiDigit c ∧ c ≠ '.') :
    readFraction (fractionChars fraction ++ rest) = (fraction, rest) := by
  cases hempty : fraction.isEmpty with
  | true =>
    rw [fractionChars, hempty, List.isEmpty_iff.mp hempty]
    cases rest with
    | nil => rfl
    | cons c rest =>
      have hc := (hrest c rfl).2
      simp only [if_true, List.nil_append]
      rw [readFraction]
      rintro _ heq
      exact hc (List.cons.inj heq).1
  | false =>
    simp only [fractionChars, hempty, Bool.false_eq_true, if_false, List.cons_append, readFraction,
      takeWhile_digits hfraction fun c hc => (hrest c hc).1, List.drop_left]

theorem readExponent_exponentChars {exponent : Option (Bool × List Char)} {rest : List Char}
    (hexponent : ∀ e, exponent = some e → e.2 ≠ [] ∧ ∀ c ∈ e.2, isAsciiDigit c)
    (hrest : Stops rest) :
    readExponent (exponentChars exponent ++ rest) =
      (exponentValue exponent).map (·, rest) := by
  cases exponent with
  | none =>
    cases rest with
    | nil => rfl
    | cons c rest =>
      obtain ⟨-, -, hlower, hupper⟩ := hrest c rfl
      simp [exponentChars, exponentValue, readExponent, hlower, hupper]
  | some e =>
    obtain ⟨negative, ds⟩ := e
    obtain ⟨hne, hds⟩ := hexponent _ rfl
    have htake := takeWhile_digits hds fun c hc => (hrest c hc).1
    have hempty : ds.isEmpty = false := by simpa using hne
    cases negative with
    | true =>
      simp [exponentChars, exponentValue, readExponent, Binary64.takeSign, htake, hempty]
    | false =>
      simp [exponentChars, exponentValue, readExponent, Binary64.takeSign, htake, hempty]

def numberChars (negative : Bool) (whole fraction : List Char)
    (exponent : Option (Bool × List Char)) :
    List Char :=
  signChars negative ++ (whole ++ (fractionChars fraction ++ exponentChars exponent))

/-- The parts of a number that have the form they must have. -/
structure IsNumber (whole fraction : List Char) (exponent : Option (Bool × List Char)) : Prop where
  whole : IsWhole whole
  fraction : ∀ c ∈ fraction, isAsciiDigit c
  exponent : ∀ e, exponent = some e → e.2 ≠ [] ∧ ∀ c ∈ e.2, isAsciiDigit c

theorem IsWhole.exists_head {whole : List Char} (h : IsWhole whole) :
    ∃ d ds, whole = d :: ds ∧ isAsciiDigit d := by
  cases h with
  | zero => exact ⟨'0', [], rfl, rfl⟩
  | digits d ds _ hdigits => exact ⟨d, ds, rfl, hdigits d List.mem_cons_self⟩

variable {α : Type} (b : Builder α)

theorem readNumber_numberChars (negative : Bool) {whole fraction rest : List Char}
    {exponent : Option (Bool × List Char)} (h : IsNumber whole fraction exponent)
    (hrest : Stops rest) :
    readNumber b (numberChars negative whole fraction exponent ++ rest) =
      (numberOf b negative whole fraction (exponentValue exponent)).map (·, rest) := by
  have htail : ∀ c, (exponentChars exponent ++ rest).head? = some c →
      ¬ isAsciiDigit c ∧ c ≠ '.' := by
    intro c hc
    cases exponent with
    | none => exact ⟨(hrest c hc).1, (hrest c hc).2.1⟩
    | some e =>
      obtain rfl : 'e' = c := by simpa [exponentChars] using hc
      decide
  have hafter : ∀ c, (fractionChars fraction ++ (exponentChars exponent ++ rest)).head? = some c →
      ¬ isAsciiDigit c := by
    intro c hc
    unfold fractionChars at hc
    split at hc
    · exact (htail c hc).1
    · obtain rfl : '.' = c := by simpa using hc
      decide
  have hminus : (whole ++ (fractionChars fraction ++ (exponentChars exponent ++ rest))).head? ≠
      some '-' := by
    obtain ⟨d, ds, rfl, hd⟩ := h.whole.exists_head
    simp only [List.cons_append, List.head?_cons, ne_eq, Option.some.injEq]
    rintro rfl
    exact absurd hd (by decide)
  unfold readNumber numberChars
  simp only [List.append_assoc, takeMinus_signChars negative hminus,
    h.whole.wholeDigits_append hafter, h.whole.isEmpty, Bool.false_eq_true, if_false,
    List.drop_left, readFraction_fractionChars h.fraction htail,
    readExponent_exponentChars h.exponent hrest]
  cases exponent <;> rfl

theorem afterWord_eq_none (word : String) (c : Char) {cs : List Char}
    (h : word.toList.head?.all (· ≠ c)) (hword : word.toList ≠ []) :
    afterWord word (c :: cs) = none := by
  unfold afterWord
  cases hw : word.toList with
  | nil => exact absurd hw hword
  | cons w ws =>
    rw [hw] at h
    have hne : w ≠ c := by simpa using h
    simp [hne]

theorem ne_of_isAsciiDigit {c d : Char} (hc : ¬ isAsciiDigit c) (hd : isAsciiDigit d) : c ≠ d :=
  fun heq => hc (heq ▸ hd)

theorem readScalar_number (negative : Bool) {d : Char} (hd : isAsciiDigit d) (cs : List Char) :
    readScalar b (signChars negative ++ d :: cs) =
      readNumber b (signChars negative ++ d :: cs) := by
  have hne (c : Char) (hc : ¬ isAsciiDigit c) : c ≠ d := ne_of_isAsciiDigit hc hd
  cases negative with
  | true =>
    have hI := hne 'I' (by decide)
    have hword : afterWord "-Infinity" ('-' :: d :: cs) = none := by
      simp [afterWord, hI]
    simp only [signChars, if_true, List.cons_append, List.nil_append]
    unfold readScalar
    simp only [hword, afterWord_eq_none "null" '-' (by decide) (by decide),
      afterWord_eq_none "true" '-' (by decide) (by decide),
      afterWord_eq_none "false" '-' (by decide) (by decide),
      afterWord_eq_none "NaN" '-' (by decide) (by decide),
      afterWord_eq_none "Infinity" '-' (by decide) (by decide)]
  | false =>
    have hword (word : String) {w : Char} {ws : List Char} (hw : word.toList = w :: ws)
        (hdigit : ¬ isAsciiDigit w) : afterWord word (d :: cs) = none :=
      afterWord_eq_none word d (by simpa [hw] using hne w hdigit) (by simp [hw])
    simp only [signChars, Bool.false_eq_true, if_false, List.nil_append]
    unfold readScalar
    simp only [hword "null" rfl (by decide), hword "true" rfl (by decide),
      hword "false" rfl (by decide), hword "NaN" rfl (by decide),
      hword "Infinity" rfl (by decide), hword "-Infinity" rfl (by decide)]

theorem readScalar_numberChars (negative : Bool) {whole fraction rest : List Char}
    {exponent : Option (Bool × List Char)} (h : IsNumber whole fraction exponent)
    (hrest : Stops rest) :
    readScalar b (numberChars negative whole fraction exponent ++ rest) =
      (numberOf b negative whole fraction (exponentValue exponent)).map (·, rest) := by
  rw [← readNumber_numberChars b negative h hrest]
  obtain ⟨d, ds, rfl, hd⟩ := h.whole.exists_head
  simp only [numberChars, List.append_assoc, List.cons_append]
  exact readScalar_number b negative hd _

/-! Integers. -/

theorem isNumber_toDigits (n : Nat) : IsNumber (Nat.toDigits 10 n) [] none :=
  ⟨isWhole_toDigits n, by simp, by simp⟩

theorem integerChars_eq (n : Int) :
    Text.integerChars n = numberChars (decide (n < 0)) (Nat.toDigits 10 n.natAbs) [] none := by
  by_cases hn : n < 0 <;>
    simp [Text.integerChars, numberChars, signChars, fractionChars, exponentChars, hn]

def integerValue (n : Int) : Except Failure α :=
  let size := (Nat.toDigits 10 n.natAbs).length
  if maxIntegerDigits < size then .error (.integerTooLong (some size)) else .ok (b.integer n)

theorem integerValue_short {n : Int} (h : IsShort n) : integerValue b n = .ok (b.integer n) := by
  unfold integerValue
  rw [if_neg (Nat.not_lt_of_le h)]

theorem readScalar_integer (n : Int) {rest : List Char} (hrest : Stops rest) :
    readScalar b (Text.integerChars n ++ rest) = (integerValue b n).map (·, rest) := by
  rw [integerChars_eq, readScalar_numberChars b _ (isNumber_toDigits _) hrest]
  have hsign : (if decide (n < 0) then -(n.natAbs : Int) else n.natAbs) = n := by
    by_cases hn : n < 0
    · rw [if_pos (by simpa using hn)]
      omega
    · rw [if_neg (by simpa using hn)]
      omega
  simp only [numberOf, integerValue, exponentValue, Option.map_none, Option.isNone_none,
    List.isEmpty_nil, Bool.and_self, if_true, Text.natOfDigits_toDigits, hsign]

/-! Double precision numbers. -/

open Binary64

theorem isAsciiDigit_append {cs ds : List Char} (hcs : ∀ c ∈ cs, isAsciiDigit c)
    (hds : ∀ c ∈ ds, isAsciiDigit c) : ∀ c ∈ cs ++ ds, isAsciiDigit c := by
  intro c hc
  rcases List.mem_append.mp hc with hc | hc
  · exact hcs c hc
  · exact hds c hc

/-- A written form that has the value of a decimal, and a fraction or an exponent to tell it from an
integer. -/
def Writes (cs : List Char) (d : Decimal) : Prop :=
  ∃ whole fraction exponent, cs = numberChars false whole fraction exponent ∧
    IsNumber whole fraction exponent ∧ ((exponent.isNone && fraction.isEmpty) = false) ∧
    Decimal.value ⟨natOfDigits (whole ++ fraction),
      (exponentValue exponent).getD 0 - fraction.length⟩ = d.value

@[simp] theorem natOfDigits_zeros_append (k : Nat) (cs : List Char) :
    natOfDigits (List.replicate k '0' ++ cs) = natOfDigits cs := by
  rw [Text.natOfDigits_append, Text.natOfDigits_zeros, Nat.mul_zero, Nat.zero_add]

@[simp] theorem natOfDigits_append_zeros (cs : List Char) (k : Nat) :
    natOfDigits (cs ++ List.replicate k '0') = natOfDigits cs * 10 ^ k := by
  rw [Text.natOfDigits_append, Text.natOfDigits_zeros, Nat.add_zero, List.length_replicate,
    Nat.mul_comm]

theorem leading_eq (d : Decimal) :
    d.leading = d.exponent + (Nat.toDigits 10 d.digits).length - 1 := rfl

theorem isWhole_take {n : Nat} (hn : 0 < n) (k : Nat) :
    IsWhole ((Nat.toDigits 10 n).take (k + 1)) := by
  obtain ⟨c, cs, hcs, hzero⟩ := Text.head_toDigits hn
  have hdigits := Text.isAsciiDigit_toDigits n
  rw [hcs] at hdigits ⊢
  exact .digits c (cs.take k) hzero fun a ha =>
    hdigits a (List.mem_of_mem_take (i := k + 1) ha)

/-- Smaller than one: zero, the point, and zeros before the digits. -/
theorem writes_small {d : Decimal} (hlead : d.leading < 0) :
    Writes (positional (decimalDigits d.digits) d.leading) d := by
  have hdigits := Text.isAsciiDigit_toDigits d.digits
  refine ⟨['0'], zerosText (-d.leading - 1).toNat ++ Nat.toDigits 10 d.digits, none, ?_, ?_, ?_, ?_⟩
  · simp [positional, hlead, numberChars, signChars, fractionChars, exponentChars, decimalDigits]
  · exact ⟨.zero, isAsciiDigit_append (Text.isAsciiDigit_zeros _) hdigits, by simp⟩
  · simp
  · have hnat : natOfDigits (['0'] ++ (zerosText (-d.leading - 1).toNat ++
        Nat.toDigits 10 d.digits)) = d.digits := by
      rw [show ['0'] = List.replicate 1 '0' from rfl, natOfDigits_zeros_append, zerosText,
        natOfDigits_zeros_append, Text.natOfDigits_toDigits]
    have hexponent : (0 : Int) - (zerosText (-d.leading - 1).toNat ++
        Nat.toDigits 10 d.digits).length = d.exponent := by
      rw [leading_eq] at hlead ⊢
      simp only [zerosText, List.length_append, List.length_replicate]
      omega
    rw [hnat]
    exact congrArg (fun e => Decimal.value ⟨d.digits, e⟩) hexponent

/-- All digits before the point, with zeros behind them. -/
theorem writes_large {d : Decimal} (hd : 0 < d.digits) (hexponent : 0 ≤ d.exponent) :
    Writes (positional (decimalDigits d.digits) d.leading) d := by
  obtain ⟨c, cs, hcs, hzero⟩ := Text.head_toDigits hd
  have hdigits := Text.isAsciiDigit_toDigits d.digits
  have hlength : 0 < (Nat.toDigits 10 d.digits).length := Nat.length_toDigits_pos
  have hlead : ¬ d.leading < 0 := by
    rw [leading_eq]
    omega
  have hzeros : d.leading.toNat + 1 - (Nat.toDigits 10 d.digits).length = d.exponent.toNat := by
    rw [leading_eq]
    omega
  have hsize : (Nat.toDigits 10 d.digits ++ zerosText d.exponent.toNat).length =
      d.leading.toNat + 1 := by
    rw [leading_eq, zerosText, List.length_append, List.length_replicate]
    omega
  refine ⟨Nat.toDigits 10 d.digits ++ zerosText d.exponent.toNat, ['0'], none, ?_, ?_, rfl, ?_⟩
  · simp only [positional, hlead, if_false, decimalDigits, hzeros, hsize, le_refl, if_true]
    rw [← hsize, List.take_length]
    simp [numberChars, signChars, fractionChars, exponentChars]
  · refine ⟨?_, List.forall_mem_singleton.mpr (by decide), by simp⟩
    have hall := isAsciiDigit_append hdigits (Text.isAsciiDigit_zeros d.exponent.toNat)
    rw [hcs, List.cons_append] at hall
    rw [hcs, List.cons_append]
    exact .digits c _ hzero hall
  · have hnat : natOfDigits (Nat.toDigits 10 d.digits ++ zerosText d.exponent.toNat ++ ['0']) =
        d.digits * 10 ^ (d.exponent.toNat + 1) := by
      rw [zerosText, show ['0'] = List.replicate 1 '0' from rfl, natOfDigits_append_zeros,
        natOfDigits_append_zeros,
        Text.natOfDigits_toDigits, Nat.mul_assoc, ← Nat.pow_add]
    have hshift : (0 : Int) - (1 : Nat) = d.exponent - (d.exponent.toNat + 1 : Nat) := by omega
    rw [hnat]
    refine (congrArg (fun e => Decimal.value ⟨_, e⟩) hshift).trans ?_
    exact Decimal.value_shift d.digits (d.exponent.toNat + 1) d.exponent

theorem writes_mixed {d : Decimal} (hd : 0 < d.digits) (hlead : 0 ≤ d.leading)
    (hexponent : d.exponent < 0) :
    Writes (positional (decimalDigits d.digits) d.leading) d := by
  have hdigits := Text.isAsciiDigit_toDigits d.digits
  have hneg : ¬ d.leading < 0 := by omega
  have hlonger : d.leading.toNat + 1 < (Nat.toDigits 10 d.digits).length := by
    rw [leading_eq] at hlead ⊢
    omega
  have hzeros : d.leading.toNat + 1 - (Nat.toDigits 10 d.digits).length = 0 := by omega
  have hfraction : ((Nat.toDigits 10 d.digits).drop (d.leading.toNat + 1)).isEmpty = false := by
    simp only [List.isEmpty_eq_false_iff, ne_eq, List.drop_eq_nil_iff]
    omega
  refine ⟨(Nat.toDigits 10 d.digits).take (d.leading.toNat + 1),
    (Nat.toDigits 10 d.digits).drop (d.leading.toNat + 1), none, ?_, ?_, ?_, ?_⟩
  · simp only [positional, hneg, if_false, decimalDigits, hzeros, zerosText, List.replicate_zero,
      List.append_nil, if_neg (Nat.not_le_of_lt hlonger), numberChars, signChars, fractionChars,
      exponentChars, hfraction, Bool.false_eq_true, List.nil_append]
  · exact ⟨isWhole_take hd _, fun c hc => hdigits c (List.mem_of_mem_drop hc), by simp⟩
  · rw [hfraction]
    rfl
  · have hdifference : (0 : Int) - ((Nat.toDigits 10 d.digits).drop (d.leading.toNat + 1)).length =
        d.exponent := by
      rw [List.length_drop]
      rw [leading_eq] at hlead hlonger ⊢
      omega
    rw [List.take_append_drop, Text.natOfDigits_toDigits]
    exact congrArg (fun e => Decimal.value ⟨d.digits, e⟩) hdifference

theorem writes_positional {d : Decimal} (hd : 0 < d.digits) :
    Writes (positional (decimalDigits d.digits) d.leading) d := by
  by_cases hlead : d.leading < 0
  · exact writes_small hlead
  by_cases hexponent : 0 ≤ d.exponent
  · exact writes_large hd hexponent
  · exact writes_mixed hd (by omega) (by omega)

theorem writes_withExponent {d : Decimal} (hd : 0 < d.digits) :
    Writes (withExponent (decimalDigits d.digits) d.leading) d := by
  obtain ⟨c, cs, hcs, hzero⟩ := Text.head_toDigits hd
  have hdigits := Text.isAsciiDigit_toDigits d.digits
  rw [hcs] at hdigits
  obtain ⟨size, hsizeEq⟩ : ∃ size, zerosText (2 - (Nat.toDigits 10 d.leading.natAbs).length) ++
      Nat.toDigits 10 d.leading.natAbs = size := ⟨_, rfl⟩
  have hsize : natOfDigits size = d.leading.natAbs := by
    rw [← hsizeEq, zerosText, natOfDigits_zeros_append, Text.natOfDigits_toDigits]
  have hvalue : (exponentValue (some (decide (d.leading < 0), size))).getD 0 = d.leading := by
    simp only [exponentValue, Option.map_some, Option.getD_some, hsize]
    by_cases hneg : d.leading < 0
    · rw [if_pos (by simpa using hneg)]
      omega
    · rw [if_neg (by simpa using hneg)]
      omega
  refine ⟨[c], cs, some (decide (d.leading < 0), size), ?_, ?_, rfl, ?_⟩
  · simp only [withExponent, decimalDigits, hcs]
    cases cs <;> simp [numberChars, signChars, fractionChars, exponentChars, ← hsizeEq]
  · refine ⟨.digits c [] hzero fun a ha => hdigits a (by simp_all), fun a ha => hdigits a ?_, ?_⟩
    · exact List.mem_cons_of_mem c ha
    · intro e he
      rw [← Option.some.inj he, ← hsizeEq]
      exact ⟨by simp [Nat.toDigits_ne_nil],
        isAsciiDigit_append (Text.isAsciiDigit_zeros _) (Text.isAsciiDigit_toDigits _)⟩
  · rw [hvalue, List.singleton_append, ← hcs, Text.natOfDigits_toDigits, leading_eq, hcs]
    have hdifference : d.exponent + (c :: cs).length - 1 - (cs.length : Int) = d.exponent := by
      rw [List.length_cons]
      omega
    rw [hdifference]

/-- The text of a finite number is a number as written, and stands for the number. -/
theorem realText_finite (negative : Bool) {u : Nat} (hu : OnGrid u) :
    ∃ whole fraction exponent, IsNumber whole fraction exponent ∧
      realText (.finite negative u hu) = numberChars negative whole fraction exponent ∧
      numberOf b negative whole fraction (exponentValue exponent) =
        .ok (b.real (.finite negative u hu)) := by
  rcases Nat.eq_zero_or_pos u with rfl | hpos
  · refine ⟨['0'], ['0'], none, ⟨.zero, List.forall_mem_singleton.mpr (by decide), by simp⟩,
      ?_, rfl⟩
    cases negative <;>
      simp [realText, Binary64.toText, textIn, signText, numberChars, signChars, fractionChars,
        exponentChars]
  · have hdigits := shortest_digits_pos hu hpos
    have hsign : (signText negative).toList = signChars negative := by cases negative <;> rfl
    have hwrites : ∃ cs, realText (.finite negative u hu) = signChars negative ++ cs ∧
        Writes cs (shortest .double u) := by
      simp only [realText, Binary64.toText, textIn, hpos.ne', if_false, String.toList_append,
        String.toList_ofList, hsign]
      split
      · exact ⟨_, rfl, writes_positional hdigits⟩
      · exact ⟨_, rfl, writes_withExponent hdigits⟩
    obtain ⟨_, htext, whole, fraction, exponent, rfl, hnumber, hreal, hvalue⟩ := hwrites
    have hisNone : (exponentValue exponent).isNone = exponent.isNone := by cases exponent <;> rfl
    refine ⟨whole, fraction, exponent, hnumber, htext, ?_⟩
    rw [numberOf, hisNone, hreal, ofDecimal_shortest negative hu hpos hvalue]
    rfl

theorem readScalar_real (x : Binary64) {rest : List Char} (hrest : Stops rest) :
    readScalar b (realText x ++ rest) = .ok (b.real x, rest) := by
  cases x with
  | nan => simp [readScalar, realText, afterWord]
  | infinite negative => cases negative <;> simp [readScalar, realText, afterWord]
  | finite negative u hu =>
    obtain ⟨whole, fraction, exponent, hnumber, htext, hvalue⟩ := realText_finite b negative hu
    rw [htext, readScalar_numberChars b negative hnumber hrest, hvalue]
    rfl

end Json

end PlainSheets
