import PlainSheets.Proofs.Text.Digits

/-!
Quoted text. Every character has one written form, and the reader takes that form and nothing else
for it, also where the form is a pair of units.
-/
namespace PlainSheets.Json

open Text (fixedDigits)

theorem hexValue?_digitChar : ∀ d < 16, hexValue? (Nat.digitChar d) = some d := by decide

theorem fixedDigits_four (n : Nat) :
    fixedDigits 16 4 n =
      [Nat.digitChar (n / 4096 % 16), Nat.digitChar (n / 256 % 16), Nat.digitChar (n / 16 % 16),
        Nat.digitChar (n % 16)] := by
  simp [fixedDigits, Nat.div_div_eq_div_mul]

theorem readUnit_fixedDigits {n : Nat} (hn : n < 0x10000) (rest : List Char) :
    readUnit (fixedDigits 16 4 n ++ rest) = some (n, rest) := by
  have hmod (m : Nat) : hexValue? (Nat.digitChar (m % 16)) = some (m % 16) :=
    hexValue?_digitChar _ (Nat.mod_lt m (by decide))
  have hvalue : ((n / 4096 % 16 * 16 + n / 256 % 16) * 16 + n / 16 % 16) * 16 + n % 16 = n := by
    omega
  rw [fixedDigits_four]
  simp [readUnit, hmod, hvalue]

theorem unitEscape_eq {n : Nat} (hn : n < 0x10000) :
    unitEscape n = '\\' :: 'u' :: fixedDigits 16 4 n := by
  rw [unitEscape, Text.replicate_append_toDigits (by decide) (by decide) hn]

def before (c : Char) (read : Except Failure (List Char × List Char)) :
    Except Failure (List Char × List Char) :=
  read.map fun p => (c :: p.1, p.2)

theorem readText_unitEscape (fuel : Nat) {n : Nat} (hn : n < 0x10000) (rest : List Char) :
    readText (fuel + 1) (unitEscape n ++ rest) =
      match readLowUnit n rest with
      | some (c, rest) => before c (readText fuel rest)
      | none => before (loneUnit n) (readText fuel rest) := by
  rw [unitEscape_eq hn]
  simp only [List.cons_append, readText, readUnit_fixedDigits hn]
  cases readLowUnit n rest with
  | none => cases readText fuel rest <;> rfl
  | some p => cases readText fuel p.2 <;> rfl

theorem readLowUnit_of_not_high {n : Nat} (hn : ¬ (0xD800 ≤ n ∧ n < 0xDC00)) (rest : List Char) :
    readLowUnit n rest = none := by
  unfold readLowUnit
  rw [if_neg hn]

theorem readLowUnit_unitEscape {high low : Nat} (hhigh : 0xD800 ≤ high ∧ high < 0xDC00)
    (hlow : 0xDC00 ≤ low ∧ low < 0xE000) (rest : List Char) :
    readLowUnit high (unitEscape low ++ rest) =
      some (Char.ofNat (0x10000 + (high - 0xD800) * 0x400 + (low - 0xDC00)), rest) := by
  have hn : low < 0x10000 := by omega
  rw [unitEscape_eq hn]
  unfold readLowUnit
  rw [if_pos hhigh]
  simp only [List.cons_append, readUnit_fixedDigits hn, if_pos hlow]

theorem toNat_not_half (c : Char) : ¬ (0xD800 ≤ c.toNat ∧ c.toNat < 0xE000) := by
  have hvalid := c.valid
  simp only [UInt32.isValidChar, Nat.isValidChar] at hvalid
  have : c.toNat = c.val.toNat := rfl
  omega

theorem toNat_lt (c : Char) : c.toNat < 0x110000 := by
  have hvalid := c.valid
  simp only [UInt32.isValidChar, Nat.isValidChar] at hvalid
  have : c.toNat = c.val.toNat := rfl
  omega

theorem readText_unit (fuel : Nat) {c : Char} (hc : c.toNat < 0x10000) (rest : List Char) :
    readText (fuel + 1) (unitEscape c.toNat ++ rest) = before c (readText fuel rest) := by
  have hhalf := toNat_not_half c
  rw [readText_unitEscape fuel hc, readLowUnit_of_not_high (by omega), loneUnit, if_neg hhalf,
    Char.ofNat_toNat]

@[simp] theorem readText_codeEscape (fuel : Nat) (c : Char) (rest : List Char) :
    readText (fuel + 1) (codeEscape c ++ rest) = before c (readText fuel rest) := by
  rw [codeEscape]
  split
  · rename_i hc
    exact readText_unit fuel hc rest
  · rename_i hc
    have hlt := toNat_lt c
    have hchar : 0x10000 + (0xD800 + (c.toNat - 0x10000) / 0x400 - 0xD800) * 0x400 +
        (0xDC00 + (c.toNat - 0x10000) % 0x400 - 0xDC00) = c.toNat := by
      omega
    rw [List.append_assoc, readText_unitEscape fuel (by omega),
      readLowUnit_unitEscape (by omega) (by omega), hchar, Char.ofNat_toNat]

theorem readText_simpleEscape (fuel : Nat) {e c : Char} (he : simpleEscape? e = some c)
    (hu : e ≠ 'u') (rest : List Char) :
    readText (fuel + 1) ('\\' :: e :: rest) = before c (readText fuel rest) := by
  simp only [readText, Char.reduceEq, if_false, if_true, he]
  cases readText fuel rest <;> rfl

theorem readText_plain (fuel : Nat) {c : Char} (hquote : c ≠ '"') (hslash : c ≠ '\\')
    (hc : ¬ c.toNat < 0x20) (rest : List Char) :
    readText (fuel + 1) (c :: rest) = before c (readText fuel rest) := by
  rw [readText.eq_def]
  simp only [hquote, hslash, hc, if_false]
  cases readText fuel rest <;> rfl

theorem shortEscapes_read : ∀ p ∈ shortEscapes, simpleEscape? p.2 = some p.1 ∧ p.2 ≠ 'u' := by
  decide

@[simp] theorem readText_escapeChar (asciiOnly : Bool) (fuel : Nat) (c : Char) (rest : List Char) :
    readText (fuel + 1) (escapeChar asciiOnly c ++ rest) = before c (readText fuel rest) := by
  unfold escapeChar
  split
  · rename_i letter hletter
    obtain ⟨before, after, heq, -⟩ := List.lookup_eq_some_iff.mp hletter
    have hmem : (c, letter) ∈ shortEscapes := by simp [heq]
    obtain ⟨hread, hu⟩ := shortEscapes_read (c, letter) hmem
    exact readText_simpleEscape fuel hread hu rest
  · rename_i hnone
    have hne (p : Char × Char) (hp : p ∈ shortEscapes) : c ≠ p.1 := by
      simpa using List.lookup_eq_none_iff.mp hnone p hp
    split
    · exact readText_unit fuel (by omega) rest
    split
    · exact readText_codeEscape fuel c rest
    · rename_i hcontrol _
      exact readText_plain fuel (hne ('"', '"') (by decide)) (hne ('\\', '\\') (by decide)) hcontrol
        rest

theorem unitEscape_ne_nil (n : Nat) : unitEscape n ≠ [] := by
  simp [unitEscape]

theorem escapeChar_ne_nil (asciiOnly : Bool) (c : Char) : escapeChar asciiOnly c ≠ [] := by
  unfold escapeChar
  split
  · simp
  split
  · exact unitEscape_ne_nil _
  split
  · unfold codeEscape
    split
    · exact unitEscape_ne_nil _
    · exact List.append_ne_nil_of_left_ne_nil (unitEscape_ne_nil _) _
  · simp

/-- Any text is read back, whatever follows its closing quote. -/
theorem readText_quote (asciiOnly : Bool) (cs rest : List Char) (fuel : Nat)
    (hfuel : (cs.flatMap (escapeChar asciiOnly) ++ '"' :: rest).length < fuel) :
    readText fuel (cs.flatMap (escapeChar asciiOnly) ++ '"' :: rest) = .ok (cs, rest) := by
  induction cs generalizing fuel with
  | nil =>
    cases fuel with
    | zero => simp at hfuel
    | succ fuel => simp [readText]
  | cons c cs ih =>
    cases fuel with
    | zero => simp at hfuel
    | succ fuel =>
      have hlength := List.length_pos_iff.mpr (escapeChar_ne_nil asciiOnly c)
      rw [List.flatMap_cons, List.append_assoc] at hfuel ⊢
      rw [readText_escapeChar, ih]
      · rfl
      · rw [List.length_append] at hfuel
        omega

end PlainSheets.Json
