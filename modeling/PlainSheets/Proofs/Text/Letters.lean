import PlainSheets.Text.Blank
import PlainSheets.Text.Digit
import PlainSheets.Text.SameLetter
import PlainSheets.Text.Word
import Mathlib.Data.List.Basic

/-!
Single characters: what lowercase keeps, and which classes of characters are apart from each other.
-/
namespace PlainSheets.Text

/-- The characters of a text are looked at one by one, and not all characters that there are. -/
instance decidableForallMem (p : Char → Prop) [DecidablePred p] (cs : List Char) :
    Decidable (∀ c ∈ cs, p c) :=
  List.decidableBAll p cs

namespace CharSet

theorem exists_range {s : CharSet} {n : Nat} (h : s.hasCode n) :
    ∃ r ∈ s, r.1 ≤ n ∧ n ≤ r.2 := by
  induction s with
  | nil => cases h
  | cons r s ih =>
    obtain ⟨first, last⟩ := r
    unfold hasCode at h
    split at h
    · cases h
    · split at h
      · exact ⟨(first, last), List.mem_cons_self, by omega, by assumption⟩
      · obtain ⟨r, hr, hbounds⟩ := ih h
        exact ⟨r, List.mem_cons_of_mem _ hr, hbounds⟩

def misses (low high : Nat) : CharSet → Bool
  | [] => true
  | (first, last) :: s => Nat.blt high first || (Nat.blt last low && misses low high s)

theorem hasCode_of_misses {s : CharSet} {low high n : Nat} (h : misses low high s) (hlow : low ≤ n)
    (hhigh : n ≤ high) : s.hasCode n = false := by
  induction s with
  | nil => rfl
  | cons r s ih =>
    obtain ⟨first, last⟩ := r
    simp only [misses, Bool.or_eq_true, Bool.and_eq_true, Nat.blt_eq] at h
    unfold hasCode
    rcases h with hbefore | ⟨hafter, hrest⟩
    · rw [if_pos (by omega)]
    · rw [if_neg (show ¬ n ≤ last by omega), ih hrest]
      exact ite_self _

theorem not_has {s t : CharSet} (hapart : s.all fun r => misses r.1 r.2 t) {c : Char}
    (hc : s.has c) : t.has c = false := by
  obtain ⟨r, hr, hfirst, hlast⟩ := exists_range hc
  exact hasCode_of_misses (List.all_eq_true.mp hapart r hr) hfirst hlast

end CharSet

theorem not_isWord_of_isBlank {c : Char} (h : isBlank c) : isWord c = false :=
  CharSet.not_has (by decide +kernel) h

/-! Lowercase of one character. -/

namespace CharMap

theorem imageCode_cases (m : CharMap) (n : Nat) :
    m.imageCode n = n ∨ ∃ r ∈ m, ∃ k, n = r.1 + k ∧ n ≤ r.2.1 ∧ k % r.2.2.1 = 0 ∧
      m.imageCode n = r.2.2.2 + k := by
  induction m with
  | nil => exact .inl rfl
  | cons r m ih =>
    obtain ⟨first, last, step, image⟩ := r
    unfold imageCode
    split
    · exact .inl rfl
    · rename_i hfirst
      split
      · rename_i hrow
        simp only [Bool.and_eq_true, decide_eq_true_eq, beq_iff_eq] at hrow
        have hn : n = first + (n - first) := by omega
        exact .inr ⟨_, List.mem_cons_self, n - first, hn, hrow.1, hrow.2, rfl⟩
      · split
        · exact .inl rfl
        · rcases ih with h | ⟨r, hr, hmoved⟩
          · exact .inl h
          · exact .inr ⟨r, List.mem_cons_of_mem _ hr, hmoved⟩

/-- Outside all images only a character itself goes to it. -/
theorem eq_of_image {m : CharMap} {c d : Char} (hpos : 0 < d.toNat)
    (hm : ∀ r ∈ m, d.toNat < r.2.2.2 ∨ r.2.2.2 + (r.2.1 - r.1) < d.toNat) (h : m.image c = d) :
    c = d := by
  unfold image at h
  rcases m.imageCode_cases c.toNat with heq | ⟨r, hr, k, hk, hlast, -, heq⟩
  · rw [heq, Char.ofNat_toNat] at h
    exact h
  · by_cases hvalid : (m.imageCode c.toNat).isValidChar
    · have hcode : d.toNat = r.2.2.2 + k := by
        rw [← heq, ← h, Char.ofNat, dif_pos hvalid]
        rfl
      have hapart := hm r hr
      omega
    · rw [Char.ofNat, dif_neg hvalid] at h
      rw [← h] at hpos
      exact absurd hpos (Nat.lt_irrefl 0)

/-- Whether a map keeps the codes from `low` to `high` in steps. A row that lies between them may pass
them over by its own steps. -/
def keeps (low high step : Nat) : CharMap → Bool
  | [] => true
  | (first, last, stride, _) :: m =>
    Nat.blt high first ||
      ((Nat.blt last low ||
        (stride == 2 && (step == 2 || low == high) && (low + first) % 2 == 1)) && keeps low high step m)

def isFinal (m : CharMap) : Bool :=
  m.all fun (first, last, step, image) => m.keeps image (image + (last - first)) step &&
    (Nat.blt (image + (last - first)) 0xD800 ||
      (Nat.blt 0xDFFF image && Nat.blt (image + (last - first)) 0x110000))

theorem imageCode_of_keeps {m : CharMap} {low high step k : Nat} (h : m.keeps low high step)
    (hk : low + k ≤ high) (hstep : k % step = 0) : m.imageCode (low + k) = low + k := by
  induction m with
  | nil => rfl
  | cons r m ih =>
    obtain ⟨first, last, stride, image⟩ := r
    simp only [keeps, Bool.or_eq_true, Bool.and_eq_true, Nat.blt_eq, beq_iff_eq] at h
    unfold imageCode
    rcases h with hbefore | ⟨hpassed, hrest⟩
    · rw [if_pos (by omega)]
    · have hrow : ¬ (low + k ≤ last ∧ first ≤ low + k ∧ (low + k - first) % stride = 0) := by
        rintro ⟨hlast, hfirst, hmoved⟩
        rcases hpassed with hafter | ⟨⟨htwo, hsteps⟩, hparity⟩
        · omega
        · rw [htwo] at hmoved
          rcases hsteps with hsteps | hsingle
          · rw [hsteps] at hstep
            omega
          · omega
      split
      · rfl
      · split
        · rename_i hmoved
          simp only [Bool.and_eq_true, decide_eq_true_eq, beq_iff_eq] at hmoved
          exact absurd ⟨hmoved.1, by omega, hmoved.2⟩ hrow
        · split
          · rfl
          · exact ih hrest

theorem image_image {m : CharMap} (h : m.isFinal) (c : Char) : m.image (m.image c) = m.image c := by
  unfold image
  rcases m.imageCode_cases c.toNat with heq | ⟨⟨first, last, step, image⟩, hr, k, hk, hlast, hstep,
    heq⟩
  · rw [heq, Char.ofNat_toNat, heq, Char.ofNat_toNat]
  · have hrow := List.all_eq_true.mp h _ hr
    dsimp only at hk hlast hstep heq hrow
    simp only [Bool.and_eq_true, Bool.or_eq_true, Nat.blt_eq] at hrow
    obtain ⟨hkept, hbounds⟩ := hrow
    have hvalid : (image + k).isValidChar := by
      unfold Nat.isValidChar
      omega
    have hcode : (Char.ofNat (image + k)).toNat = image + k := by
      rw [Char.ofNat, dif_pos hvalid]
      rfl
    rw [heq, hcode, imageCode_of_keeps hkept (by omega) hstep]

end CharMap

theorem eq_of_lowerChar {c d : Char} (hlow : d.toNat < 97) (hpos : 0 < d.toNat)
    (h : lowerChar c = d) : c = d :=
  CharMap.eq_of_image hpos (fun r hr => .inl (Nat.lt_of_lt_of_le hlow
    ((by decide +kernel : ∀ r ∈ _, 97 ≤ r.2.2.2) r hr))) h

theorem eq_space_of_sameLetter {c : Char} (h : sameLetter ' ' c) : c = ' ' := by
  unfold sameLetter at h
  have hspace : smallForm ' ' = ' ' := by decide
  rw [hspace] at h
  -- the space has no other form
  generalize hforms : List.lookup ' '.toNat _ = forms at h
  rw [show List.lookup ' '.toNat _ = none by decide] at hforms
  subst hforms
  have hsmall : ' ' = smallForm c := by simpa using h
  unfold smallForm at hsmall
  split at hsmall
  · exact absurd hsmall (by decide)
  · exact eq_of_lowerChar (by decide) (by decide) hsmall.symm

def Settled (c : Char) : Prop := c ≠ capitalSigma ∧ c ≠ dottedCapitalI ∧ lowerChar c = c

instance : DecidablePred Settled := fun _ => inferInstanceAs (Decidable (_ ∧ _ ∧ _))

theorem lowerFrom_eq_self_iff (before cs : List Char) :
    lowerFrom before cs = cs ↔ ∀ c ∈ cs, Settled c := by
  induction cs generalizing before with
  | nil => simp [lowerFrom]
  | cons c cs ih =>
    rw [List.forall_mem_cons, ← ih (c :: before), lowerFrom]
    unfold lowerAt Settled
    by_cases hsigma : c = capitalSigma
    · subst hsigma
      have hforms : finalSigma ≠ capitalSigma ∧ smallSigma ≠ capitalSigma := by decide
      cases endsWord before cs <;> simp [hforms]
    · by_cases hdotted : c = dottedCapitalI
      · subst hdotted
        have hform : 'i' ≠ dottedCapitalI := by decide
        simp [hsigma, hform]
      · simp [hsigma, hdotted]

theorem lowerChars_eq_self_iff {cs : List Char} : lowerChars cs = cs ↔ ∀ c ∈ cs, Settled c :=
  lowerFrom_eq_self_iff [] cs

/-! Digits of numbers. -/

theorem digitChar_facts : ∀ d < 10, isDigit (Nat.digitChar d) ∧ isWord (Nat.digitChar d) ∧
    Settled (Nat.digitChar d) ∧ digit? (Nat.digitChar d) = some d := by
  decide

theorem forall_mem_toDigits {P : Char → Prop} (h : ∀ d < 10, P (Nat.digitChar d)) (n : Nat) :
    ∀ c ∈ Nat.toDigits 10 n, P c := by
  induction n using Nat.strongRecOn with
  | ind n ih =>
    by_cases hlt : n < 10
    · rw [Nat.toDigits_of_lt_base hlt, List.forall_mem_singleton]
      exact h n hlt
    · rw [Nat.toDigits_of_base_le (by decide) (by omega), List.forall_mem_append,
        List.forall_mem_singleton]
      exact ⟨ih (n / 10) (by omega), h _ (Nat.mod_lt n (by decide))⟩

@[simp] theorem digitsValue_toDigits (n : Nat) : digitsValue (Nat.toDigits 10 n) = n := by
  induction n using Nat.strongRecOn with
  | ind n ih =>
    by_cases hlt : n < 10
    · rw [Nat.toDigits_of_lt_base hlt]
      simp [digitsValue, (digitChar_facts n hlt).2.2.2]
    · have hmod : n % 10 < 10 := Nat.mod_lt n (by decide)
      have hrest := ih (n / 10) (by omega)
      unfold digitsValue at hrest ⊢
      rw [Nat.toDigits_of_base_le (by decide) (by omega), List.foldl_append, hrest]
      simp only [List.foldl_cons, List.foldl_nil, (digitChar_facts _ hmod).2.2.2, Option.getD_some]
      omega

end PlainSheets.Text
