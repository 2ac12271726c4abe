import PlainSheets.Proofs.Text.Letters

/-!
Lowercase as a whole text. It is reached in one step, it does not look across a space, and letter by
letter it is the same as the text that it was made of when case is ignored, unless a letter became two.
-/
namespace PlainSheets.Text

/-! Twice is once. -/

@[simp] theorem lowerChar_lowerChar (c : Char) : lowerChar (lowerChar c) = lowerChar c :=
  CharMap.image_image (by decide +kernel) c

theorem settled_lowerChar {c : Char} (h : c ≠ dottedCapitalI) : Settled (lowerChar c) := by
  refine ⟨?_, ?_, lowerChar_lowerChar c⟩
  · intro hsigma
    have hkept := lowerChar_lowerChar c
    rw [hsigma] at hkept
    exact absurd hkept (by decide)
  · intro hdotted
    exact h (CharMap.eq_of_image (by decide) (by decide +kernel) hdotted)

theorem settled_of_mem_lowerFrom {d : Char} (before cs : List Char) (h : d ∈ lowerFrom before cs) :
    Settled d := by
  have hforms : Settled finalSigma ∧ Settled smallSigma ∧ Settled 'i' ∧ Settled dotAbove := by
    decide
  induction cs generalizing before with
  | nil => cases h
  | cons c cs ih =>
    rw [lowerFrom, List.mem_append] at h
    rcases h with h | h
    · unfold lowerAt at h
      split at h
      · rw [List.mem_singleton] at h
        subst h
        split
        · exact hforms.1
        · exact hforms.2.1
      · split at h
        · rcases List.mem_pair.mp h with rfl | rfl
          · exact hforms.2.2.1
          · exact hforms.2.2.2
        · rename_i hdotted
          rw [List.mem_singleton.mp h]
          exact settled_lowerChar hdotted
    · exact ih (c :: before) h

@[simp] theorem lowerChars_lowerChars (cs : List Char) : lowerChars (lowerChars cs) = lowerChars cs :=
  lowerChars_eq_self_iff.mpr fun _ h => settled_of_mem_lowerFrom [] cs h

/-! Parts of a text. A sigma looks at the letters around it, but never beyond a space. -/

@[simp] theorem meetsCased_space (rest : List Char) : meetsCased (' ' :: rest) = false := by
  rw [meetsCased, if_neg (by decide)]
  decide

@[simp] theorem meetsCased_append_space (cs rest : List Char) :
    meetsCased (cs ++ ' ' :: rest) = meetsCased cs := by
  induction cs with
  | nil => exact meetsCased_space rest
  | cons c cs ih => rw [List.cons_append, meetsCased, meetsCased, ih]

@[simp] theorem endsWord_append_space (before far after rest : List Char) :
    endsWord (before ++ ' ' :: far) (after ++ ' ' :: rest) = endsWord before after := by
  unfold endsWord
  rw [meetsCased_append_space, meetsCased_append_space]

theorem lowerFrom_settled {cs : List Char} (h : ∀ c ∈ cs, Settled c) (before rest : List Char) :
    lowerFrom before (cs ++ rest) = cs ++ lowerFrom (cs.reverse ++ before) rest := by
  induction cs generalizing before with
  | nil => rfl
  | cons c cs ih =>
    rw [List.forall_mem_cons] at h
    obtain ⟨⟨hsigma, hdotted, hkept⟩, hrest⟩ := h
    rw [List.cons_append, lowerFrom, lowerAt, if_neg hsigma, if_neg hdotted, hkept, ih hrest]
    simp

/-- A part between spaces becomes what it becomes alone. -/
theorem lowerFrom_between_spaces (before far cs rest : List Char) :
    lowerFrom (before ++ ' ' :: far) (cs ++ ' ' :: rest) =
      lowerFrom before cs ++ lowerFrom (cs.reverse ++ before ++ ' ' :: far) (' ' :: rest) := by
  induction cs generalizing before with
  | nil => rfl
  | cons c cs ih =>
    have hat : lowerAt (before ++ ' ' :: far) c (cs ++ ' ' :: rest) = lowerAt before c cs := by
      unfold lowerAt
      rw [endsWord_append_space]
    have hrest := ih (c :: before)
    rw [List.cons_append] at hrest
    rw [List.cons_append, lowerFrom, lowerFrom, hat, hrest]
    simp

/-! The same letters. -/

theorem sameLetter_lowerChar {c : Char} (h : c ≠ dottedCapitalI) : sameLetter (lowerChar c) c := by
  have hsmall : smallForm (lowerChar c) = smallForm c := by
    unfold smallForm
    rw [if_neg (settled_lowerChar h).2.1, if_neg h, lowerChar_lowerChar]
  simp [sameLetter, hsmall]

theorem startsAs_lowerFrom {cs : List Char} (h : dottedCapitalI ∉ cs) (before : List Char) :
    startsAs (lowerFrom before cs) cs := by
  induction cs generalizing before with
  | nil => rfl
  | cons c cs ih =>
    rw [List.mem_cons, not_or] at h
    have hrest := ih h.2 (c :: before)
    obtain ⟨d, hd, hsame⟩ : ∃ d, lowerAt before c cs = [d] ∧ sameLetter d c := by
      unfold lowerAt
      split
      · rename_i hsigma
        subst hsigma
        have hforms : sameLetter finalSigma capitalSigma ∧ sameLetter smallSigma capitalSigma := by
          decide
        split
        · exact ⟨finalSigma, rfl, hforms.1⟩
        · exact ⟨smallSigma, rfl, hforms.2⟩
      · rw [if_neg (Ne.symm h.1)]
        exact ⟨lowerChar c, rfl, sameLetter_lowerChar (Ne.symm h.1)⟩
    rw [lowerFrom, hd]
    simp [startsAs, hsame, hrest]

theorem dotAbove_mem_lowerFrom {cs : List Char} (h : dottedCapitalI ∈ cs) (before : List Char) :
    dotAbove ∈ lowerFrom before cs := by
  induction cs generalizing before with
  | nil => cases h
  | cons c cs ih =>
    rw [lowerFrom, List.mem_append]
    rcases List.mem_cons.mp h with rfl | h
    · have hat : lowerAt before dottedCapitalI cs = ['i', dotAbove] := rfl
      simp [hat]
    · exact .inr (ih h (c :: before))

theorem occursIn_of_startsAs {part cs : List Char} (h : startsAs part cs) : occursIn part cs := by
  cases cs with
  | nil => exact h
  | cons c cs => simp [occursIn, h]

/-- A text has its lowercase in it. A dotted capital I becomes two characters, of which the second is no
part of a word. -/
theorem lowerChars_occursIn {cs : List Char} (h : dotAbove ∉ lowerChars cs) :
    occursIn (lowerChars cs) cs := by
  apply occursIn_of_startsAs
  apply startsAs_lowerFrom
  intro hdotted
  exact h (dotAbove_mem_lowerFrom hdotted [])

end PlainSheets.Text
