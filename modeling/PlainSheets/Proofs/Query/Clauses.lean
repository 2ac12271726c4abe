import PlainSheets.Proofs.Query.SheetName
import PlainSheets.Proofs.Text.Letters

/-!
Questions of clauses. A clause is words joined by single spaces, and a mark and a space stand before
each clause. What a rule looks for begins and ends within one clause, so it is found by going from
word to word, and a clause that has nothing for a rule is passed over.
-/
namespace PlainSheets.Query

open Text (isWord isDigit)

variable {α : Type}

def spaced (words : List (List Char)) : List Char := words.flatMap fun w => ' ' :: w

def clause : List (List Char) → List Char
  | [] => []
  | w :: words => w ++ spaced words

def IsMark (c : Char) : Prop := c = ',' ∨ c = ';'

def clauses (cs : List (Char × List (List Char))) : List Char :=
  cs.flatMap fun c => c.1 :: ' ' :: clause c.2

def IsBreak (c : Char) : Prop := c = ' ' ∨ IsMark c

def Unbroken (w : List Char) : Prop := w ≠ [] ∧ ∀ c ∈ w, ¬ IsBreak c

def Plain (w : List Char) : Prop := w ≠ [] ∧ ∀ c ∈ w, isWord c

/-- What follows a clause: nothing, or a mark. -/
def Ends (rest : List Char) : Prop := ∀ c ∈ rest.head?, IsMark c

def Breaks (rest : List Char) : Prop := ∀ c ∈ rest.head?, IsBreak c

instance : DecidablePred IsMark := fun _ => inferInstanceAs (Decidable (_ ∨ _))

instance : DecidablePred IsBreak := fun _ => inferInstanceAs (Decidable (_ ∨ _))

instance : DecidablePred Unbroken := fun _ => inferInstanceAs (Decidable (_ ∧ _))

instance : DecidablePred Plain := fun _ => inferInstanceAs (Decidable (_ ∧ _))

variable {words : List (List Char)} {rest : List Char}

@[simp] theorem spaced_nil : spaced [] = [] := rfl

@[simp] theorem spaced_cons (w : List Char) (words : List (List Char)) :
    spaced (w :: words) = ' ' :: (w ++ spaced words) := rfl

@[simp] theorem clause_cons (w : List Char) (words : List (List Char)) :
    clause (w :: words) = w ++ spaced words := rfl

theorem Ends.breaks (h : Ends rest) : Breaks rest := fun c hc => .inr (h c hc)

theorem breaks_spaced (h : Ends rest) : Breaks (spaced words ++ rest) := by
  cases words with
  | nil => exact h.breaks
  | cons w words =>
    intro c hc
    obtain rfl : ' ' = c := by simpa using hc
    exact .inl rfl

theorem not_isWord_of_isBreak {c : Char} (h : IsBreak c) : isWord c = false := by
  rcases h with rfl | rfl | rfl <;> decide

theorem not_isDigit_of_isBreak {c : Char} (h : IsBreak c) : isDigit c = false := by
  rcases h with rfl | rfl | rfl <;> decide

theorem Plain.unbroken {w : List Char} (h : Plain w) : Unbroken w := by
  refine ⟨h.1, ?_⟩
  intro c hc hbreak
  have hword := h.2 c hc
  rw [not_isWord_of_isBreak hbreak] at hword
  cases hword

theorem takeWhile_of_breaks {p : Char → Bool} (hp : ∀ c, IsBreak c → p c = false)
    (h : Breaks rest) : rest.takeWhile p = [] := by
  cases rest with
  | nil => rfl
  | cons c rest => simp [hp c (h c rfl)]

theorem takeWhile_breaks {p : Char → Bool} (hp : ∀ c, IsBreak c → p c = false) (w : List Char)
    (h : Breaks rest) : (w ++ rest).takeWhile p = w.takeWhile p := by
  rw [List.takeWhile_append, takeWhile_of_breaks hp h, List.append_nil]
  split
  · rename_i hall
    exact ((List.takeWhile_prefix p).eq_of_length hall).symm
  · rfl

theorem wordAt_word {w : List Char} (hw : Plain w) (h : Breaks rest) : wordAt (w ++ rest) = w := by
  rw [wordAt, List.takeWhile_append_of_pos hw.2,
    takeWhile_of_breaks (fun c => not_isWord_of_isBreak) h, List.append_nil]

@[simp] theorem wordAt_append_afterWord (cs : List Char) : wordAt cs ++ afterWord cs = cs :=
  List.takeWhile_append_dropWhile

theorem afterWord_word {w : List Char} (hw : Plain w) (h : Breaks rest) :
    afterWord (w ++ rest) = rest := by
  have hsplit := wordAt_append_afterWord (w ++ rest)
  rw [wordAt_word hw h] at hsplit
  exact List.append_cancel_left hsplit

theorem digitsAt?_breaks (w : List Char) (h : Breaks rest) :
    digitsAt? (w ++ rest) = digitsAt? w := by
  unfold digitsAt?
  rw [takeWhile_breaks (fun c => not_isDigit_of_isBreak) w h]

/-! Phrases. A phrase at the break after a word is whole words, and one more word follows them. -/

def wordsAfter? : List (List Char) → List (List Char) → Option (List (List Char))
  | _, [] => none
  | [], t :: ts => some (t :: ts)
  | w :: ws, t :: ts => if w = t then wordsAfter? ws ts else none

def dropPart? (part cs : List Char) : Option (List Char) :=
  if part.isPrefixOf cs then some (cs.drop part.length) else none

theorem after?_eq (p : String) (cs : List Char) : after? p cs = dropPart? p.toList cs := by
  unfold after? dropPart?
  rw [String.length_toList]

@[simp] theorem dropPart?_append (w part cs : List Char) :
    dropPart? (w ++ part) (w ++ cs) = dropPart? part cs := by
  induction w with
  | nil => rfl
  | cons c w ih =>
    rw [← ih]
    simp [dropPart?]

@[simp] theorem dropPart?_cons (c : Char) (part cs : List Char) :
    dropPart? (c :: part) (c :: cs) = dropPart? part cs :=
  dropPart?_append [c] part cs

theorem dropPart?_of_ne {w t : List Char} (hw : ∀ c ∈ w, ¬ IsBreak c) (ht : ∀ c ∈ t, ¬ IsBreak c)
    (hne : w ≠ t) (part : List Char) (h : Breaks rest) :
    dropPart? (w ++ ' ' :: part) (t ++ rest) = none := by
  induction w generalizing t with
  | nil =>
    cases t with
    | nil => exact absurd rfl hne
    | cons d t =>
      have hd : ' ' ≠ d := by
        rintro rfl
        exact ht ' ' List.mem_cons_self (.inl rfl)
      simp [dropPart?, hd]
  | cons c w ih =>
    rw [List.forall_mem_cons] at hw
    cases t with
    | nil =>
      cases rest with
      | nil => rfl
      | cons d rest =>
        have hd : c ≠ d := by
          rintro rfl
          exact hw.1 (h c rfl)
        simp [dropPart?, hd]
    | cons d t =>
      rw [List.forall_mem_cons] at ht
      by_cases hd : c = d
      · subst hd
        rw [List.cons_append, List.cons_append, dropPart?_cons]
        apply ih hw.2 ht.2
        rintro rfl
        exact hne rfl
      · simp [dropPart?, hd]

theorem dropPart?_ends (part : List Char) (h : Ends rest) : dropPart? (' ' :: part) rest = none := by
  cases rest with
  | nil => rfl
  | cons c rest =>
    have hc : ' ' ≠ c := by
      rintro rfl
      rcases h ' ' rfl with h | h <;> cases h
    simp [dropPart?, hc]

theorem dropPart?_spaced {ws ts : List (List Char)} (hws : ∀ w ∈ ws, Unbroken w)
    (hts : ∀ t ∈ ts, Unbroken t) (h : Ends rest) :
    dropPart? (spaced ws ++ [' ']) (spaced ts ++ rest) =
      (wordsAfter? ws ts).map fun after => clause after ++ rest := by
  induction ws generalizing ts with
  | nil =>
    cases ts with
    | nil => exact dropPart?_ends [] h
    | cons t ts => simp [dropPart?, wordsAfter?, clause]
  | cons w ws ih =>
    rw [List.forall_mem_cons] at hws
    cases ts with
    | nil => exact dropPart?_ends _ h
    | cons t ts =>
      rw [List.forall_mem_cons] at hts
      rw [spaced_cons, spaced_cons, List.cons_append, List.cons_append, dropPart?_cons,
        List.append_assoc, List.append_assoc, wordsAfter?]
      by_cases heq : w = t
      · rw [if_pos heq, heq, dropPart?_append, ih hws.2 hts.2]
      · rw [if_neg heq]
        obtain ⟨part, hpart⟩ : ∃ part, spaced ws ++ [' '] = ' ' :: part := by
          cases ws <;> exact ⟨_, rfl⟩
        rw [hpart]
        exact dropPart?_of_ne hws.1.2 hts.1.2 heq part (breaks_spaced h)

theorem dropPart?_clause {w t : List Char} {ws ts : List (List Char)}
    (hws : ∀ v ∈ w :: ws, Unbroken v) (hts : ∀ v ∈ t :: ts, Unbroken v) (h : Ends rest) :
    dropPart? (w ++ (spaced ws ++ [' '])) (t ++ (spaced ts ++ rest)) =
      (wordsAfter? (w :: ws) (t :: ts)).map fun after => clause after ++ rest := by
  rw [← dropPart?_spaced hws hts h, spaced_cons, spaced_cons, List.cons_append, List.cons_append,
    dropPart?_cons, List.append_assoc, List.append_assoc]

def phrase (ws : List String) : String := String.ofList (spaced (ws.map String.toList) ++ [' '])

def phraseAfter? (phrases : List (List String)) (ts : List (List Char)) :
    Option (List (List Char)) :=
  phrases.findSome? fun ws => wordsAfter? (ws.map String.toList) ts

def Phrases (phrases : List (List String)) : Prop :=
  ∀ ws ∈ phrases, ws ≠ [] ∧ ∀ w ∈ ws, Unbroken w.toList

instance : DecidablePred Phrases := fun _ => inferInstanceAs (Decidable (∀ _ ∈ _, _))

theorem afterAny?_phrases {phrases : List (List String)} (hphrases : Phrases phrases)
    {ts : List (List Char)}
    (hts : ∀ t ∈ ts, Unbroken t) (h : Ends rest) :
    afterAny? (phrases.map phrase) (spaced ts ++ rest) =
      (phraseAfter? phrases ts).map fun after => clause after ++ rest := by
  induction phrases with
  | nil => rfl
  | cons ws phrases ih =>
    rw [Phrases, List.forall_mem_cons] at hphrases
    have hws : ∀ w ∈ ws.map String.toList, Unbroken w := List.forall_mem_map.mpr hphrases.1.2
    unfold phraseAfter? at ih ⊢
    rw [List.map_cons, afterAny?, ih hphrases.2, after?_eq, phrase, String.toList_ofList,
      dropPart?_spaced hws hts h, List.findSome?_cons]
    cases wordsAfter? (ws.map String.toList) ts <;> rfl

def EachWord (P : List Char → List (List Char) → Prop) : List (List Char) → Prop
  | [] => True
  | w :: words => P w words ∧ EachWord P words

theorem EachWord.of_suffix {P : List Char → List (List Char) → Prop} {words : List (List Char)}
    (h : ∀ w after, w :: after <:+ words → P w after) : EachWord P words := by
  induction words with
  | nil => exact trivial
  | cons w words ih =>
    refine ⟨h w words (List.suffix_refl _), ih ?_⟩
    intro v after hsuffix
    exact h v after (hsuffix.trans (List.suffix_cons w words))

theorem phraseAfter?_of_short {phrases : List (List String)} (hphrases : Phrases phrases)
    {ts : List (List Char)} (h : ts.length ≤ 1) : phraseAfter? phrases ts = none := by
  rw [phraseAfter?, List.findSome?_eq_none_iff]
  intro ws hws
  match ws, (hphrases ws hws).1, ts, h with
  | w :: ws, _, [], _ => rfl
  | w :: ws, _, [t], _ =>
    rw [List.map_cons, wordsAfter?]
    split <;> cases ws <;> rfl

theorem phraseAfter?_of_ne {phrases : List (List String)} (hphrases : Phrases phrases)
    {t : List Char} (hne : ∀ ws ∈ phrases, ∀ w ∈ ws.head?, w.toList ≠ t) (ts : List (List Char)) :
    phraseAfter? phrases (t :: ts) = none := by
  rw [phraseAfter?, List.findSome?_eq_none_iff]
  intro ws hws
  match ws, hws, (hphrases ws hws).1 with
  | w :: ws, hws, _ => rw [List.map_cons, wordsAfter?, if_neg (hne _ hws w rfl)]

/-! A search that is given each word. -/

theorem firstAtWordFrom_inside (read : List Char → List Char → Option α) {w : List Char}
    (hw : ∀ c ∈ w, isWord c) (h : Breaks rest) :
    firstAtWordFrom read true (w ++ rest) = firstAtWord read rest := by
  induction w with
  | nil =>
    cases rest with
    | nil => rfl
    | cons c rest =>
      have hc := not_isWord_of_isBreak (h c rfl)
      simp [firstAtWord, firstAtWordFrom, hc]
  | cons c w ih =>
    rw [List.forall_mem_cons] at hw
    rw [List.cons_append, firstAtWordFrom, if_pos hw.1, if_pos rfl, ih hw.2]
    rfl

theorem firstAtWord_word (read : List Char → List Char → Option α) {w : List Char} (hw : Plain w)
    (h : Breaks rest) :
    firstAtWord read (w ++ rest) = (read w rest <|> firstAtWord read rest) := by
  have hwhole := wordAt_word hw h
  have hrest := afterWord_word hw h
  obtain ⟨hne, hletters⟩ := hw
  cases w with
  | nil => exact absurd rfl hne
  | cons c w =>
    rw [List.forall_mem_cons] at hletters
    rw [List.cons_append] at hwhole hrest ⊢
    rw [firstAtWord, firstAtWordFrom, if_pos hletters.1, hwhole, hrest,
      firstAtWordFrom_inside read hletters.2 h]
    rfl

/-- A word in its place in a text: no word character stands beside it. -/
structure Stands (text before word after : List Char) : Prop where
  text_eq : text = before ++ (word ++ after)
  plain : Plain word
  left : ∀ c ∈ before.getLast?, isWord c = false
  right : ∀ c ∈ after.head?, isWord c = false

theorem head?_dropWhile_false (p : Char → Bool) (cs : List Char) :
    ∀ c ∈ (cs.dropWhile p).head?, p c = false := by
  intro c hc
  have hhead := List.head?_dropWhile_not p cs
  rw [Option.mem_def.mp hc] at hhead
  exact hhead

theorem not_isWord_of_afterWord (cs : List Char) : ∀ c ∈ (afterWord cs).head?, isWord c = false :=
  head?_dropWhile_false isWord cs

theorem plain_wordAt {c : Char} (hc : isWord c) (cs : List Char) : Plain (wordAt (c :: cs)) := by
  refine ⟨?_, fun d hd => List.all_eq_true.mp List.all_takeWhile d hd⟩
  simp [wordAt, hc]

theorem takeWhile_maximal {p : Char → Bool} {value after : List Char} (hvalue : ∀ c ∈ value, p c)
    (hafter : ∀ c ∈ after.head?, p c = false) : (value ++ after).takeWhile p = value := by
  rw [List.takeWhile_append_of_pos hvalue]
  cases after with
  | nil => simp
  | cons c after => simp [hafter c rfl]

theorem Stands.eq_wordAt {text before word after cs : List Char} (h : Stands text before word after)
    (htext : text = before ++ cs) : word = wordAt cs ∧ after = afterWord cs := by
  have hcs : cs = word ++ after := List.append_cancel_left (htext.symm.trans h.text_eq)
  have hword : wordAt cs = word := by
    rw [hcs]
    exact takeWhile_maximal h.plain.2 h.right
  have hsplit := wordAt_append_afterWord cs
  rw [hword, hcs] at hsplit
  rw [hword, hcs]
  exact ⟨rfl, (List.append_cancel_left hsplit).symm⟩

/-- A word that is not before a place stands there or behind the next character. -/
theorem Stands.here_or_later {text passed cs before word after : List Char} {c : Char}
    (h : Stands text before word after) (htext : text = passed ++ c :: cs)
    (hle : passed.length ≤ before.length) :
    before = passed ∧ word = wordAt (c :: cs) ∧ after = afterWord (c :: cs) ∨
      (passed ++ [c]).length ≤ before.length := by
  rcases Nat.lt_or_eq_of_le hle with hlt | heq
  · right
    rw [List.length_append]
    exact hlt
  · left
    obtain ⟨rfl, -⟩ := List.append_inj (h.text_eq.symm.trans htext) heq.symm
    exact ⟨rfl, h.eq_wordAt htext⟩

/-- The first word in its place at which a reader finds something, or none at all. -/
inductive FirstWord (read : List Char → List Char → Option α) (text : List Char) : Option α → Prop
  | some {before word after : List Char} {a : α} (stands : Stands text before word after)
    (found : read word after = some a)
    (first : ∀ before' word' after', Stands text before' word' after' →
      (read word' after').isSome → before.length ≤ before'.length) : FirstWord read text (some a)
  | none (nowhere : ∀ before word after, Stands text before word after → read word after = none) :
    FirstWord read text none

theorem firstWord_from {read : List Char → List Char → Option α} {inside : Bool}
    {text passed cs : List Char} (htext : text = passed ++ cs)
    (hinside : inside = passed.getLast?.any isWord)
    (hpassed : ∀ before word after, Stands text before word after → (read word after).isSome →
      passed.length ≤ before.length) : FirstWord read text (firstAtWordFrom read inside cs) := by
  induction cs generalizing inside passed with
  | nil =>
    refine .none fun before word after hstands => ?_
    by_contra hne
    have hle := hpassed before word after hstands (Option.isSome_iff_ne_none.mpr hne)
    have hlength := congrArg List.length (htext.symm.trans hstands.text_eq)
    have hword := List.length_pos_iff.mpr hstands.plain.1
    simp only [List.length_append, List.length_nil] at hlength
    omega
  | cons c cs ih =>
    have hnext : text = (passed ++ [c]) ++ cs := by rw [htext, List.append_assoc]; rfl
    -- what is not found here is found later, if at all
    have hlater (hhere : Stands text passed (wordAt (c :: cs)) (afterWord (c :: cs)) →
        ¬ (read (wordAt (c :: cs)) (afterWord (c :: cs))).isSome) :
        FirstWord read text (firstAtWordFrom read (isWord c) cs) := by
      refine ih hnext (by simp) fun before word after hstands hsome => ?_
      rcases hstands.here_or_later htext (hpassed _ _ _ hstands hsome) with ⟨rfl, rfl, rfl⟩ | h
      · exact absurd hsome (hhere hstands)
      · exact h
    rw [firstAtWordFrom]
    by_cases hc : isWord c = true
    · rw [hc] at hlater
      rw [if_pos hc]
      cases inside with
      | true =>
        refine hlater fun hstands => ?_
        obtain ⟨d, hd, hword⟩ := (Option.any_eq_true _ _).mp hinside.symm
        rw [hstands.left d hd] at hword
        cases hword
      | false =>
        have hleft : ∀ d ∈ passed.getLast?, isWord d = false := by
          intro d hd
          rw [Option.mem_def.mp hd] at hinside
          exact hinside.symm
        have hstands : Stands text passed (wordAt (c :: cs)) (afterWord (c :: cs)) :=
          ⟨by rw [wordAt_append_afterWord, htext], plain_wordAt hc cs, hleft,
            not_isWord_of_afterWord _⟩
        cases hread : read (wordAt (c :: cs)) (afterWord (c :: cs)) with
        | some a =>
          rw [if_neg Bool.false_ne_true]
          exact .some hstands hread hpassed
        | none =>
          rw [if_neg Bool.false_ne_true]
          exact hlater fun _ => by simp [hread]
    · rw [if_neg hc]
      rw [Bool.eq_false_iff.mpr hc] at hlater
      refine hlater fun hstands => ?_
      have hnil : wordAt (c :: cs) = [] := by simp [wordAt, hc]
      exact absurd hnil hstands.plain.1

theorem firstWord_firstAtWord (read : List Char → List Char → Option α) (text : List Char) :
    FirstWord read text (firstAtWord read text) :=
  firstWord_from (List.nil_append text).symm rfl fun _ _ _ _ _ => Nat.zero_le _

theorem exists_of_firstAtWord {read : List Char → List Char → Option α} {text : List Char} {a : α}
    (h : firstAtWord read text = some a) :
    ∃ before word after, Stands text before word after ∧ read word after = some a := by
  have hfirst := firstWord_firstAtWord read text
  rw [h] at hfirst
  cases hfirst with
  | some stands found _ => exact ⟨_, _, _, stands, found⟩

/-- Whether a search has nothing to find at any word of a clause. -/
def Passes (read : List Char → List Char → Option α) : List (List Char) → Prop :=
  EachWord fun w after => ∀ rest, Ends rest → read w (spaced after ++ rest) = none

theorem firstAtWord_spaced (read : List Char → List Char → Option α) (words : List (List Char)) :
    firstAtWord read (spaced words ++ rest) = firstAtWord read (clause words ++ rest) := by
  cases words with
  | nil => rfl
  | cons w words =>
    have hspace : isWord ' ' = false := not_isWord_of_isBreak (.inl rfl)
    simp [firstAtWord, firstAtWordFrom, hspace, clause]

theorem firstAtWord_clause {read : List Char → List Char → Option α} (hwords : ∀ w ∈ words, Plain w)
    (hpasses : Passes read words) (h : Ends rest) :
    firstAtWord read (clause words ++ rest) = firstAtWord read rest := by
  induction words with
  | nil => rfl
  | cons w words ih =>
    rw [List.forall_mem_cons] at hwords
    obtain ⟨hnone, hpasses⟩ := hpasses
    rw [clause, List.append_assoc, firstAtWord_word read hwords.1 (breaks_spaced h), hnone rest h,
      firstAtWord_spaced, ih hwords.2 hpasses]
    rfl

/-! A search that is given every end of the text. -/

def PassesWithin (read : List Char → Option α) : List (List Char) → Prop :=
  EachWord fun w after => ∀ part, part ≠ [] → part <:+ w → ∀ rest, Ends rest →
    read (part ++ (spaced after ++ rest)) = none

def StartsAtWord (read : List Char → Option α) : Prop :=
  ∀ c rest, IsBreak c → read (c :: rest) = none

theorem firstAt_break {read : List Char → Option α} (hread : StartsAtWord read) {c : Char}
    (hc : IsBreak c) (rest : List Char) : firstAt read (c :: rest) = firstAt read rest := by
  rw [firstAt, hread c rest hc]
  rfl

theorem firstAt_of_read {read : List Char → Option α} {cs : List Char} {a : α}
    (h : read cs = some a) : firstAt read cs = some a := by
  cases cs with
  | nil => exact h
  | cons c cs =>
    rw [firstAt, h]
    rfl

theorem firstAt_word {read : List Char → Option α} {w : List Char}
    (h : ∀ part, part ≠ [] → part <:+ w → read (part ++ rest) = none) :
    firstAt read (w ++ rest) = firstAt read rest := by
  induction w with
  | nil => rfl
  | cons c w ih =>
    have hnone : read (c :: (w ++ rest)) = none := h (c :: w) (by simp) (List.suffix_refl _)
    rw [List.cons_append, firstAt, hnone]
    apply ih
    intro part hne hsuffix
    exact h part hne (hsuffix.trans (List.suffix_cons c w))

theorem firstAt_clause {read : List Char → Option α} (hread : StartsAtWord read)
    (hpasses : PassesWithin read words) (h : Ends rest) :
    firstAt read (clause words ++ rest) = firstAt read rest := by
  induction words with
  | nil => rfl
  | cons w words ih =>
    obtain ⟨hnone, hpasses⟩ := hpasses
    have hword : firstAt read (w ++ (spaced words ++ rest)) = firstAt read (spaced words ++ rest) := by
      apply firstAt_word
      intro part hne hsuffix
      exact hnone part hne hsuffix rest h
    rw [clause, List.append_assoc, hword, ← ih hpasses]
    cases words with
    | nil => rfl
    | cons v words => exact firstAt_break hread (.inl rfl) _

/-! All clauses. -/

def Marked (cs : List (Char × List (List Char))) : Prop :=
  ∀ c ∈ cs, IsMark c.1 ∧ c.2 ≠ [] ∧ ∀ w ∈ c.2, Plain w

theorem Marked.ends {cs : List (Char × List (List Char))} (h : Marked cs) : Ends (clauses cs) := by
  cases cs with
  | nil =>
    intro c hc
    cases hc
  | cons c cs =>
    intro d hd
    obtain rfl : c.1 = d := by simpa [clauses] using hd
    exact (h c List.mem_cons_self).1

@[simp] theorem clauses_cons (c : Char × List (List Char)) (cs : List (Char × List (List Char))) :
    clauses (c :: cs) = c.1 :: ' ' :: (clause c.2 ++ clauses cs) := rfl

theorem Marked.tail {c : Char × List (List Char)} {cs : List (Char × List (List Char))}
    (h : Marked (c :: cs)) : Marked cs := fun d hd => h d (List.mem_cons_of_mem c hd)

theorem firstAtWord_break (read : List Char → List Char → Option α) {c : Char} (hc : IsBreak c)
    (rest : List Char) : firstAtWord read (c :: rest) = firstAtWord read rest := by
  rw [firstAtWord, firstAtWordFrom, not_isWord_of_isBreak hc]
  rfl

/-- What is found in a clause, when the clauses before it are passed over. -/
theorem firstAtWord_clauses {read : List Char → List Char → Option α} {mark : Char} {w : List Char}
    {after : List (List Char)} {a : α} {before later : List (Char × List (List Char))}
    (h : Marked (before ++ (mark, w :: after) :: later)) (hpasses : ∀ c ∈ before, Passes read c.2)
    (hread : ∀ rest, Ends rest → read w (spaced after ++ rest) = some a) :
    firstAtWord read (clauses (before ++ (mark, w :: after) :: later)) = some a := by
  induction before with
  | nil =>
    obtain ⟨hmark, -, hwords⟩ := h _ List.mem_cons_self
    have hlater : Marked later := h.tail
    rw [List.nil_append, clauses_cons, firstAtWord_break read (.inr hmark),
      firstAtWord_break read (.inl rfl), clause_cons, List.append_assoc,
      firstAtWord_word read (hwords w List.mem_cons_self) (breaks_spaced hlater.ends),
      hread _ hlater.ends]
    rfl
  | cons c before ih =>
    rw [List.forall_mem_cons] at hpasses
    obtain ⟨hmark, -, hwords⟩ := h c List.mem_cons_self
    have htail : Marked (before ++ (mark, w :: after) :: later) := h.tail
    rw [List.cons_append, clauses_cons, firstAtWord_break read (.inr hmark),
      firstAtWord_break read (.inl rfl), firstAtWord_clause hwords hpasses.1 htail.ends,
      ih htail hpasses.2]

theorem firstAt_clauses {read : List Char → Option α} (hstarts : StartsAtWord read) {mark : Char}
    {w : List Char} {after : List (List Char)} {a : α}
    {before later : List (Char × List (List Char))}
    (h : Marked (before ++ (mark, w :: after) :: later))
    (hpasses : ∀ c ∈ before, PassesWithin read c.2)
    (hread : ∀ rest, Ends rest → read (w ++ (spaced after ++ rest)) = some a) :
    firstAt read (clauses (before ++ (mark, w :: after) :: later)) = some a := by
  induction before with
  | nil =>
    obtain ⟨hmark, -, -⟩ := h _ List.mem_cons_self
    have hlater : Marked later := h.tail
    have hfound := hread _ hlater.ends
    rw [List.nil_append, clauses_cons, firstAt_break hstarts (.inr hmark),
      firstAt_break hstarts (.inl rfl), clause_cons, List.append_assoc]
    exact firstAt_of_read hfound
  | cons c before ih =>
    rw [List.forall_mem_cons] at hpasses
    obtain ⟨hmark, -, -⟩ := h c List.mem_cons_self
    have htail : Marked (before ++ (mark, w :: after) :: later) := h.tail
    rw [List.cons_append, clauses_cons, firstAt_break hstarts (.inr hmark),
      firstAt_break hstarts (.inl rfl), firstAt_clause hstarts hpasses.1 htail.ends,
      ih htail hpasses.2]

theorem spanRun_letters {w : List Char} (hw : ∀ c ∈ w, isWord c) (rest : List Char) :
    spanRun isWord (w ++ rest) = (w ++ (spanRun isWord rest).1, (spanRun isWord rest).2) := by
  induction w with
  | nil => rfl
  | cons c w ih =>
    rw [List.forall_mem_cons] at hw
    rw [List.cons_append, spanRun_word hw.1, ih hw.2, List.cons_append]

theorem spanRun_spaced (hwords : ∀ w ∈ words, Plain w) (h : Ends rest) :
    spanRun isWord (spaced words ++ rest) = (spaced words, rest) := by
  induction words with
  | nil =>
    cases rest with
    | nil => rfl
    | cons c rest =>
      have hmark := h c rfl
      have hc : ¬ isWord c := by
        rw [not_isWord_of_isBreak (.inr hmark)]
        decide
      apply spanRun_stop hc
      rintro ⟨rfl, -⟩
      rcases hmark with h | h <;> cases h
  | cons w words ih =>
    rw [List.forall_mem_cons] at hwords
    obtain ⟨⟨hne, hletters⟩, hwords⟩ := hwords
    have hstart : startsWith isWord (w ++ (spaced words ++ rest)) := by
      cases w with
      | nil => exact absurd rfl hne
      | cons c w => exact hletters c List.mem_cons_self
    rw [spaced_cons, List.cons_append, List.append_assoc, spanRun_space hstart,
      spanRun_letters hletters, ih hwords]

theorem runs_of_not_word {c : Char} (hc : isWord c = false) (rest : List Char) :
    runs isWord (c :: rest) = runs isWord rest := by
  rw [runs, if_neg (by rw [hc]; decide)]

theorem runs_clause (hne : words ≠ []) (hwords : ∀ w ∈ words, Plain w) (h : Ends rest) :
    runs isWord (clause words ++ rest) = clause words :: runs isWord rest := by
  cases words with
  | nil => exact absurd rfl hne
  | cons w words =>
    rw [List.forall_mem_cons] at hwords
    obtain ⟨⟨hw, hletters⟩, hwords⟩ := hwords
    cases w with
    | nil => exact absurd rfl hw
    | cons d w =>
      rw [List.forall_mem_cons] at hletters
      have hspan : spanRun isWord (w ++ (spaced words ++ rest)) = (w ++ spaced words, rest) := by
        rw [spanRun_letters hletters.2, spanRun_spaced hwords h]
      rw [clause, List.append_assoc, List.cons_append, runs, if_pos hletters.1, hspan]
      rfl

theorem runs_clauses {cs : List (Char × List (List Char))} (h : Marked cs) :
    runs isWord (clauses cs) = cs.map fun c => clause c.2 := by
  induction cs with
  | nil => simp [clauses, runs]
  | cons c cs ih =>
    obtain ⟨hmark, hne, hwords⟩ := h c List.mem_cons_self
    have htail : Marked cs := h.tail
    rw [clauses_cons, runs_of_not_word (not_isWord_of_isBreak (.inr hmark)),
      runs_of_not_word (not_isWord_of_isBreak (.inl rfl)), runs_clause hne hwords htail.ends, ih htail]
    rfl

end PlainSheets.Query
