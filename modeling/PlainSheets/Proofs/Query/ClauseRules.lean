import PlainSheets.Proofs.Query.Clauses

/-!
What each rule reads of one clause: what it finds in the clause that is written for it, and which
clauses it passes over.
-/
namespace PlainSheets.Query

open Text (isWord isDigit Settled)

variable {words : List (List Char)} {rest : List Char}

/-! Digits among words. -/

def firstDigits? (words : List (List Char)) : Option (List Char) := words.head?.bind digitsAt?

def DigitFree (w : List Char) : Prop := ∀ c ∈ w, isDigit c = false

instance : DecidablePred DigitFree := fun _ => inferInstanceAs (Decidable (∀ _ ∈ _, _))

theorem DigitFree.digitsAt? {w : List Char} (h : DigitFree w) : digitsAt? w = none := by
  have hnil : w.takeWhile isDigit = [] := by
    cases w with
    | nil => rfl
    | cons c w => simp [h c List.mem_cons_self]
  rw [Query.digitsAt?, hnil]
  rfl

theorem digitsAt?_clause (h : Ends rest) : digitsAt? (clause words ++ rest) = firstDigits? words := by
  cases words with
  | nil => exact digitsAt?_breaks [] h.breaks
  | cons w words =>
    rw [clause, List.append_assoc, digitsAt?_breaks w (breaks_spaced h)]
    rfl

theorem exists_of_digitsAt? {cs ds : List Char} (h : digitsAt? cs = some ds) :
    ∃ others, cs = ds ++ others ∧ ∀ c ∈ ds, isDigit c := by
  refine ⟨cs.dropWhile isDigit, ?_⟩
  simp only [Query.digitsAt?, Option.ite_none_left_eq_some, Option.some.injEq] at h
  obtain ⟨-, rfl⟩ := h
  exact ⟨List.takeWhile_append_dropWhile.symm, fun c hc => List.all_eq_true.mp List.all_takeWhile c hc⟩

theorem firstDigits?_eq_none (h : ∀ w ∈ words, DigitFree w) : firstDigits? words = none := by
  cases words with
  | nil => rfl
  | cons w words => exact (h w List.mem_cons_self).digitsAt?

/-! Comparisons. -/

theorem wordsAfter?_suffix {ws ts after : List (List Char)} (h : wordsAfter? ws ts = some after) :
    after <:+ ts := by
  induction ws generalizing ts with
  | nil =>
    cases ts with
    | nil => cases h
    | cons t ts =>
      obtain rfl := Option.some.inj h
      exact List.suffix_refl _
  | cons w ws ih =>
    cases ts with
    | nil => cases h
    | cons t ts =>
      rw [wordsAfter?] at h
      split at h
      · exact (ih h).trans (List.suffix_cons t ts)
      · cases h

theorem phraseAfter?_suffix {phrases : List (List String)} {ts after : List (List Char)}
    (h : phraseAfter? phrases ts = some after) : after <:+ ts := by
  obtain ⟨ws, -, hws⟩ := List.exists_of_findSome?_eq_some h
  exact wordsAfter?_suffix hws

def greaterWords : List (List String) :=
  [["greater", "than"], ["more", "than"], ["higher", "than"], ["over"], ["above"]]

def lessWords : List (List String) := [["less", "than"], ["lower", "than"], ["under"], ["below"]]

def equalWords : List (List String) := [["equal", "to"], ["equals"], ["is"], ["="]]

theorem map_phrase : greaterPhrases = greaterWords.map phrase ∧ lessPhrases = lessWords.map phrase ∧
    equalPhrases = equalWords.map phrase := by
  decide

def readComparison (phrases : List String) (word rest : List Char) :
    Option (List Char × List Char) :=
  ((afterAny? phrases rest).bind digitsAt?).map (word, ·)

theorem readComparison_spaced {phrases : List (List String)} (hphrases : Phrases phrases)
    (word : List Char) (hwords : ∀ w ∈ words, Plain w) (h : Ends rest) :
    readComparison (phrases.map phrase) word (spaced words ++ rest) =
      ((phraseAfter? phrases words).bind firstDigits?).map (word, ·) := by
  unfold readComparison
  rw [afterAny?_phrases hphrases (fun w hw => (hwords w hw).unbroken) h, Option.bind_map]
  congr 2
  funext words
  exact digitsAt?_clause h

theorem EachWord.imp {P Q : List Char → List (List Char) → Prop} (h : EachWord P words)
    (himp : ∀ w after, (∀ v ∈ w :: after, v ∈ words) → P w after → Q w after) :
    EachWord Q words := by
  induction words with
  | nil => trivial
  | cons w words ih =>
    refine ⟨himp w words (fun v hv => hv) h.1, ih h.2 ?_⟩
    intro v after hafter
    exact himp v after fun u hu => List.mem_cons_of_mem w (hafter u hu)

theorem passes_comparison {phrases : List (List String)} (hphrases : Phrases phrases)
    (hwords : ∀ w ∈ words, Plain w)
    (h : EachWord (fun _ after => (phraseAfter? phrases after).bind firstDigits? = none) words) :
    Passes (readComparison (phrases.map phrase)) words := by
  apply h.imp
  intro w after hmem hnone rest hrest
  have hafter : ∀ v ∈ after, Plain v := fun v hv => hwords v (hmem v (List.mem_cons_of_mem w hv))
  rw [readComparison_spaced hphrases w hafter hrest, hnone]
  rfl

theorem passes_of_noPhrase {phrases : List (List String)} (hphrases : Phrases phrases)
    (hwords : ∀ w ∈ words, Plain w)
    (h : EachWord (fun _ after => phraseAfter? phrases after = none) words) :
    Passes (readComparison (phrases.map phrase)) words := by
  apply passes_comparison hphrases hwords
  apply h.imp
  intro w after _ hnone
  rw [hnone]
  rfl

theorem passes_comparison_of_digitFree {phrases : List (List String)}
    (hphrases : Phrases phrases) (hwords : ∀ w ∈ words, Plain w)
    (h : ∀ w ∈ words, DigitFree w) : Passes (readComparison (phrases.map phrase)) words := by
  apply passes_comparison hphrases hwords
  apply EachWord.of_suffix
  intro w after hsuffix
  cases hphrase : phraseAfter? phrases after with
  | none => rfl
  | some ts =>
    apply firstDigits?_eq_none
    intro v hv
    exact h v (hsuffix.subset (List.mem_cons_of_mem w ((phraseAfter?_suffix hphrase).subset hv)))

/-! Equality. -/

def readEquality (word rest : List Char) : Option (List Char × List Char) := do
  let rest ← afterAny? equalPhrases rest
  let value := rest.takeWhile fun c => isWord c || Text.isBlank c
  if value.isEmpty then none else some (word, Text.trim value)

theorem passes_equality (hwords : ∀ w ∈ words, Plain w)
    (h : EachWord (fun _ after => phraseAfter? equalWords after = none) words) :
    Passes readEquality words := by
  apply h.imp
  intro w after hmem hnone rest hrest
  have hafter : ∀ v ∈ after, Unbroken v := fun v hv =>
    (hwords v (hmem v (List.mem_cons_of_mem w hv))).unbroken
  rw [readEquality, map_phrase.2.2, afterAny?_phrases (by decide) hafter hrest, hnone]
  rfl

theorem noPhrase_of_ne {phrases : List (List String)} (hphrases : Phrases phrases)
    (h : ∀ t ∈ words.tail, ∀ ws ∈ phrases, ∀ w ∈ ws.head?, w.toList ≠ t) :
    EachWord (fun _ after => phraseAfter? phrases after = none) words := by
  induction words with
  | nil => trivial
  | cons w words ih =>
    refine ⟨?_, ih fun t ht => h t (List.mem_of_mem_tail ht)⟩
    cases words with
    | nil => exact phraseAfter?_of_short hphrases (Nat.zero_le 1)
    | cons t words => exact phraseAfter?_of_ne hphrases (h t List.mem_cons_self) words

theorem exists_first (hwords : ∀ w ∈ words, Plain w) (hne : words ≠ []) :
    ∃ c cs, clause words = c :: cs ∧ isWord c := by
  match words, hne, hwords with
  | w :: words, _, hwords =>
    obtain ⟨hw, hletters⟩ := hwords w List.mem_cons_self
    match w, hw, hletters with
    | c :: w, _, hletters => exact ⟨c, _, rfl, hletters c List.mem_cons_self⟩

theorem exists_last (hwords : ∀ w ∈ words, Plain w) (hne : words ≠ []) :
    ∃ cs c, clause words = cs ++ [c] ∧ isWord c := by
  induction words with
  | nil => exact absurd rfl hne
  | cons w words ih =>
    rw [List.forall_mem_cons] at hwords
    obtain ⟨⟨hw, hletters⟩, hwords⟩ := hwords
    cases words with
    | nil =>
      refine ⟨w.dropLast, w.getLast hw, ?_, hletters _ (List.getLast_mem hw)⟩
      rw [List.dropLast_append_getLast, clause, spaced_nil, List.append_nil]
    | cons v words =>
      obtain ⟨cs, c, hclause, hc⟩ := ih hwords (List.cons_ne_nil _ _)
      refine ⟨w ++ ' ' :: cs, c, ?_, hc⟩
      rw [List.append_assoc, List.cons_append, ← hclause]
      rfl

theorem mem_spaced {c : Char} (h : c ∈ spaced words) : c = ' ' ∨ ∃ w ∈ words, c ∈ w := by
  obtain ⟨w, hw, hc⟩ := List.mem_flatMap.mp h
  rcases List.mem_cons.mp hc with rfl | hc
  · exact .inl rfl
  · exact .inr ⟨w, hw, hc⟩

theorem mem_clause {c : Char} (h : c ∈ clause words) : c = ' ' ∨ ∃ w ∈ words, c ∈ w := by
  apply mem_spaced
  cases words with
  | nil => cases h
  | cons w words => exact List.mem_cons_of_mem _ h

theorem trim_clause (hwords : ∀ w ∈ words, Plain w) : Text.trim (clause words) = clause words := by
  by_cases hne : words = []
  · subst hne
    rfl
  · have hblank : ∀ c, isWord c → Text.isBlank c = false := by
      intro c hc
      by_contra h
      rw [Bool.not_eq_false] at h
      rw [Text.not_isWord_of_isBlank h] at hc
      cases hc
    obtain ⟨c, cs, hfirst, hc⟩ := exists_first hwords hne
    obtain ⟨ds, d, hlast, hd⟩ := exists_last hwords hne
    have hstart : Text.trimStart (clause words) = clause words := by
      rw [hfirst, Text.trimStart, List.dropWhile_cons_of_neg]
      rw [hblank c hc]
      decide
    rw [Text.trim, hstart, hlast, Text.trimEnd, List.reverse_append, List.reverse_singleton,
      List.singleton_append, List.dropWhile_cons_of_neg, List.reverse_cons, List.reverse_reverse]
    rw [hblank d hd]
    decide

theorem readEquality_is (word : List Char) (hwords : ∀ w ∈ words, Plain w) (hne : words ≠ [])
    (h : Ends rest) :
    readEquality word (spaced ("is".toList :: words) ++ rest) = some (word, clause words) := by
  have hphrase : phraseAfter? equalWords ("is".toList :: words) = some words := by
    cases words with
    | nil => exact absurd rfl hne
    | cons w words => rfl
  have hunbroken : ∀ w ∈ "is".toList :: words, Unbroken w := by
    rw [List.forall_mem_cons]
    exact ⟨by decide, fun w hw => (hwords w hw).unbroken⟩
  have hvalue : (clause words ++ rest).takeWhile (fun c => isWord c || Text.isBlank c) =
      clause words := by
    have hrest : rest.takeWhile (fun c => isWord c || Text.isBlank c) = [] := by
      cases rest with
      | nil => rfl
      | cons c rest => rcases h c rfl with rfl | rfl <;> rfl
    rw [List.takeWhile_append_of_pos, hrest, List.append_nil]
    intro c hc
    rcases mem_clause hc with rfl | ⟨w, hw, hc⟩
    · decide
    · rw [(hwords w hw).2 c hc]
      rfl
  obtain ⟨c, cs, hfirst, -⟩ := exists_first hwords hne
  have hempty : (clause words).isEmpty = false := by
    rw [hfirst]
    rfl
  rw [readEquality, map_phrase.2.2, afterAny?_phrases (by decide) hunbroken h, hphrase]
  simp only [Option.map_some, Option.bind_eq_bind, Option.bind_some, hvalue, hempty,
    trim_clause hwords]
  rfl

@[simp] theorem spaced_append (words others : List (List Char)) :
    spaced (words ++ others) = spaced words ++ spaced others := List.flatMap_append

/-! Order. -/

theorem startsAtWord_sort : StartsAtWord sortAt := by
  intro c rest hc
  have hne : 's' ≠ c := by
    rintro rfl
    revert hc
    decide
  simp [sortAt, after?, hne]

theorem sortAt_part {part : List Char} (hpart : Unbroken part) (hwords : ∀ w ∈ words, Plain w)
    (hnone : part ≠ "sort".toList ∨ wordsAfter? ["by".toList] words = none) (h : Ends rest) :
    sortAt (part ++ (spaced words ++ rest)) = none := by
  have hunbroken : ∀ w ∈ part :: words, Unbroken w := by
    rw [List.forall_mem_cons]
    exact ⟨hpart, fun w hw => (hwords w hw).unbroken⟩
  have hphrase : wordsAfter? ["sort".toList, "by".toList] (part :: words) = none := by
    rw [wordsAfter?]
    split
    · rename_i heq
      rcases hnone with hne | hnone
      · exact absurd heq.symm hne
      · exact hnone
    · rfl
  have hafter : after? "sort by " (part ++ (spaced words ++ rest)) = none := by
    rw [after?_eq]
    change dropPart? ("sort".toList ++ (spaced ["by".toList] ++ [' '])) _ = none
    rw [dropPart?_clause (by decide) hunbroken h, hphrase]
    rfl
  rw [sortAt, hafter]
  rfl

theorem Plain.part {w part : List Char} (hw : Plain w) (hne : part ≠ []) (h : part <:+ w) :
    Plain part := ⟨hne, fun c hc => hw.2 c (h.subset hc)⟩

/-- What keeps a word from being read as an order, given the words after it. -/
def NoOrder (w : List Char) (after : List (List Char)) : Prop :=
  ¬ "sort".toList <:+ w ∨ wordsAfter? ["by".toList] after = none

theorem passes_sort (hwords : ∀ w ∈ words, Plain w) (h : EachWord NoOrder words) :
    PassesWithin sortAt words := by
  apply h.imp
  intro w after hmem hsort part hne hpart rest hrest
  have hw := hwords w (hmem w List.mem_cons_self)
  have hafter : ∀ v ∈ after, Plain v := fun v hv => hwords v (hmem v (List.mem_cons_of_mem w hv))
  apply sortAt_part (hw.part hne hpart).unbroken hafter _ hrest
  apply hsort.imp_left
  rintro hsuffix rfl
  exact hsuffix hpart

theorem infix_clause {w : List Char} {front back : List (List Char)} (hw : "sort".toList <:+ w)
    (hwords : words = front ++ w :: "by".toList :: back) : "sort by".toList <:+: clause words := by
  obtain ⟨start, rfl⟩ := hw
  have hspaced : "sort by".toList <:+: clause ((start ++ "sort".toList) :: "by".toList :: back) := by
    refine ⟨start, spaced back, ?_⟩
    simp
  rw [hwords]
  cases front with
  | nil => exact hspaced
  | cons v front =>
    apply hspaced.trans
    refine ⟨v ++ spaced front ++ [' '], [], ?_⟩
    simp

theorem noOrder_of_suffix {w : List Char} {after : List (List Char)}
    (hsuffix : w :: after <:+ words)
    (h : ∀ front back, back ≠ [] → words = front ++ w :: "by".toList :: back → ¬ "sort".toList <:+ w) :
    NoOrder w after := by
  obtain ⟨front, rfl⟩ := hsuffix
  unfold NoOrder
  by_contra! hboth
  obtain ⟨hw, hafter⟩ := hboth
  match after, hafter with
  | t :: ts, hafter =>
    rw [wordsAfter?] at hafter
    split at hafter
    · rename_i hby
      subst hby
      cases ts with
      | nil => exact hafter rfl
      | cons t ts => exact h front (t :: ts) (List.cons_ne_nil t ts) rfl hw
    · exact hafter rfl

theorem noOrder_words (h : ¬ "sort by".toList <:+: clause words) :
    EachWord NoOrder words := by
  apply EachWord.of_suffix
  intro w after hsuffix
  apply noOrder_of_suffix hsuffix
  intro front back _ heq hw
  exact h (infix_clause hw heq)

theorem sortAt_desc {field : List Char} (hfield : Plain field) (h : Ends rest) :
    sortAt ("sort".toList ++ (spaced ["by".toList, field, "desc".toList] ++ rest)) =
      some ⟨String.ofList field, -1⟩ := by
  have hbreaks : Breaks (spaced ["desc".toList] ++ rest) := breaks_spaced h
  have hafter : after? "sort by " ("sort".toList ++
      (spaced ["by".toList, field, "desc".toList] ++ rest)) =
      some (field ++ (spaced ["desc".toList] ++ rest)) := by
    rw [after?_eq]
    simp [dropPart?]
  have hstart : startsWord (field ++ (spaced ["desc".toList] ++ rest)) := by
    obtain ⟨hne, hletters⟩ := hfield
    cases field with
    | nil => exact absurd rfl hne
    | cons c field => exact hletters c List.mem_cons_self
  have hdesc : (after? " desc" (spaced ["desc".toList] ++ rest)).isSome := by
    rw [after?_eq]
    simp [dropPart?]
  rw [sortAt, hafter]
  simp only [Option.bind_eq_bind, Option.bind_some, hstart, if_true, wordAt_word hfield hbreaks,
    afterWord_word hfield hbreaks, hdesc]

/-! Limit. -/

theorem startsAtWord_limit : StartsAtWord limitAt := by
  intro c rest hc
  have hne : 'l' ≠ c := by
    rintro rfl
    revert hc
    decide
  have hlimit : after? "limit " (c :: rest) = none := by
    simp [after?_eq, dropPart?, hne]
  have hdigits : digitsAt? (c :: rest) = none := by
    simp [digitsAt?, not_isDigit_of_isBreak hc]
  rw [limitAt, hlimit, hdigits]
  rfl

theorem isPrefixOf_breaks {letters : List Char} (hletters : ∀ c ∈ letters, ¬ IsBreak c)
    (w : List Char) (h : Breaks rest) : letters.isPrefixOf (w ++ rest) = letters.isPrefixOf w := by
  induction letters generalizing w with
  | nil => simp
  | cons l letters ih =>
    rw [List.forall_mem_cons] at hletters
    cases w with
    | nil =>
      cases rest with
      | nil => rfl
      | cons c rest =>
        have hne : l ≠ c := by
          rintro rfl
          exact hletters.1 (h l rfl)
        simp [List.isPrefixOf, hne]
    | cons c w => simp [List.isPrefixOf, ih hletters.2]

theorem after?_first {v w : List Char} {next : String} (hnext : next.toList = v ++ (spaced [] ++ [' ']))
    (hv : Unbroken v) (hwords : ∀ u ∈ w :: words, Unbroken u) (h : Ends rest) :
    after? next (clause (w :: words) ++ rest) = none ∨
      after? next (clause (w :: words) ++ rest) = some (clause words ++ rest) := by
  rw [after?_eq, hnext, clause, List.append_assoc,
    dropPart?_clause (List.forall_mem_singleton.mpr hv) hwords h, wordsAfter?]
  split
  · cases words with
    | nil => exact .inl rfl
    | cons u words => exact .inr rfl
  · exact .inl rfl

theorem limitAt_word {part : List Char} (hpart : Unbroken part) (hwords : ∀ w ∈ words, Plain w)
    (hlimit : part = "limit".toList →
      firstDigits? words = none ∧ firstDigits? words.tail = none) (h : Ends rest) :
    ((after? "limit " (part ++ (spaced words ++ rest))).bind fun cs =>
      digitsAt? ((afterAny? ["to ", "of "] cs).getD cs)) = none := by
  have hunbroken : ∀ w ∈ words, Unbroken w := fun w hw => (hwords w hw).unbroken
  have hafter : after? "limit " (part ++ (spaced words ++ rest)) =
      (wordsAfter? ["limit".toList] (part :: words)).map fun after => clause after ++ rest := by
    rw [after?_eq]
    change dropPart? ("limit".toList ++ (spaced [] ++ [' '])) _ = _
    exact dropPart?_clause (by decide) (List.forall_mem_cons.mpr ⟨hpart, hunbroken⟩) h
  rw [hafter, wordsAfter?]
  split
  · rename_i heq
    obtain ⟨hfirst, hsecond⟩ := hlimit heq.symm
    cases words with
    | nil => rfl
    | cons w words =>
      have hto := @after?_first words rest "to".toList w "to " rfl (by decide) hunbroken h
      have hof := @after?_first words rest "of".toList w "of " rfl (by decide) hunbroken h
      change digitsAt? ((after? "to " (clause (w :: words) ++ rest) <|>
        after? "of " (clause (w :: words) ++ rest) <|> none).getD (clause (w :: words) ++ rest)) = none
      rcases hto with hto | hto <;> rcases hof with hof | hof <;> rw [hto, hof] <;>
        first | exact (digitsAt?_clause h).trans hfirst | exact (digitsAt?_clause h).trans hsecond
  · rfl

theorem after?_results (hwords : ∀ w ∈ words.head?, ¬ "results".toList <+: w) (h : Ends rest) :
    after? " results" (spaced words ++ rest) = none := by
  rw [after?_eq]
  cases words with
  | nil => exact dropPart?_ends _ h
  | cons w words =>
    have hstarts : "results".toList.isPrefixOf (w ++ (spaced words ++ rest)) = false := by
      rw [isPrefixOf_breaks (by decide) w (breaks_spaced h), ← Bool.not_eq_true,
        List.isPrefixOf_iff_prefix]
      exact hwords w rfl
    rw [spaced_cons, List.cons_append, List.append_assoc]
    change dropPart? (' ' :: "results".toList) _ = none
    rw [dropPart?_cons, dropPart?, hstarts]
    rfl

theorem limitAt_results {part : List Char} (hpart : Plain part)
    (hresults : (∃ c ∈ part, isDigit c = false) ∨ ∀ w ∈ words.head?, ¬ "results".toList <+: w)
    (h : Ends rest) :
    ((digitsAt? (part ++ (spaced words ++ rest))).bind fun ds =>
      (after? " results" ((part ++ (spaced words ++ rest)).drop ds.length)).map fun _ => ds) = none := by
  rw [digitsAt?_breaks part (breaks_spaced h)]
  cases hdigits : digitsAt? part with
  | none => rfl
  | some ds =>
    obtain ⟨others, rfl, hds⟩ := exists_of_digitsAt? hdigits
    have hafter : after? " results" (others ++ (spaced words ++ rest)) = none := by
      cases others with
      | cons c others =>
        have hc : ' ' ≠ c := by
          rintro rfl
          exact hpart.unbroken.2 ' ' (by simp) (.inl rfl)
        rw [after?_eq]
        simp [dropPart?, hc]
      | nil =>
        apply after?_results (hresults.resolve_left _) h
        rintro ⟨c, hc, hfalse⟩
        rw [hds c (by simpa using hc)] at hfalse
        cases hfalse
    rw [Option.bind_some, List.append_assoc, List.drop_left, hafter]
    rfl

theorem limitAt_part {part : List Char} (hpart : Plain part) (hwords : ∀ w ∈ words, Plain w)
    (hlimit : part = "limit".toList → firstDigits? words = none ∧ firstDigits? words.tail = none)
    (hresults : (∃ c ∈ part, isDigit c = false) ∨ ∀ w ∈ words.head?, ¬ "results".toList <+: w)
    (h : Ends rest) : limitAt (part ++ (spaced words ++ rest)) = none := by
  rw [limitAt, limitAt_word hpart.unbroken hwords hlimit h, limitAt_results hpart hresults h]
  rfl

/-- What keeps a word from being read as a limit, given the words after it. -/
structure NoLimit (w : List Char) (after : List (List Char)) : Prop where
  word : "limit".toList <:+ w → firstDigits? after = none ∧ firstDigits? after.tail = none
  results : (∀ c ∈ w.getLast?, isDigit c = false) ∨ ∀ v ∈ after.head?, ¬ "results".toList <+: v

theorem passes_limit (hwords : ∀ w ∈ words, Plain w) (h : EachWord NoLimit words) :
    PassesWithin limitAt words := by
  apply h.imp
  intro w after hmem hlimit part hne hpart rest hrest
  have hw := hwords w (hmem w List.mem_cons_self)
  have hafter : ∀ v ∈ after, Plain v := fun v hv => hwords v (hmem v (List.mem_cons_of_mem w hv))
  apply limitAt_part (hw.part hne hpart) hafter _ _ hrest
  · rintro rfl
    exact hlimit.word hpart
  · apply hlimit.results.imp_left
    intro hlast
    refine ⟨part.getLast hne, List.getLast_mem hne, hlast _ ?_⟩
    obtain ⟨front, rfl⟩ := hpart
    rw [List.getLast?_append, List.getLast?_eq_some_getLast hne]
    rfl

theorem noLimit_of_digitFree {w : List Char} {after : List (List Char)} (hw : DigitFree w)
    (hafter : ∀ v ∈ after, DigitFree v) : NoLimit w after where
  word _ := ⟨firstDigits?_eq_none hafter,
    firstDigits?_eq_none fun v hv => hafter v (List.mem_of_mem_tail hv)⟩
  results := .inl fun c hc => hw c (List.mem_of_getLast? hc)

theorem noLimit_words (h : ∀ w ∈ words, DigitFree w) :
    EachWord NoLimit words := by
  apply EachWord.of_suffix
  intro w after hsuffix
  exact noLimit_of_digitFree (h w (hsuffix.subset List.mem_cons_self))
    fun v hv => h v (hsuffix.subset (List.mem_cons_of_mem w hv))

theorem noLimit_last (w : List Char) : NoLimit w [] where
  word _ := ⟨rfl, rfl⟩
  results := .inr fun _ hc => nomatch hc

theorem digitsAt?_digits {ds : List Char} (hne : ds ≠ []) (hds : ∀ c ∈ ds, isDigit c) :
    digitsAt? ds = some ds := by
  have hall : ds.takeWhile isDigit = ds := by
    have happend := @List.takeWhile_append_of_pos _ isDigit ds [] hds
    simpa using happend
  unfold digitsAt?
  rw [hall]
  simpa using hne

theorem limitAt_limit {ds : List Char} (hne : ds ≠ []) (hds : ∀ c ∈ ds, isDigit c) (h : Ends rest) :
    limitAt ("limit".toList ++ (spaced [ds] ++ rest)) = some ds := by
  have hafter : after? "limit " ("limit".toList ++ (spaced [ds] ++ rest)) = some (ds ++ rest) := by
    rw [after?_eq]
    simp [dropPart?]
  have hskip : afterAny? ["to ", "of "] (ds ++ rest) = none := by
    cases ds with
    | nil => exact absurd rfl hne
    | cons d ds =>
      have hdigit := hds d List.mem_cons_self
      have hto : 't' ≠ d := by
        rintro rfl
        revert hdigit
        decide
      have hof : 'o' ≠ d := by
        rintro rfl
        revert hdigit
        decide
      simp [afterAny?, after?_eq, dropPart?, hto, hof]
  rw [limitAt, hafter, Option.bind_some, hskip, Option.getD_none, digitsAt?_breaks ds h.breaks,
    digitsAt?_digits hne hds]
  rfl

/-! Fields. -/

theorem startsAs_self_append (cs rest : List Char) : Text.startsAs cs (cs ++ rest) := by
  induction cs with
  | nil => rfl
  | cons c cs ih => simp [Text.startsAs, Text.sameLetter, ih]

theorem startsAs_mark {letters w : List Char} {mark : Char} (hmark : IsMark mark)
    (hletters : ∀ l ∈ letters, Text.sameLetter l mark = false) (hw : ∀ c ∈ w, isWord c)
    (rest : List Char) : Text.startsAs (letters ++ [' ']) (w ++ mark :: rest) = false := by
  have hspace : ∀ c, IsMark c ∨ isWord c → Text.sameLetter ' ' c = false := by
    intro c hc
    by_contra h
    rw [Bool.not_eq_false] at h
    obtain rfl := Text.eq_space_of_sameLetter h
    revert hc
    decide
  induction letters generalizing w with
  | nil =>
    cases w with
    | nil => simp [Text.startsAs, hspace mark (.inl hmark)]
    | cons c w => simp [Text.startsAs, hspace c (.inr (hw c List.mem_cons_self))]
  | cons l letters ih =>
    rw [List.forall_mem_cons] at hletters
    cases w with
    | nil => simp [Text.startsAs, hletters.1]
    | cons c w =>
      rw [List.forall_mem_cons] at hw
      simp [Text.startsAs, ih hletters.2 hw.2]

theorem skips_of_not_startsAs {phrases : List String} {cs : List Char}
    (h : ∀ p ∈ phrases, Text.startsAs p.toList cs = false) : skips phrases cs = [cs] := by
  have hnone : (phrases.findSome? fun p =>
      if Text.startsAs p.toList cs then some p.length else none) = none := by
    rw [List.findSome?_eq_none_iff]
    intro p hp
    rw [h p hp]
    rfl
  rw [skips, hnone]

def listed (fields : List (List Char)) : List (Char × List (List Char)) :=
  fields.map fun f => (',', [f])

theorem startsWord_word {w : List Char} (hw : Plain w) (rest : List Char) :
    startsWord (w ++ rest) := by
  obtain ⟨hne, hletters⟩ := hw
  cases w with
  | nil => exact absurd rfl hne
  | cons c w => exact hletters c List.mem_cons_self

theorem wordList_listed {f : List Char} {fs : List (List Char)} (hf : Plain f)
    (hfs : ∀ g ∈ fs, Plain g) {fuel : Nat} (hfuel : fs.length < fuel) (rest : List Char) :
    wordList fuel (f ++ (clauses (listed fs) ++ ';' :: rest)) = f :: fs := by
  induction fs generalizing f fuel with
  | nil =>
    obtain ⟨fuel, rfl⟩ := Nat.exists_eq_add_of_lt hfuel
    have hbreaks : Breaks (';' :: rest) := by
      intro c hc
      obtain rfl : ';' = c := by simpa using hc
      exact .inr (.inr rfl)
    change wordList (_ + 1) (f ++ ';' :: rest) = _
    rw [wordList, wordAt_word hf hbreaks, afterWord_word hf hbreaks]
    rfl
  | cons g fs ih =>
    rw [List.forall_mem_cons] at hfs
    obtain ⟨fuel, rfl⟩ := Nat.exists_eq_add_of_lt hfuel
    have hnext : clauses (listed (g :: fs)) ++ ';' :: rest =
        ',' :: ' ' :: (g ++ (clauses (listed fs) ++ ';' :: rest)) := by
      simp [listed, clauses, clause]
    have hbreaks : Breaks (',' :: ' ' :: (g ++ (clauses (listed fs) ++ ';' :: rest))) := by
      intro c hc
      obtain rfl : ',' = c := by simpa using hc
      exact .inr (.inl rfl)
    rw [hnext, wordList, wordAt_word hf hbreaks, afterWord_word hf hbreaks]
    simp only [startsWord_word hfs.1, if_true]
    rw [ih hfs.1 hfs.2]
    rw [List.length_cons]
    omega

theorem length_listed_le (fs : List (List Char)) : fs.length ≤ (clauses (listed fs)).length := by
  induction fs with
  | nil => exact Nat.le_refl _
  | cons f fs ih =>
    have hnext : clauses (listed (f :: fs)) = ',' :: ' ' :: (clause [f] ++ clauses (listed fs)) := rfl
    rw [hnext]
    simp only [List.length_cons, List.length_append]
    omega

theorem fieldsAt_listed {f : List Char} {fs : List (List Char)} (hf : Plain f)
    (hfs : ∀ g ∈ fs, Plain g) (rest : List Char) :
    fieldsAt ("show ".toList ++ (f ++ (clauses (listed fs) ++ ';' :: rest))) = some (f :: fs) := by
  obtain ⟨mark, others, hmark, hothers⟩ : ∃ mark others, IsMark mark ∧
      clauses (listed fs) ++ ';' :: rest = mark :: others := by
    cases fs with
    | nil => exact ⟨';', rest, .inr rfl, rfl⟩
    | cons g fs => exact ⟨',', _, .inl rfl, rfl⟩
  have hletters : ∀ l ∈ "meusthall".toList, Text.sameLetter l mark = false := by
    rcases hmark with rfl | rfl <;> decide
  have hskip (word : String) (hword : word.toList ⊆ "meusthall".toList) :
      Text.startsAs (word.toList ++ [' ']) (f ++ (clauses (listed fs) ++ ';' :: rest)) = false := by
    rw [hothers]
    exact startsAs_mark hmark (fun l hl => hletters l (hword hl)) hf.2 others
  have hme : skips ["me ", "us "] (f ++ (clauses (listed fs) ++ ';' :: rest)) =
      [f ++ (clauses (listed fs) ++ ';' :: rest)] := by
    apply skips_of_not_startsAs
    intro p hp
    rcases List.mem_pair.mp hp with rfl | rfl
    · exact hskip "me" (by decide)
    · exact hskip "us" (by decide)
  have hthe : skips ["the ", "all "] (f ++ (clauses (listed fs) ++ ';' :: rest)) =
      [f ++ (clauses (listed fs) ++ ';' :: rest)] := by
    apply skips_of_not_startsAs
    intro p hp
    rcases List.mem_pair.mp hp with rfl | rfl
    · exact hskip "the" (by decide)
    · exact hskip "all" (by decide)
  have hdrop : ("show ".toList ++ (f ++ (clauses (listed fs) ++ ';' :: rest))).drop 5 =
      f ++ (clauses (listed fs) ++ ';' :: rest) := rfl
  have hfuel : fs.length < (f ++ (clauses (listed fs) ++ ';' :: rest)).length := by
    have hle := length_listed_le fs
    simp only [List.length_append, List.length_cons]
    omega
  rw [fieldsAt, if_pos (startsAs_self_append _ _), hdrop, hme, List.flatMap_singleton, hthe,
    List.findSome?_singleton, if_pos (startsWord_word hf _), wordList_listed hf hfs hfuel]

/-! The name of the sheet. -/

theorem indexOf?_eq_none {part cs : List Char} {c : Char} (hc : c ∈ part) (hcs : c ∉ cs) :
    Text.indexOf? part cs = none := by
  induction cs with
  | nil =>
    have hempty : part ≠ [] := List.ne_nil_of_mem hc
    simp [Text.indexOf?, hempty]
  | cons d cs ih =>
    have hstarts : part.isPrefixOf (d :: cs) = false := by
      rw [← Bool.not_eq_true, List.isPrefixOf_iff_prefix]
      intro hstarts
      exact hcs (hstarts.subset hc)
    have hrest : Text.indexOf? part cs = none := ih fun h => hcs (List.mem_cons_of_mem d h)
    rw [Text.indexOf?, hstarts, hrest]
    rfl

theorem lastIndexOf?_of_short {part cs : List Char} (h : cs.length < part.length) :
    Text.lastIndexOf? part cs = none := by
  have hstarts : ∀ ds : List Char, ds.length < part.length → part.isPrefixOf ds = false := by
    intro ds hds
    rw [← Bool.not_eq_true, List.isPrefixOf_iff_prefix]
    intro hstarts
    exact absurd hstarts.length_le (Nat.not_le.mpr hds)
  induction cs with
  | nil =>
    have hempty : part ≠ [] := List.ne_nil_of_length_pos h
    simp [Text.lastIndexOf?, hempty]
  | cons c cs ih =>
    have hrest : Text.lastIndexOf? part cs = none := ih (Nat.lt_of_succ_lt h)
    simp [Text.lastIndexOf?, hrest, hstarts _ h]

theorem lastIndexOf?_append {part : List Char} (hpart : part ≠ []) (cs : List Char) :
    Text.lastIndexOf? part (cs ++ part) = some cs.length := by
  induction cs with
  | nil =>
    cases part with
    | nil => exact absurd rfl hpart
    | cons c part =>
      have hrest : Text.lastIndexOf? (c :: part) part = none := lastIndexOf?_of_short (by simp)
      simp [Text.lastIndexOf?, hrest]
  | cons c cs ih =>
    rw [List.cons_append, Text.lastIndexOf?, ih]
    rfl

theorem spaced_eq_clause (hne : words ≠ []) : spaced words = ' ' :: clause words := by
  cases words with
  | nil => exact absurd rfl hne
  | cons w words => rfl

theorem clause_sheet (hne : words ≠ []) :
    clause ("in".toList :: (words ++ ["sheet".toList])) =
      "in ".toList ++ clause words ++ " sheet".toList := by
  rw [clause, spaced_append, spaced_eq_clause hne]
  simp

theorem nameInRun_sheet (hwords : ∀ w ∈ words, Plain w) (hne : words ≠ []) :
    nameInRun "in ".toList " sheet".toList (clause ("in".toList :: (words ++ ["sheet".toList]))) =
      some (clause words) := by
  obtain ⟨c, cs, hfirst, -⟩ := exists_first hwords hne
  have hstart : Text.indexOf? "in ".toList ("in ".toList ++ clause words ++ " sheet".toList) =
      some 0 := by
    simp [Text.indexOf?]
  have hstop := @lastIndexOf?_append " sheet".toList (by decide) ("in ".toList ++ clause words)
  have hlt : 0 + "in ".toList.length < ("in ".toList ++ clause words).length := by
    rw [hfirst]
    simp
  unfold nameInRun
  rw [clause_sheet hne, hstart, hstop]
  simp only [Option.map_some, Option.bind_eq_bind, Option.bind_some, if_pos hlt, List.take_left]
  rfl

/-- One word after the opening, or none, is too little for a name. -/
theorem nameInRun_show {f : List Char} (hf : Plain f) :
    nameInRun "in ".toList " sheet".toList (clause ["show".toList, f]) = none ∧
      nameInRun "in ".toList " sheet".toList (clause [f]) = none := by
  have hspace : ' ' ∉ f := fun h => hf.unbroken.2 ' ' h (.inl rfl)
  have hword : Text.indexOf? "in ".toList f = none := indexOf?_eq_none (c := ' ') (by decide) hspace
  have hshow : Text.indexOf? "in ".toList ("show".toList ++ ' ' :: f) = none := by
    simp [Text.indexOf?] at hword ⊢
    exact hword
  constructor
  · simp only [nameInRun, clause, spaced_cons, spaced_nil, List.append_nil, hshow]
    rfl
  · simp only [nameInRun, clause, spaced_nil, List.append_nil, hword]
    rfl

/-! The action. -/

theorem contains_iff {part cs : List Char} : Text.contains part cs = true ↔ part <:+: cs := by
  induction cs with
  | nil => simp [Text.contains]
  | cons c cs ih =>
    rw [Text.contains, Bool.or_eq_true, ih, List.isPrefixOf_iff_prefix, List.infix_cons_iff]

end PlainSheets.Query
