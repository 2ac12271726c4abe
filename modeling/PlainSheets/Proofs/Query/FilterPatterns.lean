import PlainSheets.Proofs.Query.Phrases
import PlainSheets.Proofs.Text.Regex

/-!
Filters by patterns. Each rule for filters is a regular expression: a word, one of several texts and a
value, with single spaces between them. Main statement: to look behind each word for the first phrase
that follows it finds the word and the value that the search finds.
-/
namespace PlainSheets.Query

open Text (Regex isWord isDigit)
open Text.Regex (Attempt)

variable {test inValue : Char → Bool} {texts : List String} {cs : List Char}

def stretch (test : Char → Bool) : Regex := (Regex.one test).oneOrMore

def phraseRest (texts : List String) (value : Regex) : Regex :=
  (Regex.literal [' ']).seq
    ((Regex.oneOf (texts.map String.toList)).seq ((Regex.literal [' ']).seq value))

def phrasePattern (texts : List String) (word value : Regex) : Regex :=
  word.seq (phraseRest texts value)

def greaterTexts : List String := ["greater than", "more than", "higher than", "over", "above"]

def lessTexts : List String := ["less than", "lower than", "under", "below"]

def equalTexts : List String := ["equal to", "equals", "is", "="]

def between (text : String) : String := " " ++ text ++ " "

theorem map_between : greaterPhrases = greaterTexts.map between ∧
    lessPhrases = lessTexts.map between ∧ equalPhrases = equalTexts.map between := by
  decide

/-! Runs. A shorter run is followed by another of its own characters, so nothing that begins otherwise
can follow it. -/

/-- The attempts of an expression for one run: the whole run first, and all others stop inside it. -/
structure TakesRun (test : Char → Bool) (held : List Char → Option (List Char)) (p : Regex) :
    Prop where
  outside : ∀ cs, startsWith test cs = false → p.attempts cs = []
  longest : ∀ cs, startsWith test cs = true → ∃ others, p.attempts cs =
    ⟨cs.takeWhile test, held (cs.takeWhile test), cs.dropWhile test⟩ :: others ∧
      ∀ a ∈ others, startsWith test a.rest = true

theorem attempts_many_one (test : Char → Bool) (cs : List Char) : ∃ others,
    (Regex.one test).many.attempts cs = ⟨cs.takeWhile test, none, cs.dropWhile test⟩ :: others ∧
      ∀ a ∈ others, startsWith test a.rest = true := by
  induction cs with
  | nil =>
    refine ⟨[], ?_, List.forall_mem_nil _⟩
    rw [Regex.attempts_many (Regex.one_progress test [])]
    rfl
  | cons c cs ih =>
    obtain ⟨others, hattempts, hothers⟩ := ih
    rw [Regex.attempts_many (Regex.one_progress test (c :: cs)), Regex.attempts_one_seq, hattempts]
    by_cases hc : test c = true
    · refine ⟨others.map (Attempt.cons c) ++ [Attempt.none (c :: cs)], ?_, ?_⟩
      · simp [hc, Attempt.cons]
      · intro a ha
        rcases List.mem_append.mp ha with ha | ha
        · obtain ⟨b, hb, rfl⟩ := List.mem_map.mp ha
          exact hothers b hb
        · obtain rfl := List.mem_singleton.mp ha
          exact hc
    · exact ⟨[], by simp [hc, Attempt.none], List.forall_mem_nil _⟩

theorem takesRun_stretch (test : Char → Bool) : TakesRun test (fun _ => none) (stretch test) where
  outside cs h := by
    cases cs with
    | nil => rfl
    | cons c cs =>
      have hc : test c = false := h
      rw [stretch, Regex.oneOrMore, Regex.attempts_one_seq, hc]
      rfl
  longest cs h := by
    cases cs with
    | nil => cases h
    | cons c cs =>
      have hc : test c = true := h
      obtain ⟨others, hattempts, hothers⟩ := attempts_many_one test cs
      refine ⟨others.map (Attempt.cons c), ?_, List.forall_mem_map.mpr hothers⟩
      rw [stretch, Regex.oneOrMore, Regex.attempts_one_seq, hattempts]
      simp [hc, Attempt.cons]

theorem TakesRun.group {held : List Char → Option (List Char)} {p : Regex}
    (h : TakesRun test held p) : TakesRun test some p.group where
  outside cs hcs := by rw [Regex.attempts, h.outside cs hcs, List.map_nil]
  longest cs hcs := by
    obtain ⟨others, hattempts, hothers⟩ := h.longest cs hcs
    rw [Regex.attempts, hattempts, List.map_cons]
    exact ⟨_, rfl, List.forall_mem_map.mpr hothers⟩

variable {held heldWord heldValue : List Char → Option (List Char)} {p q word value : Regex}

theorem startsWith_eq_false_iff : startsWith test cs = false ↔ cs.takeWhile test = [] := by
  cases cs with
  | nil => exact iff_of_true rfl rfl
  | cons c cs =>
    rw [List.takeWhile_cons]
    cases h : test c <;> simp [startsWith, h]

theorem TakesRun.head? (h : TakesRun test held p) (cs : List Char) :
    (p.attempts cs).head?.map Attempt.held = (valueAt? test cs).map held := by
  rw [valueAt?]
  cases hcs : startsWith test cs with
  | false =>
    rw [h.outside cs hcs, startsWith_eq_false_iff.mp hcs]
    rfl
  | true =>
    obtain ⟨others, hattempts, -⟩ := h.longest cs hcs
    have hne : cs.takeWhile test ≠ [] := by
      rw [ne_eq, ← startsWith_eq_false_iff, hcs]
      exact Bool.true_eq_false.mp
    rw [hattempts, if_neg (by simpa using hne)]
    rfl

/-- What goes on behind a run goes on behind the whole run only. -/
theorem TakesRun.attempts_seq (h : TakesRun test held p)
    (hq : ∀ cs, startsWith test cs = true → q.attempts cs = []) (cs : List Char) :
    (p.seq q).attempts cs = if startsWith test cs then
      (q.attempts (cs.dropWhile test)).map
        (Attempt.mk (cs.takeWhile test) (held (cs.takeWhile test)) (cs.dropWhile test)).andThen
    else [] := by
  rw [Regex.attempts]
  cases hcs : startsWith test cs with
  | false =>
    rw [h.outside cs hcs]
    rfl
  | true =>
    obtain ⟨others, hattempts, hothers⟩ := h.longest cs hcs
    have hnone : (others.flatMap fun a => (q.attempts a.rest).map a.andThen) = [] :=
      List.flatMap_eq_nil_iff.mpr fun a ha => by rw [hq a.rest (hothers a ha), List.map_nil]
    rw [hattempts, List.flatMap_cons, hnone, List.append_nil]
    rfl

/-! Phrases. Of those that are told apart one at most follows a word, so it does not matter which is
tried first. -/

theorem Apart.findSome?_after {phrases : List String} (h : Apart phrases) {β : Type}
    (read : List Char → Option β) (cs : List Char) :
    (phrases.findSome? fun p => (after? p cs).bind read) = (afterAny? phrases cs).bind read := by
  induction phrases with
  | nil => rfl
  | cons p phrases ih =>
    have hrest : Apart phrases :=
      ⟨fun r hr => h.spaced r (List.mem_cons_of_mem p hr),
        fun r hr t ht => h.free r (List.mem_cons_of_mem p hr) t (List.mem_cons_of_mem p ht)⟩
    rw [List.findSome?_cons, afterAny?, ih hrest]
    cases hp : after? p cs with
    | none => rfl
    | some rest =>
      cases hread : read rest with
      | some b => simp [hread]
      | none =>
        have hother : (afterAny? phrases cs).bind read = none := by
          rw [← ih hrest, List.findSome?_eq_none_iff]
          intro q hq
          cases hqcs : after? q cs with
          | none => rfl
          | some other =>
            obtain rfl := h.eq_of_prefix List.mem_cons_self (List.mem_cons_of_mem p hq)
              ⟨rest, (eq_of_after? hp).symm⟩ ⟨other, (eq_of_after? hqcs).symm⟩
            rw [hp] at hqcs
            rw [← Option.some.inj hqcs]
            exact hread
        simp [hread, hother]

theorem held_literal_seq (part : String) (p : Regex) (cs : List Char) :
    ((((Regex.literal part.toList).seq p).attempts cs).head?.map Attempt.held) =
      (after? part cs).bind fun rest => (p.attempts rest).head?.map Attempt.held := by
  rw [Regex.attempts_literal_seq, after?]
  split
  · rw [List.head?_map, Option.map_map]
    rfl
  · rfl

theorem attempts_phraseRest (texts : List String) (value : Regex) (cs : List Char) :
    (phraseRest texts value).attempts cs = (texts.map between).flatMap fun phrase =>
      ((Regex.literal phrase.toList).seq value).attempts cs := by
  have hbetween (text : String) : (between text).toList = [' '] ++ text.toList ++ [' '] := by
    simp [between, String.toList_append]
  rw [phraseRest, Regex.attempts_literal_oneOf]
  simp only [List.flatMap_map, Regex.attempts_literal_append, hbetween]

theorem held_phraseRest (hapart : Apart (texts.map between))
    (hvalue : TakesRun inValue heldValue value) (cs : List Char) :
    ((phraseRest texts value).attempts cs).head?.map Attempt.held =
      ((afterAny? (texts.map between) cs).bind (valueAt? inValue)).map heldValue := by
  have hmap {α β : Type} (f : α → β) (read : String → List α) (phrases : List String) :
      (phrases.flatMap read).head?.map f = phrases.findSome? fun p => (read p).head?.map f := by
    rw [List.head?_flatMap, List.map_findSome?]
    rfl
  rw [attempts_phraseRest, hmap]
  simp only [held_literal_seq, hvalue.head?]
  rw [hapart.findSome?_after, Option.map_bind]
  rfl

theorem phraseRest_of_word {cs : List Char} (h : startsWord cs = true) :
    (phraseRest texts value).attempts cs = [] := by
  cases cs with
  | nil => cases h
  | cons c cs =>
    have hne : c ≠ ' ' := by
      rintro rfl
      have hspace : isWord ' ' = false := by decide
      exact Bool.false_ne_true (hspace.symm.trans h)
    rw [phraseRest, Regex.attempts_literal_seq, if_neg]
    simpa using hne.symm

/-! Places. -/

theorem held_phrasePattern (hapart : Apart (texts.map between))
    (hword : TakesRun isWord heldWord word) (hvalue : TakesRun inValue heldValue value)
    (cs : List Char) : ((phrasePattern texts word value).attempts cs).head?.map Attempt.held =
      if startsWord cs then
        (readPhrased (texts.map between) inValue (wordAt cs) (afterWord cs)).map fun f =>
          (heldValue f.2 <|> heldWord f.1)
      else none := by
  rw [phrasePattern, hword.attempts_seq fun _ => phraseRest_of_word]
  change Option.map _ (List.head? (if startsWord cs then _ else _)) = _
  split
  · have hrest := held_phraseRest hapart hvalue (afterWord cs)
    have hheld := congrArg (Option.map fun h => (h <|> heldWord (wordAt cs))) hrest
    rw [Option.map_map, Option.map_map] at hheld
    rw [List.head?_map, Option.map_map, readPhrased, Option.map_map]
    exact hheld
  · rfl

theorem map_search {β : Type} (p : Regex) (f : Attempt → β) (cs : List Char) :
    (p.search cs).map f = firstAt (fun cs => (p.attempts cs).head?.map f) cs := by
  induction cs with
  | nil => rfl
  | cons c cs ih =>
    rw [Regex.search, firstAt, ← ih]
    cases (p.attempts (c :: cs)).head? <;> rfl

/-- A reader that looks at what follows a word finds nothing in the middle of a word that it did not
find at its start. -/
theorem firstAt_eq_firstAtWordFrom {α : Type} (read : List Char → List Char → Option α)
    (hread : ∀ word word' rest, read word rest = none → read word' rest = none) (inside : Bool)
    (cs : List Char)
    (hinside : inside = true → startsWord cs = true → read (wordAt cs) (afterWord cs) = none) :
    firstAt (fun cs => if startsWord cs then read (wordAt cs) (afterWord cs) else none) cs =
      firstAtWordFrom read inside cs := by
  induction cs generalizing inside with
  | nil => rfl
  | cons c cs ih =>
    rw [firstAt, firstAtWordFrom]
    by_cases hc : isWord c = true
    · have hstarts : startsWord (c :: cs) = true := hc
      have hafter : afterWord (c :: cs) = afterWord cs := by simp [afterWord, hc]
      rw [if_pos hstarts, if_pos hc]
      cases hr : read (wordAt (c :: cs)) (afterWord (c :: cs)) with
      | none =>
        rw [ih true fun _ _ => hread _ _ _ (hafter ▸ hr)]
        cases inside <;> rfl
      | some a =>
        cases inside with
        | false => rfl
        | true =>
          rw [hinside rfl hstarts] at hr
          cases hr
    · have hstarts : ¬ startsWord (c :: cs) = true := hc
      rw [if_neg hstarts, if_neg hc, ih false fun h => absurd h Bool.false_ne_true]
      rfl

theorem held_search (hapart : Apart (texts.map between)) (hword : TakesRun isWord heldWord word)
    (hvalue : TakesRun inValue heldValue value) (text : List Char) :
    ((phrasePattern texts word value).search text).map Attempt.held =
      (firstAtWord (readPhrased (texts.map between) inValue) text).map fun f =>
        (heldValue f.2 <|> heldWord f.1) := by
  rw [map_search, ← firstAtWord_map]
  simp only [held_phrasePattern hapart hword hvalue]
  refine firstAt_eq_firstAtWordFrom (fun word rest =>
    (readPhrased (texts.map between) inValue word rest).map _) ?_ false text
    fun h => absurd h Bool.false_ne_true
  intro word word' rest hnone
  simp only [readPhrased, Option.map_eq_none_iff] at hnone ⊢
  exact hnone

/-! Rules. A pattern has two groups; what each holds is read with the other one left out. -/

/-- Field and number of a comparison, by the patterns for greater and for less. -/
theorem comparison_eq_search {phrases : List String}
    (hphrases : (phrases, texts) ∈ [(greaterPhrases, greaterTexts), (lessPhrases, lessTexts)])
    (text : List Char) :
    ((phrasePattern texts (stretch isWord).group (stretch isDigit)).search text).map Attempt.held =
      (comparison phrases text).map (fun f => some f.1) ∧
    ((phrasePattern texts (stretch isWord) (stretch isDigit).group).search text).map Attempt.held =
      (comparison phrases text).map (fun f => some f.2) := by
  have hapart : phrases = texts.map between ∧ Apart phrases := by
    simp only [List.mem_cons, Prod.mk.injEq, List.not_mem_nil, or_false] at hphrases
    rcases hphrases with ⟨rfl, rfl⟩ | ⟨rfl, rfl⟩
    · exact ⟨map_between.1, apart_phrases.1⟩
    · exact ⟨map_between.2.1, apart_phrases.2.1⟩
  obtain ⟨rfl, hapart⟩ := hapart
  constructor
  · exact held_search hapart (takesRun_stretch isWord).group (takesRun_stretch isDigit) text
  · exact held_search hapart (takesRun_stretch isWord) (takesRun_stretch isDigit).group text

/-- Field and text of an equality. -/
theorem equality_eq_search (text : List Char) :
    ((phrasePattern equalTexts (stretch isWord).group (stretch inText)).search text).map Attempt.held =
      (equality text).map (fun f => some f.1) ∧
    ((phrasePattern equalTexts (stretch isWord) (stretch inText).group).search text).map
      (fun a => a.held.map Text.trim) = (equality text).map (fun f => some f.2) := by
  have hapart := apart_phrases.2.2
  rw [map_between.2.2] at hapart
  rw [equality_eq, map_between.2.2]
  constructor
  · rw [held_search hapart (takesRun_stretch isWord).group (takesRun_stretch inText), Option.map_map]
    rfl
  · have hvalue := held_search hapart (takesRun_stretch isWord) (takesRun_stretch inText).group text
    have htrimmed := congrArg (Option.map (Option.map Text.trim)) hvalue
    rw [Option.map_map, Option.map_map] at htrimmed
    rw [Option.map_map]
    exact htrimmed

end PlainSheets.Query
