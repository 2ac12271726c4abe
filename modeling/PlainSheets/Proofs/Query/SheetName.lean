import PlainSheets.Proofs.Text.Regex
import PlainSheets.Query.Rules

/-!
Sheet names by patterns. The ways to name a sheet are regular expressions, tried in order, each
searched over the whole text. Main statement: to look at the first opening and the last closing of
each word run finds the name that the search finds, whatever counts as a word character.
-/
namespace PlainSheets.Query

open Text (Regex indexOf? lastIndexOf?)
open Text.Regex (Attempt)

variable {word : Char → Bool} {opening closing : List Char}

def wordsPattern (word : Char → Bool) : Regex :=
  (Regex.one word).oneOrMore.seq ((Regex.one fun c => c == ' ').seq (Regex.one word).oneOrMore).many

/-- Words between two texts. The words are the group. -/
def namePattern (word : Char → Bool) (opening closing : List Char) : Regex :=
  (Regex.literal opening).seq ((wordsPattern word).group.seq (Regex.literal closing))

/-- The ways to name a sheet, in the order in which they are tried. -/
def namePatterns (word : Char → Bool) : List Regex :=
  [namePattern word "in ".toList " sheet".toList, namePattern word "from ".toList " sheet".toList,
    namePattern word "".toList " data".toList, namePattern word "".toList " sheet".toList]

/-! The words at the start of a text. -/

/-- The places where words may stop, longest first, as what stands before them. The flag says that a
word has begun. -/
def stops (word : Char → Bool) : Bool → List Char → List (List Char)
  | inside, [] => if inside then [[]] else []
  | inside, c :: cs =>
    (if word c then (stops word true cs).map (c :: ·)
      else if inside && c == ' ' then (stops word false cs).map (c :: ·)
      else []) ++ if inside then [[]] else []

def takes (cs taken : List Char) : Attempt := ⟨taken, none, cs.drop taken.length⟩

theorem map_cons_takes (c : Char) (cs : List Char) (ps : List (List Char)) :
    (ps.map (takes cs)).map (Attempt.cons c) = (ps.map (c :: ·)).map (takes (c :: cs)) := by
  simp [takes, Attempt.cons, Function.comp_def]

def moreWords (word : Char → Bool) : Regex :=
  (Regex.one word).many.seq ((Regex.one fun c => c == ' ').seq (Regex.one word).oneOrMore).many

theorem attempts_wordsPattern (word : Char → Bool) (cs : List Char) :
    (wordsPattern word).attempts cs = ((Regex.one word).seq (moreWords word)).attempts cs :=
  Regex.attempts_seq_assoc _ _ _ cs

theorem attempts_moreWords (word : Char → Bool) (cs : List Char) :
    (moreWords word).attempts cs =
      ((Regex.one word).seq (moreWords word)).attempts cs ++
        (((Regex.one fun c => c == ' ').seq (wordsPattern word)).attempts cs ++
          [Attempt.none cs]) := by
  rw [moreWords, Regex.attempts_many_seq _ (Regex.one_progress word cs),
    Regex.attempts_many (Regex.one_seq_progress _ _ cs), Regex.attempts_seq_assoc, wordsPattern]

theorem attempts_eq_stops (space : word ' ' = false) (cs : List Char) :
    (moreWords word).attempts cs = (stops word true cs).map (takes cs) ∧
      (wordsPattern word).attempts cs = (stops word false cs).map (takes cs) := by
  induction cs with
  | nil =>
    rw [attempts_moreWords, attempts_wordsPattern]
    simp [stops, takes, Attempt.none]
  | cons c cs ih =>
    obtain ⟨hmore, hwords⟩ := ih
    rw [attempts_moreWords, attempts_wordsPattern, Regex.attempts_one_seq, Regex.attempts_one_seq,
      hmore, hwords]
    by_cases hc : word c
    · have hne : ¬ c = ' ' := by
        rintro rfl
        simp [space] at hc
      simp only [map_cons_takes]
      simp [stops, hc, hne, takes, Attempt.none]
    · simp only [map_cons_takes]
      by_cases hs : c = ' ' <;> simp [stops, hc, hs, takes, Attempt.none, space]

/-- The name at the start of a text: the longest words after the opening that the closing follows.
-/
def nameAt (word : Char → Bool) (opening closing cs : List Char) : Option (List Char) :=
  if opening.isPrefixOf cs then
    (stops word false (cs.drop opening.length)).find? fun p =>
      closing.isPrefixOf ((cs.drop opening.length).drop p.length)
  else none

theorem head?_attempts (space : word ' ' = false) (cs : List Char) :
    ((namePattern word opening closing).attempts cs).head? =
      (nameAt word opening closing cs).map fun p =>
        ⟨opening ++ (p ++ closing), some p,
          ((cs.drop opening.length).drop p.length).drop closing.length⟩ := by
  rw [namePattern, Regex.attempts_literal_seq, nameAt]
  split
  · generalize cs.drop opening.length = ds
    have hgroup : ((wordsPattern word).group.seq (Regex.literal closing)).attempts ds =
        (stops word false ds).flatMap fun p =>
          if closing.isPrefixOf (ds.drop p.length) then
            [⟨p ++ closing, some p, (ds.drop p.length).drop closing.length⟩]
          else [] := by
      simp only [Regex.attempts, (attempts_eq_stops space ds).2, List.flatMap_map,
        Regex.attempts_literal]
      congr 1
      funext p
      by_cases h : closing.isPrefixOf (ds.drop p.length) <;> simp [takes, h, Attempt.andThen]
    rw [hgroup, List.head?_map, List.head?_flatMap]
    generalize stops word false ds = ps
    induction ps with
    | nil => rfl
    | cons p ps ih =>
      rw [List.findSome?_cons, List.find?_cons]
      cases h : closing.isPrefixOf (ds.drop p.length) with
      | true => rfl
      | false => exact ih
  · rfl

theorem search_eq_firstAt (space : word ' ' = false) (cs : List Char) :
    ((namePattern word opening closing).search cs).bind Attempt.held =
      firstAt (nameAt word opening closing) cs := by
  induction cs with
  | nil =>
    rw [Regex.search, head?_attempts space, firstAt]
    cases nameAt word opening closing [] <;> rfl
  | cons c cs ih =>
    rw [Regex.search, head?_attempts space, firstAt, ← ih]
    cases nameAt word opening closing (c :: cs) <;> rfl

theorem search_eq_none_iff (space : word ' ' = false) (cs : List Char) :
    (namePattern word opening closing).search cs = none ↔
      firstAt (nameAt word opening closing) cs = none := by
  induction cs with
  | nil =>
    rw [Regex.search, head?_attempts space, firstAt]
    cases nameAt word opening closing [] <;> simp
  | cons c cs ih =>
    rw [Regex.search, head?_attempts space, firstAt]
    cases nameAt word opening closing (c :: cs) with
    | none => simpa using ih
    | some p => simp

/-! Word runs. What the patterns ask of the texts around a name is that they are words and the space
that joins them to it. So a match never leaves the run in which it begins. -/

/-- A name can stand between two texts: whole words before it, or nothing, and whole words behind
it. -/
structure Encloses (word : Char → Bool) (opening closing : List Char) : Prop where
  space : word ' ' = false
  opening_eq : opening = [] ∨ ∃ letters, letters ≠ [] ∧ (∀ c ∈ letters, word c) ∧
    opening = letters ++ [' ']
  closing_eq : ∃ letters, letters ≠ [] ∧ (∀ c ∈ letters, word c) ∧ closing = ' ' :: letters

theorem spanRun_word {c : Char} (hc : word c) (cs : List Char) :
    spanRun word (c :: cs) = (c :: (spanRun word cs).1, (spanRun word cs).2) := by
  simp [spanRun, hc]

theorem spanRun_space {cs : List Char} (h : startsWith word cs) :
    spanRun word (' ' :: cs) = (' ' :: (spanRun word cs).1, (spanRun word cs).2) := by
  simp [spanRun, h]

theorem spanRun_stop {c : Char} {cs : List Char} (hc : ¬ word c)
    (hs : ¬ (c = ' ' ∧ startsWith word cs)) : spanRun word (c :: cs) = ([], c :: cs) := by
  simp [spanRun, hc]
  simpa using hs

theorem spanRun_cases (word : Char → Bool) (c : Char) (cs : List Char) :
    (word c ∧ spanRun word (c :: cs) = (c :: (spanRun word cs).1, (spanRun word cs).2)) ∨
      (¬ word c ∧ c = ' ' ∧ startsWith word cs ∧
        spanRun word (c :: cs) = (c :: (spanRun word cs).1, (spanRun word cs).2)) ∨
      (¬ word c ∧ ¬ (c = ' ' ∧ startsWith word cs) ∧ spanRun word (c :: cs) = ([], c :: cs)) := by
  by_cases hc : word c
  · exact .inl ⟨hc, spanRun_word hc cs⟩
  · by_cases hs : c = ' ' ∧ startsWith word cs
    · obtain ⟨rfl, hs⟩ := hs
      exact .inr (.inl ⟨hc, rfl, hs, spanRun_space hs⟩)
    · exact .inr (.inr ⟨hc, hs, spanRun_stop hc hs⟩)

theorem spanRun_append (word : Char → Bool) (cs : List Char) :
    (spanRun word cs).1 ++ (spanRun word cs).2 = cs := by
  induction cs with
  | nil => rfl
  | cons c cs ih =>
    rcases spanRun_cases word c cs with ⟨-, h⟩ | ⟨-, -, -, h⟩ | ⟨-, -, h⟩ <;> simp [h, ih]

theorem startsWith_spanRun (word : Char → Bool) (cs : List Char) :
    startsWith word (spanRun word cs).1 = startsWith word cs := by
  cases cs with
  | nil => rfl
  | cons c cs =>
    rcases spanRun_cases word c cs with ⟨-, h⟩ | ⟨-, rfl, -, h⟩ | ⟨hc, -, h⟩ <;> rw [h]
    · rfl
    · rfl
    · simpa [startsWith] using hc

theorem startsWith_append {cs : List Char} (h : startsWith word cs) (rest : List Char) :
    startsWith word (cs ++ rest) := by
  cases cs with
  | nil => simp [startsWith] at h
  | cons c cs => exact h

theorem spanRun_spanRun (word : Char → Bool) (cs : List Char) :
    spanRun word (spanRun word cs).1 = ((spanRun word cs).1, []) := by
  induction cs with
  | nil => rfl
  | cons c cs ih =>
    rcases spanRun_cases word c cs with ⟨hc, h⟩ | ⟨-, rfl, hs, h⟩ | ⟨-, -, h⟩ <;> rw [h]
    · rw [spanRun_word hc, ih]
    · rw [spanRun_space ((startsWith_spanRun word cs).trans hs), ih]
    · rfl

theorem isPrefixOf_spanRun {part : List Char} (letters : ∀ c ∈ part, word c) (cs : List Char) :
    part.isPrefixOf (spanRun word cs).1 = part.isPrefixOf cs := by
  induction part generalizing cs with
  | nil => simp
  | cons p part ih =>
    have hp : word p := letters p (List.mem_cons_self ..)
    have hpart : ∀ c ∈ part, word c := fun c hc => letters c (List.mem_cons_of_mem p hc)
    cases cs with
    | nil => rfl
    | cons c cs =>
      rcases spanRun_cases word c cs with ⟨-, h⟩ | ⟨-, -, -, h⟩ | ⟨hc, -, h⟩
      · simp [h, List.isPrefixOf, ih hpart]
      · simp [h, List.isPrefixOf, ih hpart]
      · have hne : ¬ p = c := by
          rintro rfl
          exact hc hp
        simp [h, List.isPrefixOf, hne]

namespace Encloses

theorem closing_word (h : Encloses word opening closing) {c : Char} (hc : word c) (cs : List Char) :
    closing.isPrefixOf (c :: cs) = false := by
  obtain ⟨letters, -, -, rfl⟩ := h.closing_eq
  have hne : ¬ ' ' = c := by
    rintro rfl
    simp [h.space] at hc
  simp [List.isPrefixOf, hne]

theorem closing_of_not_startsWith (h : Encloses word opening closing) {c : Char} {cs : List Char}
    (hs : ¬ (c = ' ' ∧ startsWith word cs)) : closing.isPrefixOf (c :: cs) = false := by
  obtain ⟨letters, hne, hletters, rfl⟩ := h.closing_eq
  obtain ⟨l, letters, rfl⟩ := List.exists_cons_of_ne_nil hne
  have hl : word l := hletters l (List.mem_cons_self ..)
  cases cs with
  | nil => simp [List.isPrefixOf]
  | cons d cs =>
    by_cases hc : ' ' = c
    · have hld : ¬ l = d := by
        rintro rfl
        exact hs ⟨hc.symm, hl⟩
      simp [List.isPrefixOf, hld]
    · simp [List.isPrefixOf, hc]

theorem closing_spanRun (h : Encloses word opening closing) (cs : List Char) :
    closing.isPrefixOf (' ' :: (spanRun word cs).1) = closing.isPrefixOf (' ' :: cs) := by
  obtain ⟨letters, -, hletters, rfl⟩ := h.closing_eq
  simp [List.isPrefixOf, isPrefixOf_spanRun hletters]

theorem closing_nil (h : Encloses word opening closing) : closing.isPrefixOf [] = false := by
  obtain ⟨letters, -, -, rfl⟩ := h.closing_eq
  rfl

theorem lastIndexOf?_nil (h : Encloses word opening closing) : lastIndexOf? closing [] = none := by
  obtain ⟨letters, -, -, rfl⟩ := h.closing_eq
  rfl

/-- The longest words end where the last closing of the run stands. -/
theorem find?_stops (h : Encloses word opening closing) (cs : List Char) :
    (stops word true cs).find? (fun p => closing.isPrefixOf (cs.drop p.length)) =
        (lastIndexOf? closing (spanRun word cs).1).map (spanRun word cs).1.take ∧
      (stops word false cs).find? (fun p => closing.isPrefixOf (cs.drop p.length)) =
        if startsWith word cs then
          (lastIndexOf? closing (spanRun word cs).1).map (spanRun word cs).1.take
        else none := by
  induction cs with
  | nil => simp [stops, spanRun, startsWith, h.closing_nil, h.lastIndexOf?_nil]
  | cons c cs ih =>
    obtain ⟨htrue, hfalse⟩ := ih
    have hmap (ps : List (List Char)) :
        (ps.map (c :: ·)).find? (fun p => closing.isPrefixOf ((c :: cs).drop p.length)) =
          (ps.find? fun p => closing.isPrefixOf (cs.drop p.length)).map (c :: ·) := by
      rw [List.find?_map]
      rfl
    rcases spanRun_cases word c cs with ⟨hc, hspan⟩ | ⟨hc, rfl, hs, hspan⟩ | ⟨hc, hs, hspan⟩ <;>
      rw [hspan]
    · have hlast : ((lastIndexOf? closing (spanRun word cs).1).map (spanRun word cs).1.take).map
            (c :: ·) =
          (lastIndexOf? closing (c :: (spanRun word cs).1)).map
            (c :: (spanRun word cs).1).take := by
        rw [lastIndexOf?]
        cases lastIndexOf? closing (spanRun word cs).1 <;> simp [h.closing_word hc]
      constructor
      · simp only [stops, hc, if_true, List.find?_append, hmap, htrue, hlast]
        simp [h.closing_word hc]
      · simp only [stops, hc, if_true, List.find?_append, hmap, htrue, hlast]
        simp [startsWith, hc]
    · constructor
      · simp only [stops, hc, Bool.false_eq_true, if_false, Bool.true_and, beq_self_eq_true,
          if_true, List.find?_append, hmap, hfalse, hs, lastIndexOf?]
        cases lastIndexOf? closing (spanRun word cs).1 with
        | none => cases hp : closing.isPrefixOf (' ' :: cs) <;> simp [hp, h.closing_spanRun]
        | some i => simp
      · simp [stops, hc, startsWith]
    · have hclose : closing.isPrefixOf (c :: cs) = false := h.closing_of_not_startsWith hs
      constructor
      · by_cases hspace : c = ' '
        · subst hspace
          have hcs : startsWith word cs = false := by simpa using hs
          simp only [stops, hc, Bool.false_eq_true, if_false, Bool.true_and, beq_self_eq_true,
            if_true, List.find?_append, hmap, hfalse, hcs]
          simp [hclose, h.lastIndexOf?_nil]
        · simp [stops, hc, hspace, h.lastIndexOf?_nil, hclose]
      · simp [stops, hc, startsWith]

/-- Between an opening and a word there is no place where a run could end. -/
theorem spanRun_drop (h : Encloses word opening closing) {cs : List Char}
    (hopening : opening.isPrefixOf cs) (hs : startsWith word (cs.drop opening.length)) :
    (spanRun word cs).1 = opening ++ (spanRun word (cs.drop opening.length)).1 := by
  obtain ⟨rest, rfl⟩ := List.isPrefixOf_iff_prefix.mp hopening
  rw [List.drop_left] at hs ⊢
  rcases h.opening_eq with rfl | ⟨letters, -, hletters, rfl⟩
  · rfl
  · have hspan : (spanRun word (' ' :: rest)).1 = ' ' :: (spanRun word rest).1 := by
      rw [spanRun_space hs]
    clear hopening h
    induction letters with
    | nil => exact hspan
    | cons l letters ih =>
      have hl : word l := hletters l (List.mem_cons_self ..)
      have hrest := ih fun c hc => hletters c (List.mem_cons_of_mem l hc)
      simp only [List.cons_append, spanRun_word hl, hrest]

theorem opening_cons (h : Encloses word opening closing) {c : Char} (hc : ¬ word c) (cs : List Char)
    (hopening : opening.isPrefixOf (c :: cs)) : opening = [] := by
  rcases h.opening_eq with rfl | ⟨letters, hne, hletters, rfl⟩
  · rfl
  · obtain ⟨l, letters, rfl⟩ := List.exists_cons_of_ne_nil hne
    have hl : word l := hletters l (List.mem_cons_self ..)
    have hlc : l = c := by
      simp [List.isPrefixOf] at hopening
      exact hopening.1
    exact absurd (hlc ▸ hl) hc

theorem nameAt_eq (h : Encloses word opening closing) (cs : List Char) :
    nameAt word opening closing cs =
      if opening.isPrefixOf cs ∧ startsWith word (cs.drop opening.length) then
        (lastIndexOf? closing (spanRun word (cs.drop opening.length)).1).map
          (spanRun word (cs.drop opening.length)).1.take
      else none := by
  rw [nameAt, (h.find?_stops _).2]
  by_cases hopening : opening.isPrefixOf cs <;>
    by_cases hs : startsWith word (cs.drop opening.length) <;> simp [hopening, hs]

theorem nameAt_spanRun (h : Encloses word opening closing) (cs : List Char) :
    nameAt word opening closing (spanRun word cs).1 = nameAt word opening closing cs := by
  rw [h.nameAt_eq, h.nameAt_eq]
  by_cases hat : opening.isPrefixOf cs ∧ startsWith word (cs.drop opening.length)
  · have hspan := h.spanRun_drop hat.1 hat.2
    have hlead : opening.isPrefixOf (spanRun word cs).1 := by
      rw [hspan]
      exact List.isPrefixOf_iff_prefix.mpr (List.prefix_append ..)
    have hdrop : (spanRun word cs).1.drop opening.length =
        (spanRun word (cs.drop opening.length)).1 := by
      rw [hspan, List.drop_left]
    have hs : startsWith word (spanRun word (cs.drop opening.length)).1 :=
      (startsWith_spanRun word _).trans hat.2
    rw [if_pos hat, hdrop, if_pos ⟨hlead, hs⟩, spanRun_spanRun]
  · rw [if_neg hat, if_neg]
    rintro ⟨hlead, hs⟩
    apply hat
    rw [← spanRun_append word cs]
    obtain ⟨rest, hrest⟩ := List.isPrefixOf_iff_prefix.mp hlead
    rw [← hrest, List.drop_left] at hs
    rw [← hrest, List.append_assoc]
    refine ⟨List.isPrefixOf_iff_prefix.mpr (List.prefix_append ..), ?_⟩
    rw [List.drop_left]
    exact startsWith_append hs _

theorem nameAt_of_not_word (h : Encloses word opening closing) {c : Char} (hc : ¬ word c)
    (cs : List Char) : nameAt word opening closing (c :: cs) = none := by
  rw [h.nameAt_eq, if_neg]
  rintro ⟨hopening, hs⟩
  rw [h.opening_cons hc cs hopening] at hs
  exact hc hs

theorem nameAt_nil (h : Encloses word opening closing) : nameAt word opening closing [] = none := by
  rw [h.nameAt_eq, if_neg]
  simp [startsWith]

/-- A search comes to the end of a run before it goes on behind it. -/
theorem firstAt_spanRun (h : Encloses word opening closing) (cs : List Char) :
    firstAt (nameAt word opening closing) cs =
      (firstAt (nameAt word opening closing) (spanRun word cs).1 <|>
        firstAt (nameAt word opening closing) (spanRun word cs).2) := by
  induction cs with
  | nil => simp [spanRun, firstAt, h.nameAt_nil]
  | cons c cs ih =>
    have hname := h.nameAt_spanRun (c :: cs)
    rcases spanRun_cases word c cs with ⟨-, hspan⟩ | ⟨-, -, -, hspan⟩ | ⟨-, -, hspan⟩ <;>
      rw [hspan] at hname ⊢
    · rw [firstAt, firstAt, ih, hname, Option.orElse_eq_orElse]
      cases nameAt word opening closing (c :: cs) <;> rfl
    · rw [firstAt, firstAt, ih, hname, Option.orElse_eq_orElse]
      cases nameAt word opening closing (c :: cs) <;> rfl
    · simp [firstAt, h.nameAt_nil]

end Encloses

/-! Inside one run the first opening decides: if no closing follows it, none follows a later one. -/

def IsRun (word : Char → Bool) (cs : List Char) : Prop := spanRun word cs = (cs, [])

theorem IsRun.tail {c : Char} {cs : List Char} (h : IsRun word (c :: cs)) : IsRun word cs := by
  have hcs := spanRun_append word cs
  unfold IsRun at h ⊢
  rcases spanRun_cases word c cs with ⟨-, hspan⟩ | ⟨-, -, -, hspan⟩ | ⟨-, -, hspan⟩ <;>
    rw [hspan] at h
  · have hrest : (spanRun word cs).2 = [] := (Prod.mk.inj h).2
    rw [hrest, List.append_nil] at hcs
    exact Prod.ext hcs hrest
  · have hrest : (spanRun word cs).2 = [] := (Prod.mk.inj h).2
    rw [hrest, List.append_nil] at hcs
    exact Prod.ext hcs hrest
  · simp at h

theorem IsRun.drop {cs : List Char} (h : IsRun word cs) (n : Nat) : IsRun word (cs.drop n) := by
  induction n generalizing cs with
  | zero => exact h
  | succ n ih =>
    cases cs with
    | nil => exact h
    | cons c cs => exact ih h.tail

theorem IsRun.startsWith_of_space (space : word ' ' = false) {cs : List Char}
    (h : IsRun word (' ' :: cs)) : startsWith word cs := by
  unfold IsRun at h
  rcases spanRun_cases word ' ' cs with ⟨hc, -⟩ | ⟨-, -, hs, -⟩ | ⟨-, -, hspan⟩
  · simp [space] at hc
  · exact hs
  · simp [hspan] at h

theorem lastIndexOf?_drop {part : List Char} (hne : part ≠ []) (cs : List Char) (n : Nat) :
    lastIndexOf? part (cs.drop n) =
      (lastIndexOf? part cs).bind fun i => if n ≤ i then some (i - n) else none := by
  induction n generalizing cs with
  | zero => simp
  | succ n ih =>
    cases cs with
    | nil => simp [lastIndexOf?, hne]
    | cons c cs =>
      rw [List.drop_succ_cons, ih, lastIndexOf?]
      cases lastIndexOf? part cs with
      | none => by_cases hp : part.isPrefixOf (c :: cs) <;> simp [hp]
      | some i => simp

theorem isPrefixOf_of_indexOf? {part cs : List Char} {i : Nat} (h : indexOf? part cs = some i) :
    part.isPrefixOf (cs.drop i) := by
  induction cs generalizing i with
  | nil =>
    simp only [indexOf?, Option.ite_none_right_eq_some, List.isEmpty_iff] at h
    simp [h.1]
  | cons c cs ih =>
    rw [indexOf?] at h
    split at h
    · rename_i hp
      cases h
      exact hp
    · obtain ⟨j, hj, rfl⟩ := Option.map_eq_some_iff.mp h
      exact ih hj

theorem isPrefixOf_of_lastIndexOf? {part cs : List Char} {i : Nat}
    (h : lastIndexOf? part cs = some i) : part.isPrefixOf (cs.drop i) := by
  induction cs generalizing i with
  | nil =>
    simp only [lastIndexOf?, Option.ite_none_right_eq_some, List.isEmpty_iff] at h
    simp [h.1]
  | cons c cs ih =>
    rw [lastIndexOf?] at h
    split at h
    · rename_i j hj
      cases h
      exact ih hj
    · split at h
      · rename_i hp
        cases h
        exact hp
      · simp at h

namespace Encloses

theorem closing_ne_nil (h : Encloses word opening closing) : closing ≠ [] := by
  obtain ⟨letters, -, -, rfl⟩ := h.closing_eq
  simp

theorem startsWith_of_opening (h : Encloses word opening closing) (hne : opening ≠ [])
    {cs : List Char} (hrun : IsRun word cs) (hopening : opening.isPrefixOf cs) :
    startsWith word (cs.drop opening.length) := by
  rcases h.opening_eq with rfl | ⟨letters, -, -, rfl⟩
  · exact absurd rfl hne
  · obtain ⟨rest, rfl⟩ := List.isPrefixOf_iff_prefix.mp hopening
    rw [List.drop_left]
    have hspace := hrun.drop letters.length
    rw [List.append_assoc, List.drop_left] at hspace
    exact hspace.startsWith_of_space h.space

theorem nameAt_run (h : Encloses word opening closing) {cs : List Char} (hrun : IsRun word cs)
    (hopening : opening.isPrefixOf cs) (hs : startsWith word (cs.drop opening.length)) :
    nameAt word opening closing cs =
      (lastIndexOf? closing (cs.drop opening.length)).map (cs.drop opening.length).take := by
  rw [h.nameAt_eq, if_pos ⟨hopening, hs⟩, hrun.drop opening.length]

/-- Without a closing behind the first place for a name there is none behind a later one. -/
theorem firstAt_eq_none (h : Encloses word opening closing) {cs : List Char} (hrun : IsRun word cs)
    (hlast : lastIndexOf? closing (cs.drop opening.length) = none) :
    firstAt (nameAt word opening closing) cs = none := by
  have hname : nameAt word opening closing cs = none := by
    rw [h.nameAt_eq, hrun.drop opening.length, hlast]
    simp
  induction cs with
  | nil => rw [firstAt, hname]
  | cons c cs ih =>
    have hdrop : cs.drop opening.length = ((c :: cs).drop opening.length).drop 1 := by
      rw [List.drop_drop, List.drop_succ_cons]
    have hnext : lastIndexOf? closing (cs.drop opening.length) = none := by
      rw [hdrop, lastIndexOf?_drop h.closing_ne_nil, hlast]
      rfl
    have hnone : nameAt word opening closing cs = none := by
      rw [h.nameAt_eq, hrun.tail.drop opening.length, hnext]
      simp
    rw [firstAt, hname, ih hrun.tail hnext hnone]
    rfl

theorem firstAt_of_opening (h : Encloses word opening closing) {cs : List Char}
    (hrun : IsRun word cs) (hopening : opening.isPrefixOf cs)
    (hs : startsWith word (cs.drop opening.length)) :
    firstAt (nameAt word opening closing) cs =
      (lastIndexOf? closing (cs.drop opening.length)).map (cs.drop opening.length).take := by
  cases hlast : lastIndexOf? closing (cs.drop opening.length) with
  | none => exact h.firstAt_eq_none hrun hlast
  | some i =>
    have hname := h.nameAt_run hrun hopening hs
    rw [hlast] at hname
    cases cs with
    | nil => rw [firstAt, hname]
    | cons c cs =>
      rw [firstAt, hname]
      rfl

theorem map_take_lastIndexOf? (h : Encloses word opening closing) (cs : List Char) (start : Nat)
    (hs : startsWith word (cs.drop start)) :
    (lastIndexOf? closing (cs.drop start)).map (cs.drop start).take =
      (lastIndexOf? closing cs).bind fun stop =>
        if start < stop then some ((cs.take stop).drop start) else none := by
  rw [lastIndexOf?_drop h.closing_ne_nil]
  cases hlast : lastIndexOf? closing cs with
  | none => rfl
  | some stop =>
    have hne : start ≠ stop := by
      rintro rfl
      have hlead := isPrefixOf_of_lastIndexOf? hlast
      obtain ⟨d, ds, hds⟩ : ∃ d ds, cs.drop start = d :: ds := by
        cases hd : cs.drop start with
        | nil => simp [hd, startsWith] at hs
        | cons d ds => exact ⟨d, ds, rfl⟩
      rw [hds] at hs hlead
      rw [h.closing_word hs] at hlead
      exact absurd hlead (by decide)
    by_cases hle : start ≤ stop
    · have hlt : start < stop := Nat.lt_of_le_of_ne hle hne
      simp [hle, hlt, List.drop_take]
    · have hlt : ¬ start < stop := fun hlt => hle (Nat.le_of_lt hlt)
      simp [hle, hlt]

theorem firstAt_run (h : Encloses word opening closing) (hne : opening ≠ []) {cs : List Char}
    (hrun : IsRun word cs) :
    firstAt (nameAt word opening closing) cs =
      (indexOf? opening cs).bind fun i =>
        (lastIndexOf? closing (cs.drop (i + opening.length))).map
          (cs.drop (i + opening.length)).take := by
  induction cs with
  | nil => simp [firstAt, h.nameAt_nil, indexOf?, hne]
  | cons c cs ih =>
    by_cases hopening : opening.isPrefixOf (c :: cs)
    · rw [h.firstAt_of_opening hrun hopening (h.startsWith_of_opening hne hrun hopening)]
      simp [indexOf?, hopening]
    · have hname : nameAt word opening closing (c :: cs) = none := by
        rw [h.nameAt_eq, if_neg]
        exact fun hat => hopening hat.1
      rw [firstAt, hname, ih hrun.tail, indexOf?, if_neg hopening, Option.bind_map]
      simp only [Function.comp_def, Nat.add_right_comm, List.drop_succ_cons]
      rfl

/-- The first opening and the last closing of a run are what the search settles on. -/
theorem nameInRun_eq (h : Encloses word opening closing) {run : List Char} (hrun : IsRun word run)
    (hs : startsWith word run) :
    nameInRun opening closing run = firstAt (nameAt word opening closing) run := by
  by_cases hne : opening = []
  · subst hne
    rw [h.firstAt_of_opening hrun (by simp) hs]
    exact (h.map_take_lastIndexOf? run 0 hs).symm
  · have hempty : opening.isEmpty = false := by simpa using hne
    rw [h.firstAt_run hne hrun]
    simp only [nameInRun, hempty, Bool.false_eq_true, if_false]
    cases hi : indexOf? opening run with
    | none => rfl
    | some i =>
      have hword : startsWith word (run.drop (i + opening.length)) := by
        rw [← List.drop_drop]
        exact h.startsWith_of_opening hne (hrun.drop i) (isPrefixOf_of_indexOf? hi)
      exact (h.map_take_lastIndexOf? run _ hword).symm

theorem findSheetName_eq (h : Encloses word opening closing) (text : List Char) :
    findSheetName word text opening closing = firstAt (nameAt word opening closing) text := by
  unfold findSheetName
  fun_induction runs word text with
  | case1 => simp [firstAt, h.nameAt_nil]
  | case2 c cs hc ih =>
    have hspan := spanRun_word hc cs
    have hrun : IsRun word (c :: (spanRun word cs).1) := by
      have hidem := spanRun_spanRun word (c :: cs)
      rwa [hspan] at hidem
    rw [List.findSome?_cons, ih, h.nameInRun_eq hrun hc, h.firstAt_spanRun (c :: cs), hspan]
    cases firstAt (nameAt word opening closing) (c :: (spanRun word cs).1) <;> rfl
  | case3 c cs hc ih =>
    rw [ih, firstAt, h.nameAt_of_not_word (by simpa using hc)]
    rfl

end Encloses

/-! All forms. -/

theorem encloses_of_mem_forms (space : word ' ' = false)
    (letters : ∀ c ∈ "infromsheetdata".toList, word c) :
    ∀ form ∈ sheetNameForms, Encloses word form.1.toList form.2.toList := by
  have hletters (part : List Char) (hpart : part ⊆ "infromsheetdata".toList) : ∀ c ∈ part, word c :=
    fun c hc => letters c (hpart hc)
  have hsheet : ∃ part, part ≠ [] ∧ (∀ c ∈ part, word c) ∧ " sheet".toList = ' ' :: part :=
    ⟨"sheet".toList, by decide, hletters _ (by decide), by decide⟩
  have hdata : ∃ part, part ≠ [] ∧ (∀ c ∈ part, word c) ∧ " data".toList = ' ' :: part :=
    ⟨"data".toList, by decide, hletters _ (by decide), by decide⟩
  intro form hform
  simp only [sheetNameForms, List.mem_cons, List.not_mem_nil, or_false] at hform
  rcases hform with rfl | rfl | rfl | rfl
  · exact ⟨space, .inr ⟨"in".toList, by decide, hletters _ (by decide), by decide⟩, hsheet⟩
  · exact ⟨space, .inr ⟨"from".toList, by decide, hletters _ (by decide), by decide⟩, hsheet⟩
  · exact ⟨space, .inl rfl, hdata⟩
  · exact ⟨space, .inl rfl, hsheet⟩

theorem search_form (space : word ' ' = false) (h : Encloses word opening closing)
    (text : List Char) :
    ((namePattern word opening closing).search text).bind Attempt.held =
        findSheetName word text opening closing ∧
      ((namePattern word opening closing).search text = none ↔
        findSheetName word text opening closing = none) := by
  rw [h.findSheetName_eq, search_eq_none_iff space]
  exact ⟨search_eq_firstAt space text, Iff.rfl⟩

theorem findSome?_forms (space : word ' ' = false) (text : List Char)
    (forms : List (String × String))
    (h : ∀ form ∈ forms, Encloses word form.1.toList form.2.toList) :
    (forms.findSome? fun form => findSheetName word text form.1.toList form.2.toList) =
      (forms.findSome? fun form =>
        (namePattern word form.1.toList form.2.toList).search text).bind Attempt.held := by
  induction forms with
  | nil => rfl
  | cons form forms ih =>
    obtain ⟨hheld, hnone⟩ := search_form space (h form (List.mem_cons_self ..)) text
    have hrest := ih fun f hf => h f (List.mem_cons_of_mem form hf)
    rw [List.findSome?_cons, List.findSome?_cons, hrest]
    cases hm : (namePattern word form.1.toList form.2.toList).search text with
    | none => rw [hnone.mp hm]
    | some m =>
      rw [hm] at hheld hnone
      cases hf : findSheetName word text form.1.toList form.2.toList with
      | none => simp [hf] at hnone
      | some name => rw [hf] at hheld; exact hheld.symm

/-- The name of a sheet is the group of the first pattern that matches anywhere, and there is no
name just when no pattern matches. -/
theorem sheetName_eq_search (space : word ' ' = false)
    (letters : ∀ c ∈ "infromsheetdata".toList, word c) (text : List Char) :
    sheetName word text =
        (((namePatterns word).findSome? fun p => p.search text).bind Attempt.held).map
          String.ofList ∧
      (sheetName word text = none ↔ ∀ p ∈ namePatterns word, p.search text = none) := by
  have hforms := encloses_of_mem_forms space letters
  have hpatterns : namePatterns word =
      sheetNameForms.map fun form => namePattern word form.1.toList form.2.toList := rfl
  constructor
  · rw [sheetName, findSome?_forms space text sheetNameForms hforms, hpatterns, List.findSome?_map]
    rfl
  · rw [sheetName, Option.map_eq_none_iff, List.findSome?_eq_none_iff, hpatterns,
      List.forall_mem_map]
    exact forall₂_congr fun form hform => (search_form space (hforms form hform) text).2.symm

/-- Words of forms inside other words, more than one opening and more than one closing. -/
theorem search_hr_sheet :
    Text.isWord ' ' = false ∧ (∀ c ∈ "infromsheetdata".toList, Text.isWord c) ∧
      (((namePatterns Text.isWord).findSome? fun p =>
        p.search "database within x, in the hr sheet sheet in sheets".toList).bind
          Attempt.held).map String.ofList = some "the hr sheet sheet in" := by
  have space : Text.isWord ' ' = false := by decide +kernel
  have letters : ∀ c ∈ "infromsheetdata".toList, Text.isWord c :=
    List.all_eq_true.mp (by decide +kernel)
  refine ⟨space, letters, ?_⟩
  rw [← (sheetName_eq_search space letters _).1]
  decide +kernel

end PlainSheets.Query
