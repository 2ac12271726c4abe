import PlainSheets.Proofs.Distinct
import PlainSheets.Proofs.Query.Shape
import Mathlib.Data.List.DropRight

/-!
What the filters of a question are read from: a word, a phrase and a value, wherever they stand one
after the other. Main statement: each rule reads the first such place, where the word is whole and the
value goes as far as it can, and the filters are the map that the three rules write in their order.
-/
namespace PlainSheets

namespace Query

open Text (isWord isDigit)

variable {α β : Type} {text : List Char}

theorem firstAtWord_map (read : List Char → List Char → Option α) (f : α → β) (cs : List Char) :
    firstAtWord (fun word rest => (read word rest).map f) cs = (firstAtWord read cs).map f := by
  have hfrom (inside : Bool) : firstAtWordFrom (fun word rest => (read word rest).map f) inside cs =
      (firstAtWordFrom read inside cs).map f := by
    induction cs generalizing inside with
    | nil => rfl
    | cons c cs ih =>
      simp only [firstAtWordFrom, ih]
      split
      · split
        · rfl
        · cases read (wordAt (c :: cs)) (afterWord (c :: cs)) <;> rfl
      · rfl
  exact hfrom false

/-! A phrase and a value after a word. -/

/-- A word, one of several phrases and a value, one after the other somewhere in a text. What stands
on either side does not matter. -/
structure Phrased (phrases : List String) (inValue : Char → Bool)
    (text before word value after : List Char) : Prop where
  plain : Plain word
  nonempty : value ≠ []
  inside : ∀ c ∈ value, inValue c
  phrase : ∃ p ∈ phrases, text = before ++ (word ++ (p.toList ++ (value ++ after)))

/-- The first such place of all. Its word is whole, and its value goes as far as it can. -/
structure FirstPhrased (phrases : List String) (inValue : Char → Bool)
    (text before word value after : List Char) : Prop
    extends Phrased phrases inValue text before word value after where
  whole : ∀ c ∈ before.getLast?, isWord c = false
  maximal : ∀ c ∈ after.head?, inValue c = false
  first : ∀ before' word' value' after', Phrased phrases inValue text before' word' value' after' →
    before.length ≤ before'.length

/-- Phrases that begin with a space, none of them with another one. -/
structure Apart (phrases : List String) : Prop where
  spaced : ∀ p ∈ phrases, p.toList.head? = some ' '
  free : ∀ p ∈ phrases, ∀ q ∈ phrases, p.toList <+: q.toList → p = q

theorem apart_phrases : Apart greaterPhrases ∧ Apart lessPhrases ∧ Apart equalPhrases := by
  refine ⟨⟨?_, ?_⟩, ⟨?_, ?_⟩, ⟨?_, ?_⟩⟩ <;> decide

variable {phrases : List String} {inValue : Char → Bool} {before word value after : List Char}

theorem Apart.eq_of_prefix (h : Apart phrases) {p q : String} (hp : p ∈ phrases) (hq : q ∈ phrases)
    {cs : List Char} (hpcs : p.toList <+: cs) (hqcs : q.toList <+: cs) : p = q := by
  rcases List.prefix_or_prefix_of_prefix hpcs hqcs with hle | hle
  · exact h.free p hp q hq hle
  · exact (h.free q hq p hp hle).symm

theorem Apart.not_isWord (h : Apart phrases) {p : String} (hp : p ∈ phrases) (cs : List Char) :
    ∀ c ∈ (p.toList ++ cs).head?, isWord c = false := by
  intro c hc
  rw [List.head?_append, h.spaced p hp] at hc
  obtain rfl : ' ' = c := Option.some.inj hc
  decide

@[simp] theorem after?_append (p : String) (cs : List Char) : after? p (p.toList ++ cs) = some cs := by
  rw [after?_eq, dropPart?, if_pos (List.isPrefixOf_iff_prefix.mpr (List.prefix_append _ _)),
    List.drop_left]

theorem Apart.afterAny?_append (h : Apart phrases) {p : String} (hp : p ∈ phrases) (cs : List Char) :
    afterAny? phrases (p.toList ++ cs) = some cs := by
  induction phrases with
  | nil => cases hp
  | cons q phrases ih =>
    have hrest : Apart phrases :=
      ⟨fun r hr => h.spaced r (List.mem_cons_of_mem q hr),
        fun r hr t ht => h.free r (List.mem_cons_of_mem q hr) t (List.mem_cons_of_mem q ht)⟩
    rw [afterAny?]
    cases hq : after? q (p.toList ++ cs) with
    | none =>
      have hmem : p ∈ phrases := by
        rcases List.mem_cons.mp hp with rfl | hmem
        · rw [after?_append] at hq
          cases hq
        · exact hmem
      exact ih hrest hmem
    | some rest =>
      have hstarts := eq_of_after? hq
      obtain rfl := h.eq_of_prefix hp List.mem_cons_self (List.prefix_append p.toList cs)
        ⟨rest, hstarts.symm⟩
      rw [List.append_cancel_left hstarts]
      rfl

def valueAt? (inValue : Char → Bool) (cs : List Char) : Option (List Char) :=
  let value := cs.takeWhile inValue
  if value.isEmpty then none else some value

def readPhrased (phrases : List String) (inValue : Char → Bool) (word rest : List Char) :
    Option (List Char × List Char) :=
  ((afterAny? phrases rest).bind (valueAt? inValue)).map (word, ·)

theorem exists_of_readPhrased {rest : List Char} {f : List Char × List Char}
    (h : readPhrased phrases inValue word rest = some f) : f.1 = word ∧ ∃ p ∈ phrases, ∃ after,
      rest = p.toList ++ (f.2 ++ after) ∧ f.2 ≠ [] ∧ (∀ c ∈ f.2, inValue c) ∧
        ∀ c ∈ after.head?, inValue c = false := by
  obtain ⟨value, hfound, rfl⟩ := Option.map_eq_some_iff.mp h
  obtain ⟨cs, hcs, hvalue⟩ := Option.bind_eq_some_iff.mp hfound
  obtain ⟨p, hp, rfl⟩ := exists_of_afterAny? hcs
  simp only [valueAt?, Option.ite_none_left_eq_some, Option.some.injEq] at hvalue
  obtain ⟨hne, rfl⟩ := hvalue
  refine ⟨rfl, p, hp, cs.dropWhile inValue, ?_, ?_, ?_, head?_dropWhile_false inValue cs⟩
  · rw [List.takeWhile_append_dropWhile]
  · simpa using hne
  · exact fun c hc => List.all_eq_true.mp List.all_takeWhile c hc

theorem Apart.isSome_readPhrased (h : Apart phrases) {p : String} (hp : p ∈ phrases)
    (hne : value ≠ []) (hvalue : ∀ c ∈ value, inValue c) (word after : List Char) :
    (readPhrased phrases inValue word (p.toList ++ (value ++ after))).isSome := by
  have htaken : (value ++ after).takeWhile inValue ≠ [] := by
    rw [List.takeWhile_append_of_pos hvalue]
    exact List.append_ne_nil_of_left_ne_nil hne _
  simp [readPhrased, h.afterAny?_append hp, valueAt?, htaken]

theorem Phrased.exists_stands (h : Phrased phrases inValue text before word value after)
    (hapart : Apart phrases) : ∃ front whole, ∃ p ∈ phrases,
      Stands text front whole (p.toList ++ (value ++ after)) ∧ front.length ≤ before.length := by
  obtain ⟨p, hp, htext⟩ := h.phrase
  have hbefore : before.rdropWhile isWord ++ before.rtakeWhile isWord = before :=
    List.rdropWhile_append_rtakeWhile
  refine ⟨before.rdropWhile isWord, before.rtakeWhile isWord ++ word, p, hp, ⟨?_, ?_, ?_, ?_⟩, ?_⟩
  · rw [htext, List.append_assoc, ← List.append_assoc (before.rdropWhile isWord), hbefore]
  · refine ⟨List.append_ne_nil_of_right_ne_nil _ h.plain.1, fun c hc => ?_⟩
    rcases List.mem_append.mp hc with hc | hc
    · exact List.mem_rtakeWhile_imp hc
    · exact h.plain.2 c hc
  · intro c hc
    rw [List.rdropWhile, List.getLast?_reverse] at hc
    exact head?_dropWhile_false isWord _ c hc
  · exact hapart.not_isWord hp _
  · rw [← congrArg List.length hbefore, List.length_append]
    omega

/-! Rules. -/

/-- What a rule writes for a text: the word of the first place, with a condition made of the value. -/
inductive Rule (phrases : List String) (inValue : Char → Bool) (condition : List Char → Condition)
    (text : List Char) : Option (String × Condition) → Prop
  | writes {before word value after : List Char}
    (first : FirstPhrased phrases inValue text before word value after) :
      Rule phrases inValue condition text (some (String.ofList word, condition value))
  | rests (nowhere : ∀ before word value after,
      ¬ Phrased phrases inValue text before word value after) :
      Rule phrases inValue condition text none

def inText (c : Char) : Bool := isWord c || Text.isBlank c

def thresholdOf (c : Comparator) (digits : List Char) : Condition :=
  .compare ⟨c, .integer (Text.digitsValue digits)⟩

def equalTo (value : List Char) : Condition := .equals (some (String.ofList (Text.trim value)))

theorem FirstPhrased.unique (hapart : Apart phrases)
    (h : FirstPhrased phrases inValue text before word value after)
    {before' word' value' after' : List Char}
    (h' : FirstPhrased phrases inValue text before' word' value' after') :
    word = word' ∧ value = value' := by
  obtain ⟨p, hp, htext⟩ := h.phrase
  obtain ⟨p', hp', htext'⟩ := h'.phrase
  have hlength : before.length = before'.length :=
    Nat.le_antisymm (h.first _ _ _ _ h'.toPhrased) (h'.first _ _ _ _ h.toPhrased)
  obtain ⟨rfl, -⟩ := List.append_inj (htext.symm.trans htext') hlength
  have hstands : Stands text before word (p.toList ++ (value ++ after)) :=
    ⟨htext, h.plain, h.whole, hapart.not_isWord hp _⟩
  have hstands' : Stands text before word' (p'.toList ++ (value' ++ after')) :=
    ⟨htext', h'.plain, h'.whole, hapart.not_isWord hp' _⟩
  obtain ⟨hword, hrest⟩ := hstands.eq_wordAt htext'
  obtain ⟨hword', hrest'⟩ := hstands'.eq_wordAt htext'
  rw [← hrest'] at hrest
  obtain rfl := hapart.eq_of_prefix hp hp' ⟨_, rfl⟩ ⟨_, hrest.symm⟩
  have hvalue := congrArg (List.takeWhile inValue) (List.append_cancel_left hrest)
  rw [takeWhile_maximal h.inside h.maximal, takeWhile_maximal h'.inside h'.maximal] at hvalue
  exact ⟨hword.trans hword'.symm, hvalue⟩

theorem Rule.unique (hapart : Apart phrases) {condition : List Char → Condition}
    {w w' : Option (String × Condition)} (h : Rule phrases inValue condition text w)
    (h' : Rule phrases inValue condition text w') : w = w' := by
  cases h with
  | writes first =>
    cases h' with
    | writes first' =>
      obtain ⟨rfl, rfl⟩ := first.unique hapart first'
      rfl
    | rests nowhere => exact absurd first.toPhrased (nowhere _ _ _ _)
  | rests nowhere =>
    cases h' with
    | writes first => exact absurd first.toPhrased (nowhere _ _ _ _)
    | rests _ => rfl

/-- What is found at the first word is the first place of all, and where nothing is found there is
none. -/
theorem rule_of_firstWord (hapart : Apart phrases) (condition : List Char → Condition)
    {found : Option (List Char × List Char)}
    (h : FirstWord (readPhrased phrases inValue) text found) :
    Rule phrases inValue condition text
      (found.map fun f => (String.ofList f.1, condition f.2)) := by
  cases h with
  | @some before word' after' f stands found first =>
    obtain ⟨word, value⟩ := f
    obtain ⟨rfl, p, hp, after, hafter, hne, hvalue, hmaximal⟩ := exists_of_readPhrased found
    have hphrased : Phrased phrases inValue text before word value after :=
      ⟨stands.plain, hne, hvalue, p, hp, by rw [stands.text_eq, hafter]⟩
    refine .writes ⟨hphrased, stands.left, hmaximal, fun before' word' value' after' h' => ?_⟩
    obtain ⟨front, whole, q, hq, hstands, hle⟩ := h'.exists_stands hapart
    exact Nat.le_trans (first _ _ _ hstands
      (hapart.isSome_readPhrased hq h'.nonempty h'.inside _ _)) hle
  | none nowhere =>
    refine .rests fun before word value after hphrased => ?_
    obtain ⟨front, whole, q, hq, hstands, -⟩ := hphrased.exists_stands hapart
    have hsome := hapart.isSome_readPhrased hq hphrased.nonempty hphrased.inside whole after
    rw [nowhere _ _ _ hstands] at hsome
    cases hsome

/-! Maps that are written key by key. -/

/-- The map of some writes: each key stands where it is first written, with the value of its last
write. -/
structure MapOf (writes : List (String × Condition)) (fs : Filters) : Prop where
  keys : fs.map Prod.fst = (writes.map Prod.fst).eraseDups
  values : ∀ field, fs.lookup field = writes.reverse.lookup field

theorem lookup_cons_eq (field key : String) (c : Condition) (fs : Filters) :
    List.lookup field ((key, c) :: fs) = if field = key then some c else fs.lookup field := by
  rw [List.lookup_cons]
  by_cases h : field = key
  · simp [h]
  · simp [beq_eq_false_iff_ne.mpr h, h]

@[simp] theorem lookup_put (field key : String) (c : Condition) (fs : Filters) :
    (fs.put key c).lookup field = if field = key then some c else fs.lookup field := by
  induction fs with
  | nil => exact lookup_cons_eq field key c []
  | cons f fs ih =>
    obtain ⟨k, d⟩ := f
    rw [Filters.put]
    split
    · rename_i hk
      rw [lookup_cons_eq, lookup_cons_eq, hk]
      split <;> rfl
    · rename_i hk
      rw [lookup_cons_eq, lookup_cons_eq, ih]
      by_cases h : field = k
      · have hne : field ≠ key := h ▸ hk
        rw [if_pos h, if_pos h, if_neg hne]
      · rw [if_neg h, if_neg h]

theorem MapOf.nil : MapOf [] [] := ⟨rfl, fun _ => rfl⟩

theorem MapOf.put {writes : List (String × Condition)} {fs : Filters} (h : MapOf writes fs)
    (w : String × Condition) : MapOf (writes ++ [w]) (fs.put w.1 w.2) where
  keys := by
    have hmem : w.1 ∈ fs.map Prod.fst ↔ w.1 ∈ writes.map Prod.fst := by
      rw [h.keys, List.mem_eraseDups]
    rw [Filters.put_eq_putField, Json.putField_keys, List.map_append, List.map_singleton,
      eraseDups_concat, ← h.keys]
    simp only [hmem]
  values field := by
    rw [lookup_put, h.values, List.reverse_append, List.reverse_singleton, List.singleton_append,
      lookup_cons_eq]

/-! The filters of a question. -/

def putFound (fs : Filters) : Option (String × Condition) → Filters
  | some w => fs.put w.1 w.2
  | none => fs

theorem MapOf.putFound {writes : List (String × Condition)} {fs : Filters} (h : MapOf writes fs)
    (w : Option (String × Condition)) : MapOf (writes ++ w.toList) (putFound fs w) := by
  cases w with
  | some w => exact h.put w
  | none => rwa [Option.toList_none, List.append_nil]

theorem exists_of_comparisonFilter (hapart : Apart phrases) {c : Comparator} {fs gs : Filters}
    (h : comparisonFilter phrases c text fs = .ok gs) :
    ∃ w, Rule phrases isDigit (thresholdOf c) text w ∧ gs = putFound fs w := by
  refine ⟨_, rule_of_firstWord hapart (thresholdOf c)
    (firstWord_firstAtWord (readPhrased phrases isDigit) text), ?_⟩
  have hread : comparison phrases text = firstAtWord (readPhrased phrases isDigit) text := rfl
  unfold comparisonFilter at h
  rw [← hread]
  split at h
  · rename_i hnone
    rw [hnone]
    exact (Except.ok.inj h).symm
  · rename_i word digits hsome
    obtain ⟨n, hn, h⟩ := bind_eq_ok.mp h
    have hvalue : Text.digitsValue digits = n := by
      unfold readNumber at hn
      split at hn
      · cases hn
      · exact Except.ok.inj hn
    rw [hsome, ← Except.ok.inj h, ← hvalue]
    rfl

theorem equality_eq (text : List Char) : equality text =
    (firstAtWord (readPhrased equalPhrases inText) text).map fun f => (f.1, Text.trim f.2) := by
  rw [← firstAtWord_map]
  unfold equality
  congr 1
  funext word rest
  rw [readPhrased]
  cases afterAny? equalPhrases rest with
  | none => rfl
  | some cs =>
    change (if (cs.takeWhile inText).isEmpty then none else _) = _
    rw [Option.bind_some, valueAt?]
    split <;> rfl

theorem exists_of_equalityFilter (text : List Char) (fs : Filters) :
    ∃ w, Rule equalPhrases inText equalTo text w ∧ equalityFilter text fs = putFound fs w := by
  refine ⟨_, rule_of_firstWord apart_phrases.2.2 equalTo
    (firstWord_firstAtWord (readPhrased equalPhrases inText) text), ?_⟩
  unfold equalityFilter
  rw [equality_eq]
  cases firstAtWord (readPhrased equalPhrases inText) text <;> rfl

theorem exists_of_filters {fs : Filters} (h : filters text = .ok fs) :
    ∃ greater less equal, Rule greaterPhrases isDigit (thresholdOf .greater) text greater ∧
      Rule lessPhrases isDigit (thresholdOf .less) text less ∧
      Rule equalPhrases inText equalTo text equal ∧
      MapOf (greater.toList ++ less.toList ++ equal.toList) fs := by
  obtain ⟨above, habove, h⟩ := bind_eq_ok.mp h
  obtain ⟨below, hbelow, h⟩ := bind_eq_ok.mp h
  obtain ⟨greater, hgreater, rfl⟩ := exists_of_comparisonFilter apart_phrases.1 habove
  obtain ⟨less, hless, rfl⟩ := exists_of_comparisonFilter apart_phrases.2.1 hbelow
  obtain ⟨equal, hequal, hfs⟩ := exists_of_equalityFilter text (putFound (putFound [] greater) less)
  have hmap := ((MapOf.nil.putFound greater).putFound less).putFound equal
  rw [← hfs, Except.ok.inj h] at hmap
  exact ⟨greater, less, equal, hgreater, hless, hequal, hmap⟩

end Query

namespace Intent

open Query

/-- The filters of a question are the map of at most three writes, in this order: a word and what it is
to be above, a word and what it is to be below, a word and what it is to be. -/
theorem ofQuestion_filters (question : Option String) (i : Intent) (h : ofQuestion question = .ok i) :
    ∃ greater less equal,
      Rule greaterPhrases Text.isDigit (thresholdOf .greater) (lowered question) greater ∧
      Rule lessPhrases Text.isDigit (thresholdOf .less) (lowered question) less ∧
      Rule equalPhrases inText equalTo (lowered question) equal ∧
      MapOf (greater.toList ++ less.toList ++ equal.toList) i.filters := by
  obtain ⟨fs, hfs, h⟩ := bind_eq_ok.mp h
  obtain ⟨n, -, h⟩ := bind_eq_ok.mp h
  rw [← Except.ok.inj h]
  exact exists_of_filters hfs

/-- A field that is first above a number and then a text: it keeps its place and gets the text. -/
theorem ofQuestion_filters_overwritten :
    let i : Intent := { filters := [("price", .equals (some "not  cheap")),
      ("stock", .compare ⟨.less, .integer 9⟩)] }
    ofQuestion (some "Rows with PRICE over 5 and stock under ٩, or the price is  not  cheap!") = .ok i ∧
      ∃ greater less equal,
        Rule greaterPhrases Text.isDigit (thresholdOf .greater)
          (lowered (some "Rows with PRICE over 5 and stock under ٩, or the price is  not  cheap!"))
          greater ∧
        Rule lessPhrases Text.isDigit (thresholdOf .less)
          (lowered (some "Rows with PRICE over 5 and stock under ٩, or the price is  not  cheap!"))
          less ∧
        Rule equalPhrases inText equalTo
          (lowered (some "Rows with PRICE over 5 and stock under ٩, or the price is  not  cheap!"))
          equal ∧
        MapOf (greater.toList ++ less.toList ++ equal.toList) i.filters := by
  intro i
  have hread : ofQuestion
      (some "Rows with PRICE over 5 and stock under ٩, or the price is  not  cheap!") = .ok i := by
    apply toOption_eq_some.mp
    decide +kernel
  exact ⟨hread, ofQuestion_filters _ i hread⟩

end Intent

end PlainSheets
