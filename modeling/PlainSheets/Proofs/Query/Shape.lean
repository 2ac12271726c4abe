import PlainSheets.Proofs.Json.Rendered
import PlainSheets.Proofs.Query.OwnName

/-!
What an intent is made of. Main statement: a question is read unless a number in it has too many digits,
and its intent is made of words of its lowercase text, of numbers from zero on and of trimmed texts.
-/
namespace PlainSheets

/-! Trimmed texts. -/

namespace Text

theorem mem_of_mem_trim {c : Char} {cs : List Char} (h : c ∈ trim cs) : c ∈ cs := by
  unfold trim trimEnd trimStart at h
  rw [List.mem_reverse] at h
  have hreverse := (List.dropWhile_suffix _).subset h
  rw [List.mem_reverse] at hreverse
  exact (List.dropWhile_suffix _).subset hreverse

structure Trimmed (cs : List Char) : Prop where
  start : ∀ c ∈ cs.head?, isBlank c = false
  stop : ∀ c ∈ cs.getLast?, isBlank c = false

theorem trimmed_trim (cs : List Char) : Trimmed (trim cs) where
  start := by
    intro c hc
    have hleads : trim cs <+: trimStart cs := by
      have hsuffix := List.dropWhile_suffix (l := (trimStart cs).reverse) isBlank
      simpa [trim, trimEnd] using List.reverse_prefix.mpr hsuffix
    obtain ⟨rest, hrest⟩ := hleads
    apply Query.head?_dropWhile_false isBlank cs
    rw [← trimStart, ← hrest, List.head?_append, Option.mem_def.mp hc]
    rfl
  stop := by
    intro c hc
    rw [trim, trimEnd, List.getLast?_reverse] at hc
    exact Query.head?_dropWhile_false isBlank _ c hc

end Text

/-! Filters. -/

namespace Filters

theorem put_eq_putField (field : String) (c : Condition) (fs : Filters) :
    put field c fs = Json.putField field c fs := by
  induction fs with
  | nil => rfl
  | cons f fs ih => rw [put, Json.putField, ih]

theorem mem_put {field : String} {c : Condition} {fs : Filters} {f : String × Condition}
    (h : f ∈ put field c fs) : f = (field, c) ∨ f ∈ fs := by
  rw [put_eq_putField] at h
  exact Json.mem_putField h

theorem nodup_put (field : String) (c : Condition) {fs : Filters} (h : (fs.map Prod.fst).Nodup) :
    ((put field c fs).map Prod.fst).Nodup := by
  rw [put_eq_putField]
  exact Json.nodup_putField field c h

theorem length_put_le (field : String) (c : Condition) (fs : Filters) :
    (put field c fs).length ≤ fs.length + 1 := by
  have hkeys := congrArg List.length (Json.putField_keys field c fs)
  rw [List.length_map] at hkeys
  rw [put_eq_putField, hkeys]
  split <;> simp

end Filters

namespace Query

open Text (isWord isDigit)

variable {α : Type} {text : List Char}

/-! Parts of a text. -/

def IsWordOf (text word : List Char) : Prop := ∃ before after, Stands text before word after

structure IsNumberOf (text ds : List Char) : Prop where
  nonempty : ds ≠ []
  digits : ∀ c ∈ ds, isDigit c
  within : ds <:+: text

theorem exists_of_firstAt {read : List Char → Option α} {a : α} (h : firstAt read text = some a) :
    ∃ rest, rest <:+ text ∧ read rest = some a := by
  induction text with
  | nil => exact ⟨[], List.suffix_refl _, h⟩
  | cons c cs ih =>
    rw [firstAt, Option.orElse_eq_orElse, Option.orElse_eq_or] at h
    rcases Option.or_eq_some_iff.mp h with h | ⟨-, h⟩
    · exact ⟨c :: cs, List.suffix_refl _, h⟩
    · obtain ⟨rest, hrest, h⟩ := ih h
      exact ⟨rest, hrest.trans (List.suffix_cons c cs), h⟩

theorem eq_of_after? {phrase : String} {cs rest : List Char} (h : after? phrase cs = some rest) :
    cs = phrase.toList ++ rest := by
  rw [after?_eq, dropPart?, Option.ite_none_right_eq_some] at h
  obtain ⟨hleads, h⟩ := h
  obtain ⟨others, rfl⟩ := List.isPrefixOf_iff_prefix.mp hleads
  rw [List.drop_left] at h
  rw [Option.some.inj h]

theorem suffix_of_after? {phrase : String} {cs rest : List Char} (h : after? phrase cs = some rest) :
    rest <:+ cs := ⟨_, (eq_of_after? h).symm⟩

theorem exists_of_afterAny? {phrases : List String} {cs rest : List Char} (h : afterAny? phrases cs = some rest) :
    ∃ p ∈ phrases, cs = p.toList ++ rest := by
  induction phrases with
  | nil => cases h
  | cons p phrases ih =>
    rw [afterAny?, Option.orElse_eq_orElse, Option.orElse_eq_or] at h
    rcases Option.or_eq_some_iff.mp h with h | ⟨-, h⟩
    · exact ⟨p, List.mem_cons_self, eq_of_after? h⟩
    · obtain ⟨q, hq, hcs⟩ := ih h
      exact ⟨q, List.mem_cons_of_mem p hq, hcs⟩

theorem suffix_of_afterAny? {phrases : List String} {cs rest : List Char}
    (h : afterAny? phrases cs = some rest) : rest <:+ cs := by
  obtain ⟨p, -, hcs⟩ := exists_of_afterAny? h
  exact ⟨p.toList, hcs.symm⟩

theorem isNumberOf_digitsAt? {cs ds : List Char} (h : digitsAt? cs = some ds) : IsNumberOf cs ds := by
  obtain ⟨others, hcs, hds⟩ := exists_of_digitsAt? h
  refine ⟨?_, hds, ⟨[], others, hcs.symm⟩⟩
  simp only [digitsAt?, Option.ite_none_left_eq_some, Option.some.injEq] at h
  obtain ⟨hne, rfl⟩ := h
  intro hnil
  rw [hnil] at hne
  exact hne rfl

theorem IsNumberOf.of_suffix {cs ds : List Char} (h : IsNumberOf cs ds) (hsuffix : cs <:+ text) :
    IsNumberOf text ds := ⟨h.nonempty, h.digits, h.within.trans hsuffix.isInfix⟩

theorem Stands.suffix {before word after : List Char} (h : Stands text before word after) :
    after <:+ text := ⟨before ++ word, by rw [h.text_eq, List.append_assoc]⟩

/-! Numbers. -/

theorem stands_of_comparison {phrases : List String} {word digits : List Char}
    (h : comparison phrases text = some (word, digits)) :
    IsWordOf text word ∧ IsNumberOf text digits := by
  obtain ⟨before, w, rest, hword, h⟩ := exists_of_firstAtWord h
  obtain ⟨ds, h, heq⟩ := Option.map_eq_some_iff.mp h
  obtain ⟨cs, hcs, hds⟩ := Option.bind_eq_some_iff.mp h
  cases heq
  exact ⟨⟨before, rest, hword⟩,
    (isNumberOf_digitsAt? hds).of_suffix ((suffix_of_afterAny? hcs).trans hword.suffix)⟩

theorem isNumberOf_limitAt {cs ds : List Char} (h : limitAt cs = some ds) : IsNumberOf cs ds := by
  rw [limitAt, Option.orElse_eq_orElse, Option.orElse_eq_or] at h
  rcases Option.or_eq_some_iff.mp h with h | ⟨-, h⟩
  · obtain ⟨rest, hrest, hds⟩ := Option.bind_eq_some_iff.mp h
    refine (isNumberOf_digitsAt? hds).of_suffix (List.IsSuffix.trans ?_ (suffix_of_after? hrest))
    cases hto : afterAny? ["to ", "of "] rest with
    | none => exact List.suffix_refl rest
    | some others => exact suffix_of_afterAny? hto
  · obtain ⟨digits, hdigits, h⟩ := Option.bind_eq_some_iff.mp h
    obtain ⟨rest, -, rfl⟩ := Option.map_eq_some_iff.mp h
    exact isNumberOf_digitsAt? hdigits

theorem isNumberOf_compared? {phrases : List String} {ds : List Char}
    (h : compared? phrases text = some ds) : IsNumberOf text ds := by
  obtain ⟨⟨word, digits⟩, hcomparison, rfl⟩ := Option.map_eq_some_iff.mp h
  exact (stands_of_comparison hcomparison).2

theorem isNumberOf_numbers : ∀ ds ∈ numbers text, IsNumberOf text ds := by
  refine forall_mem_numbers.mpr ⟨fun _ => isNumberOf_compared?, fun _ => isNumberOf_compared?, ?_⟩
  intro ds h
  obtain ⟨rest, hrest, hds⟩ := exists_of_firstAt h
  exact (isNumberOf_limitAt hds).of_suffix hrest

/-! Filters of a text. -/

def comparisonRules : List (List String × Comparator) :=
  [(greaterPhrases, .greater), (lessPhrases, .less)]

/-- A filter that a rule reads in a text. -/
inductive FilterOf (text : List Char) : String × Condition → Prop
  | compares {phrases : List String} {c : Comparator} {word digits : List Char} {n : Nat} :
    (phrases, c) ∈ comparisonRules → comparison phrases text = some (word, digits) →
      readNumber digits = .ok n → FilterOf text (String.ofList word, .compare ⟨c, .integer n⟩)
  | equals {word value : List Char} : equality text = some (word, value) →
      FilterOf text (String.ofList word, .equals (some (String.ofList value)))

structure FiltersOf (text : List Char) (rules : Nat) (fs : Filters) : Prop where
  length : fs.length ≤ rules
  keys : (fs.map Prod.fst).Nodup
  read : ∀ f ∈ fs, FilterOf text f

namespace FiltersOf

variable {rules : Nat} {fs gs : Filters}

theorem succ (h : FiltersOf text rules fs) : FiltersOf text (rules + 1) fs :=
  ⟨Nat.le_succ_of_le h.length, h.keys, h.read⟩

theorem put (h : FiltersOf text rules fs) {field : String} {c : Condition}
    (hread : FilterOf text (field, c)) : FiltersOf text (rules + 1) (fs.put field c) where
  length := Nat.le_trans (Filters.length_put_le field c fs) (Nat.succ_le_succ h.length)
  keys := Filters.nodup_put field c h.keys
  read f hf := by
    rcases Filters.mem_put hf with rfl | hf
    · exact hread
    · exact h.read f hf

theorem comparisonFilter (h : FiltersOf text rules fs) {phrases : List String} {c : Comparator}
    (hrule : (phrases, c) ∈ comparisonRules) (hgs : comparisonFilter phrases c text fs = .ok gs) :
    FiltersOf text (rules + 1) gs := by
  unfold Query.comparisonFilter at hgs
  split at hgs
  · obtain rfl := Except.ok.inj hgs
    exact h.succ
  · rename_i word digits hcomparison
    obtain ⟨n, hn, hgs⟩ := bind_eq_ok.mp hgs
    obtain rfl := Except.ok.inj hgs
    exact h.put (.compares hrule hcomparison hn)

theorem equalityFilter (h : FiltersOf text rules fs) :
    FiltersOf text (rules + 1) (equalityFilter text fs) := by
  unfold Query.equalityFilter
  split
  · exact h.succ
  · rename_i word value hequality
    exact h.put (.equals hequality)

end FiltersOf

theorem filtersOf_filters {fs : Filters} (h : filters text = .ok fs) : FiltersOf text 3 fs := by
  obtain ⟨above, habove, h⟩ := bind_eq_ok.mp h
  obtain ⟨below, hbelow, h⟩ := bind_eq_ok.mp h
  obtain rfl := Except.ok.inj h
  have hnone : FiltersOf text 0 [] := ⟨Nat.le_refl 0, List.nodup_nil, List.forall_mem_nil _⟩
  have hone := hnone.comparisonFilter List.mem_cons_self habove
  have htwo := hone.comparisonFilter (List.mem_cons_of_mem _ List.mem_cons_self) hbelow
  exact htwo.equalityFilter

/-! Sheet name, fields and order. -/

theorem mem_stops {inside : Bool} {cs part : List Char} (h : part ∈ stops isWord inside cs) :
    if inside then ∃ w words, (∀ c ∈ w, isWord c) ∧ (∀ v ∈ words, Plain v) ∧ part = w ++ spaced words
    else WordRun part := by
  have hempty : ∃ w words, (∀ c ∈ w, isWord c) ∧ (∀ v ∈ words, Plain v) ∧ [] = w ++ spaced words :=
    ⟨[], [], List.forall_mem_nil _, List.forall_mem_nil _, rfl⟩
  induction cs generalizing inside part with
  | nil =>
    cases inside with
    | false => cases h
    | true =>
      obtain rfl := List.mem_singleton.mp h
      exact hempty
  | cons c cs ih =>
    rw [stops] at h
    rcases List.mem_append.mp h with hpart | hpart
    · split at hpart
      · rename_i hc
        obtain ⟨p, hp, rfl⟩ := List.mem_map.mp hpart
        obtain ⟨w, words, hw, hwords, rfl⟩ := ih hp
        have hletters : ∀ d ∈ c :: w, isWord d := List.forall_mem_cons.mpr ⟨hc, hw⟩
        cases inside with
        | false =>
          refine ⟨(c :: w) :: words, List.cons_ne_nil _ _, ?_, rfl⟩
          exact List.forall_mem_cons.mpr ⟨⟨List.cons_ne_nil _ _, hletters⟩, hwords⟩
        | true => exact ⟨c :: w, words, hletters, hwords, rfl⟩
      · split at hpart
        · rename_i hspace
          obtain ⟨hinside, hc⟩ : inside = true ∧ c = ' ' := by simpa using hspace
          obtain ⟨p, hp, rfl⟩ := List.mem_map.mp hpart
          obtain ⟨words, hne, hwords, rfl⟩ := ih hp
          rw [if_pos hinside, hc]
          exact ⟨[], words, List.forall_mem_nil _, hwords, (spaced_eq_clause hne).symm⟩
        · cases hpart
    · split at hpart
      · rename_i hinside
        obtain rfl := List.mem_singleton.mp hpart
        rw [if_pos hinside]
        exact hempty
      · cases hpart

theorem wordRun_sheetName {name : String} (h : sheetName isWord text = some name) :
    WordRun name.toList := by
  have space : isWord ' ' = false := by decide +kernel
  have letters : ∀ c ∈ "infromsheetdata".toList, isWord c := List.all_eq_true.mp (by decide +kernel)
  obtain ⟨cs, hcs, rfl⟩ := Option.map_eq_some_iff.mp h
  obtain ⟨form, hform, hfound⟩ := List.exists_of_findSome?_eq_some hcs
  rw [(encloses_of_mem_forms space letters form hform).findSheetName_eq] at hfound
  obtain ⟨rest, -, hname⟩ := exists_of_firstAt hfound
  rw [nameAt, Option.ite_none_right_eq_some] at hname
  rw [String.toList_ofList]
  exact mem_stops (List.mem_of_find?_eq_some hname.2)

theorem plain_wordAt_of_startsWord {cs : List Char} (h : startsWord cs) : Plain (wordAt cs) := by
  cases cs with
  | nil => cases h
  | cons c cs => exact plain_wordAt h cs

theorem plain_wordList {fuel : Nat} {cs : List Char} (h : startsWord cs) :
    ∀ w ∈ wordList fuel cs, Plain w := by
  induction fuel generalizing cs with
  | zero => exact List.forall_mem_nil _
  | succ fuel ih =>
    rw [wordList, List.forall_mem_cons]
    refine ⟨plain_wordAt_of_startsWord h, ?_⟩
    split
    · split
      · rename_i hnext
        exact ih hnext
      · exact List.forall_mem_nil _
    · exact List.forall_mem_nil _

theorem plain_fieldsAt {cs : List Char} {words : List (List Char)} (h : fieldsAt cs = some words) :
    ∀ w ∈ words, Plain w := by
  unfold fieldsAt at h
  split at h
  · obtain ⟨rest, -, hrest⟩ := List.exists_of_findSome?_eq_some h
    split at hrest
    · rename_i hstart
      obtain rfl := Option.some.inj hrest
      exact plain_wordList hstart
    · cases hrest
  · cases h

theorem plain_fields : ∀ field ∈ fields text, Plain field.toList := by
  intro field hfield
  unfold fields at hfield
  split at hfield
  · obtain ⟨w, hw, rfl⟩ := List.mem_map.mp hfield
    rw [String.toList_ofList]
    cases hfirst : firstAt fieldsAt text with
    | none =>
      rw [hfirst] at hw
      cases hw
    | some words =>
      rw [hfirst] at hw
      obtain ⟨rest, -, hwords⟩ := exists_of_firstAt hfirst
      exact plain_fieldsAt hwords w hw
  · cases hfield

theorem isWordOf_sort {s : SortSpec} (h : sort text = some s) :
    IsWordOf text s.field.toList ∧ (s.direction = 1 ∨ s.direction = -1) := by
  obtain ⟨cs, ⟨front, hfront⟩, h⟩ := exists_of_firstAt h
  obtain ⟨rest, hrest, h⟩ := Option.bind_eq_some_iff.mp h
  split at h
  · rename_i hstart
    obtain rfl := Option.some.inj h
    constructor
    · rw [String.toList_ofList]
      refine ⟨front ++ "sort by ".toList, afterWord rest, ?_⟩
      refine ⟨?_, plain_wordAt_of_startsWord hstart, ?_, not_isWord_of_afterWord rest⟩
      · rw [wordAt_append_afterWord, List.append_assoc, ← eq_of_after? hrest, hfront]
      · intro c hc
        obtain rfl : ' ' = c := by simpa using hc
        decide
    · dsimp only
      split
      · exact .inr rfl
      · exact .inl rfl
  · cases h

end Query

namespace Intent

open Query

def lowered (question : Option String) : List Char := Text.lowerChars (question.getD "").toList

/-- What a condition of a question is: a comparison with a number from zero on, or a trimmed text. -/
inductive Asked : Condition → Prop
  | compares {c : Comparator} {n : Nat} : c = .greater ∨ c = .less → Asked (.compare ⟨c, .integer n⟩)
  | equals {text : String} : Text.Trimmed text.toList → Asked (.equals (some text))

/-- What the intent of a question is made of. -/
structure Shaped (text : List Char) (i : Intent) : Prop where
  action : i.action = .find ∨ i.action = .count
  sheetName : ∀ name, i.sheetName = some name → WordRun name.toList
  length : i.filters.length ≤ 3
  keys : (i.filters.map Prod.fst).Nodup
  filters : ∀ f ∈ i.filters, IsWordOf text f.1.toList ∧ Asked f.2
  fields : ∀ field ∈ i.fields, Plain field.toList
  limit : 0 ≤ i.limit
  sort : ∀ s, i.sort = some s → IsWordOf text s.field.toList ∧ (s.direction = 1 ∨ s.direction = -1)

theorem asked_of_filterOf {text : List Char} {f : String × Condition} (h : FilterOf text f) :
    IsWordOf text f.1.toList ∧ Asked f.2 := by
  cases h with
  | compares hrule hcomparison _ =>
    rw [String.toList_ofList]
    refine ⟨(stands_of_comparison hcomparison).1, .compares ?_⟩
    rcases List.mem_cons.mp hrule with hrule | hrule
    · exact .inl (Prod.mk.inj hrule).2
    · exact .inr (Prod.mk.inj (List.mem_singleton.mp hrule)).2
  | equals hequality =>
    obtain ⟨before, w, rest, hword, h⟩ := exists_of_firstAtWord hequality
    obtain ⟨cs, -, h⟩ := Option.bind_eq_some_iff.mp h
    rw [Option.ite_none_left_eq_some] at h
    obtain ⟨rfl, rfl⟩ := Prod.mk.inj (Option.some.inj h.2)
    rw [String.toList_ofList]
    refine ⟨⟨before, rest, hword⟩, .equals ?_⟩
    rw [String.toList_ofList]
    exact Text.trimmed_trim _

theorem shaped_intentOf {text : List Char} {i : Intent} (h : intentOf text = .ok i) :
    i.Shaped text := by
  obtain ⟨fs, hfs, h⟩ := bind_eq_ok.mp h
  obtain ⟨n, hn, h⟩ := bind_eq_ok.mp h
  obtain rfl := Except.ok.inj h
  have hfilters := filtersOf_filters hfs
  refine ⟨?_, fun name => wordRun_sheetName, hfilters.length, hfilters.keys,
    fun f hf => asked_of_filterOf (hfilters.read f hf), plain_fields, ?_, fun s => isWordOf_sort⟩
  · unfold Query.action
    dsimp only
    split
    · exact .inr rfl
    · exact .inl rfl
  · unfold Query.limit at hn
    split at hn
    · obtain rfl := Except.ok.inj hn
      exact Int.natCast_nonneg 100
    · obtain ⟨m, -, rfl⟩ := map_eq_ok.mp hn
      exact Int.natCast_nonneg m

/-- A question is read unless a number in it has too many digits. -/
theorem ofQuestion_shaped (question : Option String) :
    (∀ ds ∈ numbers (lowered question), IsNumberOf (lowered question) ds) ∧
      ((∃ i, ofQuestion question = .ok i ∧ i.Shaped (lowered question) ∧
          ∀ ds ∈ numbers (lowered question), ds.length ≤ maxIntegerDigits) ∨
        ∃ ds ∈ numbers (lowered question), maxIntegerDigits < ds.length ∧
          ofQuestion question = .error (.integerTooLong (some ds.length))) := by
  refine ⟨isNumberOf_numbers, ?_⟩
  cases hread : ofQuestion question with
  | ok i => exact .inl ⟨i, rfl, shaped_intentOf hread, intentOf_isOk_iff.mp ⟨i, hread⟩⟩
  | error f =>
    obtain ⟨ds, hds, hlong, rfl⟩ := failsAs_intentOf f hread
    exact .inr ⟨ds, hds, Nat.lt_of_not_le hlong, rfl⟩

/-! A limit with many zeros. -/

def zeros (n : Nat) : List Char := List.replicate n '0'

def limitOfZeros (n : Nat) : Option String := some (String.ofList (clause ["limit".toList, zeros n]))

theorem plain_limitOfZeros {n : Nat} (h : 0 < n) : ∀ w ∈ ["limit".toList, zeros n], Plain w := by
  have hzeros : Plain (zeros n) := by
    refine ⟨?_, fun c hc => ?_⟩
    · simp [zeros, Nat.ne_of_gt h]
    · rw [List.eq_of_mem_replicate hc]
      decide
  simpa [hzeros] using (by decide : Plain "limit".toList)

theorem lowered_limitOfZeros (n : Nat) :
    lowered (limitOfZeros n) = clause ["limit".toList, zeros n] := by
  rw [lowered, limitOfZeros, Option.getD_some, String.toList_ofList, Text.lowerChars_eq_self_iff]
  have hletters : Text.Settled ' ' ∧ Text.Settled '0' ∧ ∀ c ∈ "limit".toList, Text.Settled c := by
    decide
  intro c hc
  rcases mem_clause hc with rfl | ⟨w, hw, hc⟩
  · exact hletters.1
  · simp only [List.mem_cons, List.not_mem_nil, or_false] at hw
    rcases hw with rfl | rfl
    · exact hletters.2.2 c hc
    · rw [List.eq_of_mem_replicate hc]
      exact hletters.2.1

theorem numbers_limitOfZeros {n : Nat} (h : 0 < n) :
    numbers (lowered (limitOfZeros n)) = [zeros n] := by
  have hplain := plain_limitOfZeros h
  have hcompared {phrases : List (List String)} (hphrases : Phrases phrases) :
      compared? (phrases.map phrase) (clause ["limit".toList, zeros n] ++ []) = none := by
    have hshort : EachWord (fun _ after => phraseAfter? phrases after = none)
        ["limit".toList, zeros n] :=
      ⟨phraseAfter?_of_short hphrases (Nat.le_refl 1),
        phraseAfter?_of_short hphrases (Nat.zero_le 1), trivial⟩
    have hpasses := firstAtWord_clause hplain (passes_of_noPhrase hphrases hplain hshort)
      (fun _ => nofun : Ends [])
    rw [compared?, comparison]
    exact congrArg _ hpasses
  have hlimit : firstAt limitAt (clause ["limit".toList, zeros n] ++ []) = some (zeros n) := by
    rw [clause, List.append_assoc]
    apply firstAt_of_read
    exact limitAt_limit (hplain (zeros n) (by simp)).1
      (fun c hc => by rw [List.eq_of_mem_replicate hc]; decide) (fun _ => nofun)
  rw [lowered_limitOfZeros, ← List.append_nil (clause _), numbers, map_phrase.1, map_phrase.2.1,
    hcompared (by decide), hcompared (by decide), hlimit]
  rfl

/-- One zero more than are read. -/
theorem ofQuestion_shaped_zeros :
    ofQuestion (limitOfZeros 4301) = .error (.integerTooLong (some 4301)) ∧
      ∃ i, ofQuestion (limitOfZeros 4300) = .ok i ∧ i.Shaped (lowered (limitOfZeros 4300)) := by
  constructor
  · rcases (ofQuestion_shaped (limitOfZeros 4301)).2 with ⟨i, -, -, hshort⟩ | ⟨ds, hds, -, hread⟩
    · rw [numbers_limitOfZeros (by decide), List.forall_mem_singleton, zeros,
        List.length_replicate] at hshort
      exact absurd hshort (by decide)
    · rw [numbers_limitOfZeros (by decide), List.mem_singleton] at hds
      rw [hread, hds, zeros, List.length_replicate]
  · rcases (ofQuestion_shaped (limitOfZeros 4300)).2 with ⟨i, hread, hshape, -⟩ | ⟨ds, hds, hlong, -⟩
    · exact ⟨i, hread, hshape⟩
    · rw [numbers_limitOfZeros (by decide), List.mem_singleton] at hds
      rw [hds, zeros, List.length_replicate] at hlong
      exact absurd hlong (by decide)

end Intent

end PlainSheets
