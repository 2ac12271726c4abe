import PlainSheets.Proofs.Query.ClauseRules
import Mathlib.Data.List.Infix

/-!
A question that has a clause for every rule. Main statement: whatever words it is made of, each rule
reads its own clause and nothing else.
-/
namespace PlainSheets.Query

open Text (isWord isDigit Settled)

/-- A question in full. The name of the sheet and the value that a field equals are words. -/
structure FullQuestion where
  fields : List String
  sheet : List String
  above : String × Nat
  below : String × Nat
  same : String × List String
  order : String
  limit : Nat

def IsLowerWord (w : String) : Prop := Plain w.toList ∧ Text.lower w = w

instance : DecidablePred IsLowerWord := fun _ => inferInstanceAs (Decidable (_ ∧ _))

def Low (w : List Char) : Prop := Plain w ∧ ∀ c ∈ w, Settled c

instance : DecidablePred Low := fun _ => inferInstanceAs (Decidable (_ ∧ _))

theorem IsLowerWord.low {w : String} (h : IsLowerWord w) : Low w.toList := by
  refine ⟨h.1, ?_⟩
  rw [← Text.lowerChars_eq_self_iff, ← String.toList_ofList (l := Text.lowerChars w.toList)]
  exact congrArg String.toList h.2

theorem low_digits (n : Nat) : Low (Nat.toDigits 10 n) := by
  refine ⟨⟨Nat.toDigits_ne_nil, ?_⟩, ?_⟩
  · exact Text.forall_mem_toDigits (fun d hd => (Text.digitChar_facts d hd).2.1) n
  · exact Text.forall_mem_toDigits (fun d hd => (Text.digitChar_facts d hd).2.2.1) n

theorem low_keywords : ∀ w ∈ ["show", "in", "sheet", "greater", "less", "than", "is", "sort", "by",
    "desc", "limit"], Low w.toList := by
  decide

namespace FullQuestion

def text (q : FullQuestion) : String :=
  "show " ++ ", ".intercalate q.fields ++ "; in " ++ " ".intercalate q.sheet ++ " sheet; " ++
    q.above.1 ++ " greater than " ++ toString q.above.2 ++ "; " ++
    q.below.1 ++ " less than " ++ toString q.below.2 ++ "; " ++
    q.same.1 ++ " is " ++ " ".intercalate q.same.2 ++ "; sort by " ++
    q.order ++ " desc; limit " ++ toString q.limit

/-- The words that ask for a count may be parts of others. -/
def asked (q : FullQuestion) : Action :=
  if "count".toList <:+: q.text.toList ∨ "how many".toList <:+: q.text.toList then .count else .find

def intent (q : FullQuestion) : Intent where
  action := q.asked
  sheetName := some (" ".intercalate q.sheet)
  filters := [(q.above.1, .compare ⟨.greater, .integer q.above.2⟩),
    (q.below.1, .compare ⟨.less, .integer q.below.2⟩),
    (q.same.1, .equals (some (" ".intercalate q.same.2)))]
  fields := q.fields
  limit := q.limit
  sort := some ⟨q.order, -1⟩

def words (q : FullQuestion) : List String :=
  q.fields ++ q.sheet ++ [q.above.1, q.below.1, q.same.1, q.order] ++ q.same.2

/-- Questions of words in lowercase. In the names of the sheet and of the value there are no digits
and no order, and the name of the sheet has no word that stands for equality. -/
structure WellFormed (q : FullQuestion) : Prop where
  fields : q.fields ≠ []
  sheet : q.sheet ≠ []
  value : q.same.2 ≠ []
  words : ∀ w ∈ q.words, IsLowerWord w
  apart : [q.above.1, q.below.1, q.same.1].Nodup
  noDigit : ∀ w ∈ q.sheet ++ q.same.2, DigitFree w.toList
  noOrder : ∀ run ∈ [q.sheet, q.same.2], ¬ "sort by".toList <:+: (" ".intercalate run).toList
  noEqual : ∀ w ∈ q.sheet, w ∉ ["is", "equals", "equal"]
  numbers : ∀ n ∈ [q.above.2, q.below.2, q.limit], (toString n).length ≤ 4300

def letters (words : List String) : List (List Char) := words.map String.toList

def sheetClause (q : FullQuestion) : List (List Char) :=
  "in".toList :: (letters q.sheet ++ ["sheet".toList])

def aboveClause (q : FullQuestion) : List (List Char) :=
  [q.above.1.toList, "greater".toList, "than".toList, Nat.toDigits 10 q.above.2]

def belowClause (q : FullQuestion) : List (List Char) :=
  [q.below.1.toList, "less".toList, "than".toList, Nat.toDigits 10 q.below.2]

def sameClause (q : FullQuestion) : List (List Char) :=
  q.same.1.toList :: "is".toList :: letters q.same.2

def orderClause (q : FullQuestion) : List (List Char) :=
  ["sort".toList, "by".toList, q.order.toList, "desc".toList]

def limitClause (q : FullQuestion) : List (List Char) :=
  ["limit".toList, Nat.toDigits 10 q.limit]

def fieldClauses (q : FullQuestion) : List (Char × List (List Char)) :=
  match letters q.fields with
  | [] => []
  | f :: fs => (';', ["show".toList, f]) :: listed fs

def otherClauses (q : FullQuestion) : List (List (List Char)) :=
  [q.sheetClause, q.aboveClause, q.belowClause, q.sameClause, q.orderClause, q.limitClause]

/-- The question as clauses, as if another one stood before it. -/
def clauses (q : FullQuestion) : List (Char × List (List Char)) :=
  q.fieldClauses ++ q.otherClauses.map (';', ·)

theorem toList_intercalate_space (words : List String) :
    (" ".intercalate words).toList = clause (letters words) := by
  induction words with
  | nil => rfl
  | cons w words ih =>
    cases words with
    | nil => simp [letters, clause]
    | cons v words =>
      rw [String.intercalate_cons_cons, String.toList_append, String.toList_append, ih]
      simp [letters, clause]

theorem toList_intercalate_comma (f : String) (fs : List String) :
    (", ".intercalate (f :: fs)).toList = f.toList ++ Query.clauses (listed (letters fs)) := by
  induction fs generalizing f with
  | nil => simp [letters, listed, Query.clauses]
  | cons g fs ih =>
    rw [String.intercalate_cons_cons, String.toList_append, String.toList_append, ih]
    simp [letters, listed, Query.clauses, clause]

variable {q : FullQuestion}

@[simp] theorem clauses_append (cs ds : List (Char × List (List Char))) :
    Query.clauses (cs ++ ds) = Query.clauses cs ++ Query.clauses ds := List.flatMap_append

theorem fieldClauses_cons {f : String} {fs : List String} (hf : q.fields = f :: fs) :
    q.fieldClauses = (';', ["show".toList, f.toList]) :: listed (letters fs) := by
  unfold fieldClauses
  rw [hf]
  rfl

theorem toList_text (h : q.WellFormed) : ';' :: ' ' :: q.text.toList = Query.clauses q.clauses := by
  obtain ⟨f, fs, hf⟩ := List.exists_cons_of_ne_nil h.fields
  have hsheet : spaced (letters q.sheet) = ' ' :: clause (letters q.sheet) := by
    apply spaced_eq_clause
    simpa [letters] using h.sheet
  have hvalue : spaced (letters q.same.2) = ' ' :: clause (letters q.same.2) := by
    apply spaced_eq_clause
    simpa [letters] using h.value
  unfold text clauses otherClauses
  rw [hf, fieldClauses_cons hf]
  simp only [List.map_cons, List.map_nil, String.toList_append, toList_intercalate_comma, toList_intercalate_space,
    clauses_append, clauses_cons, sheetClause, aboveClause, belowClause, sameClause, orderClause,
    limitClause, clause_cons, spaced_append, spaced_cons, spaced_nil, hsheet, hvalue,
    Nat.toString_eq_repr, Nat.toList_repr, List.append_assoc, List.cons_append, List.nil_append]
  simp [Query.clauses]

/-! The words of the clauses. -/

theorem low_letters {words : List String} (h : ∀ w ∈ words, IsLowerWord w) :
    ∀ w ∈ letters words, Low w := by
  intro w hw
  obtain ⟨v, hv, rfl⟩ := List.mem_map.mp hw
  exact (h v hv).low

theorem WellFormed.low_fields (h : q.WellFormed) : ∀ w ∈ letters q.fields, Low w :=
  low_letters fun w hw => h.words w (by simp [FullQuestion.words, hw])

theorem WellFormed.low_sheet (h : q.WellFormed) : ∀ w ∈ letters q.sheet, Low w :=
  low_letters fun w hw => h.words w (by simp [FullQuestion.words, hw])

theorem WellFormed.low_value (h : q.WellFormed) : ∀ w ∈ letters q.same.2, Low w :=
  low_letters fun w hw => h.words w (by simp [FullQuestion.words, hw])

theorem WellFormed.low_names (h : q.WellFormed) :
    Low q.above.1.toList ∧ Low q.below.1.toList ∧ Low q.same.1.toList ∧ Low q.order.toList := by
  refine ⟨(h.words _ ?_).low, (h.words _ ?_).low, (h.words _ ?_).low, (h.words _ ?_).low⟩ <;>
    simp [FullQuestion.words]

theorem mem_fieldClauses {c : Char × List (List Char)} (hc : c ∈ q.fieldClauses) :
    IsMark c.1 ∧ ∃ f ∈ letters q.fields, c.2 = ["show".toList, f] ∨ c.2 = [f] := by
  unfold fieldClauses at hc
  cases hfields : letters q.fields with
  | nil =>
    rw [hfields] at hc
    cases hc
  | cons f fs =>
    rw [hfields] at hc
    rcases List.mem_cons.mp hc with rfl | hc
    · exact ⟨.inr rfl, f, List.mem_cons_self, .inl rfl⟩
    · obtain ⟨g, hg, rfl⟩ := List.mem_map.mp hc
      exact ⟨.inl rfl, g, List.mem_cons_of_mem f hg, .inr rfl⟩

theorem WellFormed.low_otherClauses (h : q.WellFormed) :
    ∀ words ∈ q.otherClauses, words ≠ [] ∧ ∀ w ∈ words, Low w := by
  have hkey := low_keywords
  simp only [List.forall_mem_cons] at hkey
  obtain ⟨-, hin, hsheet, hgreater, hless, hthan, his, hsort, hby, hdesc, hlimit, -⟩ := hkey
  obtain ⟨habove, hbelow, hsame, horder⟩ := h.low_names
  have hnil : ∀ w ∈ ([] : List (List Char)), Low w := fun w hw => absurd hw List.not_mem_nil
  simp only [otherClauses, List.forall_mem_cons, sheetClause, aboveClause, belowClause, sameClause,
    orderClause, limitClause, List.forall_mem_append]
  refine ⟨⟨List.cons_ne_nil _ _, hin, h.low_sheet, hsheet, hnil⟩,
    ⟨List.cons_ne_nil _ _, habove, hgreater, hthan, low_digits _, hnil⟩,
    ⟨List.cons_ne_nil _ _, hbelow, hless, hthan, low_digits _, hnil⟩,
    ⟨List.cons_ne_nil _ _, hsame, his, h.low_value⟩,
    ⟨List.cons_ne_nil _ _, hsort, hby, horder, hdesc, hnil⟩,
    ⟨List.cons_ne_nil _ _, hlimit, low_digits _, hnil⟩, ?_⟩
  intro words hwords
  cases hwords

theorem low_clauses (h : q.WellFormed) :
    ∀ c ∈ q.clauses, IsMark c.1 ∧ c.2 ≠ [] ∧ ∀ w ∈ c.2, Low w := by
  intro c hc
  rcases List.mem_append.mp hc with hc | hc
  · obtain ⟨hmark, f, hf, hwords⟩ := mem_fieldClauses hc
    have hshow := low_keywords "show" List.mem_cons_self
    have hlow := List.forall_mem_singleton.mpr (h.low_fields f hf)
    rcases hwords with hwords | hwords <;> rw [hwords]
    · exact ⟨hmark, List.cons_ne_nil _ _, List.forall_mem_cons.mpr ⟨hshow, hlow⟩⟩
    · exact ⟨hmark, List.cons_ne_nil _ _, hlow⟩
  · obtain ⟨words, hwords, rfl⟩ := List.mem_map.mp hc
    exact ⟨.inr rfl, h.low_otherClauses words hwords⟩

theorem marked_clauses (h : q.WellFormed) : Marked q.clauses := by
  intro c hc
  obtain ⟨hmark, hne, hwords⟩ := low_clauses h c hc
  exact ⟨hmark, hne, fun w hw => (hwords w hw).1⟩

theorem lowerChars_text (h : q.WellFormed) : Text.lowerChars q.text.toList = q.text.toList := by
  rw [Text.lowerChars_eq_self_iff]
  intro d hd
  have hmem : d ∈ Query.clauses q.clauses := by
    rw [← toList_text h]
    exact List.mem_cons_of_mem _ (List.mem_cons_of_mem _ hd)
  obtain ⟨c, hc, hd⟩ := List.mem_flatMap.mp hmem
  obtain ⟨hmark, -, hwords⟩ := low_clauses h c hc
  have hspace : Settled ' ' := by decide
  rcases List.mem_cons.mp hd with rfl | hd
  · rcases hmark with hmark | hmark <;> rw [hmark] <;> decide
  · rcases List.mem_cons.mp hd with rfl | hd
    · exact hspace
    · rcases mem_clause hd with rfl | ⟨w, hw, hd⟩
      · exact hspace
      · exact (hwords w hw).2 d hd

/-! Clauses that a rule passes over. -/

theorem WellFormed.plain (h : q.WellFormed) {c : Char × List (List Char)} (hc : c ∈ q.clauses) :
    ∀ w ∈ c.2, Plain w := fun w hw => ((low_clauses h c hc).2.2 w hw).1

theorem eachWord_fieldClauses {P : List Char → List (List Char) → Prop} (hlast : ∀ f, P f [])
    (hshow : ∀ f, P "show".toList [f]) : ∀ c ∈ q.fieldClauses, EachWord P c.2 := by
  intro c hc
  obtain ⟨-, f, -, hwords⟩ := mem_fieldClauses hc
  rcases hwords with hwords | hwords <;> rw [hwords]
  · exact ⟨hshow f, hlast f, trivial⟩
  · exact ⟨hlast f, trivial⟩

variable {phrases : List (List String)}

theorem noPhrase_fieldClauses (hphrases : Phrases phrases) :
    ∀ c ∈ q.fieldClauses, EachWord (fun _ after => phraseAfter? phrases after = none) c.2 :=
  eachWord_fieldClauses (fun _ => phraseAfter?_of_short hphrases (Nat.zero_le 1))
    fun _ => phraseAfter?_of_short hphrases (Nat.le_refl 1)

theorem noPhrase_comparison (hphrases : Phrases phrases) {word : List Char}
    (hword : ∀ t ∈ [word, "than".toList], ∀ ws ∈ phrases, ∀ w ∈ ws.head?, w.toList ≠ t)
    (field digits : List Char) : EachWord (fun _ after => phraseAfter? phrases after = none)
      [field, word, "than".toList, digits] := by
  refine ⟨phraseAfter?_of_ne hphrases (hword _ List.mem_cons_self) _,
    phraseAfter?_of_ne hphrases (hword _ (by simp)) _, ?_, ?_, trivial⟩
  · exact phraseAfter?_of_short hphrases (Nat.le_refl 1)
  · exact phraseAfter?_of_short hphrases (Nat.zero_le 1)

theorem WellFormed.noEqual_sheet (h : q.WellFormed) :
    EachWord (fun _ after => phraseAfter? equalWords after = none) q.sheetClause := by
  apply noPhrase_of_ne (by decide)
  change ∀ t ∈ letters q.sheet ++ ["sheet".toList], _
  rw [List.forall_mem_append, List.forall_mem_singleton]
  refine ⟨?_, by decide⟩
  intro t ht
  obtain ⟨w, hw, rfl⟩ := List.mem_map.mp ht
  have hne := h.noEqual w hw
  have hsign : w ≠ "=" := by
    rintro rfl
    exact absurd (h.low_sheet _ ht).1 (by decide)
  simp only [List.mem_cons, List.not_mem_nil, or_false, not_or] at hne
  simp only [equalWords, List.forall_mem_cons, List.head?_cons, Option.mem_some_iff, ne_eq,
    forall_eq', String.toList_inj]
  refine ⟨fun h => hne.2.2 h.symm, fun h => hne.2.1 h.symm, fun h => hne.1 h.symm,
    fun h => hsign h.symm, ?_⟩
  intro ws hws
  cases hws

theorem WellFormed.noOrder_sheet (h : q.WellFormed) : EachWord NoOrder q.sheetClause := by
  have hsheet : ¬ "sort by".toList <:+: clause (letters q.sheet) := by
    rw [← toList_intercalate_space]
    exact h.noOrder q.sheet List.mem_cons_self
  refine ⟨.inl (by decide), ?_⟩
  apply EachWord.of_suffix
  intro w after hsuffix
  apply noOrder_of_suffix hsuffix
  intro front back hback heq hw
  -- the word that ends the clause comes after the order
  have hfront := congrArg List.dropLast heq
  rw [List.dropLast_concat, List.dropLast_append_of_ne_nil (List.cons_ne_nil _ _),
    List.dropLast_cons_of_ne_nil (List.cons_ne_nil _ _), List.dropLast_cons_of_ne_nil hback] at hfront
  exact hsheet (infix_clause hw hfront)

theorem WellFormed.noOrder_same (h : q.WellFormed) : EachWord NoOrder q.sameClause := by
  have hvalue : ¬ "sort by".toList <:+: clause (letters q.same.2) := by
    rw [← toList_intercalate_space]
    exact h.noOrder q.same.2 (List.mem_cons_of_mem _ List.mem_cons_self)
  refine ⟨.inr ?_, .inl (by decide), noOrder_words hvalue⟩
  rfl

theorem noOrder_comparison {word : List Char} (hsort : ¬ "sort".toList <:+ word)
    (hby : word ≠ "by".toList) (field digits : List Char) :
    EachWord NoOrder [field, word, "than".toList, digits] :=
  ⟨.inr (if_neg hby.symm), .inl hsort, .inl (by decide), .inr rfl, trivial⟩

theorem noLimit_comparison {word : List Char} (hlimit : ¬ "limit".toList <:+ word)
    (hresults : ¬ "results".toList <+: word) (hdigits : DigitFree word) (field digits : List Char) :
    EachWord NoLimit [field, word, "than".toList, digits] := by
  have hthan : DigitFree "than".toList := by decide
  refine ⟨⟨fun _ => ⟨hdigits.digitsAt?, hthan.digitsAt?⟩, .inr ?_⟩, ⟨fun h => absurd h hlimit, .inr ?_⟩,
    ⟨fun h => absurd h (by decide), .inl ?_⟩, noLimit_last digits, trivial⟩
  · rintro _ ⟨⟩
    exact hresults
  · rintro _ ⟨⟩
    decide
  · rintro _ ⟨⟩
    decide

theorem WellFormed.digitFree_sheet (h : q.WellFormed) : ∀ w ∈ q.sheetClause, DigitFree w := by
  unfold sheetClause
  rw [List.forall_mem_cons, List.forall_mem_append, List.forall_mem_singleton]
  refine ⟨by decide, ?_, by decide⟩
  intro w hw
  obtain ⟨v, hv, rfl⟩ := List.mem_map.mp hw
  exact h.noDigit v (List.mem_append_left _ hv)

theorem WellFormed.digitFree_value (h : q.WellFormed) : ∀ w ∈ letters q.same.2, DigitFree w := by
  intro w hw
  obtain ⟨v, hv, rfl⟩ := List.mem_map.mp hw
  exact h.noDigit v (List.mem_append_right _ hv)

theorem WellFormed.noLimit_same (h : q.WellFormed) : EachWord NoLimit q.sameClause := by
  have his : DigitFree "is".toList := by decide
  refine ⟨⟨fun _ => ⟨his.digitsAt?, firstDigits?_eq_none h.digitFree_value⟩, .inr ?_⟩,
    noLimit_of_digitFree his h.digitFree_value, noLimit_words h.digitFree_value⟩
  rintro _ ⟨⟩
  decide

theorem noLimit_order : EachWord NoLimit q.orderClause := by
  have hdesc : DigitFree "desc".toList := by decide
  refine ⟨⟨fun h => absurd h (by decide), .inl ?_⟩, ⟨fun h => absurd h (by decide), .inl ?_⟩,
    ⟨fun _ => ⟨hdesc.digitsAt?, rfl⟩, .inr ?_⟩, noLimit_last _, trivial⟩
  all_goals rintro _ ⟨⟩
  · decide
  · decide
  · decide

theorem noLimit_fieldClauses : ∀ c ∈ q.fieldClauses, EachWord NoLimit c.2 := by
  apply eachWord_fieldClauses noLimit_last
  intro f
  refine ⟨fun h => absurd h (by decide), .inl ?_⟩
  rintro _ ⟨⟩
  decide

theorem noOrder_fieldClauses : ∀ c ∈ q.fieldClauses, EachWord NoOrder c.2 := by
  apply eachWord_fieldClauses
  · intro f
    exact .inr rfl
  · intro f
    exact .inl (by decide)

/-! What each rule reads. -/

theorem WellFormed.plain_field (h : q.WellFormed) {c : Char × List (List Char)}
    (hc : c ∈ q.fieldClauses) : ∀ w ∈ c.2, Plain w := h.plain (List.mem_append_left _ hc)

theorem WellFormed.plain_other (h : q.WellFormed) {words : List (List Char)}
    (hwords : words ∈ q.otherClauses) : ∀ w ∈ words, Plain w :=
  h.plain (List.mem_append_right _ (List.mem_map_of_mem hwords))

theorem clauses_split {before later : List (List (List Char))} {words : List (List Char)}
    (hsplit : q.otherClauses = before ++ words :: later) :
    q.clauses = (q.fieldClauses ++ before.map (';', ·)) ++ (';', words) :: later.map (';', ·) := by
  simp [clauses, hsplit]

theorem firstAtWord_text {α : Type} {read : List Char → List Char → Option α} (h : q.WellFormed)
    (before : List (List (List Char))) {later : List (List (List Char))} {w : List Char}
    {after : List (List Char)} {a : α} (hsplit : q.otherClauses = before ++ (w :: after) :: later)
    (hfields : ∀ c ∈ q.fieldClauses, Passes read c.2) (hbefore : ∀ words ∈ before, Passes read words)
    (hread : ∀ rest, Ends rest → read w (spaced after ++ rest) = some a) :
    firstAtWord read q.text.toList = some a := by
  have hmarked := marked_clauses h
  have htext : firstAtWord read q.text.toList = firstAtWord read (Query.clauses q.clauses) := by
    rw [← toList_text h, firstAtWord_break read (.inr (.inr rfl)), firstAtWord_break read (.inl rfl)]
  rw [clauses_split hsplit] at hmarked htext
  rw [htext]
  apply firstAtWord_clauses hmarked _ hread
  rw [List.forall_mem_append, List.forall_mem_map]
  exact ⟨hfields, hbefore⟩

theorem firstAt_text {α : Type} {read : List Char → Option α} (hstarts : StartsAtWord read)
    (h : q.WellFormed)
    (before : List (List (List Char))) {later : List (List (List Char))} {w : List Char}
    {after : List (List Char)} {a : α} (hsplit : q.otherClauses = before ++ (w :: after) :: later)
    (hfields : ∀ c ∈ q.fieldClauses, PassesWithin read c.2)
    (hbefore : ∀ words ∈ before, PassesWithin read words)
    (hread : ∀ rest, Ends rest → read (w ++ (spaced after ++ rest)) = some a) :
    firstAt read q.text.toList = some a := by
  have hmarked := marked_clauses h
  have htext : firstAt read q.text.toList = firstAt read (Query.clauses q.clauses) := by
    rw [← toList_text h, firstAt_break hstarts (.inr (.inr rfl)), firstAt_break hstarts (.inl rfl)]
  rw [clauses_split hsplit] at hmarked htext
  rw [htext]
  apply firstAt_clauses hstarts hmarked _ hread
  rw [List.forall_mem_append, List.forall_mem_map]
  exact ⟨hfields, hbefore⟩

@[simp] theorem digitsAt?_toDigits (n : Nat) : digitsAt? (Nat.toDigits 10 n) = some (Nat.toDigits 10 n) :=
  digitsAt?_digits Nat.toDigits_ne_nil
    (Text.forall_mem_toDigits (fun d hd => (Text.digitChar_facts d hd).1) n)

theorem readComparison_toDigits (hphrases : Phrases phrases) {word : List Char} {n : Nat}
    (hphrase : phraseAfter? phrases [word, "than".toList, Nat.toDigits 10 n] =
      some [Nat.toDigits 10 n]) (field : List Char)
    (hwords : ∀ w ∈ [field, word, "than".toList, Nat.toDigits 10 n], Plain w) {rest : List Char}
    (hrest : Ends rest) : readComparison (phrases.map phrase) field
      (spaced [word, "than".toList, Nat.toDigits 10 n] ++ rest) = some (field, Nat.toDigits 10 n) := by
  rw [readComparison_spaced hphrases field (List.forall_mem_cons.mp hwords).2 hrest, hphrase]
  change (digitsAt? (Nat.toDigits 10 n)).map _ = _
  rw [digitsAt?_toDigits]
  rfl

theorem passes_comparison_before (hphrases : Phrases phrases) (h : q.WellFormed) :
    (∀ c ∈ q.fieldClauses, Passes (readComparison (phrases.map phrase)) c.2) ∧
      Passes (readComparison (phrases.map phrase)) q.sheetClause := by
  constructor
  · intro c hc
    exact passes_of_noPhrase hphrases (h.plain_field hc) (noPhrase_fieldClauses hphrases c hc)
  · apply passes_comparison_of_digitFree hphrases _ h.digitFree_sheet
    exact h.plain_other List.mem_cons_self

theorem comparison_above (h : q.WellFormed) : comparison greaterPhrases q.text.toList =
    some (q.above.1.toList, Nat.toDigits 10 q.above.2) := by
  have hwords : Phrases greaterWords := by decide
  obtain ⟨hfields, hsheet⟩ := passes_comparison_before hwords h
  rw [map_phrase.1]
  apply firstAtWord_text h [q.sheetClause] rfl hfields
  · exact List.forall_mem_singleton.mpr hsheet
  · intro rest hrest
    apply readComparison_toDigits hwords rfl _ _ hrest
    exact @WellFormed.plain_other q h q.aboveClause (by simp [otherClauses])

theorem comparison_below (h : q.WellFormed) : comparison lessPhrases q.text.toList =
    some (q.below.1.toList, Nat.toDigits 10 q.below.2) := by
  have hwords : Phrases lessWords := by decide
  obtain ⟨hfields, hsheet⟩ := passes_comparison_before hwords h
  have habove : Passes (readComparison (lessWords.map phrase)) q.aboveClause := by
    apply passes_of_noPhrase hwords (h.plain_other (by simp [otherClauses]))
    exact noPhrase_comparison hwords (by decide) _ _
  rw [map_phrase.2.1]
  apply firstAtWord_text h [q.sheetClause, q.aboveClause] rfl hfields
  · exact List.forall_mem_cons.mpr ⟨hsheet, List.forall_mem_singleton.mpr habove⟩
  · intro rest hrest
    apply readComparison_toDigits hwords rfl _ _ hrest
    exact h.plain_other (by simp [otherClauses, belowClause])

theorem equality_same (h : q.WellFormed) : equality q.text.toList =
    some (q.same.1.toList, clause (letters q.same.2)) := by
  have hwords : Phrases equalWords := by decide
  have hnone : ∀ words ∈ [q.sheetClause, q.aboveClause, q.belowClause], Passes readEquality words := by
    simp only [List.forall_mem_cons]
    refine ⟨passes_equality (h.plain_other ?_) h.noEqual_sheet,
      passes_equality (h.plain_other ?_) (noPhrase_comparison hwords (by decide) _ _),
      passes_equality (h.plain_other ?_) (noPhrase_comparison hwords (by decide) _ _), ?_⟩
    · simp [otherClauses]
    · simp [otherClauses]
    · simp [otherClauses]
    · intro words hwords
      cases hwords
  apply firstAtWord_text h [q.sheetClause, q.aboveClause, q.belowClause] rfl _ hnone
  · intro rest hrest
    apply readEquality_is _ _ _ hrest
    · exact fun w hw => (h.low_value w hw).1
    · simpa [letters] using h.value
  · intro c hc
    exact passes_equality (h.plain_field hc) (noPhrase_fieldClauses hwords c hc)

theorem sort_order (h : q.WellFormed) : sort q.text.toList = some ⟨q.order, -1⟩ := by
  have hnone : ∀ words ∈ [q.sheetClause, q.aboveClause, q.belowClause, q.sameClause],
      EachWord NoOrder words := by
    simp only [List.forall_mem_cons]
    refine ⟨h.noOrder_sheet, noOrder_comparison (by decide) (by decide) _ _,
      noOrder_comparison (by decide) (by decide) _ _, h.noOrder_same, ?_⟩
    intro words hwords
    cases hwords
  apply firstAt_text startsAtWord_sort h
    [q.sheetClause, q.aboveClause, q.belowClause, q.sameClause] rfl
  · intro c hc
    exact passes_sort (h.plain_field hc) (noOrder_fieldClauses c hc)
  · intro words hwords
    exact passes_sort (h.plain_other (List.mem_append_left _ hwords)) (hnone words hwords)
  · intro rest hrest
    rw [sortAt_desc h.low_names.2.2.2.1 hrest, String.ofList_toList]

theorem limit_limit (h : q.WellFormed) : firstAt limitAt q.text.toList =
    some (Nat.toDigits 10 q.limit) := by
  have hnone : ∀ words ∈ [q.sheetClause, q.aboveClause, q.belowClause, q.sameClause, q.orderClause],
      EachWord NoLimit words := by
    simp only [List.forall_mem_cons]
    refine ⟨noLimit_words h.digitFree_sheet,
      noLimit_comparison (by decide) (by decide) (by decide) _ _,
      noLimit_comparison (by decide) (by decide) (by decide) _ _, h.noLimit_same,
      noLimit_order, ?_⟩
    intro words hwords
    cases hwords
  apply firstAt_text startsAtWord_limit h
    [q.sheetClause, q.aboveClause, q.belowClause, q.sameClause, q.orderClause] rfl
  · intro c hc
    exact passes_limit (h.plain_field hc) (noLimit_fieldClauses c hc)
  · intro words hwords
    exact passes_limit (h.plain_other (List.mem_append_left _ hwords)) (hnone words hwords)
  · intro rest hrest
    apply limitAt_limit Nat.toDigits_ne_nil _ hrest
    exact Text.forall_mem_toDigits (fun d hd => (Text.digitChar_facts d hd).1) _

theorem fields_listed (h : q.WellFormed) : Query.fields q.text.toList = q.fields := by
  obtain ⟨f, fs, hf⟩ := List.exists_cons_of_ne_nil h.fields
  have hlow : ∀ w ∈ f.toList :: letters fs, Low w := by
    have hfields := h.low_fields
    rw [hf] at hfields
    exact hfields
  rw [List.forall_mem_cons] at hlow
  obtain ⟨rest, hrest⟩ : ∃ rest, Query.clauses (q.otherClauses.map (';', ·)) = ';' :: rest :=
    ⟨_, rfl⟩
  have htext : q.text.toList =
      "show ".toList ++ (f.toList ++ (Query.clauses (listed (letters fs)) ++ ';' :: rest)) := by
    have htext := toList_text h
    rw [clauses, fieldClauses_cons hf, List.cons_append, clauses_cons, clauses_append, hrest] at htext
    rw [(List.cons.inj (List.cons.inj htext).2).2, clause_cons, spaced_cons, spaced_nil]
    simp
  have hshow : Text.contains "show".toList q.text.toList := by
    rw [htext]
    rfl
  have hat := fieldsAt_listed hlow.1.1 (fun g hg => (hlow.2 g hg).1) rest
  have hfirst : firstAt fieldsAt q.text.toList = some (f.toList :: letters fs) := by
    rw [htext]
    change (fieldsAt ("show ".toList ++ _) <|> _) = _
    rw [hat]
    rfl
  rw [Query.fields, hshow, Bool.true_or, Bool.true_or, if_pos rfl, hfirst, hf]
  simp [letters]

theorem sheetName_sheet (h : q.WellFormed) :
    sheetName isWord q.text.toList = some (" ".intercalate q.sheet) := by
  have hne : letters q.sheet ≠ [] := by simpa [letters] using h.sheet
  have hruns : runs isWord q.text.toList = q.clauses.map fun c => clause c.2 := by
    rw [← runs_clauses (marked_clauses h), ← toList_text h, runs_of_not_word (by decide),
      runs_of_not_word (by decide)]
  have hfields : q.fieldClauses.findSome? (fun c =>
      nameInRun "in ".toList " sheet".toList (clause c.2)) = none := by
    rw [List.findSome?_eq_none_iff]
    intro c hc
    obtain ⟨-, f, hf, hwords⟩ := mem_fieldClauses hc
    have hnone := nameInRun_show (h.low_fields f hf).1
    rcases hwords with hwords | hwords <;> rw [hwords]
    · exact hnone.1
    · exact hnone.2
  have hsheet : nameInRun "in ".toList " sheet".toList (clause q.sheetClause) =
      some (clause (letters q.sheet)) :=
    nameInRun_sheet (fun w hw => (h.low_sheet w hw).1) hne
  have hfound : findSheetName isWord q.text.toList "in ".toList " sheet".toList =
      some (clause (letters q.sheet)) := by
    rw [findSheetName, hruns, List.findSome?_map, clauses, List.findSome?_append, otherClauses,
      List.map_cons, List.findSome?_cons]
    simp only [Function.comp_def, hfields, hsheet, Option.none_or]
  rw [sheetName, sheetNameForms, List.findSome?_cons, hfound, ← toList_intercalate_space]
  exact congrArg some String.ofList_toList

theorem readNumber_toDigits (h : q.WellFormed) {n : Nat} (hn : n ∈ [q.above.2, q.below.2, q.limit]) :
    readNumber (Nat.toDigits 10 n) = .ok n := by
  have hlength : (Nat.toDigits 10 n).length ≤ maxIntegerDigits := by
    rw [← Nat.toList_repr, String.length_toList]
    exact h.numbers n hn
  rw [readNumber, if_neg (Nat.not_lt.mpr hlength), Text.digitsValue_toDigits]

theorem filters_text (h : q.WellFormed) : Query.filters q.text.toList = .ok q.intent.filters := by
  have hapart := h.apart
  simp only [List.nodup_cons, List.mem_cons, List.not_mem_nil, or_false, not_or] at hapart
  obtain ⟨⟨hbelow, hsame⟩, hsame', -⟩ := hapart
  have hput (c d e : Condition) :
      Filters.put q.same.1 e (Filters.put q.below.1 d (Filters.put q.above.1 c [])) =
        [(q.above.1, c), (q.below.1, d), (q.same.1, e)] := by
    simp only [Filters.put, if_neg hbelow, if_neg hsame, if_neg hsame']
  have hN := readNumber_toDigits h (n := q.above.2) (by simp only [List.mem_cons, true_or])
  have hM := readNumber_toDigits h (n := q.below.2) (by simp only [List.mem_cons, true_or, or_true])
  unfold Query.filters
  simp only [comparisonFilter, comparison_above h, comparison_below h, equalityFilter,
    equality_same h, hN, hM, String.ofList_toList, ← toList_intercalate_space]
  exact congrArg Except.ok (hput _ _ _)

theorem action_text : action q.text.toList = q.asked := by
  unfold action asked
  simp only [Bool.or_eq_true, contains_iff, Or.comm]

theorem limit_text (h : q.WellFormed) : Query.limit q.text.toList = .ok q.limit := by
  have hL := readNumber_toDigits h (n := q.limit) (by simp only [List.mem_cons, true_or, or_true])
  rw [Query.limit, limit_limit h]
  change (readNumber (Nat.toDigits 10 q.limit)).map Int.ofNat = _
  rw [hL]
  rfl

/-- Each rule reads its own clause and nothing else, whatever the words are. -/
theorem ofQuestion_text (q : FullQuestion) (h : q.WellFormed) :
    Intent.ofQuestion (some q.text) = .ok q.intent := by
  unfold Intent.ofQuestion intentOf
  rw [Option.getD_some, lowerChars_text h, filters_text h, limit_text h, action_text,
    sheetName_sheet h, fields_listed h, sort_order h]
  rfl

def ofKeywords : FullQuestion where
  fields := ["limit", "is"]
  sheet := ["over", "sheet"]
  above := ("results", 5)
  below := ("by", 7)
  same := ("sort", ["equals", "results"])
  order := "limit"
  limit := 3

theorem ofQuestion_text_keywords :
    Intent.ofQuestion (some ("show limit, is; in over sheet sheet; results greater than 5; " ++
      "by less than 7; sort is equals results; sort by limit desc; limit 3")) =
    .ok {
      sheetName := some "over sheet"
      filters := [("results", .compare ⟨.greater, .integer 5⟩),
        ("by", .compare ⟨.less, .integer 7⟩), ("sort", .equals (some "equals results"))]
      fields := ["limit", "is"]
      limit := 3
      sort := some ⟨"limit", -1⟩ } := by
  have hwell : ofKeywords.WellFormed := {
    fields := by decide
    sheet := by decide
    value := by decide
    words := by decide +kernel
    apart := by decide
    noDigit := by decide +kernel
    noOrder := by decide +kernel
    noEqual := by decide
    numbers := by decide +kernel }
  have hfind : ofKeywords.asked = .find := by decide +kernel
  have htext := ofQuestion_text ofKeywords hwell
  unfold intent at htext
  rw [hfind] at htext
  exact htext

end FullQuestion

end PlainSheets.Query
