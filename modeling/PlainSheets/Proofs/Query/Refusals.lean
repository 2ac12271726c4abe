import PlainSheets.Proofs.Steps
import PlainSheets.Query.Annotation

/-!
What can go wrong when a question or the reply of a model is read. A question is read unless a number
in it has too many digits. No reply is taken for a client that is not there.
-/
namespace PlainSheets

namespace Query

variable {text : List Char}

def compared? (phrases : List String) (text : List Char) : Option (List Char) :=
  (comparison phrases text).map Prod.snd

def numbers (text : List Char) : List (List Char) :=
  [compared? greaterPhrases text, compared? lessPhrases text, firstAt limitAt text].filterMap id

theorem forall_mem_numbers {P : List Char → Prop} : (∀ ds ∈ numbers text, P ds) ↔
    (∀ ds, compared? greaterPhrases text = some ds → P ds) ∧
      (∀ ds, compared? lessPhrases text = some ds → P ds) ∧
        ∀ ds, firstAt limitAt text = some ds → P ds := by
  simp [numbers, or_imp, forall_and, eq_comm]

def Short (ds : List Char) : Prop := ds.length ≤ maxIntegerDigits

theorem readNumber_isOk_iff {ds : List Char} : (∃ n, readNumber ds = .ok n) ↔ Short ds := by
  unfold readNumber
  split
  · rename_i hlong
    exact iff_of_false nofun (Nat.not_le_of_lt hlong)
  · rename_i hshort
    exact iff_of_true ⟨_, rfl⟩ (Nat.le_of_not_lt hshort)

theorem comparisonFilter_isOk_iff {phrases : List String} {c : Comparator} {fs : Filters} :
    (∃ gs, comparisonFilter phrases c text fs = .ok gs) ↔
      ∀ ds, compared? phrases text = some ds → Short ds := by
  unfold comparisonFilter compared?
  split
  · rename_i hnone
    simp [hnone]
  · rename_i word ds hsome
    simp [hsome, exists_bind_eq_ok, readNumber_isOk_iff]

theorem limit_isOk_iff :
    (∃ n, limit text = .ok n) ↔ ∀ ds, firstAt limitAt text = some ds → Short ds := by
  unfold limit
  split
  · rename_i hnone
    simp [hnone]
  · rename_i ds hsome
    simp [hsome, exists_map_eq_ok, readNumber_isOk_iff]

theorem intentOf_isOk_iff : (∃ i, intentOf text = .ok i) ↔ ∀ ds ∈ numbers text, Short ds := by
  unfold intentOf filters
  simp only [forall_mem_numbers, exists_bind_eq_ok, bind_assoc, Except.ok.injEq, exists_eq', and_true,
    true_and, exists_and_right, comparisonFilter_isOk_iff, limit_isOk_iff]

def TooLongIn (text : List Char) (f : Failure) : Prop :=
  ∃ ds ∈ numbers text, ¬ Short ds ∧ f = .integerTooLong (some ds.length)

theorem failsAs_readNumber {ds : List Char} (h : ds ∈ numbers text) :
    FailsAs (TooLongIn text) (readNumber ds) := by
  unfold readNumber
  split
  · rename_i hlong
    exact .error ⟨ds, h, Nat.not_le_of_lt hlong, rfl⟩
  · exact .ok _

theorem failsAs_comparisonFilter {phrases : List String} {c : Comparator} {fs : Filters}
    (h : ∀ ds, compared? phrases text = some ds → ds ∈ numbers text) :
    FailsAs (TooLongIn text) (comparisonFilter phrases c text fs) := by
  unfold comparisonFilter
  split
  · exact .ok _
  · rename_i word ds hsome
    exact (failsAs_readNumber (h ds (by rw [compared?, hsome]; rfl))).bind fun _ => .ok _

theorem failsAs_limit (h : ∀ ds, firstAt limitAt text = some ds → ds ∈ numbers text) :
    FailsAs (TooLongIn text) (limit text) := by
  unfold limit
  split
  · exact .ok _
  · rename_i ds hsome
    exact (failsAs_readNumber (h ds hsome)).map _

theorem failsAs_intentOf : FailsAs (TooLongIn text) (intentOf text) := by
  obtain ⟨hgreater, hless, hlimit⟩ := forall_mem_numbers.mp fun ds (h : ds ∈ numbers text) => h
  have hfilters : FailsAs (TooLongIn text) (filters text) :=
    (failsAs_comparisonFilter hgreater).bind fun _ =>
      (failsAs_comparisonFilter hless).bind fun _ => .ok _
  exact hfilters.bind fun _ => (failsAs_limit hlimit).bind fun _ => .ok _

def TooLong (f : Failure) : Prop := ∃ n, f = .integerTooLong (some n) ∧ maxIntegerDigits < n

end Query

theorem Intent.failsAs_ofQuestion {question : Option String} :
    FailsAs Query.TooLong (ofQuestion question) := by
  intro f h
  obtain ⟨ds, -, hlong, rfl⟩ := Query.failsAs_intentOf f h
  exact ⟨ds.length, rfl, Nat.lt_of_not_le hlong⟩

/-! JSON. -/

namespace Json

def IsRefusal (f : Failure) : Prop := f = .notJson ∨ ∃ n, f = .integerTooLong n

theorem failsAs_notJson {α : Type} : FailsAs IsRefusal (.error .notJson : Except Failure α) :=
  .error (.inl rfl)

theorem failsAs_readText {fuel : Nat} {cs : List Char} : FailsAs IsRefusal (readText fuel cs) := by
  fun_induction readText fuel cs with
  | case1 | case2 | case4 | case5 | case8 | case10 => exact failsAs_notJson
  | case3 => exact .ok _
  | case6 _ _ _ _ _ _ _ _ _ ih => exact ih.bind fun _ => .ok _
  | case7 _ _ _ _ _ _ _ ih => exact ih.bind fun _ => .ok _
  | case9 _ _ _ _ _ _ _ ih => exact ih.bind fun _ => .ok _
  | case11 _ _ _ _ _ _ ih => exact ih.bind fun _ => .ok _

section

variable {α : Type} {b : Builder α}

theorem failsAs_numberOf {negative : Bool} {whole fraction : List Char} {exponent : Option Int} :
    FailsAs IsRefusal (numberOf b negative whole fraction exponent) := by
  unfold numberOf
  split
  · split
    · exact .error (.inr ⟨_, rfl⟩)
    · exact .ok _
  · exact .ok _

theorem failsAs_readNumber {cs : List Char} : FailsAs IsRefusal (readNumber b cs) := by
  unfold readNumber
  dsimp only
  split
  · exact failsAs_notJson
  · split
    · exact failsAs_numberOf.map _
    · exact failsAs_numberOf.map _

theorem failsAs_readScalar {cs : List Char} : FailsAs IsRefusal (readScalar b cs) := by
  unfold readScalar
  repeat' split
  all_goals first
    | exact .ok _
    | exact failsAs_readNumber

theorem failsAs_readers (hobject : ∀ fields, FailsAs IsRefusal (b.object fields)) (fuel : Nat) :
    (∀ cs, FailsAs IsRefusal (readValue b fuel cs)) ∧
      (∀ cs, FailsAs IsRefusal (readItems b fuel cs)) ∧
      ∀ done cs, FailsAs IsRefusal (readFields b fuel done cs) := by
  induction fuel with
  | zero => exact ⟨fun _ => failsAs_notJson, fun _ => failsAs_notJson, fun _ _ => failsAs_notJson⟩
  | succ fuel ih =>
    refine ⟨fun cs => ?value, fun cs => ?items, fun done cs => ?fields⟩
    case value =>
      unfold readValue
      split
      · exact failsAs_readText.bind fun _ => .ok _
      · split
        · exact .ok _
        · exact (ih.1 _).bind fun _ => (ih.2.1 _).bind fun _ => .ok _
      · split
        · exact (hobject _).bind fun _ => .ok _
        · exact (ih.2.2 _ _).bind fun _ => (hobject _).bind fun _ => .ok _
      · exact failsAs_readScalar
    case items =>
      unfold readItems
      split
      · exact .ok _
      · exact (ih.1 _).bind fun _ => (ih.2.1 _).bind fun _ => .ok _
      · exact failsAs_notJson
    case fields =>
      unfold readFields
      split
      · refine failsAs_readText.bind fun key => ?_
        dsimp only
        split
        · refine (ih.1 _).bind fun v => ?_
          split
          · exact .ok _
          · exact ih.2.2 _ _
          · exact failsAs_notJson
        · exact failsAs_notJson
      · exact failsAs_notJson

end

theorem failsAs_read {s : String} : FailsAs IsRefusal (read s) := by
  refine ((failsAs_readers (fun _ => .ok _) _).1 _).bind fun _ => ?_
  dsimp only
  split
  · exact .ok _
  · exact failsAs_notJson

end Json

/-! Replies. -/

namespace Annotator

/-- Anything but a client that is not there. -/
def OfReply (f : Failure) : Prop := ∀ reason, f ≠ .unavailable reason

theorem failsAs_replyText {reply : Reply} : FailsAs OfReply (replyText reply) := by
  cases reply with
  | text s => exact .ok _
  | empty => exact .ok _
  | fails message => exact .error nofun

theorem failsAs_numberOf {j : Json} : FailsAs OfReply (numberOf j) := by
  -- Which numbers the readers give does not matter; left in place, they would be run.
  obtain ⟨ofInt, hInt⟩ : ∃ read, read = Binary64.ofInt? := ⟨_, rfl⟩
  obtain ⟨ofText, hText⟩ : ∃ read, read = Binary64.ofText? := ⟨_, rfl⟩
  unfold numberOf
  rw [← hInt, ← hText]
  cases j with
  | real | flag => exact .ok _
  | integer n =>
    dsimp only
    split
    · exact .ok _
    · exact .error nofun
  | text s =>
    dsimp only
    split
    · exact .ok _
    · exact .error nofun
  | null | list | object => exact .error nofun

theorem failsAs_scoreOf {j : Json} : FailsAs OfReply (scoreOf j) := by
  unfold scoreOf
  repeat' split
  all_goals first
    | exact failsAs_numberOf
    | exact .error nofun

theorem failsAs_confidenceOf {reply : Reply} : FailsAs OfReply (confidenceOf reply) := by
  refine failsAs_replyText.bind fun s => FailsAs.bind ?_ fun j => failsAs_scoreOf.map _
  intro f h
  rcases Json.failsAs_read f h with rfl | ⟨n, rfl⟩
  · exact nofun
  · exact nofun

theorem failsAs_understandingOf {reply : Reply} : FailsAs OfReply (understandingOf reply) :=
  failsAs_replyText.bind fun _ => .ok _

end Annotator

end PlainSheets
