import PlainSheets.Proofs.Binary64.Difference
import PlainSheets.Proofs.Query.Annotated

/-!
How sure the models are. The score in a reply is moved between 0 and 1, where comparisons decide, and with
what is no number every comparison fails. Main statement: a confidence is a number from 0 to 1, the one
nearest to the score, unless the reply writes the word for no number, which is then the confidence.
-/
namespace PlainSheets

namespace Binary64

variable {x : Binary64} {m : ℤ}

def IsShare (x : Binary64) : Prop := ∃ m, x.units? = some m ∧ 0 ≤ m ∧ m ≤ unit

@[simp] theorem units?_one : (ofNat 1).units? = some (unit : ℤ) := by decide +kernel

theorem isShare_zero : (zero false).IsShare := ⟨0, units?_zero false, le_rfl, Int.natCast_nonneg _⟩

theorem isShare_one : (ofNat 1).IsShare := ⟨unit, units?_one, Int.natCast_nonneg _, le_rfl⟩

theorem not_isShare_nan : ¬ nan.IsShare := fun ⟨_, h, _⟩ => nomatch h

@[simp] theorem lt_nan (x : Binary64) : x.lt nan = false := by cases x <;> rfl

theorem lt_zero_iff (hx : x.units? = some m) : x.lt (zero false) = true ↔ m < 0 :=
  lt_iff_units hx (units?_zero false)

theorem one_lt_iff (hx : x.units? = some m) : (ofNat 1).lt x = true ↔ (unit : ℤ) < m :=
  lt_iff_units units?_one hx

theorem lt_infinite (hx : x.units? = some m) (s : Bool) : x.lt (infinite s) = !s := by
  cases x with
  | finite t u hu => cases s <;> rfl
  | infinite t => cases hx
  | nan => cases hx

theorem not_above_of_below (h : x.lt (zero false) = true) : (ofNat 1).lt x = false := by
  cases x with
  | nan => exact lt_nan _
  | infinite s =>
    rw [lt_infinite units?_one]
    cases s with
    | true => rfl
    | false => cases h
  | finite s u hu =>
    have hunits : (finite s u hu).units? = some (signed s u) := rfl
    rw [lt_zero_iff hunits] at h
    rw [← Bool.not_eq_true, one_lt_iff hunits]
    omega

theorem isFinite_of_ofInt? {n : ℤ} (h : ofInt? n = some x) : x.isFinite = true := by
  rw [ofInt?_eq] at h
  obtain ⟨hfinite, hx⟩ := Option.ite_none_right_eq_some.mp h
  exact Option.some.inj hx ▸ hfinite

theorem isShare_iff (h : x.isNaN = false) :
    x.IsShare ↔ x.lt (zero false) = false ∧ (ofNat 1).lt x = false := by
  cases x with
  | nan => cases h
  | infinite s =>
    refine iff_of_false (fun ⟨_, hunits, _⟩ => nomatch hunits) ?_
    cases s with
    | true => exact fun hboth => nomatch hboth.1
    | false =>
      rw [lt_infinite units?_one]
      exact fun hboth => nomatch hboth.2
  | finite s u hu =>
    have hunits : (finite s u hu).units? = some (signed s u) := rfl
    rw [← Bool.not_eq_true, ← Bool.not_eq_true, lt_zero_iff hunits, one_lt_iff hunits, not_lt, not_lt]
    constructor
    · rintro ⟨m, hm, hbounds⟩
      cases hm
      exact hbounds
    · exact fun hbounds => ⟨_, hunits, hbounds⟩

/-- The number from 0 to 1 that is nearest to a score. -/
structure Clamps (score x : Binary64) : Prop where
  share : x.IsShare
  below : score.lt (zero false) = true → x = zero false
  above : (ofNat 1).lt score = true → x = ofNat 1
  within : score.IsShare → x = score

end Binary64

namespace Annotator

open Binary64

variable {a : Annotator} {service : Service} {reply : Reply} {x score : Binary64}

@[simp] theorem clamp_nan : clamp .nan = .nan := by
  have hbelow : nan.lt (zero false) = false := rfl
  simp only [clamp, hbelow, lt_nan, Bool.false_eq_true, if_false]

theorem clamp_below (h : x.lt (zero false) = true) : clamp x = zero false := by
  have hzero : (ofNat 1).lt (zero false) = false := by
    rw [← Bool.not_eq_true, one_lt_iff (units?_zero false), not_lt]
    exact Int.natCast_nonneg _
  simp only [clamp, h, if_true, hzero, Bool.false_eq_true, if_false]

theorem clamp_above (h : (ofNat 1).lt x = true) : clamp x = ofNat 1 := by
  have hbelow : x.lt (zero false) = false := by
    rw [← Bool.not_eq_true]
    exact fun hbelow => nomatch h.symm.trans (not_above_of_below hbelow)
  simp only [clamp, hbelow, h, Bool.false_eq_true, if_false, if_true]

theorem clamp_within (hbelow : x.lt (zero false) = false) (habove : (ofNat 1).lt x = false) :
    clamp x = x := by
  simp only [clamp, hbelow, habove, Bool.false_eq_true, if_false]

theorem clamps_clamp (h : x.isNaN = false) : Clamps x (clamp x) where
  share := by
    cases hbelow : x.lt (zero false) with
    | true => exact clamp_below hbelow ▸ isShare_zero
    | false =>
      cases habove : (ofNat 1).lt x with
      | true => exact clamp_above habove ▸ isShare_one
      | false =>
        rw [clamp_within hbelow habove]
        exact (isShare_iff h).mpr ⟨hbelow, habove⟩
  below := clamp_below
  above := clamp_above
  within hshare := by
    obtain ⟨hbelow, habove⟩ := (isShare_iff h).mp hshare
    exact clamp_within hbelow habove

/-! Scores. -/

def replyJson (reply : Reply) : Except Failure Json := do
  let s ← replyText reply
  Json.read (if s.isEmpty then "\x7b\x7d" else s)

def scoreIn (reply : Reply) : Except Failure Binary64 := replyJson reply >>= scoreOf

theorem confidenceOf_eq (reply : Reply) : confidenceOf reply = (scoreIn reply).map clamp := by
  unfold confidenceOf scoreIn replyJson
  cases replyText reply with
  | error f => rfl
  | ok s =>
    change (Json.read _ >>= fun j => (scoreOf j).map clamp) = (Json.read _ >>= scoreOf).map clamp
    cases Json.read (if s.isEmpty then "\x7b\x7d" else s) <;> rfl

/-- Whether a reply has the word for no number as its score, bare or as a text. -/
def TellsNoNumber (reply : Reply) : Prop :=
  ∃ fields, replyJson reply = .ok (.object fields) ∧
    (fields.lookup "score" = some (.real .nan) ∨
      ∃ s, fields.lookup "score" = some (.text s) ∧ ofText? s = some .nan)

theorem numberOf_eq_nan_iff (j : Json) :
    numberOf j = .ok .nan ↔ j = .real .nan ∨ ∃ s, j = .text s ∧ ofText? s = some .nan := by
  -- Left in place, the conversion would be run, and the size of the largest number counted out.
  obtain ⟨convert, hconvert, hfinite⟩ : ∃ convert, convert = ofInt? ∧
      ∀ n x, convert n = some x → x.isFinite = true := ⟨_, rfl, fun _ _ => isFinite_of_ofInt?⟩
  unfold numberOf
  rw [← hconvert]
  cases j with
  | real x => simp
  | text s => cases hs : ofText? s <;> simp [hs]
  | integer n =>
    have hne : convert n ≠ some .nan := fun h => nomatch hfinite n _ h
    cases hn : convert n <;> simp_all
  | flag b =>
    have hflag : (ofNat b.toNat).isNaN = false := by cases b <;> decide +kernel
    have hne : ofNat b.toNat ≠ .nan := fun h => nomatch h ▸ hflag
    simp [hne]
  | null | list _ | object _ => simp

theorem scoreOf_eq_nan_iff (j : Json) : scoreOf j = .ok .nan ↔ ∃ fields, j = .object fields ∧
    (fields.lookup "score" = some (.real .nan) ∨
      ∃ s, fields.lookup "score" = some (.text s) ∧ ofText? s = some .nan) := by
  cases j with
  | object fields =>
    unfold scoreOf
    cases hv : fields.lookup "score" with
    | none => simp [hv]
    | some v => simp [hv, numberOf_eq_nan_iff]
  | null | flag _ | integer _ | real _ | text _ | list _ => simp [scoreOf]

theorem scoreIn_eq_nan_iff : scoreIn reply = .ok .nan ↔ TellsNoNumber reply := by
  rw [scoreIn, bind_eq_ok, TellsNoNumber]
  simp only [scoreOf_eq_nan_iff]
  constructor
  · rintro ⟨_, hread, fields, rfl, hscore⟩
    exact ⟨fields, hread, hscore⟩
  · rintro ⟨fields, hread, hscore⟩
    exact ⟨_, hread, fields, rfl, hscore⟩

/-- What becomes of the score in a reply. -/
structure Confident (reply : Reply) (x : Binary64) : Prop where
  /-- Any score that is a number is moved to the nearest one from 0 to 1. -/
  clamped : ∃ score, scoreIn reply = .ok score ∧ (score.isNaN = false → Clamps score x)
  /-- Only the word for no number gets through. -/
  share_iff : x.IsShare ↔ ¬ TellsNoNumber reply
  nan_iff : x = .nan ↔ TellsNoNumber reply

theorem confident (h : confidenceOf reply = .ok x) : Confident reply x := by
  rw [confidenceOf_eq, map_eq_ok] at h
  obtain ⟨score, hscore, rfl⟩ := h
  by_cases hnan : score = .nan
  · subst hnan
    have htells := scoreIn_eq_nan_iff.mp hscore
    rw [clamp_nan]
    exact ⟨⟨.nan, hscore, fun h => nomatch h⟩, iff_of_false not_isShare_nan (not_not_intro htells),
      iff_of_true rfl htells⟩
  · have hnumber : score.isNaN = false := by
      cases score with
      | nan => exact absurd rfl hnan
      | finite | infinite => rfl
    have hclamps := clamps_clamp hnumber
    have hsilent : ¬ TellsNoNumber reply := by
      rw [← scoreIn_eq_nan_iff, hscore, Except.ok.injEq]
      exact hnan
    refine ⟨⟨score, hscore, fun _ => hclamps⟩, iff_of_true hclamps.share hsilent,
      iff_of_false (fun h => ?_) hsilent⟩
    exact not_isShare_nan (h ▸ hclamps.share)

theorem confidenceOf_of_classify {text : String} (h : (a.classify service text).2 = .ok x) :
    confidenceOf service.classifier = .ok x := by
  by_cases hrefuses : a.Refuses service
  · obtain ⟨reason, hrefused⟩ := classify_of_refuses hrefuses text
    rw [hrefused] at h
    cases h
  · obtain ⟨b, k, -, hclassify⟩ := classify_of_not_refuses hrefuses text
    rw [hclassify] at h
    exact h

theorem confidenceOf_of_plan {question : String} {i : Intent} (h : (a.plan service question).2 = .ok i)
    (hx : i.confidence = some x) : confidenceOf service.classifier = .ok x := by
  rw [plan_result, map_eq_ok] at h
  obtain ⟨j, hj, rfl⟩ := h
  rw [Intent.planned_eq_ofQuestion] at hj
  cases hnotes : a.annotation service with
  | none =>
    have hplain := congrArg Intent.confidence (Intent.plain_of_ofQuestion hj)
    rw [hnotes, Intent.annotated, ← hplain] at hx
    cases hx
  | some n =>
    rw [hnotes] at hx
    cases hx
    exact (annotation_eq_some.mp hnotes).2.1

/-- A confidence is a number from 0 to 1, and the one nearest to the score in the classifier's reply, unless
the reply has the word for no number there; then, and only then, the confidence is no number. That goes for
what the classifier is asked alone and for the confidence in what is made of a question. -/
theorem confidences (a : Annotator) (service : Service) :
    (∀ text x, (a.classify service text).2 = .ok x → Confident service.classifier x) ∧
    ∀ question i, (a.plan service question).2 = .ok i →
      i.confidence = none ∨ ∃ x, i.confidence = some x ∧ Confident service.classifier x := by
  refine ⟨fun text x h => confident (confidenceOf_of_classify h), fun question i h => ?_⟩
  cases hx : i.confidence with
  | none => exact .inl rfl
  | some x => exact .inr ⟨x, rfl, confident (confidenceOf_of_plan h hx)⟩

/-- A score of three counts as one, and the word for no number gets through to an intent. -/
theorem confidences_nan :
    let a : Annotator := { settings := {}, hasClient := true }
    let service (reply : String) : Service := ⟨false, .text reply, .text "rows"⟩
    (∃ x, (a.classify (service "\x7b\"score\": 3\x7d") "x").2 = .ok x ∧ x.IsShare ∧ x = ofNat 1) ∧
    ∃ i, (a.plan (service "\x7b\"score\": NaN\x7d") "count rows").2 = .ok i ∧ i.confidence = some .nan ∧
      TellsNoNumber (.text "\x7b\"score\": NaN\x7d") := by
  intro a service
  constructor
  · have hclassify : (a.classify (service "\x7b\"score\": 3\x7d") "x").2 = .ok (ofNat 1) := by
      apply toOption_eq_some.mp
      decide +kernel
    have hconfident := (confidences a (service "\x7b\"score\": 3\x7d")).1 "x" _ hclassify
    refine ⟨_, hclassify, hconfident.share_iff.mpr fun htells => ?_, rfl⟩
    have hnan : (ofNat 1).isNaN = true := congrArg isNaN (hconfident.nan_iff.mpr htells)
    exact absurd hnan (by decide +kernel)
  · have hplan : (a.plan (service "\x7b\"score\": NaN\x7d") "count rows").2 =
        .ok { action := .count, confidence := some .nan, understanding := some "rows" } := by
      apply toOption_eq_some.mp
      decide +kernel
    refine ⟨_, hplan, rfl, ?_⟩
    rcases (confidences a _).2 "count rows" _ hplan with hnone | ⟨x, hx, hconfident⟩
    · cases hnone
    · cases hx
      exact hconfident.nan_iff.mp rfl

end Annotator

end PlainSheets
