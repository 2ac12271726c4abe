import PlainSheets.Proofs.Query.Handles
import PlainSheets.Proofs.Text.Lowercase

/-!
What the models change about a question. Main statement: they add both of their notes or none, and all
else is what the rules read in the question as it was asked.
-/
namespace PlainSheets

namespace Intent

def plain (i : Intent) : Intent := { i with confidence := none, understanding := none }

def annotated (i : Intent) : Option Annotation → Intent
  | none => i
  | some n => { i with confidence := some n.confidence, understanding := some n.understanding }

@[simp] theorem plain_annotated (i : Intent) (n : Option Annotation) : (i.annotated n).plain = i.plain := by
  cases n <;> rfl

theorem plain_of_ofQuestion {question : Option String} {i : Intent} (h : ofQuestion question = .ok i) :
    i.plain = i := by
  obtain ⟨fs, -, h⟩ := bind_eq_ok.mp h
  obtain ⟨n, -, h⟩ := bind_eq_ok.mp h
  rw [← Except.ok.inj h]
  rfl

/-- Lowercase before the rules makes no difference: they read lowercase, and it is the same. -/
theorem planned_eq_ofQuestion (question : String) : planned question = ofQuestion (some question) := by
  have htwice : Text.lowerChars (Text.lower question).toList = Text.lowerChars question.toList := by
    rw [Text.lower, String.toList_ofList, Text.lowerChars_lowerChars]
  exact congrArg Query.intentOf htwice

end Intent

namespace Annotator

variable {a : Annotator} {service : Service}

/-- What the models have to say: something if both can be asked and both answers can be read. -/
def annotation (a : Annotator) (service : Service) : Option Annotation :=
  if a.Refuses service then none
  else
    match confidenceOf service.classifier, understandingOf service.generator with
    | .ok x, .ok s => some ⟨x, s⟩
    | _, _ => none

theorem annotation_eq_some {x : Binary64} {s : String} : a.annotation service = some ⟨x, s⟩ ↔
    ¬ a.Refuses service ∧ confidenceOf service.classifier = .ok x ∧
      understandingOf service.generator = .ok s := by
  unfold annotation
  cases confidenceOf service.classifier <;> cases understandingOf service.generator <;> simp

@[simp] theorem toOption_annotate (a : Annotator) (service : Service) (text : String) :
    (a.annotate service text).2.toOption = a.annotation service := by
  unfold annotation
  split
  · rename_i hrefuses
    obtain ⟨reason, hrefused⟩ := annotate_of_refuses hrefuses text
    rw [hrefused]
    rfl
  · rename_i hallowed
    rw [annotate_of_not_refuses hallowed]
    cases confidenceOf service.classifier <;> cases understandingOf service.generator <;> rfl

theorem plan_result (a : Annotator) (service : Service) (question : String) :
    (a.plan service question).2 =
      (Intent.planned question).map fun i => i.annotated (a.annotation service) := by
  have hnotes := toOption_annotate a service (Text.lower question)
  rw [← hnotes, plan, Intent.planned]
  generalize a.annotate service (Text.lower question) = result
  cases Intent.ofQuestion (some (Text.lower question)) with
  | error f => rfl
  | ok i =>
    match result with
    | (b, .error f) => rfl
    | (b, .ok n) => rfl

@[simp] theorem plan_plain (a : Annotator) (service : Service) (question : String) :
    (a.plan service question).2.map Intent.plain = Intent.ofQuestion (some question) := by
  rw [plan_result, Intent.planned_eq_ofQuestion]
  cases hread : Intent.ofQuestion (some question) with
  | error f => rfl
  | ok i =>
    have hplain := Intent.plain_annotated i (a.annotation service)
    rw [Intent.plain_of_ofQuestion hread] at hplain
    exact congrArg Except.ok hplain

/-- The models only annotate. -/
theorem plan_annotates (a : Annotator) (service : Service) (question : String) :
    (a.plan service question).2.map Intent.plain = Intent.ofQuestion (some question) ∧
      Intent.planned question = Intent.ofQuestion (some question) ∧
      (∀ i, (a.plan service question).2 = .ok i →
        ((i.confidence = none ∧ i.understanding = none) ∨
          ∃ x s, i.confidence = some x ∧ i.understanding = some s) ∧
        ∀ x s, (i.confidence = some x ∧ i.understanding = some s) ↔
          ¬ a.Refuses service ∧ confidenceOf service.classifier = .ok x ∧
            understandingOf service.generator = .ok s) ∧
      ∀ (b : Annotator) (other : Service),
        (a.plan service question).2.map Intent.plain = (b.plan other question).2.map Intent.plain := by
  refine ⟨plan_plain a service question, Intent.planned_eq_ofQuestion question, fun i hi => ?_,
    fun b other => (plan_plain a service question).trans (plan_plain b other question).symm⟩
  rw [plan_result, map_eq_ok] at hi
  obtain ⟨j, hj, rfl⟩ := hi
  rw [Intent.planned_eq_ofQuestion] at hj
  have hnone := Intent.plain_of_ofQuestion hj
  cases hnotes : a.annotation service with
  | none =>
    rw [Intent.annotated, ← hnone]
    refine ⟨.inl ⟨rfl, rfl⟩, fun x s => ?_⟩
    rw [← annotation_eq_some, hnotes]
    simp [Intent.plain]
  | some n =>
    obtain ⟨y, t⟩ := n
    refine ⟨.inr ⟨y, t, rfl, rfl⟩, fun x s => ?_⟩
    rw [← annotation_eq_some, hnotes]
    simp [Intent.annotated]

/-- Both notes on a question that the rules read alone. -/
theorem plan_annotates_count :
    let a : Annotator := { settings := {}, hasClient := true }
    let service : Service := ⟨false, .text "\x7b\"score\": 1\x7d", .text " rows "⟩
    ∃ i, (a.plan service "Count ROWS").2 = .ok i ∧
      Intent.ofQuestion (some "Count ROWS") = .ok i.plain ∧ i.understanding = some "rows" ∧
      confidenceOf service.classifier = .ok (Binary64.ofNat 1) := by
  intro a service
  have hplan : (a.plan service "Count ROWS").2 = .ok { action := .count
                                                       confidence := some (Binary64.ofNat 1)
                                                       understanding := some "rows" } := by
    apply toOption_eq_some.mp
    decide +kernel
  obtain ⟨hplain, -, hnotes, -⟩ := plan_annotates a service "Count ROWS"
  rw [hplan] at hplain
  obtain ⟨-, hread, -⟩ := ((hnotes _ hplan).2 _ _).mp ⟨rfl, rfl⟩
  exact ⟨_, hplan, hplain.symm, rfl, hread⟩

end Annotator

end PlainSheets
