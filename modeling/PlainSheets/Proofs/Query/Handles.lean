import PlainSheets.Proofs.Query.Refusals

/-!
What asking the models does to their keeper. Main statement: unless it is refused a client before it does
anything, it works with one handle, which it holds already or makes, and only adds calls.
-/
namespace PlainSheets.Annotator

variable {a b c : Annotator} {service : Service} {h k : Handle}

/-- Nothing to work with: no handle is held, no client was given and none can be made. -/
def Refuses (a : Annotator) (service : Service) : Prop :=
  a.handle = none ∧ a.hasClient = false ∧
    (a.settings.enrichment = false ∨ service.installed = false ∨ a.settings.apiKey.getD "" = "")

instance (a : Annotator) (service : Service) : Decidable (a.Refuses service) :=
  inferInstanceAs (Decidable (_ ∧ _))

def handleFor (a : Annotator) (client : ClientId) : Handle :=
  ⟨client, a.settings.classifierModel, a.settings.generatorModel⟩

/-- How a handle comes to be held. -/
inductive Opens (a : Annotator) : Handle → Annotator → Prop
  | held {h : Handle} (hheld : a.handle = some h) : Opens a h a
  | given (hnone : a.handle = none) (hclient : a.hasClient = true) :
    Opens a (a.handleFor .given) { a with handle := some (a.handleFor .given) }
  | made (hnone : a.handle = none) (hclient : a.hasClient = false) (key : String) :
    Opens a (a.handleFor (.made a.keys.length))
      { a with handle := some (a.handleFor (.made a.keys.length)), keys := a.keys ++ [key] }

theorem Opens.frame (hopens : Opens a h b) :
    b.handle = some h ∧ b.calls = a.calls ∧ b.closed = a.closed ∧ b.hasClient = a.hasClient := by
  cases hopens with
  | held hheld => exact ⟨hheld, rfl, rfl, rfl⟩
  | given | made => exact ⟨rfl, rfl, rfl, rfl⟩

theorem Opens.eq_of_held (hopens : Opens a h b) (hheld : a.handle = some k) : h = k ∧ b = a := by
  cases hopens with
  | held hheld' =>
    rw [hheld] at hheld'
    exact ⟨(Option.some.inj hheld').symm, rfl⟩
  | given hnone | made hnone =>
    rw [hheld] at hnone
    cases hnone

theorem acquire_of_refuses (hrefuses : a.Refuses service) :
    ∃ reason, a.acquire service = (a, .error (.unavailable reason)) := by
  obtain ⟨hnone, hclient, hwhy⟩ := hrefuses
  unfold acquire
  simp only [hnone, hclient]
  rcases hwhy with hoff | hmissing | hkey
  · simp [hoff]
  · cases a.settings.enrichment <;> simp [hmissing]
  · cases a.settings.enrichment <;> cases service.installed <;> simp [hkey]

theorem acquire_of_not_refuses (hallowed : ¬ a.Refuses service) :
    ∃ b h, a.acquire service = (b, .ok h) ∧ Opens a h b := by
  unfold acquire
  cases hheld : a.handle with
  | some h => exact ⟨a, h, rfl, .held hheld⟩
  | none =>
    cases hclient : a.hasClient with
    | true => exact ⟨_, _, rfl, .given hheld hclient⟩
    | false =>
      unfold Refuses at hallowed
      simp only [hheld, hclient, true_and, not_or, Bool.not_eq_false] at hallowed
      obtain ⟨hon, hinstalled, hkey⟩ := hallowed
      refine ⟨_, _, ?_, .made hheld hclient (a.settings.apiKey.getD "")⟩
      simp [hclient, hon, hinstalled, hkey, handleFor]

/-! One call. -/

def ask {α : Type} (a : Annotator) (service : Service) (call : Handle → Call)
    (answer : Except Failure α) : Result α :=
  match a.acquire service with
  | (a, .error f) => (a, .error f)
  | (a, .ok h) => ({ a with calls := a.calls ++ [call h] }, answer)

def classifierCall (text : String) (h : Handle) : Call :=
  ⟨h.client, h.classifierModel, [⟨"system", classifierPrompt⟩, ⟨"user", text⟩], Binary64.zero false, 50⟩

def generatorCall (text : String) (h : Handle) : Call :=
  ⟨h.client, h.generatorModel, [⟨"user", generatorPrompt text⟩], generatorTemperature, 100⟩

section

variable {α : Type} {call : Handle → Call} {answer : Except Failure α}

theorem ask_of_refuses (hrefuses : a.Refuses service) :
    ∃ reason, a.ask service call answer = (a, .error (.unavailable reason)) := by
  obtain ⟨reason, hacquire⟩ := acquire_of_refuses hrefuses
  exact ⟨reason, by rw [ask, hacquire]⟩

theorem ask_of_not_refuses (hallowed : ¬ a.Refuses service) :
    ∃ b h, Opens a h b ∧
      a.ask service call answer = ({ b with calls := b.calls ++ [call h] }, answer) := by
  obtain ⟨b, h, hacquire, hopens⟩ := acquire_of_not_refuses hallowed
  exact ⟨b, h, hopens, by rw [ask, hacquire]⟩

end

/-! Work with one handle. -/

/-- A handle is opened and calls are made with its client, unless nothing happens at all. -/
inductive Works (a : Annotator) : Annotator → Prop
  | idle : Works a a
  | calls {h : Handle} {b : Annotator} {new : List Call} (hopens : Opens a h b) (hnew : new ≠ [])
    (hclient : ∀ c ∈ new, c.client = h.client) : Works a { b with calls := b.calls ++ new }

theorem Works.trans (hab : Works a b) (hbc : Works b c) : Works a c := by
  cases hab with
  | idle => exact hbc
  | @calls h b new hopens hnew hclient =>
    cases hbc with
    | idle => exact .calls hopens hnew hclient
    | @calls k c more hopens' hmore hclient' =>
      obtain ⟨rfl, rfl⟩ := hopens'.eq_of_held hopens.frame.1
      have hall : ∀ c ∈ new ++ more, c.client = k.client := by
        intro c hc
        rcases List.mem_append.mp hc with hc | hc
        · exact hclient c hc
        · exact hclient' c hc
      have hworks := Works.calls hopens (List.append_ne_nil_of_left_ne_nil hnew more) hall
      rw [← List.append_assoc] at hworks
      exact hworks

theorem Works.of_ask {α : Type} {call : Handle → Call} (hcall : ∀ h, (call h).client = h.client)
    {answer : Except Failure α} : Works a (a.ask service call answer).1 := by
  by_cases hrefuses : a.Refuses service
  · obtain ⟨reason, hask⟩ := @ask_of_refuses a service α call answer hrefuses
    rw [hask]
    exact .idle
  · obtain ⟨b, h, hopens, hask⟩ := @ask_of_not_refuses a service α call answer hrefuses
    rw [hask]
    refine .calls hopens (List.cons_ne_nil _ _) ?_
    intro c hc
    rw [List.mem_singleton.mp hc]
    exact hcall h

theorem works_classify (a : Annotator) (service : Service) (text : String) :
    Works a (a.classify service text).1 :=
  .of_ask fun _ => rfl

theorem works_generate (a : Annotator) (service : Service) (text : String) :
    Works a (a.generate service text).1 :=
  .of_ask fun _ => rfl

theorem works_annotate (a : Annotator) (service : Service) (text : String) :
    Works a (a.annotate service text).1 := by
  have hfirst := works_classify a service text
  unfold annotate
  generalize a.classify service text = first at hfirst
  match first, hfirst with
  | (b, .error f), hfirst => exact hfirst
  | (b, .ok x), hfirst =>
    have hsecond := works_generate b service text
    dsimp only
    generalize b.generate service text = second at hsecond
    match second, hsecond with
    | (c, .error f), hsecond => exact hfirst.trans hsecond
    | (c, .ok s), hsecond => exact hfirst.trans hsecond

theorem works_plan (a : Annotator) (service : Service) (question : String) :
    Works a (a.plan service question).1 := by
  have hworks := works_annotate a service (Text.lower question)
  unfold plan
  dsimp only
  split
  · exact .idle
  · generalize a.annotate service (Text.lower question) = result at hworks
    match result, hworks with
    | (b, .error f), hworks => exact hworks
    | (b, .ok n), hworks => exact hworks

/-! What is answered. -/

theorem classify_of_refuses (hrefuses : a.Refuses service) (text : String) :
    ∃ reason, a.classify service text = (a, .error (.unavailable reason)) :=
  ask_of_refuses hrefuses

theorem generate_of_refuses (hrefuses : a.Refuses service) (text : String) :
    ∃ reason, a.generate service text = (a, .error (.unavailable reason)) :=
  ask_of_refuses hrefuses

theorem annotate_of_refuses (hrefuses : a.Refuses service) (text : String) :
    ∃ reason, a.annotate service text = (a, .error (.unavailable reason)) := by
  obtain ⟨reason, hfirst⟩ := classify_of_refuses hrefuses text
  exact ⟨reason, by rw [annotate, hfirst]⟩

theorem classify_of_not_refuses (hallowed : ¬ a.Refuses service) (text : String) :
    ∃ b h, Opens a h b ∧ a.classify service text =
      ({ b with calls := b.calls ++ [classifierCall text h] }, confidenceOf service.classifier) :=
  ask_of_not_refuses hallowed

theorem generate_of_not_refuses (hallowed : ¬ a.Refuses service) (text : String) :
    ∃ b h, Opens a h b ∧ a.generate service text =
      ({ b with calls := b.calls ++ [generatorCall text h] }, understandingOf service.generator) :=
  ask_of_not_refuses hallowed

/-- The second model works with the handle of the first. -/
theorem annotate_of_not_refuses (hallowed : ¬ a.Refuses service) (text : String) :
    (a.annotate service text).2 = (do
      let x ← confidenceOf service.classifier
      let s ← understandingOf service.generator
      .ok ⟨x, s⟩) := by
  obtain ⟨b, h, hopens, hfirst⟩ := classify_of_not_refuses hallowed text
  rw [annotate, hfirst]
  cases confidenceOf service.classifier with
  | error f => rfl
  | ok x =>
    have hheld : ¬ ({ b with calls := b.calls ++ [classifierCall text h] } : Annotator).Refuses
        service := by
      intro hrefuses
      rw [Refuses, hopens.frame.1] at hrefuses
      cases hrefuses.1
    obtain ⟨c, k, -, hsecond⟩ := generate_of_not_refuses hheld text
    dsimp only
    rw [hsecond]
    cases understandingOf service.generator <;> rfl

end PlainSheets.Annotator
