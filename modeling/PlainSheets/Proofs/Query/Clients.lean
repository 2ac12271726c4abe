import PlainSheets.Proofs.Query.Handles
import Mathlib.Data.List.Nodup

/-!
The clients that are made over a run of any orders. Main statement: every client that was made is closed
once or is the one that is held, and the calls between two closings all go to one client.
-/
namespace PlainSheets.Annotator

inductive Order where
  | classify (text : String)
  | generate (text : String)
  | annotate (text : String)
  | plan (question : String)
  /-- The client may fail while it is closed, in its own words. -/
  | close (message : Option String)

def Order.closes : Order → Bool
  | close _ => true
  | _ => false

structure Turn where
  order : Order
  service : Service

def failure? {α : Type} : Except Failure α → Option Failure
  | .ok _ => none
  | .error f => some f

def step (a : Annotator) (turn : Turn) : Annotator × Option Failure :=
  match turn.order with
  | .classify text => (a.classify turn.service text).map id failure?
  | .generate text => (a.generate turn.service text).map id failure?
  | .annotate text => (a.annotate turn.service text).map id failure?
  | .plan question => (a.plan turn.service question).map id failure?
  | .close message =>
    (a.close, if a.handle.isSome && !a.hasClient then message.map .clientFailed else none)

def run (a : Annotator) (turns : List Turn) : Annotator := turns.foldl (fun a t => (a.step t).1) a

def fresh (settings : Settings) (hasClient : Bool) : Annotator where
  settings := settings
  hasClient := hasClient

def created (a : Annotator) : List ClientId := (List.range a.keys.length).map .made

def KeepsOpen (turns : List Turn) : Prop := ∀ t ∈ turns, t.order.closes = false

variable {a b : Annotator} {turn : Turn}

/-! Between two closings. -/

theorem works_step (h : turn.order.closes = false) : Works a (a.step turn).1 := by
  rw [step]
  cases horder : turn.order with
  | classify text => exact works_classify a turn.service text
  | generate text => exact works_generate a turn.service text
  | annotate text => exact works_annotate a turn.service text
  | plan question =>
    rw [Prod.map_fst]
    exact works_plan a turn.service question
  | close message =>
    rw [horder] at h
    cases h

theorem works_run {turns : List Turn} (h : KeepsOpen turns) : Works a (a.run turns) := by
  induction turns generalizing a with
  | nil => exact .idle
  | cons t turns ih =>
    rw [KeepsOpen, List.forall_mem_cons] at h
    exact (works_step h.1).trans (ih h.2)

theorem Works.calls_one_client (h : Works a b) :
    ∃ client new, b.calls = a.calls ++ new ∧ ∀ c ∈ new, c.client = client := by
  cases h with
  | idle => exact ⟨.given, [], by simp⟩
  | @calls h b new hopens hnew hclient =>
    exact ⟨h.client, new, congrArg (· ++ new) hopens.frame.2.1, hclient⟩

theorem Works.hasClient_eq (h : Works a b) : b.hasClient = a.hasClient := by
  cases h with
  | idle => rfl
  | calls hopens => exact hopens.frame.2.2.2

theorem Works.new_client (h : Works a b) (hnone : a.handle = none) (hclient : a.hasClient = false)
    {new : List Call} (hcalls : b.calls = a.calls ++ new) (hnew : new ≠ []) :
    b.keys.length = a.keys.length + 1 ∧ ∀ c ∈ new, c.client = .made a.keys.length := by
  cases h with
  | idle => exact absurd (List.self_eq_append_right.mp hcalls) hnew
  | @calls h b more hopens hmore hto =>
    obtain rfl : more = new := by
      have hcalls' : b.calls ++ more = a.calls ++ new := hcalls
      rw [hopens.frame.2.1] at hcalls'
      exact List.append_cancel_left hcalls'
    cases hopens with
    | held hheld =>
      rw [hnone] at hheld
      cases hheld
    | given _ hgiven =>
      rw [hclient] at hgiven
      cases hgiven
    | made _ _ key => exact ⟨by simp, hto⟩

/-! The books. -/

/-- What is kept of clients that are made: they are closed in the order in which they were made, and at
most the last one is not closed yet. -/
structure Balanced (a : Annotator) : Prop where
  closed : a.closed = (List.range a.closed.length).map .made
  free : a.handle = none → a.keys.length = a.closed.length
  held : ∀ h, a.handle = some h →
    a.keys.length = a.closed.length + 1 ∧ h.client = .made a.closed.length

structure Sound (a : Annotator) : Prop where
  given : a.hasClient = true → a.keys = [] ∧ a.closed = []
  own : a.hasClient = false → Balanced a

theorem sound_fresh (settings : Settings) (hasClient : Bool) : Sound (fresh settings hasClient) where
  given _ := ⟨rfl, rfl⟩
  own _ := ⟨rfl, fun _ => rfl, fun _ h => nomatch h⟩

theorem sound_opens {h : Handle} (hopens : Opens a h b) (hsound : Sound a) : Sound b := by
  cases hopens with
  | held => exact hsound
  | given hnone hclient =>
    refine ⟨hsound.given, ?_⟩
    intro (hmade : a.hasClient = false)
    rw [hclient] at hmade
    cases hmade
  | made hnone hclient key =>
    have hbalanced := hsound.own hclient
    have hfree := hbalanced.free hnone
    refine ⟨?_, fun _ => ⟨hbalanced.closed, fun h => (nomatch h), ?_⟩⟩
    · intro (hgiven : a.hasClient = true)
      rw [hclient] at hgiven
      cases hgiven
    · rintro _ ⟨⟩
      exact ⟨by simp [hfree], congrArg ClientId.made hfree⟩

theorem sound_works (hworks : Works a b) (hsound : Sound a) : Sound b := by
  cases hworks with
  | idle => exact hsound
  | calls hopens =>
    have hopened := sound_opens hopens hsound
    refine ⟨hopened.given, fun hmade => ?_⟩
    have hbalanced := hopened.own hmade
    exact ⟨hbalanced.closed, hbalanced.free, hbalanced.held⟩

theorem close_of_none (h : a.handle = none) : a.close = a := by
  rw [close, h]

theorem close_of_some {h : Handle} (hheld : a.handle = some h) :
    a.close = { a with
      handle := none
      closed := if a.hasClient then a.closed else a.closed ++ [h.client] } := by
  rw [close, hheld]

theorem sound_close (hsound : Sound a) : Sound a.close := by
  cases hheld : a.handle with
  | none =>
    rw [close_of_none hheld]
    exact hsound
  | some h =>
    rw [close_of_some hheld]
    constructor
    · intro (hgiven : a.hasClient = true)
      simp only [hgiven, if_true]
      exact hsound.given hgiven
    · intro (hmade : a.hasClient = false)
      have hbalanced := hsound.own hmade
      obtain ⟨hkeys, hlast⟩ := hbalanced.held h hheld
      have hclosed := hbalanced.closed
      refine ⟨?_, fun _ => ?_, fun _ h => (nomatch h)⟩
      · simp only [hmade, Bool.false_eq_true, if_false, List.length_append, List.length_singleton]
        rw [List.range_succ, List.map_append, ← hclosed, hlast]
        rfl
      · simpa [hmade] using hkeys

theorem closes_cases (turn : Turn) :
    turn.order.closes = false ∨ ∃ message, turn.order = .close message := by
  cases turn.order with
  | close message => exact .inr ⟨message, rfl⟩
  | _ => exact .inl rfl

theorem step_close {message : Option String} (h : turn.order = .close message) :
    (a.step turn).1 = a.close := by
  rw [step, h]

theorem sound_step (hsound : Sound a) (turn : Turn) : Sound (a.step turn).1 := by
  rcases closes_cases turn with h | ⟨message, h⟩
  · exact sound_works (works_step h) hsound
  · rw [step_close h]
    exact sound_close hsound

theorem sound_run (hsound : Sound a) (turns : List Turn) : Sound (a.run turns) := by
  induction turns generalizing a with
  | nil => exact hsound
  | cons t turns ih => exact ih (sound_step hsound t)

@[simp] theorem hasClient_close (a : Annotator) : a.close.hasClient = a.hasClient := by
  unfold close
  cases a.handle <;> rfl

@[simp] theorem hasClient_step (a : Annotator) (turn : Turn) : (a.step turn).1.hasClient = a.hasClient := by
  rcases closes_cases turn with h | ⟨message, h⟩
  · exact (works_step h).hasClient_eq
  · rw [step_close h, hasClient_close]

@[simp] theorem hasClient_run (a : Annotator) (turns : List Turn) : (a.run turns).hasClient = a.hasClient := by
  induction turns generalizing a with
  | nil => rfl
  | cons t turns ih => exact (ih (a.step t).1).trans (hasClient_step a t)

@[simp] theorem handle_close (a : Annotator) : a.close.handle = none := by
  cases hheld : a.handle with
  | none => rw [close_of_none hheld, hheld]
  | some h => rw [close_of_some hheld]

theorem close_frame (a : Annotator) : a.close.keys = a.keys ∧ a.close.calls = a.calls := by
  unfold close
  cases a.handle <;> exact ⟨rfl, rfl⟩

theorem Sound.closed_once (hsound : Sound a) : a.closed.Nodup ∧ a.closed ⊆ a.created := by
  cases hclient : a.hasClient with
  | true => simp [(hsound.given hclient).2]
  | false =>
    have hbalanced := hsound.own hclient
    have hle : a.closed.length ≤ a.keys.length := by
      cases hheld : a.handle with
      | none => exact Nat.le_of_eq (hbalanced.free hheld).symm
      | some h => exact (hbalanced.held h hheld).1 ▸ Nat.le_succ _
    rw [hbalanced.closed]
    constructor
    · exact List.Nodup.map (fun m n h => ClientId.made.inj h) List.nodup_range
    · apply List.map_subset
      intro n hn
      rw [List.mem_range] at hn ⊢
      exact Nat.lt_of_lt_of_le hn hle

/-! Refusals. -/

theorem step_of_refuses (h : a.Refuses turn.service) : (a.step turn).1 = a := by
  rw [step]
  cases turn.order with
  | classify text =>
    obtain ⟨reason, hrefused⟩ := classify_of_refuses h text
    exact congrArg Prod.fst hrefused
  | generate text =>
    obtain ⟨reason, hrefused⟩ := generate_of_refuses h text
    exact congrArg Prod.fst hrefused
  | annotate text =>
    obtain ⟨reason, hrefused⟩ := annotate_of_refuses h text
    exact congrArg Prod.fst hrefused
  | plan question =>
    obtain ⟨reason, hrefused⟩ := annotate_of_refuses h (Text.lower question)
    rw [Prod.map_fst, plan, hrefused]
    split <;> rfl
  | close message => exact close_of_none h.1

theorem failsAs_plan (a : Annotator) (service : Service) (question : String) :
    FailsAs OfReply (a.plan service question).2 := by
  unfold plan
  dsimp only
  split
  · rename_i f hf
    obtain ⟨n, rfl, -⟩ := Intent.failsAs_ofQuestion f hf
    exact .error nofun
  · split <;> exact .ok _

theorem failure?_ne_unavailable {α : Type} {x : Except Failure α} (h : FailsAs OfReply x)
    (reason : String) : failure? x ≠ some (.unavailable reason) := by
  cases x with
  | ok x => exact nofun
  | error f => exact fun heq => h f rfl reason (Option.some.inj heq)

/-- Only a keeper that has nothing to work with fails for that reason. -/
theorem refuses_of_unavailable {reason : String}
    (h : (a.step turn).2 = some (.unavailable reason)) : a.Refuses turn.service := by
  by_contra hallowed
  rw [step] at h
  cases horder : turn.order with
  | classify text =>
    obtain ⟨b, k, -, hanswer⟩ := classify_of_not_refuses hallowed text
    simp only [horder, hanswer, Prod.map_snd] at h
    exact failure?_ne_unavailable failsAs_confidenceOf reason h
  | generate text =>
    obtain ⟨b, k, -, hanswer⟩ := generate_of_not_refuses hallowed text
    simp only [horder, hanswer, Prod.map_snd] at h
    exact failure?_ne_unavailable failsAs_understandingOf reason h
  | annotate text =>
    have hanswer := annotate_of_not_refuses hallowed text
    simp only [horder, Prod.map_snd, hanswer] at h
    exact failure?_ne_unavailable (failsAs_confidenceOf.bind fun _ =>
      failsAs_understandingOf.bind fun _ => .ok _) reason h
  | plan question =>
    simp only [horder, Prod.map_snd] at h
    exact failure?_ne_unavailable (failsAs_plan a turn.service question) reason h
  | close message =>
    simp only [horder] at h
    split at h
    · cases message <;> cases h
    · cases h

/-! Every run. -/

theorem clients_of_run (settings : Settings) (hasClient : Bool) (before : List Turn) :
    let a := (fresh settings hasClient).run before
    (hasClient = true → a.keys = [] ∧ a.closed = []) ∧
      (hasClient = false → a.keys.length = a.closed.length + if a.handle.isSome then 1 else 0) ∧
      (a.closed.Nodup ∧ a.closed ⊆ a.created) ∧
      (∀ between, KeepsOpen between →
        ∃ client new, (a.run between).calls = a.calls ++ new ∧ ∀ c ∈ new, c.client = client) ∧
      (∀ turn reason, (a.step turn).2 = some (.unavailable reason) →
        (a.step turn).1 = a ∧ a.handle = none) ∧
      (∀ turn, a.Refuses turn.service → (a.step turn).1 = a) ∧
      a.close.close = a.close ∧
      (hasClient = false → ∀ between new, KeepsOpen between →
        (a.close.run between).calls = a.calls ++ new → new ≠ [] →
        (a.close.run between).keys.length = a.keys.length + 1 ∧
          ∀ c ∈ new, c.client = .made a.keys.length) := by
  intro a
  have hclient : a.hasClient = hasClient := hasClient_run (fresh settings hasClient) before
  have hsound : Sound a := sound_run (sound_fresh settings hasClient) before
  refine ⟨fun hgiven => hsound.given (hclient.trans hgiven), fun hmade => ?balance, hsound.closed_once,
    fun between hopen => (works_run hopen).calls_one_client, fun turn reason hfails => ?refused,
    fun turn => step_of_refuses, close_of_none (handle_close a),
    fun hmade between new hopen hcalls hnew => ?reopened⟩
  case balance =>
    have hbalanced := hsound.own (hclient.trans hmade)
    cases hheld : a.handle with
    | none => simpa using hbalanced.free hheld
    | some h => simpa using (hbalanced.held h hheld).1
  case refused =>
    have hrefuses := refuses_of_unavailable hfails
    exact ⟨step_of_refuses hrefuses, hrefuses.1⟩
  case reopened =>
    obtain ⟨hkeys, hcallsClose⟩ := close_frame a
    rw [← hcallsClose] at hcalls
    rw [← hkeys]
    exact (works_run hopen).new_client (handle_close a)
      ((hasClient_close a).trans (hclient.trans hmade)) hcalls hnew

/-- A second client for what is asked after the first one was closed. -/
theorem clients_of_run_reopened :
    let turn : Turn := ⟨.generate "rows", ⟨true, .empty, .fails "busy"⟩⟩
    let a := (fresh { apiKey := some "key" } false).run [turn]
    ∃ call, (a.close.run [turn]).calls = a.calls ++ [call] ∧ call.client = .made 1 := by
  intro turn a
  obtain ⟨-, -, -, -, -, -, -, hreopened⟩ := clients_of_run { apiKey := some "key" } false [turn]
  have hopen : KeepsOpen [turn] := by
    intro t ht
    rw [List.mem_singleton.mp ht]
    rfl
  have hcalls : (a.close.run [turn]).calls =
      a.calls ++ [generatorCall "rows" (a.handleFor (.made 1))] := by
    rfl
  obtain ⟨-, hto⟩ := hreopened rfl [turn] _ hopen hcalls (List.cons_ne_nil _ _)
  exact ⟨_, hcalls, hto _ List.mem_cons_self⟩

end PlainSheets.Annotator
