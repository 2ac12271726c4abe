import PlainSheets.Failure
import Mathlib.Data.List.Forall2

/-!
Steps that can fail, one after the other. A sequence of steps succeeds just when each of them does.
Two outcomes agree when both are successes that go together or both are one failure.
-/
namespace PlainSheets

variable {ε α β γ : Type}

theorem map_eq_ok {x : Except ε α} {f : α → β} {b : β} :
    x.map f = .ok b ↔ ∃ a, x = .ok a ∧ f a = b := by
  cases x <;> simp [Except.map]

theorem bind_eq_ok {x : Except ε α} {f : α → Except ε β} {b : β} :
    (x >>= f) = .ok b ↔ ∃ a, x = .ok a ∧ f a = .ok b := by
  cases x <;> simp [bind, Except.bind]

theorem map_eq_error {x : Except ε α} {f : α → β} {e : ε} : x.map f = .error e ↔ x = .error e := by
  cases x <;> simp [Except.map]

theorem bind_eq_error {x : Except ε α} {f : α → Except ε β} {e : ε} :
    (x >>= f) = .error e ↔ x = .error e ∨ ∃ a, x = .ok a ∧ f a = .error e := by
  cases x <;> simp [bind, Except.bind]

@[simp] theorem toOption_eq_some {x : Except ε α} {a : α} : x.toOption = some a ↔ x = .ok a := by
  cases x <;> simp [Except.toOption]

theorem exists_map_eq_ok {x : Except ε α} {f : α → β} :
    (∃ b, x.map f = .ok b) ↔ ∃ a, x = .ok a := by
  cases x <;> simp [Except.map]

theorem exists_bind_eq_ok {x : Except ε α} {f : α → Except ε β} :
    (∃ b, (x >>= f) = .ok b) ↔ ∃ a, x = .ok a ∧ ∃ b, f a = .ok b := by
  cases x <;> simp [bind, Except.bind]

theorem mapM_eq_ok {f : α → Except ε β} {as : List α} {bs : List β} :
    as.mapM f = .ok bs ↔ List.Forall₂ (fun a b => f a = .ok b) as bs := by
  induction as generalizing bs with
  | nil =>
    rw [List.mapM_nil, List.forall₂_nil_left_iff]
    exact ⟨fun h => (Except.ok.inj h).symm, fun h => h ▸ rfl⟩
  | cons a as ih =>
    rw [List.mapM_cons, bind_eq_ok, List.forall₂_cons_left_iff]
    constructor
    · rintro ⟨b, hb, h⟩
      obtain ⟨rest, hrest, h⟩ := bind_eq_ok.mp h
      exact ⟨b, rest, hb, ih.mp hrest, (Except.ok.inj h).symm⟩
    · rintro ⟨b, rest, hb, hrest, rfl⟩
      exact ⟨b, hb, bind_eq_ok.mpr ⟨rest, ih.mpr hrest, rfl⟩⟩

theorem mapM_eq_ok_map {f : α → Except ε β} {g : α → β} {as : List α}
    (h : ∀ a ∈ as, f a = .ok (g a)) : as.mapM f = .ok (as.map g) := by
  rw [mapM_eq_ok, List.forall₂_map_right_iff, List.forall₂_same]
  exact h

theorem exists_mapM_all_iff {f : α → Except ε β} {P : β → Prop} {as : List α} :
    (∃ bs, as.mapM f = .ok bs ∧ ∀ b ∈ bs, P b) ↔ ∀ a ∈ as, ∃ b, f a = .ok b ∧ P b := by
  simp only [mapM_eq_ok]
  induction as with
  | nil => simp
  | cons a as ih =>
    rw [List.forall_mem_cons, ← ih]
    constructor
    · rintro ⟨_, h, hall⟩
      cases h with
      | cons hb hrest =>
        rw [List.forall_mem_cons] at hall
        exact ⟨⟨_, hb, hall.1⟩, _, hrest, hall.2⟩
    · rintro ⟨⟨b, hb, hpb⟩, bs, hbs, hall⟩
      exact ⟨b :: bs, .cons hb hbs, List.forall_mem_cons.mpr ⟨hpb, hall⟩⟩

theorem exists_mapM_eq_ok {f : α → Except ε β} {as : List α} :
    (∃ bs, as.mapM f = .ok bs) ↔ ∀ a ∈ as, ∃ b, f a = .ok b := by
  have hall := @exists_mapM_all_iff ε α β f (fun _ => True) as
  simpa using hall

theorem exists_of_isOk {x : Except ε α} (h : x.isOk) : ∃ a, x = .ok a := by
  cases x with
  | ok a => exact ⟨a, rfl⟩
  | error e => cases h

instance decidableExistsOk (x : Except ε α) : Decidable (∃ a, x = .ok a) :=
  match x with
  | .ok a => .isTrue ⟨a, rfl⟩
  | .error _ => .isFalse fun h => nomatch h

theorem exists_mapM_related {f : α → Except ε β} {R : α → γ → Prop} {S : β → γ → Prop} {as : List α}
    {cs : List γ} (hstep : ∀ a c, R a c → ∃ b, f a = .ok b ∧ S b c) (h : List.Forall₂ R as cs) :
    ∃ bs, as.mapM f = .ok bs ∧ List.Forall₂ S bs cs := by
  simp only [mapM_eq_ok]
  induction h with
  | nil => exact ⟨[], .nil, .nil⟩
  | @cons a c as cs hac _ ih =>
    obtain ⟨b, hb, hbc⟩ := hstep a c hac
    obtain ⟨bs, hbs, hrest⟩ := ih
    exact ⟨b :: bs, .cons hb hbs, .cons hbc hrest⟩

theorem map_eq_map {f : α → γ} {g : β → γ} {as : List α} {bs : List β}
    (h : List.Forall₂ (fun a b => f a = g b) as bs) : as.map f = bs.map g := by
  rw [← List.forall₂_eq_eq_eq, List.forall₂_map_left_iff, List.forall₂_map_right_iff]
  exact h

theorem mapM_eq_mapM {f : α → Except ε γ} {g : β → Except ε γ} {as : List α} {bs : List β}
    (h : List.Forall₂ (fun a b => f a = g b) as bs) : as.mapM f = bs.mapM g := by
  induction h with
  | nil => rfl
  | cons hab _ ih => rw [List.mapM_cons, List.mapM_cons, hab, ih]

/-- Every failure is one of `P`. -/
def FailsAs (P : ε → Prop) (x : Except ε α) : Prop := ∀ e, x = .error e → P e

theorem FailsAs.ok {P : ε → Prop} (a : α) : FailsAs P (.ok a : Except ε α) := nofun

theorem FailsAs.error {P : ε → Prop} {e : ε} (h : P e) : FailsAs P (.error e : Except ε α) := by
  rintro _ ⟨⟩
  exact h

theorem FailsAs.map {P : ε → Prop} {x : Except ε α} (h : FailsAs P x) (f : α → β) :
    FailsAs P (x.map f) :=
  fun e he => h e (map_eq_error.mp he)

theorem FailsAs.bind {P : ε → Prop} {x : Except ε α} (h : FailsAs P x) {f : α → Except ε β}
    (hf : ∀ a, FailsAs P (f a)) : FailsAs P (x >>= f) := by
  intro e he
  rcases bind_eq_error.mp he with he | ⟨a, -, he⟩
  · exact h e he
  · exact hf a e he

theorem FailsAs.mapM {P : ε → Prop} {f : α → Except ε β} {as : List α}
    (h : ∀ a ∈ as, FailsAs P (f a)) : FailsAs P (as.mapM f) := by
  induction as with
  | nil => exact .ok []
  | cons a as ih =>
    rw [List.forall_mem_cons] at h
    rw [List.mapM_cons]
    exact h.1.bind fun b => (ih h.2).bind fun bs => .ok (b :: bs)

def Gives (P : α → Prop) (x : Except ε α) : Prop := ∀ a, x = .ok a → P a

theorem Gives.ok {P : α → Prop} {a : α} (h : P a) : Gives P (.ok a : Except ε α) := by
  rintro _ ⟨⟩
  exact h

theorem Gives.any (x : Except ε α) : Gives (fun _ => True) x := fun _ _ => trivial

theorem Gives.error {P : α → Prop} (e : ε) : Gives P (.error e : Except ε α) := nofun

theorem Gives.map {P : α → Prop} {Q : β → Prop} {x : Except ε α} (h : Gives P x) {f : α → β}
    (hf : ∀ a, P a → Q (f a)) : Gives Q (x.map f) := by
  intro b hb
  obtain ⟨a, ha, rfl⟩ := map_eq_ok.mp hb
  exact hf a (h a ha)

theorem Gives.bind {P : α → Prop} {Q : β → Prop} {x : Except ε α} (h : Gives P x)
    {f : α → Except ε β} (hf : ∀ a, P a → Gives Q (f a)) : Gives Q (x >>= f) := by
  intro b hb
  obtain ⟨a, ha, hb⟩ := bind_eq_ok.mp hb
  exact hf a (h a ha) b hb

/-- Both succeed, with values that go together, or both fail in the same way. -/
inductive Agree (R : α → β → Prop) : Except ε α → Except ε β → Prop
  | ok {a : α} {b : β} (h : R a b) : Agree R (.ok a) (.ok b)
  | error (e : ε) : Agree R (.error e) (.error e)

theorem Agree.map {δ η : Type} {R : α → β → Prop} {S : δ → η → Prop} {x : Except ε α}
    {y : Except ε β}
    (h : Agree R x y) (f : α → δ) (g : β → η) (himp : ∀ a b, R a b → S (f a) (g b)) :
    Agree S (x.map f) (y.map g) := by
  cases h with
  | ok hab => exact .ok (himp _ _ hab)
  | error e => exact .error e

theorem Agree.imp {R S : α → β → Prop} {x : Except ε α} {y : Except ε β} (h : Agree R x y)
    (himp : ∀ a b, R a b → S a b) : Agree S x y := by
  cases h with
  | ok hab => exact .ok (himp _ _ hab)
  | error e => exact .error e

theorem Agree.bind_left {δ : Type} {R : α → β → Prop} {S : δ → β → Prop} {x : Except ε α}
    {y : Except ε β} (h : Agree R x y) (f : α → δ) (himp : ∀ a b, R a b → S (f a) b) :
    Agree S (x >>= fun a => .ok (f a)) y := by
  cases h with
  | ok hab => exact .ok (himp _ _ hab)
  | error e => exact .error e

theorem Agree.elim {R : α → β → Prop} {x : Except ε α} {y : Except ε β} (h : Agree R x y) :
    (∃ a b, x = .ok a ∧ y = .ok b ∧ R a b) ∨ ∃ e, x = .error e ∧ y = .error e := by
  cases h with
  | @ok a b hab => exact .inl ⟨a, b, rfl, rfl, hab⟩
  | error e => exact .inr ⟨e, rfl, rfl⟩

end PlainSheets
