import PlainSheets.Proofs.Query.Ranking

/-!
Rows that go together. Main statement: rows that pass the same filters and have the same keys stay
together while they are filtered, sorted and cut off.
-/
namespace PlainSheets

section

variable {α β : Type} {R : α → β → Prop} {as : List α} {bs : List β}

theorem find?_related {p : α → Bool} {q : β → Bool} (hpq : ∀ a b, R a b → p a = q b)
    (h : List.Forall₂ R as bs) : Option.Rel R (as.find? p) (bs.find? q) := by
  induction h with
  | nil => exact .none
  | @cons a b as bs hab _ ih =>
    rw [List.find?_cons, List.find?_cons, ← hpq a b hab]
    cases p a with
    | true => exact .some hab
    | false => exact ih

variable {ε γ δ : Type} {S : γ → δ → Prop}

theorem Agree.bind {x : Except ε α} {y : Except ε β} (h : Agree R x y) {f : α → Except ε γ}
    {g : β → Except ε δ} (hstep : ∀ a b, R a b → Agree S (f a) (g b)) :
    Agree S (x >>= f) (y >>= g) := by
  cases h with
  | ok hab => exact hstep _ _ hab
  | error e => exact .error e

theorem Agree.mapM (h : List.Forall₂ R as bs) {f : α → Except ε γ} {g : β → Except ε δ}
    (hstep : ∀ a b, R a b → Agree S (f a) (g b)) :
    Agree (List.Forall₂ S) (as.mapM f) (bs.mapM g) := by
  induction h with
  | nil => exact .ok .nil
  | cons hab _ ih =>
    rw [List.mapM_cons, List.mapM_cons]
    apply (hstep _ _ hab).bind
    intro c d hcd
    exact ih.bind fun cs ds hcds => .ok (.cons hcd hcds)

end

namespace Row

variable {R : Row → Row → Prop}

theorem keyed_related {field : String} {r s : Row} (hrs : R r s)
    (hbarred : r.fields.isBarred field = s.fields.isBarred field)
    (hkey : (r.lookup field).sortKey = (s.lookup field).sortKey) :
    Agree (fun p q : SortKey × Row => p.1 = q.1 ∧ R p.2 q.2) (r.keyed field) (s.keyed field) := by
  rw [keyed_eq, keyed_eq, hbarred, hkey]
  split
  · exact .error _
  · cases (s.lookup field).sortKey with
    | error f => exact .error f
    | ok key => exact .ok ⟨rfl, hrs⟩

theorem sortRows_related {spec : SortSpec}
    (hkey : ∀ r s, R r s → r.fields.isBarred spec.field = s.fields.isBarred spec.field ∧
      (r.lookup spec.field).sortKey = (s.lookup spec.field).sortKey)
    {rows others : List Row} (h : List.Forall₂ R rows others) :
    Agree (List.Forall₂ R) (sortRows spec rows) (sortRows spec others) := by
  have hkeyed := Agree.mapM h fun r s hr => keyed_related hr (hkey r s hr).1 (hkey r s hr).2
  unfold sortRows
  apply hkeyed.bind
  intro rows others hrows
  apply Agree.ok
  rw [List.forall₂_map_left_iff, List.forall₂_map_right_iff, spec.sortByKey_eq, spec.sortByKey_eq]
  have hsorted : List.Forall₂ (fun p q : SortKey × Row => p.1 = q.1 ∧ R p.2 q.2)
      (rows.mergeSort fun a b => (spec.order a.1 b.1).isLE)
      (others.mergeSort fun a b => (spec.order a.1 b.1).isLE) := by
    apply mergeSort_related _ hrows
    rintro a a' b b' ⟨hab, -⟩ ⟨hab', -⟩
    rw [hab, hab']
  exact hsorted.imp fun _ _ hpq => hpq.2

end Row

variable {R : Row → Row → Prop}

theorem matchingRows_related {filters : Filters}
    (htest : ∀ r s, R r s → r.testAll filters = s.testAll filters) {rows others : List Row}
    (h : List.Forall₂ R rows others) :
    Agree (List.Forall₂ R) (matchingRows filters rows) (matchingRows filters others) := by
  induction h with
  | nil => exact .ok .nil
  | @cons r s rows others hrs _ ih =>
    rw [matchingRows, matchingRows, htest r s hrs]
    cases s.testAll filters with
    | error f => exact .error f
    | ok passes =>
      apply ih.bind
      intro rest rest' hrest
      cases passes with
      | true => exact .ok (.cons hrs hrest)
      | false => exact .ok hrest

theorem Intent.sorted_related {i : Intent}
    (hkey : ∀ field r s, R r s → r.fields.isBarred field = s.fields.isBarred field ∧
      (r.lookup field).sortKey = (s.lookup field).sortKey)
    {rows others : List Row} (h : List.Forall₂ R rows others) :
    Agree (List.Forall₂ R) (i.sorted rows) (i.sorted others) := by
  unfold sorted
  split
  · exact Row.sortRows_related (hkey _) h
  · exact .ok h

end PlainSheets
