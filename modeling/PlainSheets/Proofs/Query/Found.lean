import PlainSheets.Proofs.Steps
import PlainSheets.Query.Outcome

/-!
Looking up what may have no text. A search that comes to its end finds what the look-up gives, rows that
were tested were tested by their cells, and among keys that all have a text every search ends.
-/
namespace PlainSheets

variable {r s : Row} {rows : List Row} {field : String} {filters : Filters} {c : Condition}

namespace Record

@[simp] theorem searched_eq_ok {α : Type} {r : Record} {names : List String} {a b : α} :
    r.searched names a = .ok b ↔ (∀ name ∈ names, r.isBarred name = false) ∧ b = a := by
  unfold searched
  split
  · rename_i h
    obtain ⟨name, hname, hbarred⟩ := List.any_eq_true.mp h
    refine iff_of_false nofun fun hall => ?_
    rw [hall.1 name hname] at hbarred
    cases hbarred
  · rename_i h
    rw [Bool.not_eq_true, List.any_eq_false] at h
    simp only [Bool.not_eq_true] at h
    exact ⟨fun hab => ⟨h, (Except.ok.inj hab).symm⟩, fun hab => by rw [hab.2]⟩

theorem isBarred_of_writable {r : Record} (h : ∀ f ∈ r, f.1.isWritable) (name : String) :
    r.isBarred name = false := by
  unfold isBarred
  rw [Bool.and_eq_false_imp]
  intro _
  rw [Option.any_eq_false]
  intro f hf
  rw [h f (List.mem_of_find?_eq_some hf)]
  rfl

end Record

namespace Row

@[simp] theorem find_eq_ok {cell : Cell} : r.find field = .ok cell ↔
    r.fields.isBarred field = false ∧ cell = r.lookup field := by
  rw [find, Record.searched_eq_ok, List.forall_mem_singleton]

theorem test_eq_ok {passes : Bool} : r.test field c = .ok passes ↔ r.fields.isBarred field = false ∧
    (c.asksText = true → (r.lookup field).isWritable = true) ∧ passes = r.passes field c := by
  rw [test, bind_eq_ok]
  constructor
  · rintro ⟨cell, hcell, h⟩
    obtain ⟨hfree, rfl⟩ := find_eq_ok.mp hcell
    split at h
    · cases h
    · rename_i htext
      exact ⟨hfree, by simpa using htext, (Except.ok.inj h).symm⟩
  · rintro ⟨hfree, htext, rfl⟩
    exact ⟨_, find_eq_ok.mpr ⟨hfree, rfl⟩, if_neg (by simpa using htext)⟩

theorem testAll_eq_ok {passes : Bool} (h : r.testAll filters = .ok passes) :
    passes = r.passesAll filters := by
  induction filters with
  | nil => exact (Except.ok.inj h).symm
  | cons f filters ih =>
    obtain ⟨first, hfirst, h⟩ := bind_eq_ok.mp h
    rw [passesAll, List.all_cons, ← (test_eq_ok.mp hfirst).2.2]
    cases first with
    | true => exact ih h
    | false => exact (Except.ok.inj h).symm

/-- A row can be tested if no key bars a search and the cells that are compared as texts have one. -/
theorem testAll_of_found (hfree : ∀ f ∈ filters, r.fields.isBarred f.1 = false)
    (htext : ∀ f ∈ filters, f.2.asksText = true → (r.lookup f.1).isWritable = true) :
    r.testAll filters = .ok (r.passesAll filters) := by
  induction filters with
  | nil => rfl
  | cons f filters ih =>
    rw [List.forall_mem_cons] at hfree htext
    have hfirst := test_eq_ok.mpr ⟨hfree.1, htext.1, rfl⟩
    rw [testAll, hfirst, passesAll, List.all_cons]
    cases r.passes f.1 f.2 with
    | true => exact ih hfree.2 htext.2
    | false => rfl

theorem keyed_eq (r : Row) (field : String) : r.keyed field =
    if r.fields.isBarred field then .error (.integerTooLong none)
    else (r.lookup field).sortKey.map (·, r) := by
  unfold keyed find Record.searched
  rw [List.any_cons, List.any_nil, Bool.or_false]
  split
  · rfl
  · cases h : (r.lookup field).sortKey <;> simp [bind, Except.bind, Except.map, h]

@[simp] theorem keyed_eq_ok {p : SortKey × Row} : r.keyed field = .ok p ↔
    r.fields.isBarred field = false ∧ (r.lookup field).sortKey = .ok p.1 ∧ p.2 = r := by
  rw [keyed, bind_eq_ok]
  constructor
  · rintro ⟨cell, hcell, h⟩
    obtain ⟨hfree, rfl⟩ := find_eq_ok.mp hcell
    obtain ⟨key, hkey, h⟩ := bind_eq_ok.mp h
    cases h
    exact ⟨hfree, hkey, rfl⟩
  · rintro ⟨hfree, hkey, hrow⟩
    exact ⟨_, find_eq_ok.mpr ⟨hfree, rfl⟩, bind_eq_ok.mpr ⟨_, hkey, by rw [← hrow]⟩⟩

@[simp] theorem projected_eq_ok {names : List String} {record : Record} : r.projected names = .ok record ↔
    (∀ name ∈ names, r.fields.isBarred name = false) ∧ record = r.fields.project names :=
  Record.searched_eq_ok

end Row

theorem matchingRows_eq_ok {matching : List Row} (h : matchingRows filters rows = .ok matching) :
    matching = rows.filter fun r => r.passesAll filters := by
  induction rows generalizing matching with
  | nil => exact (Except.ok.inj h).symm
  | cons r rows ih =>
    obtain ⟨passes, hpasses, h⟩ := bind_eq_ok.mp h
    obtain ⟨rest, hrest, h⟩ := bind_eq_ok.mp h
    rw [← Except.ok.inj h, List.filter_cons, ← Row.testAll_eq_ok hpasses, ih hrest]

end PlainSheets
