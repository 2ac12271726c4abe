import PlainSheets.Proofs.Json.Rendered

/-!
JSON proper, which has no word for what is no finite number. Main statement: a value with finite numbers
and distinct keys comes back from its text under a reader that refuses all else, in any layout.
-/
namespace PlainSheets.Json

/-- Values of JSON proper. Of integers only some may be admitted. -/
inductive Safe (admitted : Int → Prop) : Json → Prop
  | null : Safe admitted .null
  | flag (b : Bool) : Safe admitted (.flag b)
  | integer {n : Int} (h : admitted n) : Safe admitted (.integer n)
  | real {x : Binary64} (h : x.isFinite) : Safe admitted (.real x)
  | text (s : String) : Safe admitted (.text s)
  | list {items : List Json} (h : ∀ j ∈ items, Safe admitted j) : Safe admitted (.list items)
  | object {fields : List (String × Json)} (keys : (fields.map Prod.fst).Nodup)
    (h : ∀ f ∈ fields, Safe admitted f.2) : Safe admitted (.object fields)

def named? (f : String × Option Json) : Option (String × Json) := f.2.map (f.1, ·)

def strictBuilder : Builder (Option Json) where
  null := some .null
  flag b := some (.flag b)
  integer n := some (.integer n)
  real x := if x.isFinite then some (.real x) else none
  text s := some (.text s)
  list items := (items.mapM id).map .list
  object fields := .ok ((fields.mapM named?).map .object)

def readStrict (s : String) : Except Failure Json := do
  match ← readWith strictBuilder s with
  | some j => .ok j
  | none => .error .notJson

variable {α : Type} {b : Builder α} {make : Json → α}

theorem buildItems_eq {items : List Json} (h : ∀ j ∈ items, b.build j = .ok (make j)) :
    b.buildItems items = .ok (items.map make) := by
  induction items with
  | nil => rfl
  | cons j items ih =>
    rw [List.forall_mem_cons] at h
    rw [Builder.buildItems, h.1, ih h.2]
    rfl

theorem buildFields_eq {fields : List (String × Json)} (h : ∀ f ∈ fields, b.build f.2 = .ok (make f.2))
    (done : List (String × α)) (keys : (done.map Prod.fst ++ fields.map Prod.fst).Nodup) :
    b.buildFields done fields = .ok (done ++ fields.map fun f => (f.1, make f.2)) := by
  induction fields generalizing done with
  | nil => rw [Builder.buildFields, List.map_nil, List.append_nil]
  | cons f fields ih =>
    rw [List.forall_mem_cons] at h
    have hnew := putField_new (make f.2) (not_mem_of_nodup keys)
    have hrest := ih h.2 (done ++ [(f.1, make f.2)]) (by simpa using keys)
    rw [Builder.buildFields, h.1]
    simp only [bind, Except.bind, hnew, hrest, List.append_assoc]
    rfl

theorem mapM_map_some {β γ : Type} (f : γ → Option β) (g : β → γ) (h : ∀ b, f (g b) = some b)
    (bs : List β) : (bs.map g).mapM f = some bs := by
  induction bs with
  | nil => rfl
  | cons b bs ih =>
    rw [List.map_cons, List.mapM_cons, h, ih]
    rfl

theorem build_strict {j : Json} (h : j.Safe IsShort) : strictBuilder.build j = .ok (some j) := by
  induction h with
  | null | flag | text => rfl
  | integer hn =>
    rw [Builder.build, integerValue_short _ hn]
    rfl
  | real hx => simp [Builder.build, strictBuilder, hx]
  | @list items _ ih =>
    have hitems := mapM_map_some id some (fun _ => rfl) items
    rw [Builder.build, buildItems_eq ih]
    simp only [strictBuilder, Except.map, hitems, Option.map_some]
  | @object fields keys _ ih =>
    have hfields := mapM_map_some named? (fun f => (f.1, some f.2)) (fun _ => rfl) fields
    rw [Builder.build, buildFields_eq ih [] keys]
    simp only [strictBuilder, bind, Except.bind, List.nil_append, hfields, Option.map_some]

/-- What is written of a value in any layout is that value to a strict reader. -/
theorem readStrict_toText (style : Style) {j : Json} (h : j.Safe IsShort) :
    readStrict (toText style j) = .ok j := by
  rw [readStrict, readWith_toText, build_strict h]
  rfl

example : (readStrict "[1, NaN]").isOk = false := by decide +kernel

end PlainSheets.Json
