import PlainSheets.Proofs.Steps
import PlainSheets.Proofs.Store.Related

/-!
Lists under distinct keys. A change of the item with a key, or its removal, leaves every other item
as it is, in its order.
-/
namespace PlainSheets

variable {ε α β : Type} {key : α → String} {x : String} {change : α → α → Prop}
  {before after : List α}

/-- The only item with a key is changed. -/
def ChangesOne (key : α → String) (x : String) (change : α → α → Prop) (before after : List α) :
    Prop :=
  ∃ front old new back, before = front ++ old :: back ∧ after = front ++ new :: back ∧
    key old = x ∧ (∀ a ∈ front ++ back, key a ≠ x) ∧ change old new

/-- The only item with a key is taken out. -/
def RemovesOne (key : α → String) (x : String) (before after : List α) : Prop :=
  ∃ front old back, before = front ++ old :: back ∧ after = front ++ back ∧ key old = x ∧
    ∀ a ∈ front ++ back, key a ≠ x

theorem exists_split (hdistinct : (before.map key).Nodup) {a : α} (ha : a ∈ before) :
    ∃ front back, before = front ++ a :: back ∧ ∀ b ∈ front ++ back, key b ≠ key a := by
  obtain ⟨front, back, rfl⟩ := List.append_of_mem ha
  refine ⟨front, back, rfl, fun b hb heq => ?_⟩
  rw [List.map_append, List.map_cons, List.nodup_middle] at hdistinct
  rw [← List.map_append, List.nodup_cons] at hdistinct
  exact hdistinct.1 (heq ▸ List.mem_map_of_mem hb)

/-! How such changes come about. -/

namespace ChangesOne

theorem of_map {key' : β → String} {change : β → β → Prop} (hdistinct : (before.map key).Nodup)
    {a : α} (ha : a ∈ before) {f g : α → β} (hkey : ∀ b, key' (f b) = key b)
    (hsame : ∀ b ∈ before, key b ≠ key a → g b = f b) (h : change (f a) (g a)) :
    ChangesOne key' (key a) change (before.map f) (before.map g) := by
  obtain ⟨front, back, rfl, hothers⟩ := exists_split hdistinct ha
  have hmap {part : List α} (hpart : part ⊆ front ++ back) : part.map g = part.map f :=
    List.map_congr_left fun b hb => hsame b
      ((List.perm_middle.mem_iff).mpr (List.mem_cons_of_mem a (hpart hb))) (hothers b (hpart hb))
  refine ⟨front.map f, f a, g a, back.map f, by rw [List.map_append, List.map_cons], ?_, hkey a, ?_,
    h⟩
  · rw [List.map_append, List.map_cons, hmap (List.subset_append_left _ _),
      hmap (List.subset_append_right _ _)]
  · rw [← List.map_append]
    intro b hb
    obtain ⟨c, hc, rfl⟩ := List.mem_map.mp hb
    rw [hkey]
    exact hothers c hc

theorem of_replaceFirst (hdistinct : (before.map key).Nodup) {old new : α}
    (hold : before.find? (fun a => key a = x) = some old) (h : change old new) :
    ChangesOne key x change before (Memory.replaceFirst (fun a => key a = x) new before) := by
  have hx : key old = x := by simpa using List.find?_some hold
  obtain ⟨front, back, rfl, hothers⟩ := exists_split hdistinct (List.mem_of_find?_eq_some hold)
  rw [hx] at hothers
  refine ⟨front, old, new, back, rfl, ?_, hx, hothers, h⟩
  clear hold hdistinct
  induction front with
  | nil => rw [List.nil_append, Memory.replaceFirst, if_pos (decide_eq_true hx), List.nil_append]
  | cons b front ih =>
    have hb := hothers b List.mem_cons_self
    rw [List.cons_append, Memory.replaceFirst, if_neg (by simpa using hb),
      ih fun c hc => hothers c (List.mem_cons_of_mem b hc), List.cons_append]

/-! What follows from them. -/

theorem imp {change' : α → α → Prop} (h : ChangesOne key x change before after)
    (himp : ∀ old new, change old new → change' old new) :
    ChangesOne key x change' before after := by
  obtain ⟨front, old, new, back, hbefore, hafter, hx, hothers, hchange⟩ := h
  exact ⟨front, old, new, back, hbefore, hafter, hx, hothers, himp old new hchange⟩

theorem map_eq {γ : Type} {f : α → γ} (h : ChangesOne key x change before after)
    (hf : ∀ old new, change old new → f new = f old) : after.map f = before.map f := by
  obtain ⟨front, old, new, back, rfl, rfl, -, -, hchange⟩ := h
  rw [List.map_append, List.map_cons, hf old new hchange, List.map_append, List.map_cons]

theorem mem (h : ChangesOne key x change before after) {a : α} (ha : a ∈ after) :
    a ∈ before ∨ ∃ old ∈ before, key old = x ∧ change old a := by
  obtain ⟨front, old, new, back, rfl, rfl, hx, -, hchange⟩ := h
  have hold : old ∈ front ++ old :: back := List.mem_append_right front List.mem_cons_self
  rcases List.mem_append.mp ha with ha | ha
  · exact .inl (List.mem_append_left _ ha)
  rcases List.mem_cons.mp ha with rfl | ha
  · exact .inr ⟨old, hold, hx, hchange⟩
  · exact .inl (List.mem_append_right front (List.mem_cons_of_mem old ha))

end ChangesOne

namespace RemovesOne

theorem of_filter {key' : β → String} (hdistinct : (before.map key).Nodup) {a : α}
    (ha : a ∈ before) {f g : α → β} (hkey : ∀ b, key' (f b) = key b)
    (hsame : ∀ b ∈ before, key b ≠ key a → g b = f b) :
    RemovesOne key' (key a) (before.map f)
      ((before.filter fun b => key b ≠ key a).map g) := by
  obtain ⟨front, back, rfl, hothers⟩ := exists_split hdistinct ha
  have hfilter {part : List α} (hpart : part ⊆ front ++ back) :
      (part.filter fun b => key b ≠ key a) = part :=
    List.filter_eq_self.mpr fun b hb => decide_eq_true (hothers b (hpart hb))
  have hmap : (front ++ back).map g = (front ++ back).map f :=
    List.map_congr_left fun b hb => hsame b
      ((List.perm_middle.mem_iff).mpr (List.mem_cons_of_mem a hb)) (hothers b hb)
  refine ⟨front.map f, f a, back.map f, by rw [List.map_append, List.map_cons], ?_, hkey a, ?_⟩
  · rw [List.filter_append, List.filter_cons_of_neg (by simp),
      hfilter (List.subset_append_left _ _), hfilter (List.subset_append_right _ _), hmap,
      List.map_append]
  · rw [← List.map_append]
    intro b hb
    obtain ⟨c, hc, rfl⟩ := List.mem_map.mp hb
    rw [hkey]
    exact hothers c hc

theorem of_eraseP (hdistinct : (before.map key).Nodup) {old : α}
    (hold : before.find? (fun a => key a = x) = some old) :
    RemovesOne key x before (before.eraseP fun a => key a = x) := by
  have hx : key old = x := by simpa using List.find?_some hold
  obtain ⟨front, back, rfl, hothers⟩ := exists_split hdistinct (List.mem_of_find?_eq_some hold)
  rw [hx] at hothers
  refine ⟨front, old, back, rfl, ?_, hx, hothers⟩
  rw [List.eraseP_append_right, List.eraseP_cons_of_pos (by simpa using hx)]
  intro b hb
  simpa using hothers b (List.mem_append_left back hb)

theorem sublist (h : RemovesOne key x before after) : after.Sublist before := by
  obtain ⟨front, old, back, rfl, rfl, -, -⟩ := h
  exact (List.sublist_cons_self old back).append_left front

end RemovesOne

/-! Lists read item by item. -/

section Reading

variable {f : α → Except ε β} {bs cs : List β} {key' : β → String}

theorem mapM_append_eq_ok {as as' : List α} {bs : List β} : (as ++ as').mapM f = .ok bs ↔
    ∃ front back, as.mapM f = .ok front ∧ as'.mapM f = .ok back ∧ bs = front ++ back := by
  simp only [List.mapM_append, bind_eq_ok, pure, Except.pure, Except.ok.injEq]
  constructor
  · rintro ⟨front, hfront, back, hback, rfl⟩
    exact ⟨front, back, hfront, hback, rfl⟩
  · rintro ⟨front, back, hfront, hback, rfl⟩
    exact ⟨front, hfront, back, hback, rfl⟩

theorem mapM_cons_eq_ok {a : α} {as : List α} {bs : List β} : (a :: as).mapM f = .ok bs ↔
    ∃ b back, f a = .ok b ∧ as.mapM f = .ok back ∧ bs = b :: back := by
  simp only [List.mapM_cons, bind_eq_ok, pure, Except.pure, Except.ok.injEq]
  constructor
  · rintro ⟨b, hb, back, hback, rfl⟩
    exact ⟨b, back, hb, hback, rfl⟩
  · rintro ⟨b, back, hb, hback, rfl⟩
    exact ⟨b, hb, back, hback, rfl⟩

theorem keys_of_mapM (hkey : ∀ a b, f a = .ok b → key' b = key a) {as : List α} {bs : List β}
    (h : as.mapM f = .ok bs) (hothers : ∀ a ∈ as, key a ≠ x) : ∀ b ∈ bs, key' b ≠ x := by
  intro b hb
  obtain ⟨a, ha, hab⟩ := exists_partner (mapM_eq_ok.mp h) hb
  rw [hkey a b hab]
  exact hothers a ha

theorem ChangesOne.mapM {change' : β → β → Prop} (h : ChangesOne key x change before after)
    (hkey : ∀ a b, f a = .ok b → key' b = key a) (hbefore : before.mapM f = .ok bs)
    (hafter : after.mapM f = .ok cs)
    (hchange : ∀ old new o n, change old new → f old = .ok o → f new = .ok n → change' o n) :
    ChangesOne key' x change' bs cs := by
  obtain ⟨front, old, new, back, rfl, rfl, hx, hothers, hold⟩ := h
  obtain ⟨fs, _, hfront, hrest, rfl⟩ := mapM_append_eq_ok.mp hbefore
  obtain ⟨o, gs, ho, hback, rfl⟩ := mapM_cons_eq_ok.mp hrest
  obtain ⟨fs', _, hfront', hrest', rfl⟩ := mapM_append_eq_ok.mp hafter
  obtain ⟨n, gs', hn, hback', rfl⟩ := mapM_cons_eq_ok.mp hrest'
  obtain rfl := Except.ok.inj (hfront.symm.trans hfront')
  obtain rfl := Except.ok.inj (hback.symm.trans hback')
  exact ⟨fs, o, n, gs, rfl, rfl, (hkey old o ho).trans hx,
    keys_of_mapM hkey (mapM_append_eq_ok.mpr ⟨fs, gs, hfront, hback, rfl⟩) hothers,
    hchange old new o n hold ho hn⟩

theorem RemovesOne.mapM (h : RemovesOne key x before after)
    (hkey : ∀ a b, f a = .ok b → key' b = key a) (hbefore : before.mapM f = .ok bs)
    (hafter : after.mapM f = .ok cs) : RemovesOne key' x bs cs := by
  obtain ⟨front, old, back, rfl, rfl, hx, hothers⟩ := h
  obtain ⟨fs, _, hfront, hrest, rfl⟩ := mapM_append_eq_ok.mp hbefore
  obtain ⟨o, gs, ho, hback, rfl⟩ := mapM_cons_eq_ok.mp hrest
  have hall : (front ++ back).mapM f = .ok (fs ++ gs) :=
    mapM_append_eq_ok.mpr ⟨fs, gs, hfront, hback, rfl⟩
  obtain rfl := Except.ok.inj (hafter.symm.trans hall)
  exact ⟨fs, o, gs, rfl, rfl, (hkey old o ho).trans hx, keys_of_mapM hkey hall hothers⟩

end Reading

end PlainSheets
