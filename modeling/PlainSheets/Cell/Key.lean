import PlainSheets.Cell.Basic

/-!
Values as keys of maps. Texts are one key whatever their storage, and so are equal numbers; a flag
counts as one or zero. What is no number is never the same key as anything.
-/
namespace PlainSheets

namespace Moment

/-- Moments with offsets are compared along the time line, those without by what the clock shows. -/
def sameAs (m n : Moment) : Bool :=
  match m.offset, n.offset with
  | some _, some _ => m.instant == n.instant
  | none, none => m == n
  | _, _ => false

def sameTimes : Option Moment → Option Moment → Bool
  | some m, some n => m.sameAs n
  | none, none => true
  | _, _ => false

theorem sameAs_comm (m n : Moment) : m.sameAs n = n.sameAs m := by
  unfold sameAs
  cases m.offset <;> cases n.offset <;> first | exact BEq.comm | rfl

end Moment

namespace Atom

def quantity? : Atom → Option Amount
  | flag b => some (Amount.ofInt (if b then 1 else 0)).normal
  | integer n => some (Amount.ofInt n).normal
  | real x => if x.isNaN then none else some (Amount.ofReal x).normal
  | decimal a => if a.isNaN then none else some a.normal
  | sized (.flag b) => some (Amount.ofInt (if b then 1 else 0)).normal
  | sized (.integer _ n) => some (Amount.ofInt n).normal
  | sized (.real _ x) => if x.isNaN then none else some (Amount.ofReal x).normal
  | _ => none

private def sameOther : Atom → Atom → Bool
  | null, null => true
  | noMoment, noMoment => true
  | moment m, moment n => m.sameAs n
  | date d, date e => d == e
  | clock c, clock d => c == d
  | bytes bs, bytes cs => bs == cs
  | _, _ => false

def sameKey (a b : Atom) : Bool :=
  match a.text?, b.text? with
  | some s, some t => s == t
  | none, none =>
    match a.quantity?, b.quantity? with
    | some x, some y => x == y
    | none, none => sameOther a b
    | _, _ => false
  | _, _ => false

/-- Whether two keys that come from one record are one key there. What is no number is one key with itself
alone. -/
def isOneWith (a b : Atom) : Bool := a == b || a.sameKey b

variable {a b : Atom}

theorem text?_eq_of_sameKey (h : a.sameKey b = true) : a.text? = b.text? := by
  unfold sameKey at h
  split at h
  · rename_i s t hs ht
    rw [hs, ht, eq_of_beq h]
  · rename_i hs ht
    rw [hs, ht]
  · cases h

theorem sameKey_of_text? {s : String} (ha : a.text? = some s) (hb : b.text? = some s) :
    a.sameKey b = true := by
  rw [sameKey, ha, hb]
  exact beq_self_eq_true s

private theorem sameOther_comm (a b : Atom) : sameOther a b = sameOther b a := by
  cases a <;> cases b <;> first | rfl | exact BEq.comm | exact Moment.sameAs_comm _ _

theorem sameKey_comm (a b : Atom) : a.sameKey b = b.sameKey a := by
  unfold sameKey
  cases a.text? with
  | some s => cases b.text? with
    | some t => exact BEq.comm
    | none => rfl
  | none => cases b.text? with
    | some t => rfl
    | none => cases a.quantity? with
      | some x => cases b.quantity? with
        | some y => exact BEq.comm
        | none => rfl
      | none => cases b.quantity? with
        | some y => rfl
        | none => exact sameOther_comm a b

theorem isOneWith_iff : a.isOneWith b = true ↔ a = b ∨ a.sameKey b = true := by
  rw [isOneWith, Bool.or_eq_true, beq_iff_eq]

@[simp] theorem isOneWith_self (a : Atom) : a.isOneWith a = true := isOneWith_iff.mpr (.inl rfl)

theorem isOneWith_comm (a b : Atom) : a.isOneWith b = b.isOneWith a := by
  rw [isOneWith, isOneWith, BEq.comm, sameKey_comm]

theorem text?_eq_of_isOneWith (h : a.isOneWith b = true) : a.text? = b.text? := by
  rcases isOneWith_iff.mp h with rfl | hsame
  · rfl
  · exact text?_eq_of_sameKey hsame

theorem isOneWith_of_text {s t : String} (ha : a.text? = some s) (hb : b.text? = some t) :
    a.isOneWith b = (s == t) := by
  have hsame : a.sameKey b = (s == t) := by
    rw [sameKey, ha, hb]
  rw [isOneWith, hsame, Bool.or_eq_right_iff_imp, beq_iff_eq, beq_iff_eq]
  rintro rfl
  exact Option.some.inj (ha.symm.trans hb)

def canBeKey : Atom → Bool
  | decimal (.nan _ signalling _) => !signalling
  | bundle _ => false
  | _ => true

end Atom

end PlainSheets
