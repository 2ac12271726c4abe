import PlainSheets.Cell.Order
import Mathlib.Order.Compare

/-!
The order of sort keys is total and transitive: keys of different kinds are ordered by their kinds
alone, and keys of one kind by what they hold. A cell with a number is of no other kind.
-/
namespace PlainSheets

instance : Std.TransCmp Numeral.order :=
  inferInstanceAs (Std.TransCmp
    (compareLex (compareOn fun n : Numeral => n.place.1) (compareOn fun n : Numeral => n.place.2)))

namespace SortKey

variable {a b c : SortKey}

theorem order_of_rank_lt (h : a.rank < b.rank) : a.order b = .lt := by
  cases a <;> cases b <;> first | rfl | simp [rank] at h

theorem order_swap (a b : SortKey) : a.order b = (b.order a).swap := by
  cases a <;> cases b
  case number.number => exact @Std.OrientedCmp.eq_swap _ Numeral.order _ _ _
  case date.date => exact @Std.OrientedCmp.eq_swap _ (compareOn Moment.instant) _ _ _
  case text.text => exact @Std.OrientedCmp.eq_swap String compare _ _ _
  case flag.flag => exact @Std.OrientedCmp.eq_swap Bool compare _ _ _
  all_goals rfl

theorem rank_le_of_order (h : (a.order b).isLE) : a.rank ≤ b.rank := by
  rcases Nat.lt_or_ge b.rank a.rank with hlt | hle
  · rw [order_swap, order_of_rank_lt hlt] at h
    cases h
  · exact hle

theorem order_isLE_trans (hab : (a.order b).isLE) (hbc : (b.order c).isLE) :
    (a.order c).isLE := by
  have hlab := rank_le_of_order hab
  have hlbc := rank_le_of_order hbc
  rcases Nat.lt_or_eq_of_le (Nat.le_trans hlab hlbc) with hlt | heq
  · rw [order_of_rank_lt hlt]
    rfl
  -- all three are of one kind
  have hb : a.rank = b.rank := by omega
  cases a <;> cases b <;> cases hb <;> cases c <;> cases heq
  · exact @Std.TransCmp.isLE_trans _ Numeral.order _ _ _ _ hab hbc
  · exact @Std.TransCmp.isLE_trans _ (compareOn Moment.instant) _ _ _ _ hab hbc
  · exact @Std.TransCmp.isLE_trans String compare _ _ _ _ hab hbc
  · exact @Std.TransCmp.isLE_trans Bool compare _ _ _ _ hab hbc
  · rfl

instance : Std.TransCmp SortKey.order where
  eq_swap := order_swap _ _
  isLE_trans := order_isLE_trans

theorem le_eq_isLE (a b : SortKey) : a.le b = (a.order b).isLE := by
  unfold le
  cases a.order b <;> rfl

end SortKey

theorem Cell.unmixed_of_numeral {c : Cell} {n : Numeral} (h : c.numeral? = some n) :
    c.isMissing = false ∧ c.flag? = none ∧ c.text? = none := by
  match c with
  | .integer _ | .sized (.integer _ _) => exact ⟨rfl, rfl, rfl⟩
  | .real x | .sized (.real _ x) =>
    cases x with
    | nan => cases h
    | finite | infinite => exact ⟨rfl, rfl, rfl⟩
  | .null | .flag _ | .text _ | .moment _ | .noMoment | .date _ | .clock _ | .decimal _ | .bytes _
  | .sized (.flag _) | .sized (.text _) | .bundle _ | .list _ | .record _ => cases h

end PlainSheets
