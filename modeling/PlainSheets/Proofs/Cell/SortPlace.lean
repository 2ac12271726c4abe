import Mathlib.Algebra.Order.Field.Rat
import Mathlib.Data.Int.ConditionallyCompleteOrder
import Mathlib.Data.String.Basic
import Mathlib.Data.Sum.Order
import Mathlib.Order.Compare
import Mathlib.Order.CompletePartialOrder
import PlainSheets.Proofs.Cell.Order
import PlainSheets.Proofs.Cell.Readable

/-!
Where cells stand among all others. The kinds follow one another, and within a kind stand the exact
values: integers and floating-point numbers on one line, dates by their instants. Main statement: the
keys of cells are ordered as the cells stand.
-/
namespace PlainSheets

/-- Where cells stand, kind after kind: exact numbers between the two infinities, instants in
microseconds, texts by their code points, false before true, and at the end what is missing. -/
abbrev SortPlace := WithBot (WithTop ℚ) ⊕ₗ ℤ ⊕ₗ List Char ⊕ₗ Bool ⊕ₗ Unit

namespace SortPlace

def number (v : WithBot (WithTop ℚ)) : SortPlace := toLex (.inl v)

def instant (micros : ℤ) : SortPlace := toLex (.inr (toLex (.inl micros)))

def text (letters : List Char) : SortPlace := toLex (.inr (toLex (.inr (toLex (.inl letters)))))

def flag (b : Bool) : SortPlace :=
  toLex (.inr (toLex (.inr (toLex (.inr (toLex (.inl b)))))))

def missing : SortPlace := toLex (.inr (toLex (.inr (toLex (.inr (toLex (.inr ())))))))

theorem number_strictMono : StrictMono number := fun _ _ h => Sum.Lex.inl_lt_inl_iff.mpr h

theorem instant_strictMono : StrictMono instant := fun _ _ h =>
  Sum.Lex.inr_lt_inr_iff.mpr (Sum.Lex.inl_lt_inl_iff.mpr h)

theorem text_strictMono : StrictMono text := fun _ _ h =>
  Sum.Lex.inr_lt_inr_iff.mpr (Sum.Lex.inr_lt_inr_iff.mpr (Sum.Lex.inl_lt_inl_iff.mpr h))

theorem flag_strictMono : StrictMono flag := fun _ _ h =>
  Sum.Lex.inr_lt_inr_iff.mpr (Sum.Lex.inr_lt_inr_iff.mpr
    (Sum.Lex.inr_lt_inr_iff.mpr (Sum.Lex.inl_lt_inl_iff.mpr h)))

end SortPlace

namespace Binary64

def ofUnits (units : ℤ) : WithBot (WithTop ℚ) := ((units / unit : ℚ) : WithTop ℚ)

theorem ofUnits_strictMono : StrictMono ofUnits := by
  intro a b h
  have hunit : (0 : ℚ) < unit := by exact_mod_cast unit_pos
  have hlt : (a / unit : ℚ) < b / unit := by
    rw [div_lt_div_iff_of_pos_right hunit]
    exact_mod_cast h
  exact WithBot.coe_lt_coe.mpr (WithTop.coe_lt_coe.mpr hlt)

theorem ofUnits_whole (n : ℤ) : ofUnits (n * unit) = ((n : ℚ) : WithTop ℚ) := by
  have hunit : (unit : ℚ) ≠ 0 := by exact_mod_cast unit_pos.ne'
  rw [ofUnits, Int.cast_mul, Int.cast_natCast, mul_div_cancel_right₀ _ hunit]

end Binary64

namespace Numeral

def value : Numeral → WithBot (WithTop ℚ)
  | integer n => ((n : ℚ) : WithTop ℚ)
  | real (.finite s u _) _ => Binary64.ofUnits (Binary64.signed s u)
  | real (.infinite s) _ => if s then ⊥ else (⊤ : WithTop ℚ)

theorem place_cases (n : Numeral) :
    (∃ units, n.place = (0, units) ∧ n.value = Binary64.ofUnits units) ∨
      (n.place = (-1, 0) ∧ n.value = ⊥) ∨ (n.place = (1, 0) ∧ n.value = (⊤ : WithTop ℚ)) := by
  match n with
  | integer n => exact .inl ⟨_, rfl, (Binary64.ofUnits_whole n).symm⟩
  | real (.finite s u _) _ => exact .inl ⟨_, rfl, rfl⟩
  | real (.infinite true) _ => exact .inr (.inl ⟨rfl, rfl⟩)
  | real (.infinite false) _ => exact .inr (.inr ⟨rfl, rfl⟩)

/-- Numbers are ordered by their exact values. -/
theorem order_compares (a b : Numeral) : (a.order b).Compares a.value b.value := by
  unfold order
  -- on the line, below it and above it
  rcases a.place_cases with ⟨i, ha, hva⟩ | ⟨ha, hva⟩ | ⟨ha, hva⟩ <;>
    rcases b.place_cases with ⟨j, hb, hvb⟩ | ⟨hb, hvb⟩ | ⟨hb, hvb⟩ <;>
    rw [ha, hb, hva, hvb]
  · exact Binary64.ofUnits_strictMono.compares.mpr ((compare_iff i j).mp rfl)
  · exact WithBot.bot_lt_coe _
  · exact WithBot.coe_lt_coe.mpr (WithTop.coe_lt_top _)
  · exact WithBot.bot_lt_coe _
  · exact rfl
  · exact WithBot.bot_lt_coe _
  · exact WithBot.coe_lt_coe.mpr (WithTop.coe_lt_top _)
  · exact WithBot.bot_lt_coe _
  · exact rfl

end Numeral

namespace SortKey

def sortPlace : SortKey → SortPlace
  | number n => .number n.value
  | date m => .instant m.instant
  | text s => .text s.toList
  | flag b => .flag b
  | missing => .missing

theorem place_lt_of_rank_lt {a b : SortKey} (h : a.rank < b.rank) : a.sortPlace < b.sortPlace := by
  cases a <;> cases b <;> simp [rank] at h <;>
    simp [sortPlace, SortPlace.number, SortPlace.instant, SortPlace.text, SortPlace.flag,
      SortPlace.missing]

theorem order_compares (a b : SortKey) : (a.order b).Compares a.sortPlace b.sortPlace := by
  rcases Nat.lt_trichotomy a.rank b.rank with hlt | heq | hgt
  · rw [order_of_rank_lt hlt]
    exact place_lt_of_rank_lt hlt
  · cases a <;> cases b <;> cases heq
    case number.number.refl a b =>
      exact SortPlace.number_strictMono.compares.mpr (a.order_compares b)
    case date.date.refl a b =>
      exact SortPlace.instant_strictMono.compares.mpr ((compare_iff a.instant b.instant).mp rfl)
    case text.text.refl a b =>
      have hletters : StrictMono String.toList := fun _ _ h => String.lt_iff_toList_lt.mp h
      exact (SortPlace.text_strictMono.comp hletters).compares.mpr ((compare_iff a b).mp rfl)
    case flag.flag.refl a b => exact SortPlace.flag_strictMono.compares.mpr ((compare_iff a b).mp rfl)
    case missing.missing.refl => exact rfl
  · rw [order_swap, order_of_rank_lt hgt]
    exact place_lt_of_rank_lt hgt

@[simp] theorem le_iff (a b : SortKey) : a.le b = true ↔ a.sortPlace ≤ b.sortPlace := by
  unfold le
  rw [bne_iff_ne]
  exact (order_compares a b).ne_gt

end SortKey

namespace Atom

def sortPlace : Atom → SortPlace
  | null | noMoment => .missing
  | flag b | sized (.flag b) => .flag b
  | integer n | sized (.integer _ n) => .number (Numeral.integer n).value
  | real x | sized (.real _ x) =>
    match Numeral.ofReal? x with
    | some n => .number n.value
    | none => .missing
  | moment m => .instant m.instant
  | date d => .instant (d.toDays * microsPerDay)
  | a => .text a.display.toList

end Atom

namespace Cell

/-- Where a cell stands. What is neither missing, a flag, a number nor a date is text. -/
def sortPlace : Cell → SortPlace
  | atom a => a.sortPlace
  | c => .text c.display.toList

/-- Whether a cell can be compared at all: a date is one within the calendar of UTC, and what counts as text
has one. -/
structure Sortable (c : Cell) : Prop where
  inCalendar : ∀ m, c.moment? = some m → m.InCalendar
  writable : c.kind? = some .text → c.isWritable = true

theorem sortKey_of_moment {c : Cell} {m : Moment} (h : c.moment? = some m) :
    c.sortKey = m.utc.map .date ∧ c.sortPlace = .instant m.instant ∧ c.kind? = some .date := by
  match c with
  | .moment _ =>
    cases h
    exact ⟨rfl, rfl, rfl⟩
  | .date d =>
    cases h
    refine ⟨rfl, ?_, rfl⟩
    simp [sortPlace, Atom.sortPlace, Moment.instant, Moment.ofDate, Clock.midnight, Clock.toMicros]
  | .null | .flag _ | .integer _ | .real _ | .text _ | .noMoment | .clock _ | .decimal _ | .bytes _
  | .sized _ | .bundle _ | .list _ | .record _ => cases h

@[simp] theorem shown_eq_ok {c : Cell} {s : String} :
    c.shown = .ok s ↔ c.isWritable = true ∧ s = c.display := by
  unfold shown
  split
  · rename_i h
    exact ⟨fun hs => ⟨h, (Except.ok.inj hs).symm⟩, fun hs => by rw [hs.2]⟩
  · rename_i h
    exact iff_of_false nofun fun hs => h hs.1

theorem sortKey_of_no_moment {c : Cell} (h : c.moment? = none)
    (htext : c.kind? = some .text → c.isWritable = true) :
    ∃ x, c.sortKey = .ok x ∧ x.sortPlace = c.sortPlace := by
  match c with
  | .real x | .sized (.real _ x) => cases x <;> exact ⟨_, rfl, rfl⟩
  | .null | .flag _ | .integer _ | .text _ | .noMoment | .clock _ | .decimal _ | .bytes _
  | .sized (.integer _ _) | .sized (.flag _) | .sized (.text _) | .bundle _ => exact ⟨_, rfl, rfl⟩
  | .moment _ | .date _ => cases h
  | .list items =>
    exact ⟨_, map_eq_ok.mpr ⟨_, shown_eq_ok.mpr ⟨htext rfl, rfl⟩, rfl⟩, rfl⟩
  | .record fs =>
    exact ⟨_, map_eq_ok.mpr ⟨_, shown_eq_ok.mpr ⟨htext rfl, rfl⟩, rfl⟩, rfl⟩

theorem exists_sortKey {c : Cell} (h : c.Sortable) :
    ∃ x, c.sortKey = .ok x ∧ x.sortPlace = c.sortPlace := by
  cases hm : c.moment? with
  | none => exact sortKey_of_no_moment hm h.writable
  | some m =>
    obtain ⟨u, hu⟩ :=
      Option.isSome_iff_exists.mp ((Moment.toUtc?_isSome_iff m).mpr (h.inCalendar m hm))
    obtain ⟨hkey, hplace, -⟩ := sortKey_of_moment hm
    refine ⟨.date u, ?_, ?_⟩
    · rw [hkey, Moment.utc, hu]
      rfl
    · rw [hplace, SortKey.sortPlace, (Moment.toUtc?_spec hu).1]

theorem sortKey_of_text {c : Cell} (h : c.kind? = some .text) : c.sortKey = c.shown.map .text := by
  match c with
  | .real x | .sized (.real _ x) => cases x <;> cases h
  | .text _ | .clock _ | .decimal _ | .bytes _ | .sized (.text _) | .bundle _ | .list _ | .record _ => rfl
  | .null | .flag _ | .integer _ | .moment _ | .date _ | .noMoment | .sized (.integer ..)
  | .sized (.flag _) => cases h

theorem sortable_of_sortKey {c : Cell} {x : SortKey} (h : c.sortKey = .ok x) : c.Sortable where
  inCalendar m hm := by
    rw [(sortKey_of_moment hm).1] at h
    obtain ⟨u, hu, -⟩ := map_eq_ok.mp h
    exact (RowText.utc_isOk_iff m).mp ⟨u, hu⟩
  writable htext := by
    rw [sortKey_of_text htext] at h
    obtain ⟨s, hs, -⟩ := map_eq_ok.mp h
    exact (shown_eq_ok.mp hs).1

theorem sortKey_eq_ok {c : Cell} {x : SortKey} (h : c.sortKey = .ok x) :
    c.Sortable ∧ x.sortPlace = c.sortPlace := by
  have hsortable := sortable_of_sortKey h
  obtain ⟨y, hy, hplace⟩ := exists_sortKey hsortable
  cases h.symm.trans hy
  exact ⟨hsortable, hplace⟩

def NoLater (a b : Cell) : Prop :=
  ∃ x y, a.sortKey = .ok x ∧ b.sortKey = .ok y ∧ x.le y = true

theorem noLater_iff {a b : Cell} :
    a.NoLater b ↔ a.Sortable ∧ b.Sortable ∧ a.sortPlace ≤ b.sortPlace := by
  constructor
  · rintro ⟨x, y, hx, hy, hle⟩
    obtain ⟨ha, hxa⟩ := sortKey_eq_ok hx
    obtain ⟨hb, hyb⟩ := sortKey_eq_ok hy
    rw [SortKey.le_iff, hxa, hyb] at hle
    exact ⟨ha, hb, hle⟩
  · rintro ⟨ha, hb, hle⟩
    obtain ⟨x, hx, hxa⟩ := exists_sortKey ha
    obtain ⟨y, hy, hyb⟩ := exists_sortKey hb
    refine ⟨x, y, hx, hy, ?_⟩
    rwa [SortKey.le_iff, hxa, hyb]

variable {a b c : Cell}

theorem noLater_total (ha : a.Sortable) (hb : b.Sortable) : a.NoLater b ∨ b.NoLater a := by
  rw [noLater_iff, noLater_iff]
  exact (le_total a.sortPlace b.sortPlace).imp (fun h => ⟨ha, hb, h⟩) fun h => ⟨hb, ha, h⟩

theorem noLater_trans (hab : a.NoLater b) (hbc : b.NoLater c) : a.NoLater c := by
  rw [noLater_iff] at *
  exact ⟨hab.1, hbc.2.1, hab.2.2.trans hbc.2.2⟩

end Cell

end PlainSheets
