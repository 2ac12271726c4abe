import PlainSheets.Proofs.Json.Rendered
import PlainSheets.Proofs.Steps

/-!
What can be read at all. A property that a builder gives every value as long as the parts have it, has
every value that is read, whatever the text: its integers are short, and each key of an object is
there once.
-/
namespace PlainSheets.Json

variable {α : Type} {b : Builder α} {P : α → Prop}

/-- A builder that makes values with a property of parts with the property. -/
structure Builder.Keeps (b : Builder α) (P : α → Prop) : Prop where
  null : P b.null
  flag : ∀ x, P (b.flag x)
  integer : ∀ n, IsShort n → P (b.integer n)
  real : ∀ x, P (b.real x)
  text : ∀ s, P (b.text s)
  list : ∀ vs, (∀ v ∈ vs, P v) → P (b.list vs)
  object : ∀ fields, (fields.map Prod.fst).Nodup → (∀ f ∈ fields, P f.2) →
    Gives P (b.object fields)

/-! Numbers. -/

theorem isAsciiDigit_wholeDigits (cs : List Char) : ∀ c ∈ wholeDigits cs, isAsciiDigit c := by
  unfold wholeDigits
  split
  · intro c hc
    rw [List.mem_singleton.mp hc]
    rfl
  · exact fun c hc => List.mem_takeWhile_imp hc

@[simp] theorem isShort_neg {n : Int} : IsShort (-n) ↔ IsShort n := by
  rw [IsShort, IsShort, Int.natAbs_neg]

theorem isShort_natOfDigits {cs : List Char} (hdigits : ∀ c ∈ cs, isAsciiDigit c)
    (hlength : cs.length ≤ maxIntegerDigits) : IsShort (natOfDigits cs) := by
  rw [isShort_iff]
  calc natOfDigits cs < 10 ^ cs.length := Text.natOfDigits_lt hdigits
    _ ≤ 10 ^ maxIntegerDigits := Nat.pow_le_pow_right (by decide) hlength

namespace Builder.Keeps

theorem numberOf (h : b.Keeps P) {whole : List Char} (hwhole : ∀ c ∈ whole, isAsciiDigit c)
    (negative : Bool) (fraction : List Char) (exponent : Option Int) :
    Gives P (numberOf b negative whole fraction exponent) := by
  unfold Json.numberOf
  split
  · split
    · exact .error _
    · rename_i hlength
      have hshort := isShort_natOfDigits hwhole (Nat.le_of_not_lt hlength)
      apply Gives.ok
      apply h.integer
      split
      · exact isShort_neg.mpr hshort
      · exact hshort
  · exact .ok (h.real _)

theorem readNumber (h : b.Keeps P) (cs : List Char) :
    Gives (fun v => P v.1) (readNumber b cs) := by
  have hwhole := isAsciiDigit_wholeDigits (takeMinus cs).2
  unfold Json.readNumber
  dsimp only
  split
  · exact .error _
  · split
    · exact (h.numberOf hwhole _ _ _).map fun _ hv => hv
    · exact (h.numberOf hwhole _ _ _).map fun _ hv => hv

theorem readScalar (h : b.Keeps P) (cs : List Char) :
    Gives (fun v => P v.1) (readScalar b cs) := by
  unfold Json.readScalar
  repeat' split
  · exact .ok h.null
  · exact .ok (h.flag true)
  · exact .ok (h.flag false)
  · exact .ok (h.real .nan)
  · exact .ok (h.real (.infinite false))
  · exact .ok (h.real (.infinite true))
  · exact h.readNumber cs

/-! Lists and objects. -/

def Fields (P : α → Prop) (fields : List (String × α)) : Prop :=
  (fields.map Prod.fst).Nodup ∧ ∀ f ∈ fields, P f.2

theorem Fields.nil : Fields P [] := ⟨List.nodup_nil, nofun⟩

theorem Fields.putField {fields : List (String × α)} (h : Fields P fields) (key : String) {v : α}
    (hv : P v) : Fields P (putField key v fields) := by
  refine ⟨nodup_putField key v h.1, fun f hf => ?_⟩
  rcases mem_putField hf with rfl | hf
  · exact hv
  · exact h.2 f hf

/-- What each reader gives, by the depth of its calls. -/
theorem readers (h : b.Keeps P) (fuel : Nat) :
    (∀ cs, Gives (fun v => P v.1) (readValue b fuel cs)) ∧
      (∀ cs, Gives (fun vs => ∀ v ∈ vs.1, P v) (readItems b fuel cs)) ∧
      ∀ done cs, Fields P done → Gives (fun fs => Fields P fs.1) (readFields b fuel done cs) := by
  induction fuel with
  | zero => exact ⟨fun _ => .error _, fun _ => .error _, fun _ _ _ => .error _⟩
  | succ fuel ih =>
    obtain ⟨value, items, fields⟩ := ih
    refine ⟨fun cs => ?value, fun cs => ?items, fun done cs hdone => ?fields⟩
    case value =>
      unfold readValue
      split
      · exact (Gives.any _).bind fun s _ => .ok (h.text _)
      · split
        · exact .ok (h.list [] (List.forall_mem_nil _))
        · refine (value _).bind fun v hv => (items _).bind fun vs hvs => .ok (h.list _ ?_)
          exact List.forall_mem_cons.mpr ⟨hv, hvs⟩
      · split
        · exact (h.object [] List.nodup_nil (List.forall_mem_nil _)).bind fun v hv => .ok hv
        · exact (fields [] _ .nil).bind fun fs hfs =>
            (h.object fs.1 hfs.1 hfs.2).bind fun v hv => .ok hv
      · exact h.readScalar _
    case items =>
      unfold readItems
      split
      · exact .ok (List.forall_mem_nil _)
      · exact (value _).bind fun v hv => (items _).bind fun vs hvs =>
          .ok (List.forall_mem_cons.mpr ⟨hv, hvs⟩)
      · exact .error _
    case fields =>
      unfold readFields
      split
      · refine (Gives.any _).bind fun key _ => ?_
        dsimp only
        split
        · refine (value _).bind fun v hv => ?_
          have hput := hdone.putField (String.ofList key.1) hv
          split
          · exact .ok hput
          · exact fields _ _ hput
          · exact .error _
        · exact .error _
      · exact .error _

theorem readWith (h : b.Keeps P) (s : String) : Gives P (readWith b s) := by
  refine ((h.readers _).1 _).bind fun v hv => ?_
  dsimp only
  split
  · exact .ok hv
  · exact .error _

end Builder.Keeps

end PlainSheets.Json
