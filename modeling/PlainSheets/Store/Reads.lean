import PlainSheets.Cell.Record
import PlainSheets.Failure
import PlainSheets.Sheet
import PlainSheets.Text.Pattern

/-!
How sheets are read and written, whatever keeps them: the reading side, fresh names for what is made,
and a step that ends in a new state and a result, either of which may hold without the other.
-/
namespace PlainSheets

structure Reads where
  sheets : Except Failure (List Sheet)
  first : Except Failure (Option Sheet)
  byId : String → Except Failure (Option Sheet)
  /-- The first sheet whose name a pattern matches. -/
  byPattern : String → Except Failure (Option Sheet)

namespace Reads

def broken (failure : Failure) : Reads :=
  ⟨.error failure, .error failure, fun _ => .error failure, fun _ => .error failure⟩

/-- The sheet that a question means: the first one whose name has the given name in it as it stands,
case ignored, or the first of all. -/
def resolve (r : Reads) (name : Option String) : Except Failure (Option Sheet) :=
  match name with
  | none => r.first
  | some n => if n.isEmpty then r.first else r.byPattern (Text.Pattern.escape n)

end Reads

def matchName (pattern : String) (names : List (String × Option String)) :
    Except Failure (Option String) :=
  match Text.Pattern.read? pattern with
  | none => .error (.badPattern pattern)
  | some p => .ok ((names.find? fun n => (n.2.map p.search).getD false).map Prod.fst)

structure Fresh where
  sheet : String
  row : Nat → String

/-- How a step ends. A step may fail after it has changed the state. -/
structure Step (σ α : Type) where
  state : σ
  result : Except Failure α

namespace Step

def guarded {σ α : Type} (state : σ) (body : Except Failure (σ × α)) : Step σ α :=
  match body with
  | .ok (next, a) => ⟨next, .ok a⟩
  | .error f => ⟨state, .error f⟩

def mapState {σ τ α : Type} (f : σ → τ) (s : Step σ α) : Step τ α := ⟨f s.state, s.result⟩

def map {σ α β : Type} (f : α → β) (s : Step σ α) : Step σ β := ⟨s.state, s.result.map f⟩

end Step

/-- Rows made from records, with fresh ids from a number on. The clock is read twice for each row: for
the time when it was made and for the time of its last change. -/
def timedRows (fresh : Fresh) (clock : Nat → Moment) : Nat → List Record → List Row
  | _, [] => []
  | i, r :: rs =>
    ⟨fresh.row i, .record r, clock (2 * i), some (clock (2 * i + 1))⟩ ::
      timedRows fresh clock (i + 1) rs

def newRows (fresh : Fresh) (now : Moment) : Nat → List Record → List Row :=
  timedRows fresh fun _ => now

end PlainSheets
