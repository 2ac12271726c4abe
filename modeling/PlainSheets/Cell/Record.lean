import PlainSheets.Cell.Key
import PlainSheets.Cell.Writable
import PlainSheets.Text.Lower

/-!
Records are fields in order. A field is found by its exact key, or else by the first key that is
equal in lowercase. Record data of other shapes is turned into a record where that has a meaning.
-/
namespace PlainSheets

abbrev Record := List (Atom × Cell)

namespace Record

def get? : Record → String → Option Cell
  | [], _ => none
  | (k, v) :: rest, name => if k.text? = some name then some v else get? rest name

/-- A value put at a key takes the place of the one at the first key that is the same by some test, or
comes last. -/
def putBy (same : Atom → Atom → Bool) (key : Atom) (value : Cell) : Record → Record
  | [] => [(key, value)]
  | (k, v) :: rest => if same k key then (k, value) :: rest else (k, v) :: putBy same key value rest

theorem putBy_new {same : Atom → Atom → Bool} {key : Atom} {r : Record}
    (h : ∀ f ∈ r, same f.1 key = false) (value : Cell) :
    putBy same key value r = r ++ [(key, value)] := by
  induction r with
  | nil => rfl
  | cons f r ih =>
    rw [List.forall_mem_cons] at h
    simp only [putBy, h.1, Bool.false_eq_true, if_false, ih h.2, List.cons_append]

def put (key : Atom) (value : Cell) (r : Record) : Record := putBy Atom.sameKey key value r

@[simp] theorem put_nil (key : Atom) (value : Cell) : put key value [] = [(key, value)] := rfl

theorem put_cons (key : Atom) (value : Cell) (f : Atom × Cell) (r : Record) : put key value (f :: r) =
    if f.1.sameKey key then (f.1, value) :: r else f :: put key value r := rfl

def keys (r : Record) : List Atom := r.map Prod.fst

/-- The field that a name stands for: the one with this name, or else the first one whose key is shown
with the same lowercase letters. If that key is null, it is taken for no key at all. -/
def field? (r : Record) (name : String) : Option (Atom × Cell) :=
  (r.find? fun f => f.1.text? = some name).or
    ((r.find? fun f => Text.lower f.1.display = Text.lower name).filter fun f => f.1 ≠ .null)

/-- Whether the search for a name comes to a key that has no text. -/
def isBarred (r : Record) (name : String) : Bool :=
  (r.find? fun f => f.1.text? = some name).isNone &&
    (r.find? fun f => !f.1.isWritable || Text.lower f.1.display = Text.lower name).any fun f =>
      !f.1.isWritable

def searched {α : Type} (r : Record) (names : List String) (a : α) : Except Failure α :=
  if names.any r.isBarred then .error (.integerTooLong none) else .ok a

def resolve? (r : Record) (name : String) : Option Atom :=
  (r.field? name).map fun f => if f.1.text? = some name then .text name else f.1

def lookup (r : Record) (name : String) : Cell := ((r.field? name).map Prod.snd).getD .null

def select (r : Record) (names : List String) : Record :=
  names.foldl (fun out name =>
    match r.resolve? name with
    | none => out
    | some key => putBy Atom.isOneWith key (r.lookup name) out) []

def project (r : Record) (names : List String) : Record :=
  if names.isEmpty then r else r.select names

end Record

namespace Atom

def typeName : Atom → String
  | null => "NoneType"
  | flag _ => "bool"
  | integer _ => "int"
  | real _ => "float"
  | text _ => "str"
  | moment _ => "datetime"
  | date _ => "date"
  | noMoment => "NaTType"
  | clock _ => "time"
  | decimal _ => "Decimal"
  | bytes _ => "bytes"
  | sized (.integer t _) => t.name
  | sized (.real t _) => t.name
  | sized (.flag _) => "bool"
  | sized (.text _) => "str_"
  | bundle _ => "numpy.ndarray"

end Atom

namespace Cell

def typeName : Cell → String
  | atom a => a.typeName
  | list _ => "list"
  | record _ => "dict"

private def letters (s : String) : List Cell := s.toList.map fun c => .text (String.singleton c)

def parts? : Cell → Option (List Cell)
  | text s => some (letters s)
  | sized (.text s) => some (letters s)
  | bytes bs => some (bs.map fun b => .integer b.toNat)
  | bundle b => some ((b.first :: b.second :: b.rest).map .sized)
  | list items => some items
  | record fs => some (fs.map fun f => .atom f.1)
  | _ => none

def asKey? : Cell → Option Atom
  | atom a => if a.canBeKey then some a else none
  | _ => none

def asPair (index : Nat) (c : Cell) : Except Failure (Atom × Cell) :=
  match c.parts? with
  | none => .error (.notPair index)
  | some [key, value] =>
    match key.asKey? with
    | some k => .ok (k, value)
    | none => .error (.badKey key.typeName)
  | some parts => .error (.pairLength index parts.length)

def putPairs (done : Record) : Nat → List Cell → Except Failure Record
  | _, [] => .ok done
  | index, c :: cs => do
    let (key, value) ← asPair index c
    putPairs (Record.put key value done) (index + 1) cs

/-- Data as a record: a record as it stands, or a list of pairs. -/
def asRecord : Cell → Except Failure Record
  | record fs => .ok fs
  | c =>
    match c.parts? with
    | some parts => putPairs [] 0 parts
    | none => .error (.notIterable c.typeName)

end Cell

end PlainSheets
