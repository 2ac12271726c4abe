import PlainSheets.Cell.Record

/-!
Whether two cells hold the same: numbers of one size whatever their storage, lists item by item, maps key by
key in any order. A bundle is compared value by value, which leaves no single answer.
-/
namespace PlainSheets

namespace Atom

def isNumeric : Atom → Bool
  | flag _ => true
  | integer _ => true
  | real _ => true
  | decimal _ => true
  | sized (.text _) => false
  | sized _ => true
  | _ => false

def isSignalling : Atom → Bool
  | decimal (.nan _ signalling _) => signalling
  | _ => false

def same (a b : Atom) : Except Failure Bool :=
  if a.isSignalling && b.isNumeric || b.isSignalling && a.isNumeric then .error .signalled
  else .ok (a.sameKey b)

end Atom

namespace Cell

mutual

/-- The comparison ends at the first difference. -/
def same : Cell → Cell → Except Failure Bool
  | .bundle _, _ => .error .manyTruths
  | _, .bundle _ => .error .manyTruths
  | .atom a, .atom b => a.same b
  | .list xs, .list ys => if xs.length = ys.length then sameItems xs ys else .ok false
  | .record fs, .record gs => if fs.length = gs.length then sameFields fs gs else .ok false
  | _, _ => .ok false

def sameItems : List Cell → List Cell → Except Failure Bool
  | x :: xs, y :: ys => do
    if ← same x y then sameItems xs ys else .ok false
  | _, _ => .ok true

def sameFields : List (Atom × Cell) → Record → Except Failure Bool
  | [], _ => .ok true
  | (k, c) :: fs, gs =>
    match gs.find? fun g => g.1.isOneWith k with
    | none => .ok false
    | some g => do
      if ← same c g.2 then sameFields fs gs else .ok false

end

end Cell

end PlainSheets
