/-!
Sets of characters and maps on characters, written as sorted ranges of code points. A lookup stops
at the first range that starts beyond its character.
-/
namespace PlainSheets.Text

/-- Inclusive ranges of code points, in increasing order and apart from each other. -/
abbrev CharSet := List (Nat × Nat)

namespace CharSet

def hasCode : CharSet → Nat → Bool
  | [], _ => false
  | (first, last) :: rest, c =>
    if c < first then false else if c ≤ last then true else hasCode rest c

def has (s : CharSet) (c : Char) : Bool := hasCode s c.toNat

end CharSet

/-- Rows `(first, last, step, image)`: the points `first, first + step, …, last` go to
`image, image + step, …`. -/
abbrev CharMap := List (Nat × Nat × Nat × Nat)

namespace CharMap

def imageCode : CharMap → Nat → Nat
  | [], c => c
  | (first, last, step, image) :: rest, c =>
    if c < first then c
    else if c ≤ last && (c - first) % step == 0 then image + (c - first)
    else if c ≤ last then c
    else imageCode rest c

def image (m : CharMap) (c : Char) : Char := Char.ofNat (imageCode m c.toNat)

end CharMap

end PlainSheets.Text
