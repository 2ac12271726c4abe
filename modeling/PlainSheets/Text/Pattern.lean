import PlainSheets.Text.SameLetter

/-!
Search patterns: letters, `.`, sets such as `[a-c]`, the repetitions `*`, `+` and `?`, which may be
possessive, the ends `^` and `$`, and alternatives. A search ignores case and finds a match anywhere in a
text. Escaping makes a pattern that means a text as it stands.
-/
namespace PlainSheets.Text

inductive Element where
  | char (c : Char)
  /-- Any character but a line break. -/
  | any
  | set (negated : Bool) (ranges : List (Char × Char))
  /-- The start of the text. -/
  | start
  /-- The end of the text, or the line break that ends it. -/
  | finish
  deriving DecidableEq

/-- An element, and whether it may be left out or repeated. -/
structure Piece where
  element : Element
  optional : Bool
  repeated : Bool
  /-- Takes as much as it can and gives nothing back. -/
  possessive : Bool
  deriving DecidableEq

abbrev Pattern := List (List Piece)

namespace Element

def isEnd : Element → Bool
  | start => true
  | finish => true
  | _ => false

def inRange (c : Char) (r : Char × Char) : Bool :=
  (List.range' r.1.toNat (r.2.toNat + 1 - r.1.toNat)).any fun n => sameLetter (Char.ofNat n) c

def accepts : Element → Char → Bool
  | char a, c => sameLetter a c
  | any, c => c != '\n'
  | set negated ranges, c => negated != ranges.any (inRange c)
  | start, _ => false
  | finish, _ => false

end Element

namespace Piece

/-- What a possessive piece leaves of a text, if it takes anything that it has to take. -/
def leave? (p : Piece) (cs : List Char) : Option (List Char) :=
  match cs with
  | [] => if p.optional then some [] else none
  | c :: rest =>
    if p.element.accepts c then some (if p.repeated then rest.dropWhile p.element.accepts else rest)
    else if p.optional then some (c :: rest)
    else none

theorem length_leave?_le {p : Piece} {cs rest : List Char} (h : p.leave? cs = some rest) :
    rest.length ≤ cs.length := by
  unfold leave? at h
  split at h
  · split at h <;> simp_all
  · rename_i c tail
    have := (List.dropWhile_sublist p.element.accepts (l := tail)).length_le
    split at h
    · split at h <;> (cases h; simp only [List.length_cons]; omega)
    · split at h <;> simp_all

end Piece

namespace Pattern

def matchesHere : List Piece → Bool → List Char → Bool
  | [], _, _ => true
  | p :: ps, atStart, cs =>
    if p.possessive then
      match h : p.leave? cs with
      | none => false
      | some rest =>
        have := Piece.length_leave?_le h
        matchesHere ps (atStart && rest.length == cs.length) rest
    else
      (p.optional && matchesHere ps atStart cs) ||
        if p.element = .start then atStart && matchesHere ps atStart cs
        else if p.element = .finish then (cs == [] || cs == ['\n']) && matchesHere ps atStart cs
        else
          match cs with
          | [] => false
          | c :: rest =>
            p.element.accepts c &&
              (matchesHere ps false rest ||
                (p.repeated && matchesHere (⟨p.element, true, true, false⟩ :: ps) false rest))
termination_by ps _ cs => ps.length + cs.length
decreasing_by all_goals simp only [List.length_cons]; omega

def matchesFrom (p : Pattern) (atStart : Bool) (cs : List Char) : Bool :=
  p.any fun ps => matchesHere ps atStart cs

def searchFrom (p : Pattern) (atStart : Bool) : List Char → Bool
  | [] => matchesFrom p atStart []
  | c :: cs => matchesFrom p atStart (c :: cs) || searchFrom p false cs

def search (p : Pattern) (s : String) : Bool := searchFrom p true s.toList

/-! Reading. -/

def isAsciiAlphanumeric (c : Char) : Bool :=
  ('0' ≤ c && c ≤ '9') || ('A' ≤ c && c ≤ 'Z') || ('a' ≤ c && c ≤ 'z')

/-- The character that an escape stands for. Escaped letters and digits have no meaning here. -/
def readEscape : List Char → Option (Char × List Char)
  | [] => none
  | c :: rest => if isAsciiAlphanumeric c then none else some (c, rest)

def readMember : List Char → Option (Char × List Char)
  | [] => none
  | '\\' :: rest => readEscape rest
  | c :: rest => some (c, rest)

def readSet : Nat → List Char → Option (List (Char × Char) × List Char)
  | 0, _ => none
  | fuel + 1, cs => do
    let (low, rest) ← readMember cs
    let (high, rest) ← match rest with
      | '-' :: ']' :: rest => some (low, '-' :: ']' :: rest)
      | '-' :: rest => readMember rest
      | _ => some (low, rest)
    if high < low then none
    else
      match rest with
      | ']' :: rest => some ([(low, high)], rest)
      | _ => (readSet fuel rest).map fun (ranges, left) => ((low, high) :: ranges, left)

def readElement : List Char → Option (Element × List Char)
  | [] => none
  | '^' :: rest => some (.start, rest)
  | '$' :: rest => some (.finish, rest)
  | '.' :: rest => some (.any, rest)
  | '\\' :: rest => (readEscape rest).map fun (c, left) => (.char c, left)
  | '[' :: '^' :: rest =>
    (readSet rest.length rest).map fun (ranges, left) => (.set true ranges, left)
  | '[' :: rest => (readSet rest.length rest).map fun (ranges, left) => (.set false ranges, left)
  | c :: rest =>
    if c = '(' ∨ c = ')' ∨ c = '*' ∨ c = '+' ∨ c = '?' then none else some (.char c, rest)

private def startsRepetition : List Char → Bool
  | [] => false
  | c :: _ => c = '*' || c = '+' || c = '?'

/-- The repetition of an element. A question mark behind it changes no search, and a plus makes it
possessive. -/
def readRepetition (element : Element) (cs : List Char) : Option (Piece × List Char) :=
  let closed (optional repeated : Bool) (rest : List Char) : Option (Piece × List Char) :=
    let p : Piece := ⟨element, optional, repeated, false⟩
    let (p, rest) := match rest with
      | '?' :: rest => (p, rest)
      | '+' :: rest => ({ p with possessive := true }, rest)
      | _ => (p, rest)
    if element.isEnd || startsRepetition rest then none else some (p, rest)
  match cs with
  | '*' :: rest => closed true true rest
  | '+' :: rest => closed false true rest
  | '?' :: rest => closed true false rest
  | _ => some (⟨element, false, false, false⟩, cs)

def cons (p : Piece) : Pattern → Pattern
  | [] => [[p]]
  | ps :: rest => (p :: ps) :: rest

def readFrom : Nat → List Char → Option Pattern
  | _, [] => some [[]]
  | 0, _ :: _ => none
  | fuel + 1, '|' :: rest => (readFrom fuel rest).map ([] :: ·)
  | fuel + 1, c :: cs => do
    let (element, rest) ← readElement (c :: cs)
    let (piece, rest) ← readRepetition element rest
    let p ← readFrom fuel rest
    some (cons piece p)

def read? (s : String) : Option Pattern := readFrom s.length s.toList

def specials : List Char := "()[]\x7b\x7d?*+-|^$\\.&~# \t\n\r\x0b\x0c".toList

def escape (s : String) : String :=
  String.ofList (s.toList.flatMap fun c => if c ∈ specials then ['\\', c] else [c])

end Pattern

end PlainSheets.Text
