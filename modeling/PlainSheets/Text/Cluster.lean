import PlainSheets.Text.Width

/-!
Text in clusters: a character with the marks, selectors and joined characters behind it. Lines are never
broken within a cluster.
-/
namespace PlainSheets.Text

structure Cluster where
  chars : List Char
  width : Nat

/-- Clusters under way, the last one in front, with the last character that takes columns and has no
selector yet, and whether the next character is joined. -/
structure Clustering where
  done : List Cluster
  last : Option Char
  joins : Bool

namespace Clustering

def attach (s : Clustering) (c : Char) (more : Nat) : Clustering :=
  match s.done with
  | [] => { s with done := [⟨[c], 0⟩] }
  | k :: ks => { s with done := ⟨k.chars ++ [c], k.width + more⟩ :: ks }

def add (s : Clustering) (c : Char) : Clustering :=
  if s.joins then { s.attach c 0 with joins := false }
  else if c = joiner then { s.attach c 0 with joins := !s.done.isEmpty }
  else if c = wideSelector then
    match s.last.map widening with
    | some 1 => { s.attach c 1 with last := none }
    | _ => s.attach c 0
  else
    match charWidth c with
    | 0 => s.attach c 0
    | n => ⟨⟨[c], n⟩ :: s.done, some c, false⟩

end Clustering

def clusters (cs : List Char) : List Cluster :=
  (cs.foldl Clustering.add ⟨[], none, false⟩).done.reverse

end PlainSheets.Text
