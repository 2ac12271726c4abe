import PlainSheets.Text.Blank
import PlainSheets.Text.Cluster

/-!
Text broken into lines of a given width. Lines are broken between words; a word that is wider than a
line is folded or cut.
-/
namespace PlainSheets.Console

inductive Overflow where
  | fold
  | ellipsis
  deriving DecidableEq

inductive Justify where
  /-- Lines end where their text does. -/
  | ragged
  | left
  | center
  deriving DecidableEq

structure Flow where
  overflow : Overflow
  justify : Justify

def isControl (c : Char) : Bool :=
  c.toNat = 7 || c.toNat = 8 || c.toNat = 11 || c.toNat = 12 || c.toNat = 13

def withoutControls (cs : List Char) : List Char := cs.filter fun c => !isControl c

def splitWhere (test : Char → Bool) : List Char → List (List Char)
  | [] => [[]]
  | c :: cs =>
    if test c then [] :: splitWhere test cs
    else
      match splitWhere test cs with
      | [] => [[c]]
      | part :: parts => (c :: part) :: parts

def lines (cs : List Char) : List (List Char) := splitWhere (· = '\n') cs

def isLineBreak (c : Char) : Bool :=
  let n := c.toNat
  (10 ≤ n && n ≤ 13) || (28 ≤ n && n ≤ 30) || n = 0x85 || n = 0x2028 || n = 0x2029

def widest (cs : List Char) : Nat := ((splitWhere isLineBreak cs).map Text.width).foldl max 0

def tabSize : Nat := 8

/-- A line from the parts between its tabs. Each tab moves to the next place; it is at least one blank. -/
def joinAtTabs (column : Nat) : List (List Char) → List Char
  | [] => []
  | [part] => part
  | part :: parts =>
    let column := column + Text.width part
    let n := tabSize - column % tabSize
    part ++ List.replicate n ' ' ++ joinAtTabs (column + n) parts

def expandTabs (cs : List Char) : List Char := joinAtTabs 0 (splitWhere (· = '\t') cs)

/-- The blanks at the start of a text, and its words, each with the blanks behind it. -/
def scanWords : List Char → List Char × List (List Char)
  | [] => ([], [])
  | c :: cs =>
    let (blanks, words) := scanWords cs
    if Text.isBlank c then (c :: blanks, words)
    else
      match blanks, words with
      | [], word :: words => ([], (c :: word) :: words)
      | blanks, words => ([], (c :: blanks) :: words)

/-- The words of a line. The first one has the blanks before it too. -/
def words (cs : List Char) : List (List Char) :=
  match scanWords cs with
  | (_, []) => []
  | (blanks, word :: words) => (blanks ++ word) :: words

def chopFrom (width used : Nat) (piece : List Char) : List Text.Cluster → List (List Char)
  | [] => if used = 0 then [] else [piece]
  | k :: ks =>
    if width < used + k.width then piece :: chopFrom width k.width k.chars ks
    else chopFrom width (used + k.width) (piece ++ k.chars) ks

def chop (width : Nat) (cs : List Char) : List (List Char) := chopFrom width 0 [] (Text.clusters cs)

/-- Lines under way: those that are full, the last one in front, and the current one with the place that
it takes. -/
structure Filling where
  done : List (List Char)
  line : List Char
  used : Nat

namespace Filling

def isStart (f : Filling) : Bool := f.done.isEmpty && f.line.isEmpty

def breakWith (f : Filling) (cs : List Char) : Filling :=
  if f.isStart then ⟨[], cs, Text.width cs⟩ else ⟨f.line :: f.done, cs, Text.width cs⟩

def add (width : Nat) (overflow : Overflow) (f : Filling) (word : List Char) : Filling :=
  let size := Text.width (Text.trimEnd word)
  if f.used + size ≤ width then ⟨f.done, f.line ++ word, f.used + Text.width word⟩
  else if width < size then
    match overflow with
    | .fold => (chop width word).foldl breakWith f
    | .ellipsis => f.breakWith word
  else f.breakWith word

def finish (f : Filling) : List (List Char) := (f.line :: f.done).reverse

end Filling

def breakLine (width : Nat) (overflow : Overflow) (cs : List Char) : List (List Char) :=
  match words cs with
  | [] => [cs]
  | ws => (ws.foldl (Filling.add width overflow) ⟨[], [], 0⟩).finish

/-- As many clusters as fit into a width. Half of a wide one is a blank. -/
def fitClusters (width : Nat) : List Text.Cluster → List Char
  | [] => []
  | k :: ks =>
    if k.width ≤ width then k.chars ++ fitClusters (width - k.width) ks
    else List.replicate width ' '

def fit (width : Nat) (cs : List Char) : List Char := fitClusters width (Text.clusters cs)

def pad (width : Nat) (cs : List Char) : List Char :=
  cs ++ List.replicate (width - Text.width cs) ' '

def truncate (width : Nat) (overflow : Overflow) (cs : List Char) : List Char :=
  if Text.width cs ≤ width then cs
  else
    match overflow with
    | .fold => fit width cs
    | .ellipsis => fit (width - 1) cs ++ ['…']

/-- Without blanks at the end, as far as there are more characters than places. -/
def dropExcess (width : Nat) (cs : List Char) : List Char :=
  let blanks := (cs.reverse.takeWhile Text.isBlank).length
  cs.take (cs.length - min blanks (cs.length - width))

def justifyLine (width : Nat) (flow : Flow) (cs : List Char) : List Char :=
  match flow.justify with
  | .ragged => truncate width flow.overflow cs
  | .left => pad width (truncate width flow.overflow cs)
  | .center =>
    let cs := truncate width flow.overflow (Text.trimEnd cs)
    pad width (List.replicate ((width - Text.width cs) / 2) ' ' ++ cs)

def wrap (width : Nat) (flow : Flow) (cs : List Char) : List (List Char) :=
  (lines cs).flatMap fun line =>
    (breakLine width flow.overflow (expandTabs line)).map fun l =>
      justifyLine width flow (dropExcess width l)

def unlines (ls : List (List Char)) : List Char := ls.flatMap fun l => l ++ ['\n']

def screen : Nat := 200

def plain (cs : List Char) : List Char :=
  unlines (wrap screen ⟨.fold, .ragged⟩ (withoutControls cs))

end PlainSheets.Console
