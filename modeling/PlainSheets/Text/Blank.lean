import PlainSheets.Text.CharSet

/-!
Blank characters and trimming.
-/
namespace PlainSheets.Text

private def blankRanges : CharSet :=
  [(9, 13), (28, 32), (133, 133), (160, 160), (5760, 5760), (8192, 8202), (8232, 8233), (8239, 8239),
   (8287, 8287), (12288, 12288)]

def isBlank (c : Char) : Bool := blankRanges.has c

def trimStart (cs : List Char) : List Char := cs.dropWhile isBlank

def trimEnd (cs : List Char) : List Char := (cs.reverse.dropWhile isBlank).reverse

def trim (cs : List Char) : List Char := trimEnd (trimStart cs)

def isAllBlank (cs : List Char) : Bool := cs.all isBlank

def blankSeparated (cs : List Char) : List (List Char) :=
  let close (done : List (List Char)) (part : List Char) :=
    if part.isEmpty then done else part.reverse :: done
  let (done, part) := cs.foldl (fun (done, part) c =>
    if isBlank c then (close done part, []) else (done, c :: part)) ([], [])
  (close done part).reverse

end PlainSheets.Text
