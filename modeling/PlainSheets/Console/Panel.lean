import PlainSheets.Console.Markup

/-!
Boxes with round corners around marked-up text, as narrow as the text and the title allow.
-/
namespace PlainSheets.Console

/-- The width inside a box: that of the text with a blank on both sides, or that of the title with two on
both sides, as far as the terminal allows. -/
def panelWidth (title text : List Char) : Nat :=
  let needed := min (widest text + 2) (screen - 2)
  if title.isEmpty then needed else min (screen - 2) (max needed (Text.width title + 4))

def panelTop (width : Nat) (title : List Char) : List Char :=
  if title.isEmpty then '╭' :: List.replicate width '─' ++ ['╮']
  else
    let label := truncate (width - 2) .fold (' ' :: title ++ [' '])
    let excess := width - 2 - Text.width label
    let before := List.replicate (excess / 2) '─'
    let after := List.replicate (excess - excess / 2) '─'
    '╭' :: '─' :: before ++ label ++ after ++ ['─', '╮']

def panelBottom (width : Nat) : List Char := '╰' :: List.replicate width '─' ++ ['╯']

def panel (signs : SignNames) (title text : List Char) : Except Failure (List Char) := do
  let text ← Markup.render signs text
  let width := panelWidth title text
  let body := (wrap (width - 2) ⟨.fold, .ragged⟩ text).map fun l =>
    '│' :: ' ' :: pad (width - 2) l ++ [' ', '│']
  .ok (unlines (panelTop width title :: body ++ [panelBottom width]))

end PlainSheets.Console
