import PlainSheets.Console.Panel
import PlainSheets.Console.Table
import PlainSheets.Json.Basic

/-!
What a program prints, on a terminal with its own names of signs, and what it comes to. After a failure
nothing more is printed.
-/
namespace PlainSheets.Console

structure Printout (α : Type) where
  output : List Char
  result : Except Failure α

instance : Monad Printout where
  pure a := ⟨[], .ok a⟩
  bind p f :=
    match p.result with
    | .error e => ⟨p.output, .error e⟩
    | .ok a =>
      let q := f a
      ⟨p.output ++ q.output, q.result⟩

abbrev Printed := ReaderT SignNames Printout

namespace Printed

def print (cs : List Char) : Printed Unit := fun _ => ⟨cs, .ok ()⟩

def ofResult {α : Type} (r : Except Failure α) : Printed α := fun _ => ⟨[], r⟩

def line (s : String) : Printed Unit := do
  let signs ← read
  print (plain (showSigns signs s.toList))

def box (title text : String) : Printed Unit := do
  let cs ← ofResult (panel (← read) title.toList text.toList)
  print cs

def table (t : Table) : Printed Unit := do
  let cs ← ofResult (t.print (← read))
  print cs

def json (j : Json) : Printed Unit := print ((j.toText ⟨some 2, false⟩).toList ++ ['\n'])

end Printed

end PlainSheets.Console
