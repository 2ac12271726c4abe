import PlainSheets.Binary64.Text
import PlainSheets.Cell.Basic
import PlainSheets.Moment.Iso
import PlainSheets.Moment.Shown
import PlainSheets.Text.Integer
import PlainSheets.Text.Quoted

/-!
The texts of a cell: how it is shown alone, how it is shown inside a list or a map, and how it is
compared and printed in tables.
-/
namespace PlainSheets

namespace WordType

def name (t : WordType) : String := (if t.signed then "int" else "uint") ++ toString t.bits

end WordType

def flagText (b : Bool) : String := if b then "True" else "False"

namespace RealType

def format : RealType → BinaryFormat
  | half => .half
  | single => .single
  | double => .double

def name : RealType → String
  | half => "float16"
  | single => "float32"
  | double => "float64"

end RealType

namespace Sized

def display : Sized → String
  | integer _ n => Text.integer n
  | real t x => x.textIn t.format
  | flag b => flagText b
  | text s => s

/-- The form inside a list or a map, which tells the storage. -/
def inspect : Sized → String
  | integer t n => "np." ++ t.name ++ "(" ++ Text.integer n ++ ")"
  | real t x => "np." ++ t.name ++ "(" ++ x.textIn t.format ++ ")"
  | flag b => "np." ++ flagText b ++ "_"
  | text s => "np.str_(" ++ Text.quoted s ++ ")"

end Sized

namespace Atom

def inspect : Atom → String
  | null => "None"
  | flag b => flagText b
  | integer n => Text.integer n
  | real x => x.toText
  | text s => Text.quoted s
  | moment m => m.inspect
  | date d => d.inspect
  | noMoment => "NaT"
  | clock c => c.inspect
  | decimal a => "Decimal('" ++ a.toText ++ "')"
  | bytes bs => Text.quotedBytes bs
  | sized s => s.inspect
  | bundle b => b.inspected

def display : Atom → String
  | text s => s
  | moment m => String.ofList (m.isoWith ' ')
  | date d => String.ofList d.iso
  | clock c => String.ofList c.iso
  | decimal a => a.toText
  | sized s => s.display
  | bundle b => b.shown
  | a => a.inspect

theorem display_of_text {a : Atom} {s : String} (h : a.text? = some s) : a.display = s := by
  cases a with
  | text t => exact Option.some.inj h
  | sized v =>
    cases v with
    | text t => exact Option.some.inj h
    | _ => cases h
  | _ => cases h

end Atom

namespace Cell

def bracketed (items : List String) : String := "[" ++ ", ".intercalate items ++ "]"

def braced (entries : List String) : String := "\x7b" ++ ", ".intercalate entries ++ "\x7d"

mutual

def inspect : Cell → String
  | atom a => a.inspect
  | list items => bracketed (inspectItems items)
  | record fs => braced (inspectFields fs)

def inspectItems : List Cell → List String
  | [] => []
  | c :: cs => inspect c :: inspectItems cs

def inspectFields : List (Atom × Cell) → List String
  | [] => []
  | (k, c) :: fs => (k.inspect ++ ": " ++ inspect c) :: inspectFields fs

end

def display : Cell → String
  | atom a => a.display
  | c => c.inspect

end Cell

/-- Whole numbers are written without a point, however they are stored. -/
def Numeral.text : Numeral → String
  | integer n => Text.integer n
  | real x _ =>
    match x.toInt? with
    | some n => Text.integer n
    | none => x.toText

namespace Cell

def asText (c : Cell) : String :=
  if c.isMissing then ""
  else
    match c.flag?, c.numeral?, c with
    | some b, _, _ => if b then "true" else "false"
    | _, some n, _ => n.text
    | _, _, moment m => m.iso
    | _, _, c => c.display

end Cell

end PlainSheets
