import PlainSheets.Amount
import PlainSheets.Binary64.Arithmetic
import PlainSheets.Moment.Basic

/-!
What a cell can hold, and the kinds that all of it falls into. Whatever is neither missing, a flag,
a number nor a date counts as text.
-/
namespace PlainSheets

structure WordType where
  signed : Bool
  bits : Nat
  deriving DecidableEq

inductive RealType where
  | half
  | single
  | double
  deriving DecidableEq

inductive Sized where
  | integer (type : WordType) (n : Int)
  /-- A number of any precision, held as the double precision number that it equals. -/
  | real (type : RealType) (x : Binary64)
  | flag (b : Bool)
  | text (s : String)
  deriving DecidableEq

/-- Several values in one cell, as a library for typed columns holds them. How they are shown together is
the library's affair. -/
structure Bundle where
  first : Sized
  second : Sized
  rest : List Sized
  shown : String
  inspected : String
  deriving DecidableEq

inductive Atom where
  | null
  | flag (b : Bool)
  | integer (n : Int)
  | real (x : Binary64)
  | text (s : String)
  | moment (m : Moment)
  | date (d : Date)
  /-- The date that stands for no date. -/
  | noMoment
  | clock (c : Clock)
  | decimal (a : Amount)
  | bytes (bs : List UInt8)
  | sized (s : Sized)
  | bundle (b : Bundle)
  deriving DecidableEq

/-- What a row holds under a name. The names of the fields of a map are values too, mostly texts. -/
inductive Cell where
  | atom (a : Atom)
  | list (items : List Cell)
  | record (fields : List (Atom × Cell))

namespace Cell

@[match_pattern] abbrev null : Cell := atom .null
@[match_pattern] abbrev flag (b : Bool) : Cell := atom (.flag b)
@[match_pattern] abbrev integer (n : Int) : Cell := atom (.integer n)
@[match_pattern] abbrev real (x : Binary64) : Cell := atom (.real x)
@[match_pattern] abbrev text (s : String) : Cell := atom (.text s)
@[match_pattern] abbrev moment (m : Moment) : Cell := atom (.moment m)
@[match_pattern] abbrev date (d : Date) : Cell := atom (.date d)
@[match_pattern] abbrev noMoment : Cell := atom .noMoment
@[match_pattern] abbrev clock (c : Clock) : Cell := atom (.clock c)
@[match_pattern] abbrev decimal (a : Amount) : Cell := atom (.decimal a)
@[match_pattern] abbrev bytes (bs : List UInt8) : Cell := atom (.bytes bs)
@[match_pattern] abbrev sized (s : Sized) : Cell := atom (.sized s)
@[match_pattern] abbrev bundle (b : Bundle) : Cell := atom (.bundle b)

end Cell

instance : Inhabited Cell := ⟨.null⟩

inductive Kind where
  | text
  | number
  | date
  | flag
  deriving DecidableEq

namespace Kind

def name : Kind → String
  | text => "string"
  | number => "number"
  | date => "date"
  | flag => "boolean"

def all : List Kind := [text, number, date, flag]

/-- Whatever names no type is text. -/
def ofName (s : String) : Kind := (all.find? fun k => k.name = s).getD text

end Kind

inductive Numeral where
  | integer (n : Int)
  | real (x : Binary64) (ordered : x.isNaN = false)
  deriving DecidableEq

namespace Numeral

def ofReal? (x : Binary64) : Option Numeral :=
  if h : x.isNaN = false then some (.real x h) else none

def toReal? : Numeral → Option Binary64
  | integer n => Binary64.ofInt? n
  | real x _ => some x

end Numeral

namespace Atom

def numeral? : Atom → Option Numeral
  | integer n => some (.integer n)
  | real x => Numeral.ofReal? x
  | sized (.integer _ n) => some (.integer n)
  | sized (.real _ x) => Numeral.ofReal? x
  | _ => none

def flag? : Atom → Option Bool
  | flag b => some b
  | sized (.flag b) => some b
  | _ => none

/-- The moment that a value is. A date stands for its midnight. -/
def moment? : Atom → Option Moment
  | moment m => some m
  | date d => some (Moment.ofDate d)
  | _ => none

def text? : Atom → Option String
  | text s => some s
  | sized (.text s) => some s
  | _ => none

/-- Neither what is no number nor what is no date is a value. -/
def isMissing : Atom → Bool
  | null => true
  | noMoment => true
  | real x => x.isNaN
  | sized (.real _ x) => x.isNaN
  | _ => false

end Atom

namespace Cell

def atom? : Cell → Option Atom
  | atom a => some a
  | _ => none

def numeral? (c : Cell) : Option Numeral := c.atom?.bind Atom.numeral?

def flag? (c : Cell) : Option Bool := c.atom?.bind Atom.flag?

def moment? (c : Cell) : Option Moment := c.atom?.bind Atom.moment?

def text? (c : Cell) : Option String := c.atom?.bind Atom.text?

def isMissing (c : Cell) : Bool := (c.atom?.map Atom.isMissing).getD false

def kind? (c : Cell) : Option Kind :=
  if c.isMissing then none
  else if c.flag?.isSome then some .flag
  else if c.numeral?.isSome then some .number
  else if c.moment?.isSome then some .date
  else some .text

def isEmpty (c : Cell) : Bool := c.isMissing || c.text? == some ""

def isBundle : Cell → Bool
  | bundle _ => true
  | _ => false

def number? (c : Cell) : Option Binary64 := c.numeral?.bind Numeral.toReal?

def named (fields : List (String × Cell)) : Cell := record (fields.map fun f => (.text f.1, f.2))

/-- Row data as a map; what is no map has no fields. -/
def fields : Cell → List (Atom × Cell)
  | record fs => fs
  | _ => []

end Cell

end PlainSheets
