import PlainSheets.Text.Printable

/-!
Quoted text and bytes, as they appear inside the text of a list or a map. Single quotes are used
unless the content holds some and no double ones.
-/
namespace PlainSheets.Text

def hex (size n : Nat) : List Char :=
  let ds := Nat.toDigits 16 n
  List.replicate (size - ds.length) '0' ++ ds

def quoteFor (cs : List Char) : Char :=
  if cs.contains '\x27' && !cs.contains '"' then '"' else '\x27'

def quotedChar (quote c : Char) : List Char :=
  if c = quote ∨ c = '\\' then ['\\', c]
  else if c = '\n' then ['\\', 'n']
  else if c = '\r' then ['\\', 'r']
  else if c = '\t' then ['\\', 't']
  else if isPrintable c then [c]
  else if c.toNat < 0x100 then '\\' :: 'x' :: hex 2 c.toNat
  else if c.toNat < 0x10000 then '\\' :: 'u' :: hex 4 c.toNat
  else '\\' :: 'U' :: hex 8 c.toNat

def quoted (s : String) : String :=
  let cs := s.toList
  let q := quoteFor cs
  String.ofList (q :: cs.flatMap (quotedChar q) ++ [q])

/-- Bytes read as characters; those outside printable ASCII are written in hexadecimal. -/
def quotedBytes (bytes : List UInt8) : String :=
  let cs := bytes.map fun b => Char.ofNat b.toNat
  let q := quoteFor cs
  let one (c : Char) : List Char :=
    if c.toNat < 0x7F then quotedChar q c else '\\' :: 'x' :: hex 2 c.toNat
  String.ofList ('b' :: q :: cs.flatMap one ++ [q])

end PlainSheets.Text
