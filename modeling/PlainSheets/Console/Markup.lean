import PlainSheets.Console.Handler
import PlainSheets.Console.SignCode
import PlainSheets.Console.Style
import PlainSheets.Console.Wrap

/-!
Markup in text for a terminal. A tag is a bracketed word that starts with a small letter or one of `#`,
`/` and `@`; it takes no place. A backslash before a tag makes it stand as it is written.
-/
namespace PlainSheets.Markup

def brackets : List Char → List Char × List (List Char)
  | [] => ([], [])
  | c :: cs =>
    let (head, parts) := brackets cs
    if c = '[' then ([], head :: parts) else (c :: head, parts)

def opensTag (c : Char) : Bool := ('a' ≤ c && c ≤ 'z') || c = '#' || c = '/' || c = '@'

def tag? (part : List Char) : Option (List Char × List Char) :=
  if (part.head?.map opensTag).getD false then
    match part.dropWhile (· ≠ ']') with
    | [] => none
    | _ :: rest => some (part.takeWhile (· ≠ ']'), rest)
  else none

def slashes (cs : List Char) : List Char := cs.reverse.takeWhile (· = '\\')

def escapeParts (before : List Char) : List (List Char) → List Char
  | [] => before
  | part :: parts =>
    match tag? part with
    | some (body, rest) =>
      before ++ slashes before ++ '\\' :: '[' :: body ++ ']' :: escapeParts rest parts
    | none => before ++ '[' :: escapeParts part parts

/-- A text in which every tag stands as it is written. A single backslash at the end is doubled, so that
it does not reach into what follows. -/
def escape (cs : List Char) : List Char :=
  let (head, parts) := brackets cs
  let out := escapeParts head parts
  if (slashes out).length = 1 then out ++ ['\\'] else out

def divideTag (body : List Char) : List Char × List Char :=
  (body.takeWhile (· ≠ '='), (body.dropWhile (· ≠ '=')).drop 1)

structure OpenTag where
  style : String
  parameters : List Char

/-- Whether a tag can be closed. A tag that starts with an at sign names a handler. -/
def OpenTag.isSound (t : OpenTag) : Bool :=
  !t.style.startsWith "@" || t.parameters.isEmpty || Console.isHandler t.parameters

/-- The open tags after one more tag, the last one in front. Tags of the same style close each other. -/
def turn (opened : List OpenTag) (body : List Char) : Except Failure (List OpenTag) := do
  let refused := Except.error (.badMarkup (String.ofList body))
  let (name, parameters) := divideTag body
  match name with
  | '/' :: name =>
    let style ← if Text.isAllBlank name then .ok none else (Console.Style.canonical name).map some
    match opened.find? fun t => style.all (· = t.style) with
    | none => refused
    | some tag =>
      if tag.isSound then .ok (opened.eraseP fun t => style.all (· = t.style)) else refused
  | name =>
    let style ← Console.Style.canonical name
    .ok (⟨style, parameters⟩ :: opened)

inductive Piece where
  | text (cs : List Char)
  | tag (body : List Char)

/-- The pieces of a text behind one that is under way. Of the backslashes before a tag each pair stands
for one, and one that is left makes the tag text. -/
def piecesFrom (before : List Char) : List (List Char) → List Piece
  | [] => [.text before]
  | part :: parts =>
    match tag? part with
    | some (body, rest) =>
      let n := (slashes before).length
      .text (before.take (before.length - n)) :: .text (List.replicate (n / 2) '\\') ::
        (if n % 2 = 1 then .text ('[' :: body ++ [']']) else .tag body) :: piecesFrom rest parts
    | none => piecesFrom (before ++ '[' :: part) parts

def pieces (cs : List Char) : List Piece :=
  let (head, parts) := brackets cs
  piecesFrom head parts

def unslashed : List Char → List Char
  | '\\' :: '[' :: cs => '[' :: unslashed cs
  | c :: cs => c :: unslashed cs
  | [] => []

def renderPieces (signs : Console.SignNames) : List OpenTag → List Piece → Except Failure (List Char)
  | _, [] => .ok []
  | opened, .text cs :: rest => do
    let out ← renderPieces signs opened rest
    .ok (Console.showSigns signs (unslashed cs) ++ out)
  | opened, .tag body :: rest => do
    let opened ← turn opened body
    renderPieces signs opened rest

def render (signs : Console.SignNames) (cs : List Char) : Except Failure (List Char) :=
  (renderPieces signs [] (pieces cs)).map Console.withoutControls

end PlainSheets.Markup
