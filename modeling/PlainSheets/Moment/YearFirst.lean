import PlainSheets.Moment.Written

/-!
Moments written from the year down to fractions of a second. The parts of the date are set apart by one
of five separators or by none, those of the time by colons or by nothing; each part may end the text.
Parts that are set apart may have one digit.
-/
namespace PlainSheets.YearFirst

private def digit? (c : Char) : Option Nat :=
  if '0' ≤ c ∧ c ≤ '9' then some (c.toNat - 48) else none

private def isDigit (c : Char) : Bool := (digit? c).isSome

private def isSpace (c : Char) : Bool := c = ' ' || ('\t' ≤ c && c ≤ '\r')

private def skipSpaces (cs : List Char) : List Char := cs.dropWhile isSpace

private def value (ds : List Char) : Nat := ds.foldl (fun n c => 10 * n + (digit? c).getD 0) 0

private def startsWithDigit : List Char → Bool
  | [] => false
  | c :: _ => isDigit c

def part (oneDigit : Bool) : List Char → Option (Nat × List Char)
  | a :: b :: rest =>
    match digit? a, digit? b with
    | some a, some b => some (10 * a + b, rest)
    | some a, none => if oneDigit then some (a, b :: rest) else none
    | none, _ => none
  | [a] => if oneDigit then (digit? a).map (·, []) else none
  | [] => none

private def year (cs : List Char) : Nat × List Char :=
  if 4 ≤ cs.length ∧ (cs.take 4).all isDigit then (value (cs.take 4), cs.drop 4) else (0, cs)

def separators : List Char := ['-', '.', '/', '\\', ' ']

/-- Month and day; each may end the text, but not behind a separator, and a month without one may
not. -/
def monthAndDay (year : Nat) (cs : List Char) : Option (Nat × Nat × List Char) := do
  let (apart, cs) ← match cs with
    | [] => some (none, [])
    | c :: rest =>
      if isDigit c then some (none, c :: rest)
      else if separators.contains c && startsWithDigit rest then some (some c, rest)
      else none
  if cs.isEmpty then some (1, 1, [])
  else
    let (month, cs) ← part apart.isSome cs
    if month < 1 ∨ 12 < month then none
    else
      match apart, cs with
      | none, [] => none
      | some _, [] => some (month, 1, [])
      | _, c :: rest =>
        let cs ← match apart with
          | none => some (c :: rest)
          | some s => if c = s then some rest else none
        let (day, cs) ← part apart.isSome cs
        if day < 1 ∨ daysInMonth year month < day then none else some (month, day, cs)

structure TimeParts where
  hour : Nat
  minute : Nat
  second : Nat
  fraction : List Char

private def inHour (n : Nat) : Option Nat := if n < 60 then some n else none

private def fraction : List Char → List Char × List Char
  | '.' :: rest =>
    let ds := (rest.take 18).takeWhile isDigit
    (ds, rest.drop ds.length)
  | cs => ([], cs)

def time (cs : List Char) : Option (TimeParts × List Char) := do
  let (hour, rest) ← part true cs
  let twoDigits := rest.length + 2 = cs.length
  if 24 ≤ hour then none
  else
    let follows : Option (Bool × List Char) := match rest with
      | ':' :: rest => if startsWithDigit rest then some (true, rest) else none
      | rest => if startsWithDigit rest then some (false, rest) else none
    match rest, follows with
    | ':' :: _, none => none
    | _, none => if twoDigits then some (⟨hour, 0, 0, []⟩, rest) else none
    | _, some (apart, cs) =>
      let (minute, rest) ← part apart cs
      let minute ← inHour minute
      let seconds? : Option (List Char) := match rest with
        | ':' :: rest' => if apart then some rest' else none
        | rest => if !apart && startsWithDigit rest then some rest else none
      match seconds? with
      | none => some (⟨hour, minute, 0, []⟩, rest)
      | some cs =>
        let (second, rest) ← part apart cs
        let second ← inHour second
        let (ds, rest) := fraction rest
        some (⟨hour, minute, second, ds⟩, rest)

def offset (cs : List Char) : Option (Option Int × List Char) :=
  match cs with
  | 'Z' :: rest => some (some 0, rest)
  | '+' :: rest => signed 1 rest
  | '-' :: rest => signed (-1) rest
  | cs => some (none, cs)
where
  signed (sign : Int) (cs : List Char) : Option (Option Int × List Char) := do
    let (hours, cs) ← part true cs
    if 24 ≤ hours then none
    else
      match cs with
      | [] => some (some (sign * (hours * 3600)), [])
      | c :: rest =>
        let (minutes, rest) ← part true (if c = ':' then rest else c :: rest)
        let minutes ← inHour minutes
        some (some (sign * (hours * 3600 + minutes * 60)), rest)

def nanoRange : Int × Int :=
  let epoch := Moment.epoch.instant * 1000
  (epoch - 9223372036854775807, epoch + 9223372036854775807)

/-- More than six digits of a fraction are counted in nanoseconds, for which the time line is short. -/
private def fits (w : Written) (fraction : List Char) : Bool :=
  if fraction.length ≤ 6 then true
  else
    let nanos := (fraction ++ List.replicate 3 '0').take 9 |>.drop 6
    let n := ({ w with offset := none } : Written).instant * 1000 + value nanos
    nanoRange.1 ≤ n && n ≤ nanoRange.2

/-- Whether a text has this form, and the moment if the time line that it is counted on has it. A minus
sign in front makes a year before the calendar. -/
def read (text : List Char) : Option (Option Written) := do
  let cs := skipSpaces text
  let cs := match cs with
    | '-' :: rest => rest
    | cs => cs
  if cs.isEmpty then none
  else
    let (y, cs) := year cs
    let (month, day, cs) ← monthAndDay y cs
    let (t, o) ← match cs with
      | [] => some (⟨0, 0, 0, []⟩, none)
      | c :: rest =>
        if c = 'T' ∨ c = ' ' then do
          let (t, rest) ← time rest
          let (o, rest) ← offset (skipSpaces rest)
          if (skipSpaces rest).isEmpty then some (t, o) else none
        else none
    let micros := value ((t.fraction ++ List.replicate 6 '0').take 6)
    let clock ← Clock.of? t.hour t.minute t.second micros
    let w : Written := ⟨if text.head? = some '-' then -(y : Int) else y, month, day, clock, o⟩
    some (if fits w t.fraction then some w else none)

end PlainSheets.YearFirst
