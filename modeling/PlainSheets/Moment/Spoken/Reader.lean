import PlainSheets.Moment.Spoken.DateParts
import PlainSheets.Moment.Spoken.Token
import PlainSheets.Moment.Spoken.Vocabulary
import PlainSheets.Moment.Written

/-!
Reading a date and a time of day in words, token by token. Every token has to make sense where it
stands; a number gets its sense from its length and from the tokens around it.
-/
namespace PlainSheets.Spoken

structure Heard where
  parts : DateParts
  weekday : Option Nat
  hour : Option Nat
  minute : Option Nat
  second : Option Nat
  micro : Option Nat
  zone : Option String
  /-- Seconds ahead of UTC. -/
  offset : Option Int
  /-- Whether the sign that comes next means its contrary, as behind the name of a zone. -/
  contrary : Bool

namespace Heard

def nothing : Heard := ⟨.empty, none, none, none, none, none, none, none, false⟩

end Heard

structure Number where
  whole : Nat
  fraction : List Nat

namespace Number

private def digits? (cs : List Char) : Option (List Nat) := cs.mapM Text.digit?

def ofToken? (token : String) : Option Number :=
  let cs := token.toList
  let whole := cs.takeWhile (· ≠ '.')
  match cs.drop whole.length with
  | [] => if whole.isEmpty then none else (digits? whole).map fun _ => ⟨Text.digitsValue whole, []⟩
  | _ :: rest =>
    if whole.isEmpty || rest.isEmpty then none
    else do
      let _ ← digits? whole
      let fraction ← digits? rest
      some ⟨Text.digitsValue whole, fraction⟩

def sixtieths (n : Number) : Nat :=
  60 * n.fraction.foldl (fun v d => 10 * v + d) 0 / Nat.pow 10 n.fraction.length

def hasFraction (n : Number) : Bool := n.fraction.any (· != 0)

end Number

def whole? (cs : List Char) : Option Nat :=
  if !cs.isEmpty && cs.all Text.isDigit then some (Text.digitsValue cs) else none

def seconds? (cs : List Char) : Option (Nat × Nat) :=
  let whole := cs.takeWhile (· ≠ '.')
  match cs.drop whole.length with
  | [] => (whole? whole).map (·, 0)
  | _ :: rest => do
    let s ← whole? whole
    let micros ← whole? ((rest ++ List.replicate (6 - rest.length) '0').take 6)
    some (s, micros)

namespace Heard

def addText? (h : Heard) (token : String) : Option Heard := do
  let n ← whole? token.toList
  let parts ← if 2 < token.length then h.parts.addYear? n else some (h.parts.add n)
  some { h with parts }

def addNumber? (h : Heard) (n : Number) : Option Heard := do
  let large := 100 < n.whole || (n.whole = 100 && n.hasFraction)
  let parts ← if large then h.parts.addYear? n.whole else some (h.parts.add n.whole)
  some { h with parts }

def addMonth? (h : Heard) (month : Nat) : Option Heard :=
  (h.parts.addMonth? month).map fun parts => { h with parts }

def addWord? (h : Heard) (token : String) : Option Heard :=
  match month? token with
  | some m => h.addMonth? m
  | none => h.addText? token

def setHalf (hour : Nat) (afternoon : Bool) : Nat :=
  if hour < 12 && afternoon then hour + 12 else if hour = 12 && !afternoon then 0 else hour

/-- A number of minutes, with a fraction that makes seconds. Without one the seconds are unknown. -/
def setMinutes (h : Heard) (n : Number) : Heard :=
  { h with minute := some n.whole, second := if n.hasFraction then some n.sixtieths else none }

def setUnit? (h : Heard) (token : String) (n : Number) : Option ClockUnit → Option Heard
  | none => some h
  | some .hours =>
    some { h with
      hour := some n.whole
      minute := if n.hasFraction then some n.sixtieths else h.minute }
  | some .minutes => some (h.setMinutes n)
  | some .seconds =>
    (seconds? token.toList).map fun (s, micros) => { h with second := some s, micro := some micros }

end Heard

/-- The unit that a number counts, and how many tokens it takes behind the number: the unit behind it,
possibly after a blank, or else the one below the unit in front of it. -/
def unitOf? (ts : List String) (i : Nat) : Option (Option ClockUnit × Nat) :=
  let word (k : Nat) : Option ClockUnit := ts[k]?.bind unit?
  match word (i + 1) with
  | some u => some (some u, 1)
  | none =>
    match if ts[i + 1]? = some " " then word (i + 2) else none with
    | some u => some (some u, 2)
    | none =>
      match if 0 < i then word (i - 1) else none with
      | some u => some (u.finer?, 0)
      | none =>
        if 1 < i ∧ i + 1 = ts.length ∧ ts[i - 1]? = some " " then
          (word (i - 2)).map fun u => (u.finer?, 0)
        else none

def hearDigits (h : Heard) (cs : List Char) : Option Heard := do
  let h ← h.addText? (String.ofList (cs.take 4))
  let h ← h.addText? (String.ofList ((cs.drop 4).take 2))
  let h ← h.addText? (String.ofList ((cs.drop 6).take 2))
  if cs.length ≤ 8 then some h
  else
    let hour ← whole? ((cs.drop 8).take 2)
    let minute ← whole? ((cs.drop 10).take 2)
    if cs.length ≤ 12 then some { h with hour := some hour, minute := some minute }
    else
      let second ← whole? (cs.drop 12)
      some { h with hour := some hour, minute := some minute, second := some second }

/-- Six digits: a date with two of them for the year, or a time of day, possibly with a fraction. -/
def hearSix (h : Heard) (cs : List Char) : Option Heard :=
  if h.parts.values.isEmpty && !cs.contains '.' then do
    let h ← h.addText? (String.ofList (cs.take 2))
    let h ← h.addText? (String.ofList ((cs.drop 2).take 2))
    h.addText? (String.ofList (cs.drop 4))
  else do
    let hour ← whole? (cs.take 2)
    let minute ← whole? ((cs.drop 2).take 2)
    let (second, micro) ← seconds? (cs.drop 4)
    some { h with
      hour := some hour, minute := some minute, second := some second, micro := some micro }

def hearClock (ts : List String) (i : Nat) (n : Number) (h : Heard) : Option (Heard × Nat) := do
  let minutes ← ts[i + 2]?.bind Number.ofToken?
  let h := { h with hour := some n.whole }.setMinutes minutes
  match ts[i + 3]?, ts[i + 4]? with
  | some ":", some token =>
    let (s, micros) ← seconds? token.toList
    some ({ h with second := some s, micro := some micros }, 4)
  | _, _ => some (h, 2)

def hearParts (ts : List String) (i : Nat) (sign token : String) (h : Heard) :
    Option (Heard × Nat) := do
  let h ← h.addText? token
  match ts[i + 2]? with
  | none => some (h, 1)
  | some second =>
    if isFiller second then some (h, 1)
    else
      let h ← if second.toList.all Text.isDigit then h.addText? second
        else (month? second).bind h.addMonth?
      if ts[i + 3]? = some sign then
        let h ← ts[i + 4]?.bind h.addWord?
        some (h, 4)
      else some (h, 2)

def hearNumber (ts : List String) (i : Nat) (token : String) (n : Number) (h : Heard) :
    Option (Heard × Nat) :=
  let cs := token.toList
  let next := ts[i + 1]?
  if h.parts.values.length = 3 ∧ (cs.length = 2 ∨ cs.length = 4) ∧ h.hour = none ∧
      next ≠ some ":" ∧ next.bind unit? = none then do
    let hour ← whole? (cs.take 2)
    let minute ← if cs.length = 4 then (whole? (cs.drop 2)).map some else some h.minute
    some ({ h with hour := some hour, minute }, 0)
  else if cs.length = 6 ∨ (6 < cs.length ∧ cs.findIdx? (· = '.') = some 6) then
    (hearSix h cs).map (·, 0)
  else if cs.length = 8 ∨ cs.length = 12 ∨ cs.length = 14 then (hearDigits h cs).map (·, 0)
  else
    match unitOf? ts i with
    | some (unit, taken) => (h.setUnit? token n unit).map (·, taken)
    | none =>
      match next with
      | none => (h.addNumber? n).map (·, 1)
      | some word =>
        if word = ":" ∧ i + 2 < ts.length then hearClock ts i n h
        else if word = "-" ∨ word = "/" ∨ word = "." then hearParts ts i word token h
        else if isFiller word then
          match ts[i + 2]?.bind afternoon? with
          | some late => some ({ h with hour := some (Heard.setHalf n.whole late) }, 2)
          | none => (h.addNumber? n).map (·, 1)
        else
          match afternoon? word with
          | some late =>
            if n.whole < 24 then some ({ h with hour := some (Heard.setHalf n.whole late) }, 1)
            else couldBeDay
          | none => couldBeDay
where
  /-- A number that fits a day of the month is one. -/
  couldBeDay : Option (Heard × Nat) :=
    let most := h.parts.mostDays
    if 1 ≤ n.whole ∧ (n.whole < most ∨ (n.whole = most ∧ !n.hasFraction)) then
      (h.addNumber? n).map (·, 0)
    else none

/-- A month's name and the tokens that it takes behind it: numbers behind a sign, or a year behind
`of`. -/
def hearMonth (thisYear : Nat) (ts : List String) (i : Nat) (month : Nat) (h : Heard) :
    Option (Heard × Nat) := do
  let h ← h.addMonth? month
  match ts[i + 1]? with
  | none => some (h, 0)
  | some sign =>
    if sign = "-" ∨ sign = "/" then
      let h ← ts[i + 2]?.bind h.addText?
      if ts[i + 3]? = some sign then
        let h ← ts[i + 4]?.bind h.addText?
        some (h, 4)
      else some (h, 2)
    else
      match ts[i + 4]? with
      | none => some (h, 0)
      | some last =>
        if sign = " " ∧ ts[i + 3]? = some " " ∧ (ts[i + 2]?.map isOf).getD false then
          match whole? last.toList with
          | none => some (h, 4)
          | some year =>
            (h.parts.addYear? (century thisYear year)).map fun parts => ({ h with parts }, 4)
        else some (h, 0)

def couldBeZone (h : Heard) (offset : Option Int) (token : String) : Bool :=
  h.hour.isSome && h.zone.isNone && offset.isNone && isZoneName token

/-- A name of a zone. A sign behind it means its contrary. -/
def hearZone (ts : List String) (i : Nat) (token : String) (h : Heard) : Heard :=
  if ts[i + 1]? = some "+" ∨ ts[i + 1]? = some "-" then
    { h with zone := if isUtc token then none else some token, contrary := true }
  else { h with zone := some token }

def hearOffset (ts : List String) (i : Nat) (plus : Bool) (h : Heard) : Option (Heard × Nat) := do
  let digits := (← ts[i + 1]?).toList
  let (hours, minutes, taken) ←
    if digits.length = 4 then do
      let hours ← whole? (digits.take 2)
      let minutes ← whole? (digits.drop 2)
      some (hours, minutes, 1)
    else if ts[i + 2]? = some ":" then do
      let hours ← whole? digits
      let minutes ← ts[i + 3]?.bind fun t => whole? t.toList
      some (hours, minutes, 3)
    else if digits.length ≤ 2 then (whole? digits).map fun hours => (hours, 0, 1)
    else none
  let seconds : Int := hours * 3600 + minutes * 60
  let h := { h with
    offset := some (if plus != h.contrary then seconds else -seconds), contrary := false }
  let name := (ts[i + taken + 3]?).getD ""
  if (ts[i + taken + 1]?.map isFiller).getD false ∧ ts[i + taken + 2]? = some "(" ∧
      ts[i + taken + 4]? = some ")" ∧ 3 ≤ name.length ∧ couldBeZone h none name then
    some ({ h with zone := some name }, taken + 4)
  else some (h, taken)

def hearToken (thisYear : Nat) (ts : List String) (i : Nat) (token : String) (h : Heard) :
    Option (Heard × Nat) :=
  match Number.ofToken? token with
  | some n => hearNumber ts i token n h
  | none =>
    match weekday? token, month? token, afternoon? token with
    | some w, _, _ => some ({ h with weekday := some w }, 0)
    | none, some m, _ => hearMonth thisYear ts i m h
    | none, none, some late =>
      match h.hour with
      | some hour =>
        if hour ≤ 12 then some ({ h with hour := some (Heard.setHalf hour late) }, 0) else none
      | none => none
    | none, none, none =>
      if couldBeZone h h.offset token then some (hearZone ts i token h, 0)
      else if h.hour.isSome ∧ (token = "+" ∨ token = "-") then hearOffset ts i (token = "+") h
      else if isFiller token then some (h, 0)
      else none

def hearFrom (thisYear : Nat) (ts : List String) : Nat → Nat → Heard → Option Heard
  | 0, _, h => some h
  | fuel + 1, i, h =>
    match ts[i]? with
    | none => some h
    | some token =>
      (hearToken thisYear ts i token h).bind fun (h, taken) =>
        hearFrom thisYear ts fuel (i + taken + 1) h

structure Said where
  date : SaidDate
  heard : Heard

namespace Said

def ofTokens? (thisYear : Nat) (ts : List String) : Option Said := do
  let h ← hearFrom thisYear ts ts.length 0 .nothing
  let date ← h.parts.resolve
  let year := date.year.map fun y => if h.parts.fullYear then y else century thisYear y
  some ⟨{ date with year }, h⟩

/-- Whether anything was said of a date or a time. The day of the week alone says nothing. -/
def isSomething (s : Said) : Bool :=
  s.date.year.isSome || s.date.month.isSome || s.date.day.isSome || s.heard.hour.isSome ||
    s.heard.minute.isSome || s.heard.second.isSome || s.heard.micro.isSome

def isWholeDate (s : Said) : Bool :=
  s.date.year.isSome && s.date.month.isSome && s.date.day.isSome

/-- The date, the first of January of year 1 as far as nothing is said of it. A day of the week moves it
forward unless a day of the month was said. -/
def date? (s : Said) : Option Date := do
  let d ← Date.of? (s.date.year.getD 1) (s.date.month.getD 1) (s.date.day.getD 1)
  match s.heard.weekday, s.date.day with
  | some w, none => Date.ofDays? (d.toDays + (w + 7 - d.toDays % 7) % 7)
  | _, _ => some d

/-- The offset in seconds, none if nothing is said of it. A zone that is not UTC needs one. -/
def offset? (s : Said) : Option (Option Int) :=
  match s.heard.zone, s.heard.offset with
  | none, none => some none
  | none, some n => if n.natAbs < 86400 then some (some n) else none
  | some name, offset =>
    if isUtc name then some (some 0)
    else
      match offset with
      | none => none
      | some n => if n.natAbs < 86400 then some (some n) else none

def written? (s : Said) : Option Written :=
  if s.isSomething then do
    let d ← s.date?
    let h := s.heard
    let clock ← Clock.of? (h.hour.getD 0) (h.minute.getD 0) (h.second.getD 0) (h.micro.getD 0)
    let offset ← s.offset?
    some ⟨d.year, d.month, d.day, clock, offset⟩
  else none

end Said

def read (thisYear : Nat) (text : List Char) : Option Said := Said.ofTokens? thisYear (tokens text)

end PlainSheets.Spoken
