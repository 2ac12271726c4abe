import PlainSheets.Moment.Basic

/-!
Dates, times and spans as they are shown inside lists and maps: by their parts, in words.
-/
namespace PlainSheets

/-- A length of time as whole days, seconds and microseconds, those that are none left out. -/
def spanText (micros : Int) : String :=
  let days := micros.fdiv 86400000000
  let rest := (micros - days * 86400000000).toNat
  let parts := (if days = 0 then [] else [s!"days={days}"]) ++
    (if rest / 1000000 = 0 then [] else [s!"seconds={rest / 1000000}"]) ++
    (if rest % 1000000 = 0 then [] else [s!"microseconds={rest % 1000000}"])
  "datetime.timedelta(" ++ (if parts.isEmpty then "0" else ", ".intercalate parts) ++ ")"

private def call (name : String) (parts : List String) : String :=
  name ++ "(" ++ ", ".intercalate parts ++ ")"

namespace Date

def inspect (d : Date) : String :=
  call "datetime.date" [toString d.year, toString d.month, toString d.day]

end Date

namespace Clock

def shownParts (c : Clock) : List String :=
  [toString c.hour, toString c.minute] ++
    if c.micro ≠ 0 then [toString c.second, toString c.micro]
    else if c.second ≠ 0 then [toString c.second]
    else []

def inspect (c : Clock) : String := call "datetime.time" c.shownParts

end Clock

namespace Offset

def inspect (o : Offset) : String :=
  if o = utc then "datetime.timezone.utc" else "datetime.timezone(" ++ spanText o.micros ++ ")"

end Offset

namespace Moment

def inspect (m : Moment) : String :=
  call "datetime.datetime"
    ([toString m.date.year, toString m.date.month, toString m.date.day] ++ m.clock.shownParts ++
      match m.offset with
      | none => []
      | some o => ["tzinfo=" ++ o.inspect])

end Moment

end PlainSheets
