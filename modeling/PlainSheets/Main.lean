import PlainSheets.Command.Program
import Std.Time.DateTime.Timestamp

/-!
The program at the terminal: it gathers what is around it, lets the pure program run from one question to
the next, and writes down what that leaves behind.
-/
namespace PlainSheets.Terminal

/-- What is at a path. Only text is read, and bytes that are none are no content that could be read. -/
def entryAt (path : String) : IO PathEntry := do
  try
    let path := if path.isEmpty then "." else path
    if ← (← IO.FS.realPath path).isDir then return .folder
    let bytes ← IO.FS.readBinFile path
    return .file (.ofText ((String.fromUTF8? bytes).getD "\ufffd"))
  catch _ => return .absent

def now : IO Moment := do
  let t ← Std.Time.Timestamp.now
  let micros := t.toNanosecondsSinceUnixEpoch.val / 1000
  return (Moment.ofInstant? (Moment.epoch.instant + micros)).getD Moment.epoch

def randomIds : IO (Nat → String) := do
  let bytes ← IO.getRandomBytes 12
  let first := bytes.toList.foldl (fun n b => n * 256 + b.toNat) 0
  return fun i => String.ofList (Text.hex 24 ((first + i) % Nat.pow 16 24))

def environment : IO Environment := do
  let found ← Settings.variableNames.mapM fun name => do
    return (← IO.getEnv name).map (name, ·)
  return found.filterMap id

def surroundings (a : Arguments) : IO Surroundings := do
  let path := a.importPath.getD ""
  let parent := DatabasePath.parent a.database
  let imported ← entryAt path
  let database ← entryAt a.database
  let around ← entryAt parent
  return {
    now := ← now
    ids := { sheetName := ← randomIds, rowName := ← randomIds }
    service := ⟨false, .empty, .empty⟩
    signs := fun _ => none
    entry := fun p => if p = path then imported else if p = a.database then database else around }

def write (cs : List Char) : IO Unit := do
  let out ← IO.getStdout
  out.putStr (String.ofList cs)
  out.flush

def finish : Ending → IO UInt32
  | .code n => return UInt32.ofNat n
  | .failed f => do
    IO.eprintln f.message
    return 1

partial def converse (d : Dialogue) : IO UInt32 := do
  write Dialogue.prompt.toList
  let line ← (← IO.getStdin).getLine
  let (output, standing) := d.turn (if line.isEmpty then none else some line)
  write output
  match standing with
  | .ended e => finish e
  | .asking next => converse next

def run (settings : Settings) (a : Arguments) : IO UInt32 := do
  let p := Program.start (← surroundings a) settings a
  if let some f := p.saved then IO.FS.writeFile f.path f.content
  write p.output
  match p.standing with
  | .ended e => finish e
  | .asking d => converse d

end PlainSheets.Terminal

open PlainSheets in
def main (texts : List String) : IO UInt32 := do
  let settings := Settings.ofEnvironment (← Terminal.environment)
  match Arguments.ofTexts settings texts with
  | .run a => Terminal.run settings a
  | .help => do
    IO.print Arguments.usage
    return 0
  | .misuse => do
    IO.eprint Arguments.usage
    return 2
