import PlainSheets.Cell.RowText
import PlainSheets.Proofs.Json.Rendered
import PlainSheets.Proofs.Moment.Calendar
import PlainSheets.Proofs.Moment.IsoText
import PlainSheets.Proofs.Steps

/-!
What becomes of row data in its stored text. Whatever has a stored text is read back part by part:
dates in UTC, values of typed tables as plain ones, keys as texts. A map with the date tag alone is
read as a date, whoever wrote it.
-/
namespace PlainSheets

@[simp] theorem Moment.utc_eq_ok {m u : Moment} : m.utc = .ok u ↔ m.toUtc? = some u := by
  unfold Moment.utc
  cases m.toUtc? <;> simp

namespace Atom

def readBack : Atom → Except Failure Cell
  | moment m => m.asRead.utc.map .moment
  | date d => .ok (.moment { Moment.ofDate d with offset := some Offset.utc })
  | noMoment => .error (.notIso (.malformed "NaT"))
  | sized (.integer _ n) => .ok (.integer n)
  | sized (.real _ x) => .ok (.real x)
  | sized (.flag b) => .ok (.flag b)
  | sized (.text s) => .ok (.text s)
  | a => .ok (.atom a)

end Atom

namespace RowText

def storedName (key : Atom) : String := (keyName key).toOption.getD ""

mutual

/-- A cell as it is read back from its stored text. -/
def readBack : Cell → Except Failure Cell
  | .atom a => a.readBack
  | .list items => (readBackItems items).map .list
  | .record fs => do
    let fields ← readBackFields [] fs
    decodeObject fields

def readBackItems : List Cell → Except Failure (List Cell)
  | [] => .ok []
  | c :: cs => do
    let d ← readBack c
    let ds ← readBackItems cs
    .ok (d :: ds)

def readBackFields (done : List (String × Cell)) :
    List (Atom × Cell) → Except Failure (List (String × Cell))
  | [] => .ok done
  | (k, c) :: fs => do
    let d ← readBack c
    readBackFields (Json.putField (storedName k) d done) fs

end

def readTag (text : String) : Except Failure Cell :=
  match Moment.ofIso text with
  | .ok m => m.utc.map .moment
  | .error e => .error (.notIso e)

@[simp] theorem decodeObject_tag (text : String) : decodeObject [(dateTag, .text text)] = readTag text := by
  rw [decodeObject, if_pos rfl]
  rfl

@[simp] theorem build_tagged (text : String) : builder.build (tagged text) = readTag text :=
  decodeObject_tag text

@[simp] theorem readTag_iso (m : Moment) : readTag m.iso = m.asRead.utc.map .moment := by
  rw [readTag, Moment.ofIso_iso]

theorem readTag_date (d : Date) : readTag (String.ofList d.iso) =
    .ok (.moment { Moment.ofDate d with offset := some Offset.utc }) := by
  rw [readTag, Moment.ofIso_date]
  rfl

theorem checkInteger_eq_ok {n k : Int} (h : checkInteger n = .ok k) : k = n ∧ IsShort n := by
  unfold checkInteger at h
  split at h
  · exact ⟨(Except.ok.inj h).symm, by assumption⟩
  · cases h

theorem build_integer {n : Int} {j : Json} (h : (checkInteger n).map Json.integer = .ok j) :
    builder.build j = .ok (.integer n) := by
  obtain ⟨k, hk, rfl⟩ := map_eq_ok.mp h
  obtain ⟨rfl, hshort⟩ := checkInteger_eq_ok hk
  exact Json.integerValue_short _ hshort

theorem build_atom {a : Atom} {j : Json} (h : encodeAtom a = .ok j) :
    builder.build j = a.readBack := by
  cases a with
  | null => cases h; rfl
  | flag b => cases h; rfl
  | integer n => exact build_integer h
  | real x => cases h; rfl
  | text s => cases h; rfl
  | moment m =>
    cases h
    rw [build_tagged, readTag_iso]
    rfl
  | date d =>
    cases h
    rw [build_tagged, readTag_date]
    rfl
  | noMoment =>
    cases h
    rfl
  | clock c => cases h
  | decimal a => cases h
  | bytes bs => cases h
  | sized s =>
    cases s with
    | integer type n => exact build_integer h
    | real type x => cases h; rfl
    | flag b => cases h; rfl
    | text s => cases h; rfl
  | bundle b => cases h

theorem keyName_eq_ok {k : Atom} {name : String} (h : keyName k = .ok name) :
    storedName k = name := by
  rw [storedName, h]
  rfl

mutual

theorem build_encode : ∀ (c : Cell) {j : Json}, encode c = .ok j → builder.build j = readBack c
  | .atom a, _, h => build_atom h
  | .list items, _, h => by
    rw [encode] at h
    obtain ⟨js, hjs, rfl⟩ := map_eq_ok.mp h
    rw [Json.Builder.build, build_encodeItems items hjs, readBack]
    rfl
  | .record fs, _, h => by
    rw [encode] at h
    obtain ⟨js, hjs, rfl⟩ := map_eq_ok.mp h
    rw [Json.Builder.build, build_encodeFields fs [] hjs, readBack]
    rfl

theorem build_encodeItems : ∀ (items : List Cell) {js : List Json}, encodeItems items = .ok js →
    builder.buildItems js = readBackItems items
  | [], _, h => by
    cases h
    rfl
  | c :: cs, _, h => by
    obtain ⟨j, hj, h⟩ := bind_eq_ok.mp h
    obtain ⟨js, hjs, h⟩ := bind_eq_ok.mp h
    cases h
    rw [Json.Builder.buildItems, build_encode c hj, build_encodeItems cs hjs, readBackItems]

theorem build_encodeFields : ∀ (fs : List (Atom × Cell)) (done : List (String × Cell))
    {js : List (String × Json)}, encodeFields fs = .ok js →
    builder.buildFields done js = readBackFields done fs
  | [], _, _, h => by
    cases h
    rfl
  | (k, c) :: fs, done, _, h => by
    obtain ⟨name, hname, h⟩ := bind_eq_ok.mp h
    obtain ⟨j, hj, h⟩ := bind_eq_ok.mp h
    obtain ⟨js, hjs, h⟩ := bind_eq_ok.mp h
    cases h
    rw [Json.Builder.buildFields, build_encode c hj, readBackFields, keyName_eq_ok hname]
    cases readBack c with
    | error e => rfl
    | ok d => exact build_encodeFields fs _ hjs

end

theorem load_dump {c : Cell} {text : String} (h : dump c = .ok text) :
    load (some text) = (readBack c).map Cell.fields := by
  obtain ⟨j, hj, rfl⟩ := map_eq_ok.mp h
  have hstart := Json.startsValue_render Json.compactStyle 0 j
  have hempty : ¬ (Json.toText Json.compactStyle j).isEmpty := by
    obtain ⟨c, rest, hcs, -⟩ := hstart
    rw [String.isEmpty_iff]
    intro heq
    have hlist := congrArg String.toList heq
    rw [Json.toText, String.toList_ofList, hcs] at hlist
    cases hlist
  rw [load]
  simp only [hempty, Bool.false_eq_true, if_false]
  rw [Json.readWith_toText, build_encode c hj]

theorem dump_eq_ok_iff {c : Cell} : (∃ text, dump c = .ok text) ↔ ∃ j, encode c = .ok j := by
  constructor
  · rintro ⟨text, h⟩
    obtain ⟨j, hj, -⟩ := map_eq_ok.mp h
    exact ⟨j, hj⟩
  · rintro ⟨j, hj⟩
    exact ⟨_, map_eq_ok.mpr ⟨j, hj, rfl⟩⟩

end RowText

end PlainSheets
