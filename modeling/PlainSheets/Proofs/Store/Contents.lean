import PlainSheets.Proofs.Store.Removal
import PlainSheets.Proofs.Store.Runs
import PlainSheets.Proofs.Store.Related
import Mathlib.Data.List.Induction

/-!
What the rows of a list of sheets hold. Main statement: after a run of writes it is data that the
writes gave, as long as they give maps.
-/
namespace PlainSheets

def Write.Gives (P : Cell → Prop) : Write → Prop
  | .create _ _ rows => ∀ data ∈ rows, P data
  | .addRow _ data => P data
  | .updateRow _ _ data => P data
  | _ => True

namespace Memory

variable {P : Cell → Prop} {m : Memory} {fresh : Fresh} {now : Moment}

def Holds (P : Cell → Prop) (m : Memory) : Prop := ∀ s ∈ m.sheets, ∀ r ∈ s.rows, P r.data

theorem mem_replaceFirst {α : Type} {test : α → Bool} {new a : α} {items : List α}
    (h : a ∈ replaceFirst test new items) : a = new ∨ a ∈ items := by
  induction items with
  | nil => cases h
  | cons b items ih =>
    rw [replaceFirst] at h
    split at h
    · exact (List.mem_cons.mp h).imp_right (List.mem_cons_of_mem b)
    · rcases List.mem_cons.mp h with rfl | h
      · exact .inr List.mem_cons_self
      · exact (ih h).imp_right (List.mem_cons_of_mem b)

theorem Holds.replace (h : m.Holds P) {s : Sheet} (hs : ∀ r ∈ s.rows, P r.data) :
    (m.replace s).Holds P := by
  intro t ht
  rcases mem_replaceFirst ht with rfl | ht
  · exact hs
  · exact h t ht

theorem mem_newRows {records : List Record} {i : Nat} {r : Row}
    (h : r ∈ newRows fresh now i records) : ∃ record ∈ records, r.data = .record record := by
  induction records generalizing i with
  | nil => cases h
  | cons record records ih =>
    rcases List.mem_cons.mp h with rfl | h
    · exact ⟨record, List.mem_cons_self, rfl⟩
    · obtain ⟨other, hother, hdata⟩ := ih h
      exact ⟨other, List.mem_cons_of_mem record hother, hdata⟩

theorem asRecord_of_map (hP : ∀ data, P data → ∃ fs, data = .record fs) {data : Cell}
    {record : Record} (hdata : P data) (h : data.asRecord = .ok record) : P (.record record) := by
  obtain ⟨fs, rfl⟩ := hP data hdata
  obtain rfl := Except.ok.inj h
  exact hdata

theorem Holds.create (h : m.Holds P) (hP : ∀ data, P data → ∃ fs, data = .record fs)
    {name : Option String} {columns : List Column} {rows : List Cell} (hrows : ∀ data ∈ rows, P data)
    {p : Memory × Sheet} (hp : m.create fresh now name columns rows = .ok p) : p.1.Holds P := by
  obtain ⟨records, hrecords, hp⟩ := bind_eq_ok.mp hp
  obtain rfl := Except.ok.inj hp
  intro s hs
  rcases List.mem_append.mp hs with hs | hs
  · exact h s hs
  · obtain rfl := List.mem_singleton.mp hs
    intro r hr
    obtain ⟨record, hrecord, hdata⟩ := mem_newRows hr
    obtain ⟨data, hmem, heq⟩ := exists_partner (mapM_eq_ok.mp hrecords) hrecord
    rw [hdata]
    exact asRecord_of_map hP (hrows data hmem) heq

theorem Holds.updateSheet (h : m.Holds P) {sheet : String} {name : Option String}
    {columns : Option (List Column)} {p : Memory × Sheet}
    (hp : m.updateSheet now sheet name columns = .ok p) : p.1.Holds P := by
  obtain ⟨s, hs, hp⟩ := bind_eq_ok.mp hp
  obtain rfl := Except.ok.inj hp
  exact h.replace (h s (mem_of_require hs))

theorem Holds.deleteSheet (h : m.Holds P) {sheet : String} {p : Memory × Unit}
    (hp : m.deleteSheet sheet = .ok p) : p.1.Holds P := by
  obtain ⟨s, -, hrest⟩ := deleteSheet_eq_ok hp
  rw [hrest]
  intro t ht
  exact h t (List.eraseP_sublist.subset ht)

theorem Holds.addRow (h : m.Holds P) (hP : ∀ data, P data → ∃ fs, data = .record fs)
    {sheet : String} {data : Cell} (hdata : P data) {p : Memory × Row}
    (hp : m.addRow fresh now sheet data = .ok p) : p.1.Holds P := by
  obtain ⟨s, hs, hp⟩ := bind_eq_ok.mp hp
  obtain ⟨record, hrecord, hp⟩ := bind_eq_ok.mp hp
  obtain rfl := Except.ok.inj hp
  apply h.replace
  intro r hr
  rcases List.mem_append.mp hr with hr | hr
  · exact h s (mem_of_require hs) r hr
  · obtain rfl := List.mem_singleton.mp hr
    exact asRecord_of_map hP hdata hrecord

theorem Holds.updateRow (h : m.Holds P) (hP : ∀ data, P data → ∃ fs, data = .record fs)
    {sheet row : String} {data : Cell} (hdata : P data) {p : Memory × Row}
    (hp : m.updateRow now sheet row data = .ok p) : p.1.Holds P := by
  obtain ⟨s, hs, hp⟩ := bind_eq_ok.mp hp
  obtain ⟨r, -, hp⟩ := bind_eq_ok.mp hp
  obtain ⟨record, hrecord, hp⟩ := bind_eq_ok.mp hp
  obtain rfl := Except.ok.inj hp
  apply h.replace
  intro t ht
  rcases mem_replaceFirst ht with rfl | ht
  · exact asRecord_of_map hP hdata hrecord
  · exact h s (mem_of_require hs) t ht

theorem Holds.deleteRow (h : m.Holds P) {sheet row : String} {p : Memory × Unit}
    (hp : m.deleteRow now sheet row = .ok p) : p.1.Holds P := by
  obtain ⟨s, -, hs, -, hrest⟩ := deleteRow_eq_ok hp
  rw [hrest]
  apply h.replace
  intro r hr
  exact h s (mem_of_require hs) r (List.eraseP_sublist.subset hr)

theorem Holds.guarded {α : Type} (h : m.Holds P) {body : Except Failure (Memory × α)}
    (hbody : ∀ p, body = .ok p → p.1.Holds P) :
    ∃ m', Store.memory (Step.guarded m body).state = .memory m' ∧ m'.Holds P := by
  refine ⟨_, rfl, ?_⟩
  unfold Step.guarded
  cases body with
  | ok p => exact hbody p rfl
  | error e => exact h

theorem write_holds (h : m.Holds P) (fresh : Fresh) (now : Moment)
    (hP : ∀ data, P data → ∃ fs, data = .record fs) {w : Write}
    (hw : w.Gives P) :
    ∃ m', ((Store.memory m).write fresh now w).state = .memory m' ∧ m'.Holds P := by
  cases w with
  | create name columns rows => exact h.guarded fun _ => h.create hP hw
  | updateSheet sheet name columns => exact h.guarded fun _ => h.updateSheet
  | deleteSheet sheet => exact h.guarded fun _ => h.deleteSheet
  | addRow sheet data => exact h.guarded fun _ => h.addRow hP hw
  | updateRow sheet row data => exact h.guarded fun _ => h.updateRow hP hw
  | deleteRow sheet row => exact h.guarded fun _ => h.deleteRow
  | clear =>
    refine ⟨⟨[]⟩, rfl, ?_⟩
    intro s hs
    cases hs

theorem run_holds (hP : ∀ data, P data → ∃ fs, data = .record fs) {events : List Event}
    (hwrites : ∀ e ∈ events, ∃ w, e.operation = .write w ∧ w.Gives P) :
    ∃ m, (Store.memory ⟨[]⟩).run events = .memory m ∧ m.Holds P := by
  induction events using List.reverseRecOn with
  | nil =>
    refine ⟨⟨[]⟩, rfl, ?_⟩
    intro s hs
    cases hs
  | append_singleton events e ih =>
    rw [List.forall_mem_append, List.forall_mem_singleton] at hwrites
    obtain ⟨m, hm, hholds⟩ := ih hwrites.1
    obtain ⟨w, hw, hgives⟩ := hwrites.2
    obtain ⟨m', hm', hholds'⟩ := write_holds hholds e.fresh e.now hP hgives
    refine ⟨m', ?_, hholds'⟩
    rw [Store.run_append, hm, Store.step, hw]
    exact hm'

end Memory

end PlainSheets
