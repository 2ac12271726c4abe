import PlainSheets.Proofs.Steps
import PlainSheets.Store.Basic
import Mathlib.Logic.Function.Basic

/-!
Runs of a store: writes and reads one after the other, each with ids and a time of its own. A write
to a database is one change of its tables, done as a whole or not at all.
-/
namespace PlainSheets

inductive Write where
  | create (name : Option String) (columns : List Column) (rows : List Cell)
  | updateSheet (sheet : String) (name : Option String) (columns : Option (List Column))
  | deleteSheet (sheet : String)
  | addRow (sheet : String) (data : Cell)
  | updateRow (sheet row : String) (data : Cell)
  | deleteRow (sheet row : String)
  | clear

inductive Query where
  | list
  | first
  | byId (sheet : String)
  | byPattern (pattern : String)

inductive Answer where
  | done
  | row (r : Row)
  | sheet (s : Option Sheet)
  | sheets (ss : List Sheet)

inductive Operation where
  | write (w : Write)
  | read (q : Query)

/-- An operation, with the ids for what it may make and the time at which it is done. -/
structure Event where
  operation : Operation
  fresh : Fresh
  now : Moment

/-- An operation that a clock runs on through: what it shows each time it is read. -/
structure Store.Call where
  operation : Operation
  fresh : Fresh
  clock : Nat → Moment

def Event.call (e : Event) : Store.Call := ⟨e.operation, e.fresh, fun _ => e.now⟩

def Store.Call.event (c : Call) : Event := ⟨c.operation, c.fresh, c.clock 0⟩

def Reads.answer (r : Reads) : Query → Except Failure Answer
  | .list => r.sheets.map .sheets
  | .first => r.first.map .sheet
  | .byId sheet => (r.byId sheet).map .sheet
  | .byPattern pattern => (r.byPattern pattern).map .sheet

namespace Store

/-- Only sheets and rows that are made need more than one time. -/
def writeAt (s : Store) (fresh : Fresh) (clock : Nat → Moment) : Write → Step Store Answer
  | .create name columns rows =>
    (s.createAt fresh clock name columns rows).map fun s => .sheet (some s)
  | .updateSheet sheet name columns => (s.updateSheet (clock 0) sheet name columns).map .sheet
  | .deleteSheet sheet => (s.deleteSheet sheet).map fun _ => .done
  | .addRow sheet data => (s.addRowAt fresh clock sheet data).map .row
  | .updateRow sheet row data => (s.updateRow (clock 0) sheet row data).map .row
  | .deleteRow sheet row => (s.deleteRow (clock 0) sheet row).map fun _ => .done
  | .clear => s.clear.map fun _ => .done

def write (s : Store) (fresh : Fresh) (now : Moment) : Write → Step Store Answer :=
  s.writeAt fresh fun _ => now

def step (s : Store) (e : Event) : Step Store Answer :=
  match e.operation with
  | .write w => s.write e.fresh e.now w
  | .read q => ⟨s, s.reads.answer q⟩

def run (s : Store) (events : List Event) : Store := events.foldl (fun s e => (s.step e).state) s

@[simp] theorem run_append (s : Store) (events : List Event) (e : Event) :
    s.run (events ++ [e]) = ((s.run events).step e).state := by
  rw [run, List.foldl_append]
  rfl

def call (s : Store) (c : Call) : Step Store Answer :=
  match c.operation with
  | .write w => s.writeAt c.fresh c.clock w
  | .read q => ⟨s, s.reads.answer q⟩

def runCalls (s : Store) (calls : List Call) : Store := calls.foldl (fun s c => (s.call c).state) s

@[simp] theorem runCalls_append (s : Store) (calls : List Call) (c : Call) :
    s.runCalls (calls ++ [c]) = ((s.runCalls calls).call c).state := by
  rw [runCalls, List.foldl_append]
  rfl

theorem run_eq_runCalls (s : Store) (events : List Event) :
    s.run events = s.runCalls (events.map Event.call) := by
  rw [runCalls, List.foldl_map]
  rfl

theorem tables_inj {t u : Tables} (h : Store.database ⟨t, true⟩ = .database ⟨u, true⟩) : t = u := by
  injection h with h
  injection h

end Store

/-- Whether no id is given out twice in a run. -/
structure FreshIds (events : List Event) : Prop where
  sheets : (events.map fun e => e.fresh.sheet).Nodup
  rows : ∀ e ∈ events, Function.Injective e.fresh.row
  apart : events.Pairwise fun e f => ∀ i j, e.fresh.row i ≠ f.fresh.row j

namespace Fresh

/-- Ids that are told apart by their first letter and their length. -/
def lettered (first : Char) : Fresh :=
  ⟨String.singleton first, fun i => String.ofList (first :: List.replicate i 'i')⟩

theorem lettered_injective (first : Char) : Function.Injective (lettered first).row := by
  intro i j h
  have hlists := congrArg String.toList h
  simp only [lettered, String.toList_ofList] at hlists
  simpa using congrArg List.length hlists

theorem lettered_apart {a b : Char} (h : a ≠ b) (i j : Nat) :
    (lettered a).row i ≠ (lettered b).row j := by
  intro heq
  have hlists := congrArg String.toList heq
  simp only [lettered, String.toList_ofList] at hlists
  exact h (List.cons.inj hlists).1

end Fresh

theorem FreshIds.of_letters {events : List Event} {letters : List Char} (hletters : letters.Nodup)
    (h : events.map Event.fresh = letters.map Fresh.lettered) : FreshIds events := by
  have hpairs {R : Fresh → Fresh → Prop}
      (hR : ∀ a b, a ≠ b → R (Fresh.lettered a) (Fresh.lettered b)) :
      events.Pairwise fun e f => R e.fresh f.fresh := by
    have hfresh : (events.map Event.fresh).Pairwise R := by
      rw [h, List.pairwise_map]
      exact hletters.imp fun hne => hR _ _ hne
    exact List.pairwise_map.mp hfresh
  refine ⟨List.pairwise_map.mpr (hpairs (R := fun f g => f.sheet ≠ g.sheet) fun a b hne heq => ?_),
    fun e he => ?_,
    hpairs (R := fun f g => ∀ i j, f.row i ≠ g.row j) fun a b hne => Fresh.lettered_apart hne⟩
  · exact hne (by simpa [Fresh.lettered] using congrArg String.toList heq)
  · obtain ⟨a, -, ha⟩ := List.mem_map.mp (h ▸ List.mem_map_of_mem he)
    rw [← ha]
    exact Fresh.lettered_injective a

/-! Writes to tables. -/

namespace Tables

def commit (t : Tables) (fresh : Fresh) (clock : Nat → Moment) : Write → Except Failure Tables
  | .create name columns rows => do
    let records ← rows.mapM Cell.asRecord
    t.create fresh (clock 0) name columns records
  | .updateSheet sheet name columns => t.updateSheet (clock 0) sheet name columns
  | .deleteSheet sheet => t.deleteSheet sheet
  | .addRow sheet data => do
    let record ← data.asRecord
    t.addRowAt (fresh.row 0) (clock 0) (clock 1) sheet record
  | .updateRow sheet row data => (t.updateRow (clock 0) sheet row data).map Prod.fst
  | .deleteRow sheet row => t.deleteRow (clock 0) sheet row
  | .clear => .ok empty

def afterWrite (t : Tables) (fresh : Fresh) (clock : Nat → Moment) (w : Write) : Tables :=
  match t.commit fresh clock w with
  | .ok u => u
  | .error _ => t

end Tables

namespace Database

variable {α : Type} (t : Tables) (body : Tables → Except Failure (Tables × α))

@[simp] theorem transaction_state : ((⟨t, true⟩ : Database).transaction body).state =
    ⟨match body t with | .ok p => p.1 | .error _ => t, true⟩ := by
  unfold transaction connect
  cases h : body t <;> simp [h, Step.guarded, bind, Except.bind]

@[simp] theorem transaction_result :
    ((⟨t, true⟩ : Database).transaction body).result = (body t).map Prod.snd := by
  unfold transaction connect
  cases h : body t <;> simp [h, Step.guarded, bind, Except.bind, Except.map]

end Database

theorem Store.write_database (t : Tables) (fresh : Fresh) (clock : Nat → Moment) (w : Write) :
    ((Store.database ⟨t, true⟩).writeAt fresh clock w).state =
      .database ⟨t.afterWrite fresh clock w, true⟩ := by
  cases w with
  | create name columns rows =>
    simp only [writeAt, Step.map, createAt, Step.mapState, Database.create, Tables.afterWrite,
      Tables.commit]
    cases rows.mapM Cell.asRecord with
    | error f => rfl
    | ok records =>
      simp only [Database.transaction_state]
      cases h : t.create fresh (clock 0) name columns records <;> simp [h, bind, Except.bind]
  | updateSheet sheet name columns =>
    simp only [writeAt, Step.map, updateSheet, Step.mapState, Database.updateSheet, Tables.afterWrite,
      Tables.commit, Database.transaction_state]
    cases t.updateSheet (clock 0) sheet name columns <;> simp [bind, Except.bind]
  | deleteSheet sheet =>
    simp only [writeAt, Step.map, deleteSheet, Step.mapState, Database.deleteSheet, Tables.afterWrite,
      Tables.commit, Database.transaction_state]
    cases t.deleteSheet sheet <;> simp [bind, Except.bind]
  | addRow sheet data =>
    simp only [writeAt, Step.map, addRowAt, Step.mapState, Database.addRowAt, Tables.afterWrite,
      Tables.commit]
    cases data.asRecord with
    | error f => rfl
    | ok record =>
      simp only [Database.transaction_state]
      cases h : t.addRowAt (fresh.row 0) (clock 0) (clock 1) sheet record <;> simp [h, bind, Except.bind]
  | updateRow sheet row data =>
    simp only [writeAt, Step.map, updateRow, Step.mapState, Database.updateRow, Tables.afterWrite,
      Tables.commit, Database.transaction_state]
    cases t.updateRow (clock 0) sheet row data <;> simp [Except.map]
  | deleteRow sheet row =>
    simp only [writeAt, Step.map, deleteRow, Step.mapState, Database.deleteRow, Tables.afterWrite,
      Tables.commit, Database.transaction_state]
    cases t.deleteRow (clock 0) sheet row <;> simp [bind, Except.bind]
  | clear => rfl

end PlainSheets
