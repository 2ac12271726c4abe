import PlainSheets.Proofs.Store.Ledger

/-!
Tables after any calls. Positions are given out again after deletions, and failed writes are undone;
still no position stands for two things at once, and its order is the order in which sheets and rows
were made.
-/
namespace PlainSheets

/-- Tables in which everything has a place of its own and belongs somewhere. -/
structure Tables.Consistent (t : Tables) : Prop where
  sheetIds : (t.sheets.map SheetEntry.id).Nodup
  rowIds : (t.rows.map RowEntry.id).Nodup
  columnsOwned : ∀ c ∈ t.columns, c.sheet ∈ t.sheets.map SheetEntry.id
  rowsOwned : ∀ r ∈ t.rows, r.sheet ∈ t.sheets.map SheetEntry.id
  sheetPositions : (t.sheets.map SheetEntry.position).Nodup
  rowPositions : ∀ sheet, ((t.rowsOf sheet).map RowEntry.position).Nodup
  columnPositions : ∀ sheet, ((t.columnsOf sheet).map ColumnEntry.position).Perm
    (List.range (t.columnsOf sheet).length)

theorem Tables.Sound.consistent {t : Tables} (h : t.Sound) : t.Consistent where
  sheetIds := h.sheetIds
  rowIds := h.rowIds
  columnsOwned := h.columnsOwned
  rowsOwned := h.rowsOwned
  sheetPositions := List.pairwise_map.mpr (h.sheetOrder.imp Nat.ne_of_lt)
  rowPositions sheet := List.pairwise_map.mpr ((h.inOrder.rows sheet).imp Nat.ne_of_lt)
  columnPositions sheet := by rw [h.columnPositions sheet]

/-! What is made, in the order in which it is made. -/

def Event.sheetsMade (e : Event) : List String :=
  match e.operation with
  | .write (.create _ _ _) => [e.fresh.sheet]
  | _ => []

def Event.rowsMade (e : Event) : List String :=
  match e.operation with
  | .write (.create _ _ rows) => (List.range rows.length).map e.fresh.row
  | .write (.addRow _ _) => [e.fresh.row 0]
  | _ => []

namespace Ledger

theorem rows_newRows (fresh : Fresh) (i : Nat) (rows : List Cell) :
    (newRows fresh i rows).map WrittenRow.row =
      (List.range' i rows.length).map fresh.row := by
  induction rows generalizing i with
  | nil => rfl
  | cons data rows ih =>
    rw [newRows, List.map_cons, ih, List.length_cons, List.range'_succ, List.map_cons]

/-- A write adds what it makes behind the rest, and takes some of the rest away. -/
theorem step_sublist (l : Ledger) (e : Event) :
    (l.step e).sheets.Sublist (l.sheets ++ e.sheetsMade) ∧
      ((l.step e).rows.map WrittenRow.row).Sublist
        (l.rows.map WrittenRow.row ++ e.rowsMade) := by
  have hsheets (made : List String) := List.sublist_append_left l.sheets made
  have hrows (made : List String) := List.sublist_append_left (l.rows.map WrittenRow.row) made
  obtain ⟨operation, fresh, now⟩ := e
  cases operation with
  | read q => exact ⟨hsheets _, hrows _⟩
  | write w =>
    unfold step
    dsimp only
    split
    · cases w with
      | create name columns rows =>
        refine ⟨List.Sublist.refl _, ?_⟩
        rw [put, List.map_append, rows_newRows, ← List.range_eq_range']
        exact List.Sublist.refl _
      | updateSheet sheet name columns => exact ⟨hsheets _, hrows _⟩
      | deleteSheet sheet =>
        exact ⟨List.filter_sublist.trans (hsheets _),
          (List.filter_sublist.map _).trans (hrows _)⟩
      | addRow sheet data =>
        refine ⟨hsheets _, ?_⟩
        rw [put, List.map_append]
        exact List.Sublist.refl _
      | updateRow sheet row data =>
        refine ⟨hsheets _, ?_⟩
        have hsame : ((l.put fresh (.updateRow sheet row data)).rows.map WrittenRow.row) =
            l.rows.map WrittenRow.row := by
          rw [put, List.map_map]
          exact List.map_congr_left fun v _ => by simp only [Function.comp]; split <;> rfl
        rw [hsame]
        exact hrows _
      | deleteRow sheet row => exact ⟨hsheets _, (List.filter_sublist.map _).trans (hrows _)⟩
      | clear => exact ⟨List.nil_sublist _, List.nil_sublist _⟩
    · exact ⟨hsheets _, hrows _⟩

theorem of_sublist (events : List Event) :
    (Ledger.of events).sheets.Sublist (events.flatMap Event.sheetsMade) ∧
      ((Ledger.of events).rows.map WrittenRow.row).Sublist (events.flatMap Event.rowsMade) := by
  induction events using List.reverseRecOn with
  | nil => exact ⟨.slnil, .slnil⟩
  | append_singleton events e ih =>
    obtain ⟨hsheets, hrows⟩ := step_sublist (Ledger.of events) e
    rw [Ledger.of, List.foldl_append, List.flatMap_append, List.flatMap_append,
      List.flatMap_singleton, List.flatMap_singleton]
    exact ⟨hsheets.trans (ih.1.append_right _), hrows.trans (ih.2.append_right _)⟩

end Ledger

theorem Holds.orderRows_eq {t : Tables} {l : Ledger} (h : Holds t l) (hsound : t.Sound)
    (sheet : String) : (Tables.orderRows (t.rowsOf sheet)).map RowEntry.id =
      (l.rows.filter fun w => w.sheet = sheet).map WrittenRow.row := by
  have hrows : List.Forall₂ RowHolds (t.rowsOf sheet) (l.rows.filter fun w => w.sheet = sheet) :=
    List.rel_filter (fun r w hr => by simp [hr.sheet]) h.rows
  rw [hsound.inOrder.orderRows_eq]
  exact map_eq_map (hrows.imp fun _ _ hr => hr.row)

namespace Store

/-- The tables after any calls from nothing. The order of the positions is that of the ledger of the
accepted writes, which is the order in which everything in it was made. -/
theorem runCalls_consistent (calls : List Call) (h : FreshIds (calls.map Call.event)) :
    ∃ t, (Store.database Database.empty).runCalls calls = .database ⟨t, true⟩ ∧ t.Consistent ∧
      let l := Ledger.of (calls.map Call.event)
      (Tables.orderSheets t.sheets).map SheetEntry.id = l.sheets ∧
        (∀ sheet, (Tables.orderRows (t.rowsOf sheet)).map RowEntry.id =
          (l.rows.filter fun w => w.sheet = sheet).map WrittenRow.row) ∧
        l.sheets.Sublist (calls.flatMap fun c => c.event.sheetsMade) ∧
        (l.rows.map WrittenRow.row).Sublist (calls.flatMap fun c => c.event.rowsMade) := by
  obtain ⟨t, ht, hholds⟩ := runCalls_holds calls
  obtain ⟨u, hu, hsound, -⟩ := runCalls_database calls [] (by rwa [List.append_nil])
  obtain rfl := tables_inj (ht.symm.trans hu)
  obtain ⟨hsheets, hrows⟩ := Ledger.of_sublist (calls.map Call.event)
  rw [List.flatMap_map] at hsheets hrows
  refine ⟨t, ht, hsound.consistent, ?_, hholds.orderRows_eq hsound, hsheets, hrows⟩
  rw [hsound.inOrder.orderSheets, hholds.sheets]

def replacesLast : List Call :=
  [⟨.write (.create (some "A") [] [.record [], .record []]), Fresh.lettered 'a', fun _ => .epoch⟩,
    ⟨.write (.deleteRow "a" "ai"), Fresh.lettered 'b', fun _ => .epoch⟩,
    ⟨.write (.addRow "a" (.record [])), Fresh.lettered 'c', fun _ => .epoch⟩]

theorem runCalls_consistent_replacesLast :
    ∃ t, (Store.database Database.empty).runCalls replacesLast = .database ⟨t, true⟩ ∧
      t.Consistent ∧ (Tables.orderRows (t.rowsOf "a")).map RowEntry.id = ["a", "c"] := by
  have hfresh : FreshIds (replacesLast.map Call.event) :=
    .of_letters (show ['a', 'b', 'c'].Nodup by decide) rfl
  obtain ⟨t, ht, hconsistent, -, hrows, -⟩ := runCalls_consistent replacesLast hfresh
  exact ⟨t, ht, hconsistent, (hrows "a").trans rfl⟩

end Store

end PlainSheets
