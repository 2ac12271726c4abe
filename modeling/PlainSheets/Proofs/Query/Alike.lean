import PlainSheets.Proofs.Request.Contained

/-!
Responses to a question over two stores, of which one reads its rows again. Main statement: the same
rows are found in the same order, and each cell that is returned is what is read back of the other
one.
-/
namespace PlainSheets

/-! What a question gets. -/

def Record.ReadFrom (read r : Record) : Prop :=
  List.Forall₂ (fun g f => g.1.display = f.1.display ∧ g.2.ReadFrom f.2) read r

theorem Record.Reread.readFrom {read r : Record} (h : read.Reread r) : read.ReadFrom r :=
  h.imp fun _ _ hf => ⟨hf.display, hf.cell.readFrom⟩

def Intent.returned (i : Intent) (r : Row) : Record := Record.project r.fields i.fields

namespace Request

def ask (store : Reads) (question : String) : Except Failure Response :=
  (query store none (.named [("query", .text question)])).2

/-- A question that finds rows: what it is read as, the sheet that it means, and the rows. -/
structure Finds (store : Reads) (question : String) (i : Intent) (sheet : Sheet) (rows : List Row) :
    Prop where
  asked : Text.isAllBlank question.toList = false
  planned : Intent.planned question = .ok i
  find : i.action ≠ .count
  resolved : store.resolve i.sheetName = .ok (some sheet)
  picked : i.picked sheet = .ok rows

def found (message database : Json) (records : List Record) : Response :=
  ⟨200, .object [("type", .text "data"), ("message", message),
    ("data", .list (records.map fun r => (Cell.record r).toJson)), ("database", database)]⟩

/-- How the responses of two stores go together: the rows that one of them finds are those that are
read back of the other one, and all other responses are the same. -/
inductive Alike (d m : Reads) (question : String) : Prop where
  | same (hasked : ask d question = ask m question)
    (hnone : ∀ i sheet rows, ¬ Finds m question i sheet rows)
  | found (i : Intent) (read sheet : Sheet) (reads rows : List Row) (message database : Json)
    (hd : Finds d question i read reads) (hm : Finds m question i sheet rows)
    (hrows : List.Forall₂ Row.ReadFrom reads rows)
    (hcells : List.Forall₂ Record.ReadFrom (reads.map i.returned) (rows.map i.returned))
    (hread : ask d question = .ok (found message database (reads.map i.returned)))
    (hheld : ask m question = .ok (found message database (rows.map i.returned)))

theorem isPayload_question (question : String) :
    IsPayload (.named [("query", .text question)]) := .inr ⟨_, rfl⟩

theorem ask_eq (store : Reads) (question : String) : ask store question =
    if Text.isAllBlank question.toList then .ok ⟨400, Response.errorBody "Query is required"⟩
    else respond store (Intent.planned question) := by
  have hquestion : questionOf (.named [("query", .text question)]) =
      .ok (if Text.isAllBlank question.toList then none else some question) := rfl
  unfold ask
  split at hquestion
  · rename_i hblank
    rw [query_unasked hquestion, if_pos hblank]
  · rename_i hblank
    rw [query_asked hquestion, if_neg hblank, planWith_none]

theorem outcome_eq {store : Reads} {i : Intent} {sheet : Sheet}
    (hsheet : store.resolve i.sheetName = .ok (some sheet)) (hfind : i.action ≠ .count) :
    outcome store i = (i.picked sheet >>= fun rows =>
      (rows.mapM (Row.projected i.fields)).map (.found sheet.name i)) := by
  unfold outcome Intent.picked
  rw [hsheet]
  change Outcome.ofIntent i (some sheet) = _
  rw [Outcome.ofIntent_find hfind]
  cases matchingRows i.filters sheet.rows with
  | error f => rfl
  | ok matching =>
    change (i.sorted matching >>= _) = (i.sorted matching >>= _) >>= _
    cases i.sorted matching with
    | error f => rfl
    | ok sorted => rfl

theorem respond_congr {d m : Reads} {i : Intent} (h : outcome d i = outcome m i) :
    respond d (.ok i) = respond m (.ok i) := by
  have hbind : (Except.ok i).bind (outcome d) = (Except.ok i).bind (outcome m) := h
  unfold respond
  rw [hbind]

theorem toJson_found (sheet : Option String) (i : Intent) (records : List Record) :
    (Outcome.found sheet i records).toCell.toJson = .object [("type", .text "data"),
      ("message", .text (Outcome.found sheet i records).message),
      ("data", .list (records.map fun r => (Cell.record r).toJson)),
      ("database", (Cell.named (Outcome.operation sheet i records.length ++
        [("limit", .integer i.limit), ("sort", i.sortCell)])).toJson)] := by
  have hitems : Cell.itemsToJson (records.map .record) =
      records.map fun r => (Cell.record r).toJson := by
    rw [Cell.itemsToJson_eq, List.map_map]
    rfl
  rw [← hitems]
  rfl

theorem Finds.ask {store : Reads} {question : String} {i : Intent} {sheet : Sheet} {rows : List Row}
    (h : Finds store question i sheet rows)
    (hfree : ∀ r ∈ rows, ∀ name ∈ i.fields, r.fields.isBarred name = false)
    (htold : ∀ r ∈ rows, (Cell.record (i.returned r)).Admitted IsShort) : ask store question =
      .ok (found (.text ("Query results from \"" ++ nameText sheet.name ++ "\""))
        (Cell.named (Outcome.operation sheet.name i rows.length ++
          [("limit", .integer i.limit), ("sort", i.sortCell)])).toJson (rows.map i.returned)) := by
  have hproject := mapM_eq_ok_map fun r hr => Row.projected_eq_ok.mpr ⟨hfree r hr, rfl⟩
  have houtcome : outcome store i = .ok (.found sheet.name i (rows.map i.returned)) := by
    rw [outcome_eq h.resolved h.find, h.picked]
    change (rows.mapM (Row.projected i.fields)).map (Outcome.found sheet.name i) = _
    rw [hproject]
    rfl
  have hanswer : answer store none question = .ok (.found sheet.name i (rows.map i.returned)) := by
    change (Intent.planned question).bind _ = _
    rw [h.planned]
    exact houtcome
  have hjson := (asJson_of_answer hanswer).mpr
    ⟨List.forall_mem_map.mpr htold, by simp [Outcome.count?]⟩
  obtain ⟨j, hj⟩ := exists_map_eq_ok.mp hjson
  have hadmitted := Cell.asJson_isOk_iff.mp ⟨j, hj⟩
  rw [ask_eq, h.asked, if_neg Bool.false_ne_true]
  refine (respond_of_answer hanswer).trans ?_
  rw [done, Cell.asJson_of_admitted hadmitted, toJson_found, List.length_map]
  rfl

theorem Finds.unique {store : Reads} {question : String} {i j : Intent} {sheet other : Sheet}
    {rows others : List Row} (h : Finds store question i sheet rows)
    (h' : Finds store question j other others) : i = j ∧ sheet = other ∧ rows = others := by
  obtain rfl := Except.ok.inj (h.planned.symm.trans h'.planned)
  obtain rfl := Option.some.inj (Except.ok.inj (h.resolved.symm.trans h'.resolved))
  exact ⟨rfl, rfl, Except.ok.inj (h.picked.symm.trans h'.picked)⟩

theorem Alike.ids {d m : Reads} {question : String} {i j : Intent} {read sheet : Sheet}
    {reads rows : List Row} (h : Alike d m question) (hd : Finds d question i read reads)
    (hm : Finds m question j sheet rows) : reads.map Row.id = rows.map Row.id := by
  cases h with
  | same hasked hnone => exact absurd hm (hnone j sheet rows)
  | found i' read' sheet' reads' rows' message database hd' hm' hrows hcells hread hheld =>
    obtain ⟨-, -, rfl⟩ := hd.unique hd'
    obtain ⟨-, -, rfl⟩ := hm.unique hm'
    rw [← List.forall₂_eq_eq_eq, List.forall₂_map_left_iff, List.forall₂_map_right_iff]
    apply hrows.imp
    rintro a b ⟨fields, -, rfl⟩
    rfl

end Request

/-! Stores of which one is read back of the other. -/

structure Sheet.Reread (read s : Sheet) : Prop where
  readFrom : read.ReadFrom s
  rows : List.Forall₂ Row.Reread read.rows s.rows

def Reads.Reread (d m : Reads) : Prop :=
  ∀ name, Agree (Option.Rel Sheet.Reread) (d.resolve name) (m.resolve name)

theorem Sheet.Reread.name {read s : Sheet} (h : read.Reread s) : read.name = s.name := by
  obtain ⟨rows, -, rfl⟩ := h.readFrom
  rfl

theorem Cell.IsPlain.admitted {c : Cell} (h : c.IsPlain) : c.Admitted IsShort := by
  obtain ⟨a, rfl, hwritable, single⟩ := h
  exact .atom (Atom.isWritable_iff.mp hwritable) single

theorem Record.Reread.admitted {read r : Record} (h : read.Reread r) :
    (Cell.record read).Admitted IsShort ∧ (Cell.record r).Admitted IsShort := by
  rw [Cell.admitted_record_iff, Cell.admitted_record_iff]
  induction h with
  | nil => exact ⟨List.forall_mem_nil _, List.forall_mem_nil _⟩
  | @cons g f read r hgf _ ih =>
    obtain ⟨s, hs, hg⟩ := hgf.key
    obtain ⟨hread, hcell⟩ := hgf.cell.isPlain
    rw [List.forall_mem_cons, List.forall_mem_cons]
    refine ⟨⟨⟨?_, hread.admitted⟩, ih.1⟩, ⟨?_, hcell.admitted⟩, ih.2⟩
    · rw [hg]
      exact nofun
    · exact Atom.isWritable_iff.mp (Atom.isWritable_of_text hs)

theorem Sheet.Reread.isTold {read s : Sheet} (h : read.Reread s) (hrows : IsShort s.rows.length) :
    s.IsTold where
  cells r hr := by
    obtain ⟨q, -, hread⟩ := exists_partner h.rows hr
    exact (Record.Reread.admitted hread.fields).2
  rows := hrows

namespace Request

variable {d m : Reads} {question : String} {i : Intent}

theorem Alike.of_outcome (hplanned : Intent.planned question = .ok i)
    (houtcome : outcome d i = outcome m i) (hnone : ∀ sheet rows, ¬ Finds m question i sheet rows) : Alike d m question := by
  refine .same ?_ fun j sheet rows hfinds => ?_
  · rw [ask_eq, ask_eq, hplanned, respond_congr houtcome]
  · obtain rfl := Except.ok.inj (hplanned.symm.trans hfinds.planned)
    exact hnone sheet rows hfinds

theorem Alike.of_rows {read sheet : Sheet} {reads rows : List Row} (hname : read.name = sheet.name)
    (hd : Finds d question i read reads) (hm : Finds m question i sheet rows)
    (hall : List.Forall₂ Row.Reread reads rows) : Alike d m question := by
  have hreturned : List.Forall₂ (fun q r => (i.returned q).Reread (i.returned r)) reads rows :=
    hall.imp fun _ _ hr => Record.project_reread hr.fields i.fields
  have htold := hd.ask
    (fun q hq name _ => by
      obtain ⟨r, -, hr⟩ := exists_partner hall.flip hq
      exact (hr.isBarred name).1)
    fun q hq => by
      obtain ⟨r, -, hr⟩ := exists_partner hreturned.flip hq
      exact (Record.Reread.admitted hr).1
  have hheld := hm.ask
    (fun r hr name _ => by
      obtain ⟨q, -, hq⟩ := exists_partner hall hr
      exact (hq.isBarred name).2)
    fun r hr => by
      obtain ⟨q, -, hq⟩ := exists_partner hreturned hr
      exact (Record.Reread.admitted hq).2
  rw [hname, hall.length_eq] at htold
  refine .found i read sheet reads rows _ _ hd hm (hall.imp fun _ _ hr => hr.readFrom) ?_ htold hheld
  rw [List.forall₂_map_left_iff, List.forall₂_map_right_iff]
  exact hreturned.imp fun _ _ hr => hr.readFrom

theorem Alike.of_sheet {read sheet : Sheet} (hasked : Text.isAllBlank question.toList = false)
    (hplanned : Intent.planned question = .ok i) (hd : d.resolve i.sheetName = .ok (some read))
    (hm : m.resolve i.sheetName = .ok (some sheet)) (hread : read.Reread sheet) :
    Alike d m question := by
  have hdashless := Intent.planned_dashless hplanned
  by_cases haction : i.action = .count
  · apply of_outcome hplanned
    · unfold outcome
      rw [hd, hm]
      change Outcome.ofIntent i (some read) = Outcome.ofIntent i (some sheet)
      rw [Outcome.ofIntent_count haction, Outcome.ofIntent_count haction, hread.name]
      rcases (Intent.matchingRows_reread hdashless hread.rows).elim with
        ⟨reads, rows, hreads, hrows, hall⟩ | ⟨f, hreads, hrows⟩
      · rw [hreads, hrows]
        simp only [Except.map, hall.length_eq]
      · rw [hreads, hrows]
    · intro _ _ hfinds
      exact hfinds.find haction
  · rcases (Intent.picked_reread hdashless hread.rows).elim with
      ⟨reads, rows, hreads, hrows, hall⟩ | ⟨f, hreads, hrows⟩
    · exact .of_rows hread.name ⟨hasked, hplanned, haction, hd, hreads⟩
        ⟨hasked, hplanned, haction, hm, hrows⟩ hall
    · apply of_outcome hplanned
      · rw [outcome_eq hd haction, outcome_eq hm haction, hreads, hrows]
        rfl
      · intro other rows hfinds
        obtain rfl := Option.some.inj (Except.ok.inj (hm.symm.trans hfinds.resolved))
        cases hrows.symm.trans hfinds.picked

/-- What is asked of both is answered alike. -/
theorem alike_of_reread (h : d.Reread m) (question : String) : Alike d m question := by
  cases hblank : Text.isAllBlank question.toList with
  | true =>
    refine .same ?_ fun i sheet rows hfinds => ?_
    · rw [ask_eq, ask_eq, if_pos hblank, if_pos hblank]
    · cases hblank.symm.trans hfinds.asked
  | false =>
    cases hplanned : Intent.planned question with
    | error f =>
      refine .same ?_ fun i sheet rows hfinds => ?_
      · rw [ask_eq, ask_eq, hplanned, respond_error, respond_error]
      · cases hplanned.symm.trans hfinds.planned
    | ok i =>
      rcases (h i.sheetName).elim with ⟨x, y, hx, hy, hsheets⟩ | ⟨f, hx, hy⟩
      · cases hsheets with
        | none =>
          apply Alike.of_outcome hplanned
          · unfold outcome
            rw [hx, hy]
          · intro sheet rows hfinds
            cases hy.symm.trans hfinds.resolved
        | some hread => exact .of_sheet hblank hplanned hx hy hread
      · apply Alike.of_outcome hplanned
        · unfold outcome
          rw [hx, hy]
        · intro sheet rows hfinds
          cases hy.symm.trans hfinds.resolved

/-- Every question gets a response from sheets of which each is read again, if their rows can be counted. -/
theorem exists_ask (h : d.Reread m)
    (hrows : ∀ name s, m.resolve name = .ok (some s) → IsShort s.rows.length) (question : String) :
    ∃ r, ask m question = .ok r := by
  refine (contained_query (isPayload_question question)).made fun _ _ _ => isTold_of_sheets ?_
  intro name s hs
  rcases (h name).elim with ⟨x, y, -, hy, hsheets⟩ | ⟨f, -, hy⟩
  · obtain rfl := Except.ok.inj (hs.symm.trans hy)
    cases hsheets with
    | some hread => exact hread.isTold (hrows name s hs)
  · cases hs.symm.trans hy

end Request

end PlainSheets
