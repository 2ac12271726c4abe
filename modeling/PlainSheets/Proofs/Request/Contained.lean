import PlainSheets.Proofs.Request.Bodies

/-!
Responses to requests, whatever goes wrong. Main statement: every response has a body that is JSON proper
and a status that tells what became of the request, and a request stays without one only if what was found
has no JSON form.
-/
namespace PlainSheets.Request

open Response

/-- A response whose status tells whether what was asked for is absent, failed, or was done. -/
structure Settled (r : Response) (absentStatus : Nat) (absent failed : Prop) : Prop where
  safe : r.body.Safe IsShort
  absent_iff : r.status = absentStatus ↔ absent
  failed_iff : r.status = 500 ↔ failed
  done_iff : r.status = 200 ↔ ¬ absent ∧ ¬ failed

variable {absentStatus : Nat} {absent failed : Prop}

theorem safe_messageBody (message : String) : (messageBody message).Safe IsShort :=
  .object (by simp) (List.forall_mem_singleton.mpr (.text message))

theorem safe_errorBody (message : String) : (errorBody message).Safe IsShort :=
  .object (by simp) (List.forall_mem_cons.mpr
    ⟨.text "error", List.forall_mem_singleton.mpr (.text message)⟩)

/-- What becomes of a request that can be told. -/
structure Contained (x : Except Failure Response) (absentStatus : Nat) (absent failed told : Prop) :
    Prop where
  settled : ∀ r, x = .ok r → Settled r absentStatus absent failed
  made : told → ∃ r, x = .ok r

/-! The three ways in which a request is settled. -/

theorem Settled.of_absent {body : Json} (hbody : body.Safe IsShort)
    (hstatus : absentStatus ≠ 500 ∧ absentStatus ≠ 200) (habsent : absent) (hfailed : ¬ failed) :
    Settled ⟨absentStatus, body⟩ absentStatus absent failed :=
  ⟨hbody, iff_of_true rfl habsent, iff_of_false hstatus.1 hfailed,
    iff_of_false hstatus.2 fun h => h.1 habsent⟩

theorem Settled.of_failed {body : Json} (hbody : body.Safe IsShort) (hstatus : absentStatus ≠ 500)
    (habsent : ¬ absent) (hfailed : failed) : Settled ⟨500, body⟩ absentStatus absent failed :=
  ⟨hbody, iff_of_false hstatus.symm habsent, iff_of_true rfl hfailed,
    iff_of_false (by simp) fun h => h.2 hfailed⟩

theorem Settled.of_done {body : Json} (hbody : body.Safe IsShort) (hstatus : absentStatus ≠ 200)
    (habsent : ¬ absent) (hfailed : ¬ failed) : Settled ⟨200, body⟩ absentStatus absent failed :=
  ⟨hbody, iff_of_false hstatus.symm habsent, iff_of_false (by simp) hfailed,
    iff_of_true rfl ⟨habsent, hfailed⟩⟩

/-! Questions. -/

def IsPayload (payload : Cell) : Prop := payload = .null ∨ ∃ fs, payload = .record fs

/-- A payload has a question: a text with something in it besides blanks. -/
def Asks (payload : Cell) (question : String) : Prop :=
  (∃ c, Record.get? payload.fields "query" = some c ∧ c.text? = some question) ∧
    ∃ letter ∈ question.toList, Text.isBlank letter = false

/-- What comes of a question: it is read, and what it asks for is looked up. -/
def answer (store : Reads) (annotator : Option (Annotator × Service)) (question : String) :
    Except Failure Outcome :=
  (planWith annotator question).2.bind (outcome store)

theorem not_isAllBlank_iff {cs : List Char} :
    ¬ Text.isAllBlank cs ↔ ∃ letter ∈ cs, Text.isBlank letter = false := by
  simp [Text.isAllBlank]

theorem questionOf_record (fs : Record) : questionOf (.record fs) =
    .ok (((Record.get? fs "query").bind Cell.text?).filter fun s => !Text.isAllBlank s.toList) := by
  dsimp only [questionOf]
  cases Record.get? fs "query" with
  | none => rfl
  | some c =>
    match c with
    | .text s | .sized (.text s) =>
      cases hblank : Text.isAllBlank s.toList <;>
        simp [hblank, bind, Except.bind, Option.filter, Cell.text?, Cell.atom?, Atom.text?]
    | .null | .flag _ | .integer _ | .real _ | .moment _ | .date _ | .noMoment | .clock _
    | .decimal _ | .bytes _ | .sized (.integer ..) | .sized (.real ..) | .sized (.flag _) | .bundle _
    | .list _ | .record _ => rfl

theorem exists_questionOf {payload : Cell} (h : IsPayload payload) :
    ∃ asked, questionOf payload = .ok asked ∧
      ∀ question, Asks payload question ↔ asked = some question := by
  have hquestion : questionOf payload = .ok
      (((Record.get? payload.fields "query").bind Cell.text?).filter fun s =>
        !Text.isAllBlank s.toList) := by
    rcases h with rfl | ⟨fs, rfl⟩
    · rfl
    · exact questionOf_record fs
  refine ⟨_, hquestion, fun question => ?_⟩
  rw [Option.filter_eq_some_iff, Option.bind_eq_some_iff, Asks, ← not_isAllBlank_iff]
  simp

section

variable {store : Reads} {annotator : Option (Annotator × Service)} {payload : Cell}

theorem query_unasked (h : questionOf payload = .ok none) :
    (query store annotator payload).2 = .ok ⟨400, errorBody "Query is required"⟩ := by
  unfold query
  rw [h]

theorem query_asked {question : String} (h : questionOf payload = .ok (some question)) :
    (query store annotator payload).2 = respond store (planWith annotator question).2 := by
  unfold query
  rw [h]

theorem respond_of_answer {question : String} {o : Outcome}
    (h : answer store annotator question = .ok o) :
    respond store (planWith annotator question).2 = done o.toCell := by
  unfold answer at h
  rw [respond, h]

theorem respond_of_failed {question : String} {f : Failure}
    (h : answer store annotator question = .error f) :
    respond store (planWith annotator question).2 =
      .ok ⟨500, errorBody ("Failed to process query: " ++ f.message)⟩ := by
  unfold answer at h
  rw [respond, h]

theorem asJson_of_answer {question : String} {o : Outcome}
    (h : answer store annotator question = .ok o) : (∃ r, done o.toCell = .ok r) ↔ o.IsTold := by
  obtain ⟨i, hi, h⟩ := bind_eq_ok.mp h
  obtain ⟨found, -, h⟩ := bind_eq_ok.mp h
  rw [done, exists_map_eq_ok, Cell.asJson_isOk_iff]
  exact Outcome.admitted_toCell_iff (isShown_of_planWith hi) h

theorem settled_done {c : Cell} {r : Response} (h : done c = .ok r) (hstatus : absentStatus ≠ 200)
    (habsent : ¬ absent) (hfailed : ¬ failed) : Settled r absentStatus absent failed := by
  obtain ⟨j, hj, rfl⟩ := map_eq_ok.mp h
  have hc := Cell.asJson_isOk_iff.mp ⟨j, hj⟩
  obtain rfl := Except.ok.inj ((Cell.asJson_of_admitted hc).symm.trans hj)
  exact .of_done (Cell.safe_toJson hc) hstatus habsent hfailed

theorem contained_respond (question : String) :
    Contained (respond store (planWith annotator question).2) 400 False
      (∃ f, answer store annotator question = .error f)
      (∀ o, answer store annotator question = .ok o → o.IsTold) where
  settled r hr := by
    cases hanswer : answer store annotator question with
    | ok o =>
      rw [respond_of_answer hanswer] at hr
      exact settled_done hr (by decide) id nofun
    | error f =>
      rw [respond_of_failed hanswer] at hr
      obtain rfl := Except.ok.inj hr
      exact .of_failed (safe_errorBody _) (by decide) id ⟨f, rfl⟩
  made htold := by
    cases hanswer : answer store annotator question with
    | ok o =>
      rw [respond_of_answer hanswer]
      exact (asJson_of_answer hanswer).mpr (htold o hanswer)
    | error f => exact ⟨_, respond_of_failed hanswer⟩

theorem contained_query (h : IsPayload payload) : Contained (query store annotator payload).2 400
    (¬ ∃ question, Asks payload question)
    (∃ question, Asks payload question ∧ ∃ f, answer store annotator question = .error f)
    (∀ question o, Asks payload question → answer store annotator question = .ok o → o.IsTold) := by
  obtain ⟨asked, hasked, hiff⟩ := exists_questionOf h
  simp only [hiff]
  cases asked with
  | none =>
    refine ⟨fun r hr => ?_, fun _ => ⟨_, query_unasked hasked⟩⟩
    rw [query_unasked hasked] at hr
    obtain rfl := Except.ok.inj hr
    refine .of_absent (safe_errorBody _) (by decide) ?_ ?_
    · exact fun ⟨_, hnone⟩ => nomatch hnone
    · exact fun ⟨_, hnone, _⟩ => nomatch hnone
  | some question =>
    have hcontained := @contained_respond store annotator question
    rw [query_asked hasked]
    exact ⟨fun r hr => by simpa using hcontained.settled r hr,
      fun htold => hcontained.made fun o ho => htold question o rfl ho⟩

theorem isTold_of_query (h : IsPayload payload) {r : Response}
    (hr : (query store annotator payload).2 = .ok r) {question : String} {o : Outcome}
    (hasks : Asks payload question) (ho : answer store annotator question = .ok o) : o.IsTold := by
  obtain ⟨asked, hasked, hiff⟩ := exists_questionOf h
  rw [query_asked (hasked.trans (congrArg Except.ok ((hiff question).mp hasks))),
    respond_of_answer ho] at hr
  exact (asJson_of_answer ho).mp ⟨r, hr⟩

theorem query_of_failed (h : IsPayload payload) {question : String} {f : Failure}
    (hasks : Asks payload question) (hf : answer store annotator question = .error f) :
    (query store annotator payload).2 =
      .ok ⟨500, errorBody ("Failed to process query: " ++ f.message)⟩ := by
  obtain ⟨asked, hasked, hiff⟩ := exists_questionOf h
  rw [query_asked (hasked.trans (congrArg Except.ok ((hiff question).mp hasks))), respond_of_failed hf]

theorem isTold_of_sheets (h : ∀ name s, store.resolve name = .ok (some s) → s.IsTold)
    {question : String} {o : Outcome} (ho : answer store annotator question = .ok o) : o.IsTold := by
  obtain ⟨i, -, ho⟩ := bind_eq_ok.mp ho
  obtain ⟨found, hfound, ho⟩ := bind_eq_ok.mp ho
  cases found with
  | none =>
    obtain rfl := Except.ok.inj ho
    exact ⟨List.forall_mem_nil _, by simp [Outcome.count?]⟩
  | some s => exact (h _ s hfound).outcome ho

end

/-! Reports and the list of sheets. -/

theorem done_isOk_of_upTo {c : Cell} {size : Nat} (h : c.Admitted (UpTo size)) (hsize : IsShort size) :
    ∃ r, done c = .ok r :=
  exists_map_eq_ok.mpr (Cell.asJson_isOk_iff.mpr (h.mono fun _ hn => hsize.mono hn))

theorem contained_insights (store : Reads) : Contained (insights store) 404 (store.sheets = .ok [])
    ((∃ f, store.sheets = .error f) ∨
      ∃ sheets f, store.sheets = .ok sheets ∧ sheets ≠ [] ∧ Overview.ofSheets sheets = .error f)
    (∀ sheets, store.sheets = .ok sheets → IsShort (Sheet.extentOf sheets)) := by
  unfold insights
  match hsheets : store.sheets with
  | .error f =>
    refine ⟨fun r hr => ?_, fun _ => ⟨_, rfl⟩⟩
    obtain rfl := Except.ok.inj hr
    exact .of_failed (safe_messageBody _) (by decide) nofun (.inl ⟨f, rfl⟩)
  | .ok [] =>
    refine ⟨fun r hr => ?_, fun _ => ⟨_, rfl⟩⟩
    obtain rfl := Except.ok.inj hr
    exact .of_absent (safe_messageBody _) (by decide) rfl (by simp)
  | .ok (s :: sheets) =>
    dsimp only
    cases hreport : Overview.ofSheets (s :: sheets) with
    | error f =>
      refine ⟨fun r hr => ?_, fun _ => ⟨_, rfl⟩⟩
      obtain rfl := Except.ok.inj hr
      exact .of_failed (safe_messageBody _) (by decide) nofun
        (.inr ⟨_, f, rfl, List.cons_ne_nil _ _, hreport⟩)
    | ok o =>
      exact ⟨fun r hr => settled_done hr (by decide) nofun (by simp [hreport]),
        fun htold => done_isOk_of_upTo (Overview.upTo_toCell hreport) (htold _ rfl)⟩

theorem contained_sheetInsights (store : Reads) (year : Nat) (sheet : String) :
    Contained (sheetInsights year store sheet) 404 (store.byId sheet = .ok none)
      ((∃ f, store.byId sheet = .error f) ∨
        ∃ s f, store.byId sheet = .ok (some s) ∧ SheetReport.ofSheet year s = .error f)
      (∀ s, store.byId sheet = .ok (some s) → IsShort s.extent) := by
  unfold sheetInsights
  match hfound : store.byId sheet with
  | .error f =>
    refine ⟨fun r hr => ?_, fun _ => ⟨_, rfl⟩⟩
    obtain rfl := Except.ok.inj hr
    exact .of_failed (safe_messageBody _) (by decide) nofun (.inl ⟨f, rfl⟩)
  | .ok none =>
    refine ⟨fun r hr => ?_, fun _ => ⟨_, rfl⟩⟩
    obtain rfl := Except.ok.inj hr
    exact .of_absent (safe_messageBody _) (by decide) rfl (by simp)
  | .ok (some s) =>
    dsimp only
    cases hreport : SheetReport.ofSheet year s with
    | error f =>
      refine ⟨fun r hr => ?_, fun _ => ⟨_, rfl⟩⟩
      obtain rfl := Except.ok.inj hr
      exact .of_failed (safe_messageBody _) (by decide) nofun (.inr ⟨s, f, rfl, hreport⟩)
    | ok o =>
      exact ⟨fun r hr => settled_done hr (by decide) nofun (by simp [hreport]),
        fun htold => done_isOk_of_upTo (SheetReport.upTo_toCell hreport) (htold s rfl)⟩

theorem settled_listSheets (store : Reads) :
    Settled (listSheets store) 404 False (∃ f, store.sheets = .error f) := by
  unfold listSheets
  cases hsheets : store.sheets with
  | error f => exact .of_failed (safe_messageBody _) (by decide) id ⟨f, rfl⟩
  | ok sheets =>
    refine .of_done (.list (List.forall_mem_map.mpr fun s _ => ?_)) (by decide) id (by simp)
    exact .object (by simp) (List.forall_mem_cons.mpr ⟨.text s.id,
      List.forall_mem_singleton.mpr (Cell.safe_toJson (Cell.admitted_ofText? s.name))⟩)

/-- A response is JSON proper, and its status tells what became of the request. A question that fails has
the failure in its response, and one that is answered has a response just when there is a JSON form for the
records of the answer; so there is if all cells of the sheets have one, that is to say no arrays and no
integers that are too long. Reports have a response if what they count can be counted. -/
theorem requests_settled (store : Reads) (annotator : Option (Annotator × Service)) (payload : Cell)
    (h : IsPayload payload) :
    Contained (query store annotator payload).2 400 (¬ ∃ question, Asks payload question)
      (∃ question, Asks payload question ∧ ∃ f, answer store annotator question = .error f)
      (∀ question o, Asks payload question → answer store annotator question = .ok o → o.IsTold) ∧
    (∀ question f, Asks payload question → answer store annotator question = .error f →
      (query store annotator payload).2 =
        .ok ⟨500, errorBody ("Failed to process query: " ++ f.message)⟩) ∧
    (∀ question o, Asks payload question → answer store annotator question = .ok o →
      (∃ r, (query store annotator payload).2 = .ok r) → o.IsTold) ∧
    ((∀ name s, store.resolve name = .ok (some s) → s.IsTold) →
      ∃ r, (query store annotator payload).2 = .ok r) ∧
    Contained (insights store) 404 (store.sheets = .ok [])
      ((∃ f, store.sheets = .error f) ∨
        ∃ sheets f, store.sheets = .ok sheets ∧ sheets ≠ [] ∧ Overview.ofSheets sheets = .error f)
      (∀ sheets, store.sheets = .ok sheets → IsShort (Sheet.extentOf sheets)) ∧
    (∀ year sheet, Contained (sheetInsights year store sheet) 404 (store.byId sheet = .ok none)
      ((∃ f, store.byId sheet = .error f) ∨
        ∃ s f, store.byId sheet = .ok (some s) ∧ SheetReport.ofSheet year s = .error f)
      (∀ s, store.byId sheet = .ok (some s) → IsShort s.extent)) ∧
    Settled (listSheets store) 404 False (∃ f, store.sheets = .error f) :=
  ⟨contained_query h, fun _ _ => query_of_failed h, fun _ _ hasks ho ⟨_, hr⟩ => isTold_of_query h hr hasks ho,
    fun hsheets => (contained_query h).made fun _ _ _ => isTold_of_sheets hsheets,
    contained_insights store, contained_sheetInsights store, settled_listSheets store⟩

def sheetOf (row : Cell) : Sheet :=
  ⟨"1", some "A", [⟨some "n", .number, none⟩], [⟨"r", row, .epoch, some .epoch⟩], .epoch, none⟩

def readsOf (row : Cell) : Reads :=
  ⟨.ok [sheetOf row], .ok (some (sheetOf row)), fun _ => .ok none, fun _ => .ok (some (sheetOf row))⟩

theorem resolve_readsOf {row : Cell} {name : Option String} {s : Sheet}
    (h : (readsOf row).resolve name = .ok (some s)) : s = sheetOf row := by
  unfold Reads.resolve at h
  split at h
  · exact (Option.some.inj (Except.ok.inj h)).symm
  · split at h <;> exact (Option.some.inj (Except.ok.inj h)).symm

theorem answer_everything (row : Cell) : answer (readsOf row) none "list rows" =
    .ok (.found (some "A") {} [row.fields]) := by
  have hplanned : Intent.planned "list rows" = .ok {} := by
    apply toOption_eq_some.mp
    decide +kernel
  change (Intent.planned "list rows").bind (outcome (readsOf row)) = _
  rw [hplanned]
  rfl

theorem answer_broken (f : Failure) : answer (.broken f) none "list rows" = .error f := by
  have hplanned : (Intent.planned "list rows").isOk := by decide +kernel
  obtain ⟨i, hi⟩ := exists_of_isOk hplanned
  change (Intent.planned "list rows").bind _ = _
  rw [hi]
  change outcome (.broken f) i = _
  unfold outcome Reads.resolve
  split
  · rfl
  · split <;> rfl

def pair : Bundle := ⟨.flag true, .flag false, [], "[ True False]", "array([ True, False])"⟩

/-- A store that is gone, a row that holds what JSON has no number for, and one with an array. -/
theorem requests_settled_unreadable :
    let payload : Cell := .named [("query", .text "list rows")]
    let store := readsOf (.named [("n", .real .nan), ("b", .list [.bytes [0], .noMoment])])
    let arrays := readsOf (.named [("x", .bundle pair)])
    (query (.broken (.storeFailed "gone")) none payload).2 =
      .ok ⟨500, errorBody "Failed to process query: gone"⟩ ∧
    (∃ r, (query store none payload).2 = .ok r ∧ r.status = 200 ∧ r.body.Safe IsShort) ∧
    (∃ r, insights store = .ok r ∧ r.status = 200) ∧
    ¬ ∃ r, (query arrays none payload).2 = .ok r := by
  intro payload store arrays
  have hpayload : IsPayload payload := .inr ⟨_, rfl⟩
  have hasks : Asks payload "list rows" := ⟨⟨.text "list rows", rfl, rfl⟩, 'l', by decide, by decide⟩
  have hasked : ∀ question, Asks payload question → question = "list rows" := by
    rintro question ⟨⟨c, hc, htext⟩, -⟩
    obtain rfl : Cell.text "list rows" = c := Option.some.inj hc
    exact (Option.some.inj htext).symm
  obtain ⟨-, hfailed, -⟩ := requests_settled (.broken (.storeFailed "gone")) none payload hpayload
  obtain ⟨hquery, -, -, hanswered, hinsights, -⟩ := requests_settled store none payload hpayload
  obtain ⟨-, -, htold, -⟩ := requests_settled arrays none payload hpayload
  refine ⟨hfailed _ _ hasks (answer_broken _), ?_, ?_, fun hmade => ?_⟩
  · have hsheet : ∀ name s, store.resolve name = .ok (some s) → s.IsTold := by
      intro name s hs
      rw [resolve_readsOf hs]
      exact ⟨List.forall_mem_singleton.mpr ((Cell.jsonFailure?_eq_none_iff _).mp rfl), by decide⟩
    obtain ⟨r, hr⟩ := hanswered hsheet
    have hsettled := hquery.settled r hr
    refine ⟨r, hr, hsettled.done_iff.mpr ⟨fun hnone => hnone ⟨_, hasks⟩, ?_⟩, hsettled.safe⟩
    rintro ⟨question, hq, f, hf⟩
    rw [hasked question hq, answer_everything] at hf
    cases hf
  · have hmade : (Overview.ofSheets [sheetOf (.named [("n", .real .nan),
        ("b", .list [.bytes [0], .noMoment])])]).isOk := by decide +kernel
    obtain ⟨o, ho⟩ := exists_of_isOk hmade
    obtain ⟨r, hr⟩ := hinsights.made fun sheets hsheets => by
      rw [← Except.ok.inj hsheets]
      decide
    refine ⟨r, hr, (hinsights.settled r hr).done_iff.mpr ⟨nofun, ?_⟩⟩
    rintro (⟨f, hf⟩ | ⟨sheets, f, hsheets, -, hf⟩)
    · cases hf
    · rw [← Except.ok.inj hsheets, ho] at hf
      cases hf
  · have hrecords := (htold _ _ hasks (answer_everything _) hmade).records _ List.mem_cons_self
    cases (Cell.jsonFailure?_eq_none_iff _).mpr hrecords

end PlainSheets.Request
