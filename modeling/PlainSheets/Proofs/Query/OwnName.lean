import PlainSheets.Proofs.Query.ClauseRules
import PlainSheets.Proofs.Query.Ranking
import PlainSheets.Proofs.Query.Refusals
import PlainSheets.Proofs.Store.Named
import PlainSheets.Proofs.Text.Lowercase
import PlainSheets.Request.Handlers

/-!
Questions that name a sheet in full. Main statement: whatever keywords are in the name of a sheet, a
question for it by that name leads to a sheet whose name has it.
-/
namespace PlainSheets.Query

open Text (isWord)

def WordRun (cs : List Char) : Prop := ∃ words, words ≠ [] ∧ (∀ w ∈ words, Plain w) ∧ cs = clause words

/-- Asks for a sheet by its name. Something else may follow after a comma. -/
def forSheet (name rest : String) : String := "in " ++ name ++ " sheet" ++ rest

def AfterComma (rest : String) : Prop := ∀ c ∈ rest.toList.head?, c = ','

instance (rest : String) : Decidable (AfterComma rest) := inferInstanceAs (Decidable (∀ _ ∈ _, _))

variable {name rest : String}

/-! The question in lowercase. -/

theorem ends_lowerFrom (h : AfterComma rest) (before : List Char) :
    Ends (Text.lowerFrom before rest.toList) := by
  unfold AfterComma at h
  cases hcs : rest.toList with
  | nil => exact nofun
  | cons c cs =>
    obtain rfl : c = ',' := h c (by rw [hcs]; rfl)
    have hcomma : Text.lowerAt before ',' cs = [','] := by
      unfold Text.lowerAt
      rw [if_neg (by decide), if_neg (by decide)]
      decide
    intro d hd
    rw [Text.lowerFrom, hcomma] at hd
    exact .inl (Option.some.inj hd).symm

/-- The name stands between spaces, so it becomes what it becomes alone. -/
theorem lowerChars_forSheet (h : AfterComma rest) :
    ∃ after, Ends after ∧ Text.lowerChars (forSheet name rest).toList =
      "in ".toList ++ Text.lowerChars name.toList ++ " sheet".toList ++ after := by
  have hopening : ∀ c ∈ "in ".toList, Text.Settled c := by decide
  have hclosing : ∀ c ∈ " sheet".toList, Text.Settled c := by decide
  have htext : (forSheet name rest).toList =
      "in ".toList ++ (name.toList ++ (" sheet".toList ++ rest.toList)) := by
    simp [forSheet]
  have hname := Text.lowerFrom_between_spaces [] ['n', 'i'] name.toList ("sheet".toList ++ rest.toList)
  refine ⟨Text.lowerFrom (" sheet".toList.reverse ++ (name.toList.reverse ++ [] ++ [' ', 'n', 'i']))
    rest.toList, ends_lowerFrom h _, ?_⟩
  rw [htext, Text.lowerChars, Text.lowerFrom_settled hopening]
  change "in ".toList ++ Text.lowerFrom ([] ++ ' ' :: ['n', 'i'])
    (name.toList ++ ' ' :: ("sheet".toList ++ rest.toList)) = _
  rw [hname, List.append_assoc, List.append_assoc]
  exact congrArg (fun cs => "in ".toList ++ (Text.lowerChars name.toList ++ cs))
    (Text.lowerFrom_settled hclosing _ rest.toList)

theorem sheetName_forSheet (hrun : WordRun (Text.lowerChars name.toList)) (h : AfterComma rest) :
    sheetName isWord (Text.lowerChars (forSheet name rest).toList) = some (Text.lower name) := by
  obtain ⟨words, hne, hwords, hname⟩ := hrun
  obtain ⟨after, hafter, htext⟩ := @lowerChars_forSheet name rest h
  have hkeywords : Plain "in".toList ∧ Plain "sheet".toList := by decide
  have hclause : ∀ w ∈ "in".toList :: (words ++ ["sheet".toList]), Plain w := by
    simp only [List.mem_cons, List.mem_append, List.not_mem_nil, or_false]
    rintro w (rfl | hw | rfl)
    · exact hkeywords.1
    · exact hwords w hw
    · exact hkeywords.2
  have hfound : findSheetName isWord (Text.lowerChars (forSheet name rest).toList) "in ".toList
      " sheet".toList = some (clause words) := by
    rw [htext, hname, ← clause_sheet hne, findSheetName, runs_clause (List.cons_ne_nil _ _) hclause hafter,
      List.findSome?_cons, nameInRun_sheet hwords hne]
  rw [sheetName, sheetNameForms, List.findSome?_cons, hfound, Text.lower, hname]
  rfl

theorem sheetName_of_ofQuestion {question : String} {i : Intent}
    (h : Intent.ofQuestion (some question) = .ok i) :
    i.sheetName = sheetName isWord (Text.lowerChars question.toList) := by
  obtain ⟨fs, -, h⟩ := bind_eq_ok.mp h
  obtain ⟨n, -, h⟩ := bind_eq_ok.mp h
  rw [← Except.ok.inj h]
  rfl

/-! The sheet. -/

theorem hasPart_lower (hrun : WordRun (Text.lowerChars name.toList)) :
    hasPart (Text.lower name) (some name) = true := by
  obtain ⟨words, -, hwords, hname⟩ := hrun
  have hdot : Text.dotAbove ∉ Text.lowerChars name.toList := by
    rw [hname]
    intro hmem
    rcases mem_clause hmem with h | ⟨w, hw, hmem⟩
    · exact absurd h (by decide)
    · exact absurd ((hwords w hw).2 _ hmem) (by decide)
  have hoccurs := Text.lowerChars_occursIn hdot
  simpa [hasPart, Text.lower] using hoccurs

theorem lower_ne_empty (hrun : WordRun (Text.lowerChars name.toList)) : Text.lower name ≠ "" := by
  obtain ⟨words, hne, hwords, hname⟩ := hrun
  obtain ⟨c, cs, hfirst, -⟩ := exists_first hwords hne
  intro hempty
  have hnil := congrArg String.toList hempty
  rw [Text.lower, String.toList_ofList, hname, hfirst] at hnil
  cases hnil

theorem ofIntent_ne_noSheet (i : Intent) (s : Sheet) : Outcome.ofIntent i (some s) ≠ .ok .noSheet := by
  intro h
  by_cases haction : i.action = .count
  · rw [Outcome.ofIntent_count haction] at h
    obtain ⟨matching, -, h⟩ := map_eq_ok.mp h
    cases h
  · obtain ⟨sorted, -, -, -, h⟩ := (Outcome.ofIntent_find_eq_ok haction).mp h
    cases h

/-- A sheet is found by its own name, or else by the same words in a name before it. A question that is
read fails only on a store that cannot be read. -/
theorem outcome_forSheet {store : Store} (hids : (store.names.map Prod.fst).Nodup)
    (hempty : "" ∉ store.names.map Prod.fst) {id : String} (hname : (id, some name) ∈ store.names)
    (hrun : WordRun (Text.lower name).toList) (hrest : AfterComma rest) :
    FailsAs TooLong (Intent.ofQuestion (some (forSheet name rest))) ∧
      ∀ i, Intent.ofQuestion (some (forSheet name rest)) = .ok i →
        i.sheetName = some (Text.lower name) ∧
        Request.outcome store.reads i ≠ .ok .noSheet ∧
        ∃ n, store.names.find? (fun n => hasPart (Text.lower name) n.2) = some n ∧
          ((∃ s, store.reads.byId n.1 = .ok (some s) ∧ s.label = n ∧
              Request.outcome store.reads i = Outcome.ofIntent i (some s)) ∨
            ∃ f g, Request.outcome store.reads i = .error f ∧ store.reads.sheets = .error g) := by
  refine ⟨Intent.failsAs_ofQuestion, ?_⟩
  intro i hi
  rw [Text.lower, String.toList_ofList] at hrun
  have hasked : i.sheetName = some (Text.lower name) := by
    rw [sheetName_of_ofQuestion hi, sheetName_forSheet hrun hrest]
  have hfound : (store.names.find? fun n => hasPart (Text.lower name) n.2).isSome := by
    rw [List.find?_isSome]
    exact ⟨_, hname, hasPart_lower hrun⟩
  obtain ⟨n, hn⟩ := Option.isSome_iff_exists.mp hfound
  have hmem := List.mem_of_find?_eq_some hn
  have hid : n.1 ≠ "" := by
    intro h
    exact hempty (h ▸ List.mem_map_of_mem hmem)
  have hresolve := Store.resolve_part (lower_ne_empty hrun) hid hn
  have houtcome : Request.outcome store.reads i = store.reads.byId n.1 >>= Outcome.ofIntent i := by
    rw [Request.outcome, hasked, hresolve]
  rw [houtcome]
  rcases Store.byId_of_mem_names hids hmem with ⟨s, hs, hlabel⟩ | ⟨f, g, hf, hg⟩
  · rw [hs]
    exact ⟨hasked, ofIntent_ne_noSheet i s, n, hn, .inl ⟨s, hs, hlabel, rfl⟩⟩
  · rw [hf]
    exact ⟨hasked, nofun, n, hn, .inr ⟨f, g, rfl, hg⟩⟩

/-- A name that is all keywords, behind a sheet with another name. -/
theorem outcome_dataInSheet :
    let store := Store.memory ⟨[⟨"1", some "Plan", [], [], .epoch, none⟩,
      ⟨"2", some "Data in Sheet ΟΔΟΣ", [], [], .epoch, none⟩]⟩
    ∃ i s, Intent.ofQuestion (some (forSheet "Data in Sheet ΟΔΟΣ" ", limit 5")) = .ok i ∧
      s.id = "2" ∧ Request.outcome store.reads i = Outcome.ofIntent i (some s) := by
  intro store
  have hread : Intent.ofQuestion (some (forSheet "Data in Sheet ΟΔΟΣ" ", limit 5")) =
      .ok { sheetName := some "data in sheet οδος", limit := 5 } := by
    apply toOption_eq_some.mp
    decide +kernel
  have hrun : WordRun (Text.lower "Data in Sheet ΟΔΟΣ").toList :=
    ⟨["data".toList, "in".toList, "sheet".toList, "οδος".toList], by decide, by decide,
      by decide⟩
  have hids : (store.names.map Prod.fst).Nodup := by decide
  have hrest : AfterComma ", limit 5" := by simp [AfterComma]
  obtain ⟨-, hall⟩ := @outcome_forSheet "Data in Sheet ΟΔΟΣ" ", limit 5" store hids (by decide) "2"
    (by decide) hrun hrest
  obtain ⟨-, -, n, hn, hread'⟩ := hall _ hread
  have hsecond : store.names.find? (fun n => hasPart (Text.lower "Data in Sheet ΟΔΟΣ") n.2) =
      some ("2", some "Data in Sheet ΟΔΟΣ") := by
    decide
  obtain rfl := Option.some.inj (hn.symm.trans hsecond)
  rcases hread' with ⟨s, -, hlabel, houtcome⟩ | ⟨f, g, -, hg⟩
  · exact ⟨_, s, hread, congrArg Prod.fst hlabel, houtcome⟩
  · cases hg

end PlainSheets.Query
