import PlainSheets.Proofs.Query.RelatedRows

/-!
Rows whose data is no map. Main statement: an intent cannot tell them from rows without fields.
-/
namespace PlainSheets

/-- Data, or the empty map in the place of data that is no map. -/
def Cell.tidied : Cell → Cell
  | .record fs => .record fs
  | _ => .record []

def Row.tidied (r : Row) : Row := { r with data := r.data.tidied }

def Sheet.tidied (s : Sheet) : Sheet := { s with rows := s.rows.map Row.tidied }

@[simp] theorem Cell.fields_tidied (c : Cell) : c.tidied.fields = c.fields := by
  cases c <;> rfl

def Row.SameFields (r s : Row) : Prop := r.fields = s.fields

namespace Row.SameFields

variable {r s : Row}

theorem lookup (h : r.SameFields s) (field : String) : r.lookup field = s.lookup field := by
  rw [Row.lookup, Row.lookup, h]

theorem testAll (h : r.SameFields s) (filters : Filters) :
    r.testAll filters = s.testAll filters := by
  have htest (field : String) (c : Condition) : r.test field c = s.test field c := by
    unfold Row.test Row.find Row.passes
    rw [h, h.lookup field]
  induction filters with
  | nil => rfl
  | cons f filters ih => rw [Row.testAll, Row.testAll, htest, ih]

end Row.SameFields

namespace Outcome

theorem ofIntent_sameFields (i : Intent) {sheet other : Sheet} (hname : sheet.name = other.name)
    (h : List.Forall₂ Row.SameFields sheet.rows other.rows) :
    ofIntent i (some sheet) = ofIntent i (some other) := by
  have hmatching : Agree (List.Forall₂ Row.SameFields) (matchingRows i.filters sheet.rows)
      (matchingRows i.filters other.rows) :=
    matchingRows_related (fun r s hrow => hrow.testAll i.filters) h
  by_cases haction : i.action = .count
  · rw [ofIntent_count haction, ofIntent_count haction, hname]
    rcases hmatching.elim with ⟨rows, others, hrows, hothers, hall⟩ | ⟨f, hrows, hothers⟩
    · rw [hrows, hothers]
      exact congrArg (fun count => Except.ok (counted other.name i count)) hall.length_eq
    · rw [hrows, hothers]
  · have hfound : Agree (· = ·) (ofIntent i (some sheet)) (ofIntent i (some other)) := by
      rw [ofIntent_find haction, ofIntent_find haction, hname]
      refine hmatching.bind fun rows others hrows => ?_
      have hsorted : Agree (List.Forall₂ Row.SameFields) (i.sorted rows) (i.sorted others) :=
        Intent.sorted_related (fun field r s hrow => ⟨by rw [hrow], by rw [hrow.lookup]⟩) hrows
      refine hsorted.bind fun rows others hrows => ?_
      have hprojected : (limited i.limit rows).mapM (Row.projected i.fields) =
          (limited i.limit others).mapM (Row.projected i.fields) := by
        apply mapM_eq_mapM
        apply (List.forall₂_take _ hrows).imp
        intro r s hrow
        rw [Row.projected, Row.projected, hrow]
      rw [hprojected]
      cases (limited i.limit others).mapM (Row.projected i.fields) with
      | error f => exact .error f
      | ok records => exact .ok rfl
    rcases hfound.elim with ⟨o, o', ho, ho', rfl⟩ | ⟨f, hf, hf'⟩
    · rw [ho, ho']
    · rw [hf, hf']

@[simp] theorem ofIntent_tidied (i : Intent) (sheet : Sheet) :
    ofIntent i (some sheet.tidied) = ofIntent i (some sheet) := by
  have hrows : List.Forall₂ Row.SameFields sheet.tidied.rows sheet.rows := by
    rw [Sheet.tidied, List.forall₂_map_left_iff, List.forall₂_same]
    intro r _
    exact r.data.fields_tidied
  exact ofIntent_sameFields i rfl hrows

end Outcome

end PlainSheets
