import PlainSheets.Proofs.Text.Letters
import PlainSheets.Text.Pattern

/-!
Patterns made by escaping. Main statement: such a pattern is always one, and it is found in a text just
where the escaped text occurs in it, case ignored.
-/
namespace PlainSheets.Text.Pattern

def literal (c : Char) : Piece := ⟨.char c, false, false, false⟩

def escaped (c : Char) : List Char := if c ∈ specials then ['\\', c] else [c]

@[simp] theorem toList_escape (s : String) : (escape s).toList = s.toList.flatMap escaped :=
  String.toList_ofList

theorem not_special {c : Char} (h : c ∉ specials) :
    c ≠ '|' ∧ c ≠ '^' ∧ c ≠ '$' ∧ c ≠ '.' ∧ c ≠ '\\' ∧ c ≠ '[' ∧ c ≠ '(' ∧ c ≠ ')' ∧ c ≠ '*' ∧ c ≠ '+' ∧
      c ≠ '?' := by
  have hne {d : Char} (hd : d ∈ specials) : c ≠ d := fun heq => h (heq ▸ hd)
  refine ⟨hne ?_, hne ?_, hne ?_, hne ?_, hne ?_, hne ?_, hne ?_, hne ?_, hne ?_, hne ?_, hne ?_⟩ <;>
    decide

/-! Reading. -/

@[simp] theorem readElement_escaped (c : Char) (rest : List Char) :
    readElement (escaped c ++ rest) = some (.char c, rest) := by
  unfold escaped
  split
  · rename_i hspecial
    have hletters : ∀ d ∈ specials, isAsciiAlphanumeric d = false := by decide
    simp [readElement, readEscape, hletters c hspecial]
  · rename_i hplain
    have hne := not_special hplain
    simp [readElement, hne]

/-- No repetition follows: it would have been escaped. -/
theorem readRepetition_escaped (c : Char) (cs : List Char) :
    readRepetition (.char c) (cs.flatMap escaped) = some (literal c, cs.flatMap escaped) := by
  cases cs with
  | nil => rfl
  | cons d cs =>
    rw [List.flatMap_cons]
    unfold escaped
    split
    · rfl
    · rename_i hplain
      have hne := not_special hplain
      simp [readRepetition, literal, hne]

theorem exists_escaped (c : Char) : ∃ d ds, escaped c = d :: ds ∧ d ≠ '|' := by
  unfold escaped
  split
  · exact ⟨'\\', [c], rfl, by decide⟩
  · rename_i hplain
    exact ⟨c, [], rfl, (not_special hplain).1⟩

theorem readFrom_step {fuel : Nat} {d : Char} {ds rest rest' : List Char} {element : Element}
    {piece : Piece} {p : Pattern} (hbar : d ≠ '|') (helement : readElement (d :: ds) = some (element, rest))
    (hpiece : readRepetition element rest = some (piece, rest')) (hrest : readFrom fuel rest' = some p) :
    readFrom (fuel + 1) (d :: ds) = some (cons piece p) := by
  rw [readFrom]
  · simp [helement, hpiece, hrest]
  · exact hbar

theorem readFrom_escaped (cs : List Char) {fuel : Nat} (h : (cs.flatMap escaped).length ≤ fuel) :
    readFrom fuel (cs.flatMap escaped) = some [cs.map literal] := by
  induction cs generalizing fuel with
  | nil => cases fuel <;> rfl
  | cons c cs ih =>
    obtain ⟨d, ds, hd, hbar⟩ := exists_escaped c
    have htext : (c :: cs).flatMap escaped = d :: (ds ++ cs.flatMap escaped) := by
      rw [List.flatMap_cons, hd, List.cons_append]
    have helement := readElement_escaped c (cs.flatMap escaped)
    rw [hd, List.cons_append] at helement
    rw [htext] at h ⊢
    cases fuel with
    | zero => simp at h
    | succ fuel =>
      have hrest := @ih fuel (by rw [List.length_cons, List.length_append] at h; omega)
      exact readFrom_step hbar helement (readRepetition_escaped c cs) hrest

@[simp] theorem read?_escape (s : String) : read? (escape s) = some [s.toList.map literal] := by
  unfold read?
  rw [toList_escape]
  apply readFrom_escaped
  exact Nat.le_of_eq (by rw [← toList_escape, String.length_toList])

/-! Searching. -/

@[simp] theorem matchesHere_literals (part : List Char) (atStart : Bool) (cs : List Char) :
    matchesHere (part.map literal) atStart cs = startsAs part cs := by
  induction part generalizing atStart cs with
  | nil => rw [List.map_nil, matchesHere, startsAs]
  | cons c part ih =>
    rw [List.map_cons]
    unfold matchesHere
    cases cs with
    | nil => simp [literal, startsAs]
    | cons d cs => simp [literal, startsAs, Element.accepts, ih]

@[simp] theorem searchFrom_literals (part : List Char) (atStart : Bool) (cs : List Char) :
    searchFrom [part.map literal] atStart cs = occursIn part cs := by
  induction cs generalizing atStart with
  | nil => simp [searchFrom, matchesFrom, occursIn]
  | cons c cs ih => simp [searchFrom, matchesFrom, occursIn, ih]

/-- Escaping takes every meaning from a text but that of its letters. -/
theorem exists_read?_escape (s : String) :
    ∃ p, read? (escape s) = some p ∧ ∀ t : String, p.search t = occursIn s.toList t.toList :=
  ⟨_, read?_escape s, fun t => searchFrom_literals s.toList true t.toList⟩

end PlainSheets.Text.Pattern
