import Mathlib.Data.List.Basic

/-!
Search by backtracking. The attempts of an expression on a text are its matches at the start of the
text, in the order in which a backtracking search comes to them: earlier parts of a sequence decide
first, the first of two alternatives goes before the second, and a repetition goes on before it stops. The search takes the first attempt at the leftmost
place that has one.
-/
namespace PlainSheets.Text

/-- Expressions with at most one group whose text is asked for. -/
inductive Regex where
  | empty
  /-- One character that passes a test. -/
  | one (test : Char → Bool)
  | seq (first second : Regex)
  | either (first second : Regex)
  /-- Any number of times, as often as possible. -/
  | many (body : Regex)
  | group (body : Regex)

namespace Regex

/-- A match at the start of a text: what it takes, what the group takes, and what is left. -/
structure Attempt where
  taken : List Char
  held : Option (List Char)
  rest : List Char

namespace Attempt

def none (cs : List Char) : Attempt := ⟨[], .none, cs⟩

/-- The attempt that goes on with another one on what is left. -/
def andThen (a b : Attempt) : Attempt := ⟨a.taken ++ b.taken, b.held <|> a.held, b.rest⟩

def cons (c : Char) (a : Attempt) : Attempt := ⟨c :: a.taken, a.held, a.rest⟩

@[simp] theorem none_rest (cs : List Char) : (none cs).rest = cs := rfl

@[simp] theorem none_andThen (cs : List Char) : (none cs).andThen = id := by
  funext a
  simp [none, andThen]

theorem andThen_assoc (a b c : Attempt) : (a.andThen b).andThen c = a.andThen (b.andThen c) := by
  cases hc : c.held <;> simp [andThen, hc]

theorem one_andThen (c : Char) (cs : List Char) (a : Attempt) :
    (Attempt.mk [c] .none cs).andThen a = a.cons c := by
  simp [andThen, cons]

end Attempt

/-- The attempts of a repetition. Once a round takes nothing there are no more rounds. -/
def rounds (body : List Char → List Attempt) (cs : List Char) : List Attempt :=
  (body cs).flatMap (fun a =>
    if a.rest.length < cs.length then (rounds body a.rest).map a.andThen else []) ++
      [Attempt.none cs]
termination_by cs.length

/-- All matches at the start of a text, in the order in which they are tried. -/
@[simp] def attempts : Regex → List Char → List Attempt
  | empty, cs => [Attempt.none cs]
  | one _, [] => []
  | one test, c :: cs => if test c then [⟨[c], none, cs⟩] else []
  | seq p q, cs => (p.attempts cs).flatMap fun a => (q.attempts a.rest).map a.andThen
  | either p q, cs => p.attempts cs ++ q.attempts cs
  | many p, cs => rounds p.attempts cs
  | group p, cs => (p.attempts cs).map fun a => { a with held := some a.taken }

/-- The first match at the leftmost place of a text that has one. -/
def search (p : Regex) : List Char → Option Attempt
  | [] => (p.attempts []).head?
  | c :: cs => (p.attempts (c :: cs)).head? <|> search p cs

def oneOrMore (p : Regex) : Regex := p.seq p.many

def literal : List Char → Regex
  | [] => empty
  | c :: cs => (one fun d => d == c).seq (literal cs)

def oneOf : List (List Char) → Regex
  | [] => one fun _ => false
  | part :: parts => (literal part).either (oneOf parts)

/-! What an attempt takes and what it leaves make up the text, so a body that always takes something
may be gone round once more without looking at lengths. -/

theorem mem_rounds {body : List Char → List Attempt}
    (split : ∀ cs, ∀ a ∈ body cs, a.taken ++ a.rest = cs) (cs : List Char) :
    ∀ a ∈ rounds body cs, a.taken ++ a.rest = cs := by
  intro a ha
  rw [rounds] at ha
  rcases List.mem_append.mp ha with ha | ha
  · obtain ⟨first, hfirst, ha⟩ := List.mem_flatMap.mp ha
    split at ha
    · rename_i hshorter
      obtain ⟨next, hnext, rfl⟩ := List.mem_map.mp ha
      have hrest := mem_rounds split first.rest next hnext
      simp only [Attempt.andThen, List.append_assoc, hrest]
      exact split cs first hfirst
    · simp at ha
  · simp only [List.mem_singleton] at ha
    simp [ha, Attempt.none]
termination_by cs.length

theorem taken_append_rest (p : Regex) (cs : List Char) :
    ∀ a ∈ p.attempts cs, a.taken ++ a.rest = cs := by
  induction p generalizing cs with
  | empty => simp [Attempt.none]
  | one test =>
    cases cs with
    | nil => simp
    | cons c cs => by_cases h : test c <;> simp [h]
  | seq p q ihp ihq =>
    intro a ha
    obtain ⟨first, hfirst, ha⟩ := List.mem_flatMap.mp ha
    obtain ⟨next, hnext, rfl⟩ := List.mem_map.mp ha
    simp only [Attempt.andThen, List.append_assoc, ihq first.rest next hnext]
    exact ihp cs first hfirst
  | either p q ihp ihq =>
    intro a ha
    rcases List.mem_append.mp ha with ha | ha
    · exact ihp cs a ha
    · exact ihq cs a ha
  | many p ih => exact mem_rounds ih cs
  | group p ih =>
    intro a ha
    obtain ⟨b, hb, rfl⟩ := List.mem_map.mp ha
    exact ih cs b hb

theorem attempts_seq_assoc (p q r : Regex) (cs : List Char) :
    ((p.seq q).seq r).attempts cs = (p.seq (q.seq r)).attempts cs := by
  simp only [attempts, List.flatMap_assoc, List.flatMap_map, List.map_flatMap, List.map_map]
  congr 1
  funext a
  congr 1
  funext b
  congr 1
  funext c
  exact Attempt.andThen_assoc a b c

theorem attempts_one_seq (test : Char → Bool) (p : Regex) (c : Char) (cs : List Char) :
    ((one test).seq p).attempts (c :: cs) =
      if test c then (p.attempts cs).map (Attempt.cons c) else [] := by
  by_cases h : test c
  · simp only [attempts, h, if_true, List.flatMap_cons, List.flatMap_nil, List.append_nil]
    congr 1
    funext a
    exact Attempt.one_andThen c cs a
  · simp [h]

/-- One more round first, then none. -/
theorem attempts_many {p : Regex} {cs : List Char} (progress : ∀ a ∈ p.attempts cs, a.taken ≠ []) :
    p.many.attempts cs = (p.seq p.many).attempts cs ++ [Attempt.none cs] := by
  change rounds p.attempts cs = _
  rw [rounds, attempts]
  congr 1
  apply List.flatMap_congr
  intro a ha
  have hlength : a.rest.length < cs.length := by
    have hcs := taken_append_rest p cs a ha
    have := List.length_pos_of_ne_nil (progress a ha)
    rw [← hcs, List.length_append]
    omega
  rw [if_pos hlength, attempts]

theorem attempts_many_seq {p : Regex} (q : Regex) {cs : List Char}
    (progress : ∀ a ∈ p.attempts cs, a.taken ≠ []) :
    (p.many.seq q).attempts cs = (p.seq (p.many.seq q)).attempts cs ++ q.attempts cs := by
  rw [← attempts_seq_assoc, attempts, attempts_many progress, List.flatMap_append]
  simp

theorem one_progress (test : Char → Bool) (cs : List Char) :
    ∀ a ∈ (one test).attempts cs, a.taken ≠ [] := by
  cases cs with
  | nil => simp
  | cons c cs => by_cases h : test c <;> simp [h]

theorem one_seq_progress (test : Char → Bool) (p : Regex) (cs : List Char) :
    ∀ a ∈ ((one test).seq p).attempts cs, a.taken ≠ [] := by
  intro a ha
  cases cs with
  | nil => simp at ha
  | cons c cs =>
    rw [attempts_one_seq] at ha
    split at ha
    · obtain ⟨b, -, rfl⟩ := List.mem_map.mp ha
      simp [Attempt.cons]
    · simp at ha

theorem attempts_literal_seq (part : List Char) (p : Regex) (cs : List Char) :
    ((literal part).seq p).attempts cs =
      if part.isPrefixOf cs then
        (p.attempts (cs.drop part.length)).map fun a => { a with taken := part ++ a.taken }
      else [] := by
  induction part generalizing cs with
  | nil => simp [literal]
  | cons c part ih =>
    rw [literal, attempts_seq_assoc]
    cases cs with
    | nil => simp
    | cons d cs =>
      rw [attempts_one_seq, ih]
      by_cases hd : c = d
      · subst hd
        by_cases h : part.isPrefixOf cs
        · simp [h, Attempt.cons, Function.comp_def]
        · simp [h]
      · have hd' : ¬ d = c := fun h => hd h.symm
        simp [hd, hd']

theorem attempts_literal (part cs : List Char) :
    (literal part).attempts cs =
      if part.isPrefixOf cs then [⟨part, none, cs.drop part.length⟩] else [] := by
  induction part generalizing cs with
  | nil => simp [literal, attempts, Attempt.none]
  | cons c part ih =>
    rw [literal]
    cases cs with
    | nil => simp
    | cons d cs =>
      rw [attempts_one_seq, ih]
      by_cases hd : c = d
      · subst hd
        by_cases h : part.isPrefixOf cs <;> simp [h, Attempt.cons]
      · have hd' : ¬ d = c := fun h => hd h.symm
        simp [hd, hd']

theorem attempts_literal_append (first second : List Char) (p : Regex) (cs : List Char) :
    ((literal first).seq ((literal second).seq p)).attempts cs =
      ((literal (first ++ second)).seq p).attempts cs := by
  induction first generalizing cs with
  | nil => simp [literal]
  | cons c first ih =>
    rw [literal, List.cons_append, literal, attempts_seq_assoc, attempts_seq_assoc]
    cases cs with
    | nil => simp
    | cons d cs => rw [attempts_one_seq, attempts_one_seq, ih]

theorem attempts_oneOf_seq (parts : List (List Char)) (p : Regex) (cs : List Char) :
    ((oneOf parts).seq p).attempts cs =
      parts.flatMap fun part => ((literal part).seq p).attempts cs := by
  induction parts with
  | nil => cases cs <;> simp [oneOf]
  | cons part parts ih =>
    rw [List.flatMap_cons, ← ih]
    simp only [oneOf, attempts, List.flatMap_append]

theorem attempts_literal_oneOf (first : List Char) (parts : List (List Char)) (p : Regex)
    (cs : List Char) : ((literal first).seq ((oneOf parts).seq p)).attempts cs =
      parts.flatMap fun part => ((literal (first ++ part)).seq p).attempts cs := by
  simp only [← attempts_literal_append]
  rw [attempts_literal_seq]
  split
  · rename_i hfirst
    simp only [attempts_oneOf_seq, List.map_flatMap, attempts_literal_seq first, if_pos hfirst]
  · rename_i hfirst
    symm
    refine List.flatMap_eq_nil_iff.mpr fun part _ => ?_
    rw [attempts_literal_seq, if_neg hfirst]

end Regex

end PlainSheets.Text
