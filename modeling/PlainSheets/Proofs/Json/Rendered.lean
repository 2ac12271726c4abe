import PlainSheets.Proofs.Json.Numbers
import PlainSheets.Proofs.Json.Quoted

/-!
Reading what was written. A builder makes of the text of a value what it makes of the value part by
part, in any layout; where it refuses a part, reading fails in the same way.
-/
namespace PlainSheets.Json

variable {α : Type}

/-! Repeated keys. -/

theorem putField_new {key : String} (value : α) {done : List (String × α)}
    (h : key ∉ done.map Prod.fst) : putField key value done = done ++ [(key, value)] := by
  induction done with
  | nil => rfl
  | cons f fs ih =>
    simp only [List.map_cons, List.mem_cons, not_or] at h
    rw [putField, if_neg (Ne.symm h.1), ih h.2, List.cons_append]

theorem putField_keys (key : String) (value : α) (done : List (String × α)) :
    (putField key value done).map Prod.fst =
      if key ∈ done.map Prod.fst then done.map Prod.fst else done.map Prod.fst ++ [key] := by
  induction done with
  | nil => rfl
  | cons f done ih =>
    obtain ⟨k, v⟩ := f
    rw [putField]
    by_cases hk : k = key
    · rw [if_pos hk, if_pos (by simp [hk])]
      rfl
    · rw [if_neg hk, List.map_cons, ih]
      rw [List.map_cons]
      by_cases hmem : key ∈ done.map Prod.fst
      · rw [if_pos hmem, if_pos (List.mem_cons_of_mem _ hmem)]
      · rw [if_neg hmem, if_neg (by simp [hmem, Ne.symm hk]), List.cons_append]

theorem not_mem_of_nodup {key : String} {keys rest : List String} (h : (keys ++ key :: rest).Nodup) :
    key ∉ keys := fun hmem =>
  (List.nodup_cons.mp (List.nodup_middle.mp h)).1 (List.mem_append_left rest hmem)

theorem nodup_putField (key : String) (value : α) {done : List (String × α)}
    (h : (done.map Prod.fst).Nodup) : ((putField key value done).map Prod.fst).Nodup := by
  rw [putField_keys]
  split
  · exact h
  · rename_i hnew
    exact List.nodup_append.mpr ⟨h, List.nodup_singleton key, by grind⟩

theorem mem_putField {key : String} {value : α} {done : List (String × α)} {f : String × α}
    (h : f ∈ putField key value done) : f = (key, value) ∨ f ∈ done := by
  induction done with
  | nil => exact .inl (List.mem_singleton.mp h)
  | cons g done ih =>
    rw [putField] at h
    split at h
    · rename_i hkey
      rcases List.mem_cons.mp h with rfl | h
      · exact .inl (by rw [hkey])
      · exact .inr (List.mem_cons_of_mem g h)
    · rcases List.mem_cons.mp h with rfl | h
      · exact .inr List.mem_cons_self
      · exact (ih h).imp_right (List.mem_cons_of_mem g)

/-! Builders. -/

mutual

/-- What a builder makes of a value: of the parts first, and of repeated keys once. -/
def Builder.build (b : Builder α) : Json → Except Failure α
  | .null => .ok b.null
  | .flag x => .ok (b.flag x)
  | .integer n => integerValue b n
  | .real x => .ok (b.real x)
  | .text s => .ok (b.text s)
  | .list items => (b.buildItems items).map b.list
  | .object fields => do
    let fs ← b.buildFields [] fields
    b.object fs

def Builder.buildItems (b : Builder α) : List Json → Except Failure (List α)
  | [] => .ok []
  | j :: js => do
    let v ← b.build j
    let vs ← b.buildItems js
    .ok (v :: vs)

def Builder.buildFields (b : Builder α) (done : List (String × α)) :
    List (String × Json) → Except Failure (List (String × α))
  | [] => .ok done
  | (k, j) :: fs => do
    let v ← b.build j
    b.buildFields (putField k v done) fs

end

/-! Blanks between the parts. -/

theorem skipSpaces_append {spaces rest : List Char} (hspaces : ∀ c ∈ spaces, isSpace c)
    (hrest : ∀ c, rest.head? = some c → ¬ isSpace c) : skipSpaces (spaces ++ rest) = rest := by
  induction spaces with
  | nil =>
    cases rest with
    | nil => rfl
    | cons c rest =>
      have hc := hrest c rfl
      simp [skipSpaces, hc]
  | cons c spaces ih =>
    have hc := hspaces c List.mem_cons_self
    have hall := fun d hd => hspaces d (List.mem_cons_of_mem c hd)
    simpa [skipSpaces, hc] using ih hall

theorem isSpace_newline (style : Style) (level : Nat) : ∀ c ∈ style.newline level, isSpace c := by
  intro c hc
  unfold Style.newline at hc
  split at hc
  · cases hc
  · rcases List.mem_cons.mp hc with rfl | hc
    · rfl
    · rw [List.eq_of_mem_replicate hc]
      rfl

theorem separator_eq (style : Style) (level : Nat) :
    ∃ spaces, style.separator level = ',' :: spaces ∧ ∀ c ∈ spaces, isSpace c := by
  unfold Style.separator
  split
  · exact ⟨[' '], rfl, List.forall_mem_singleton.mpr (by decide)⟩
  · exact ⟨_, rfl, isSpace_newline style level⟩

/-- How a value starts: with no blank, and with no end of a list or an object. -/
def StartsValue (cs : List Char) : Prop :=
  ∃ c rest, cs = c :: rest ∧ isSpace c = false ∧ c ≠ ']' ∧ c ≠ '}'

theorem StartsValue.append {cs : List Char} (h : StartsValue cs) (ds : List Char) :
    StartsValue (cs ++ ds) := by
  obtain ⟨c, rest, rfl, hc⟩ := h
  exact ⟨c, rest ++ ds, rfl, hc⟩

theorem StartsValue.skipSpaces {cs : List Char} (h : StartsValue cs) (spaces : List Char)
    (hspaces : ∀ c ∈ spaces, isSpace c) : skipSpaces (spaces ++ cs) = cs := by
  obtain ⟨c, rest, rfl, hc, -⟩ := h
  refine skipSpaces_append hspaces fun d hd => ?_
  obtain rfl : c = d := by simpa using hd
  simp [hc]

def StartsScalar (cs : List Char) : Prop :=
  ∃ c rest, cs = c :: rest ∧ c ∉ ['"', '[', '{', ']', '}'] ∧ isSpace c = false

theorem StartsScalar.startsValue {cs : List Char} (h : StartsScalar cs) : StartsValue cs := by
  obtain ⟨c, rest, rfl, hc, hspace⟩ := h
  simp only [List.mem_cons, List.not_mem_nil, or_false, not_or] at hc
  exact ⟨c, rest, rfl, hspace, hc.2.2.2.1, hc.2.2.2.2⟩

theorem StartsScalar.append {cs : List Char} (h : StartsScalar cs) (ds : List Char) :
    StartsScalar (cs ++ ds) := by
  obtain ⟨c, rest, rfl, hc⟩ := h
  exact ⟨c, rest ++ ds, rfl, hc⟩

theorem StartsScalar.readValue {cs : List Char} (h : StartsScalar cs) (b : Builder α) {fuel : Nat}
    (hfuel : cs.length < fuel) : readValue b fuel cs = readScalar b cs := by
  obtain ⟨fuel, rfl⟩ := Nat.exists_eq_succ_of_ne_zero (Nat.ne_zero_of_lt hfuel)
  obtain ⟨c, rest, rfl, hc, -⟩ := h
  simp only [List.mem_cons, List.not_mem_nil, or_false, not_or] at hc
  rw [Json.readValue]
  · rintro _ heq
    exact hc.1 (List.cons.inj heq).1
  · rintro _ heq
    exact hc.2.1 (List.cons.inj heq).1
  · rintro _ heq
    exact hc.2.2.1 (List.cons.inj heq).1

theorem startsScalar_numberChars (negative : Bool) {whole fraction : List Char}
    {exponent : Option (Bool × List Char)} (h : IsWhole whole) :
    StartsScalar (numberChars negative whole fraction exponent) := by
  obtain ⟨d, ds, rfl, hd⟩ := h.exists_head
  have hne (c : Char) (hc : ¬ isAsciiDigit c) : d ≠ c := (ne_of_isAsciiDigit hc hd).symm
  cases negative with
  | true => exact ⟨'-', _, rfl, by decide, rfl⟩
  | false =>
    refine ⟨d, _, rfl, ?_, ?_⟩
    · simp only [List.mem_cons, List.not_mem_nil, or_false, not_or]
      exact ⟨hne _ (by decide), hne _ (by decide), hne _ (by decide), hne _ (by decide),
        hne _ (by decide)⟩
    · simp [isSpace, hne ' ' (by decide), hne '\t' (by decide), hne '\n' (by decide),
        hne '\r' (by decide)]

theorem startsScalar_integerChars (n : Int) : StartsScalar (Text.integerChars n) := by
  rw [integerChars_eq]
  exact startsScalar_numberChars _ (isWhole_toDigits _)

theorem startsScalar_realText (x : Binary64) : StartsScalar (realText x) := by
  cases x with
  | nan => exact ⟨'N', _, rfl, by decide, rfl⟩
  | infinite negative => cases negative <;> exact ⟨_, _, rfl, by decide, rfl⟩
  | finite negative u hu =>
    obtain ⟨_, _, _, hnumber, htext, -⟩ := realText_finite plainBuilder negative hu
    rw [htext]
    exact startsScalar_numberChars negative hnumber.whole

theorem startsValue_render (style : Style) (level : Nat) (j : Json) :
    StartsValue (render style level j) := by
  cases j with
  | null => exact ⟨'n', _, rfl, rfl, by decide, by decide⟩
  | flag x => cases x <;> exact ⟨_, _, rfl, rfl, by decide, by decide⟩
  | integer n =>
    rw [render]
    exact (startsScalar_integerChars n).startsValue
  | real x =>
    rw [render]
    exact (startsScalar_realText x).startsValue
  | text s =>
    rw [render, quote, List.cons_append]
    exact ⟨'"', _, rfl, rfl, by decide, by decide⟩
  | list items =>
    cases items <;> exact ⟨'[', _, rfl, rfl, by decide, by decide⟩
  | object fields =>
    cases fields <;> exact ⟨'{', _, rfl, rfl, by decide, by decide⟩

/-! What stands behind the first item of a list and the first field of an object. -/

section

variable (style : Style) (level : Nat)

def itemsEnd (items : List Json) (rest : List Char) : List Char :=
  renderItems style (level + 1) items ++ (style.newline level ++ ']' :: rest)

def fieldsEnd (fields : List (String × Json)) (rest : List Char) : List Char :=
  renderFields style (level + 1) fields ++ (style.newline level ++ '}' :: rest)

theorem stops_of_spaces {spaces rest : List Char} {c : Char} (hspaces : ∀ c ∈ spaces, isSpace c)
    (hc : ¬ isAsciiDigit c ∧ c ≠ '.' ∧ c ≠ 'e' ∧ c ≠ 'E') : Stops (spaces ++ c :: rest) := by
  intro d hd
  cases spaces with
  | nil =>
    obtain rfl : c = d := by simpa using hd
    exact hc
  | cons a spaces =>
    obtain rfl : a = d := by simpa using hd
    have ha := hspaces a List.mem_cons_self
    simp only [isSpace, Bool.or_eq_true, decide_eq_true_eq] at ha
    rcases ha with ((rfl | rfl) | rfl) | rfl <;> decide

theorem stops_itemsEnd (items : List Json) (rest : List Char) :
    Stops (itemsEnd style level items rest) := by
  cases items with
  | nil => exact stops_of_spaces (isSpace_newline style level) (by decide)
  | cons v vs =>
    obtain ⟨spaces, heq, -⟩ := separator_eq style (level + 1)
    rw [itemsEnd, renderItems, heq]
    intro c hc
    obtain rfl : ',' = c := by simpa using hc
    decide

theorem stops_fieldsEnd (fields : List (String × Json)) (rest : List Char) :
    Stops (fieldsEnd style level fields rest) := by
  cases fields with
  | nil => exact stops_of_spaces (isSpace_newline style level) (by decide)
  | cons f fs =>
    obtain ⟨spaces, heq, -⟩ := separator_eq style (level + 1)
    rw [fieldsEnd, renderFields, heq]
    intro c hc
    obtain rfl : ',' = c := by simpa using hc
    decide

@[simp] theorem skipSpaces_itemsEnd_nil (rest : List Char) :
    skipSpaces (itemsEnd style level [] rest) = ']' :: rest :=
  skipSpaces_append (isSpace_newline style level) fun c hc => by
    obtain rfl : ']' = c := by simpa using hc
    decide

@[simp] theorem skipSpaces_fieldsEnd_nil (rest : List Char) :
    skipSpaces (fieldsEnd style level [] rest) = '}' :: rest :=
  skipSpaces_append (isSpace_newline style level) fun c hc => by
    obtain rfl : '}' = c := by simpa using hc
    decide

theorem itemsEnd_cons (v : Json) (vs : List Json) (rest : List Char) :
    ∃ spaces, (∀ c ∈ spaces, isSpace c) ∧ itemsEnd style level (v :: vs) rest =
      ',' :: (spaces ++ (render style (level + 1) v ++ itemsEnd style level vs rest)) := by
  obtain ⟨spaces, heq, hspaces⟩ := separator_eq style (level + 1)
  refine ⟨spaces, hspaces, ?_⟩
  rw [itemsEnd, renderItems, heq]
  simp [itemsEnd, List.append_assoc]

def fieldChars (key : String) (v : Json) (rest : List Char) : List Char :=
  quote style.asciiOnly key ++ ':' :: ' ' :: (render style (level + 1) v ++ rest)

theorem fieldsEnd_cons (key : String) (v : Json) (fs : List (String × Json)) (rest : List Char) :
    ∃ spaces, (∀ c ∈ spaces, isSpace c) ∧ fieldsEnd style level ((key, v) :: fs) rest =
      ',' :: (spaces ++ fieldChars style level key v (fieldsEnd style level fs rest)) := by
  obtain ⟨spaces, heq, hspaces⟩ := separator_eq style (level + 1)
  refine ⟨spaces, hspaces, ?_⟩
  rw [fieldsEnd, renderFields, heq]
  simp [fieldsEnd, fieldChars, List.append_assoc]

theorem startsValue_fieldChars (key : String) (v : Json) (rest : List Char) :
    StartsValue (fieldChars style level key v rest) :=
  ⟨'"', _, rfl, rfl, by decide, by decide⟩

end

def afterField (b : Builder α) (fuel : Nat) (done : List (String × α)) :
    List Char → Except Failure (List (String × α) × List Char)
  | '}' :: rest => .ok (done, rest)
  | ',' :: rest => readFields b fuel done (skipSpaces rest)
  | _ => .error .notJson

theorem readFields_fieldChars (b : Builder α) (style : Style) (level : Nat) {fuel : Nat}
    (done : List (String × α)) (key : String) (v : Json) {rest : List Char}
    (hfuel : (fieldChars style level key v rest).length < fuel + 1) :
    readFields b (fuel + 1) done (fieldChars style level key v rest) =
      (readValue b fuel (render style (level + 1) v ++ rest)).bind fun p =>
        afterField b fuel (putField key p.1 done) (skipSpaces p.2) := by
  have hspaces := ((startsValue_render style (level + 1) v).append rest).skipSpaces
    [' '] (List.forall_mem_singleton.mpr (by decide))
  have hquote : fieldChars style level key v rest =
      '"' :: (key.toList.flatMap (escapeChar style.asciiOnly) ++
        '"' :: ':' :: ' ' :: (render style (level + 1) v ++ rest)) := by
    simp [fieldChars, quote, List.append_assoc]
  rw [hquote, List.length_cons] at hfuel
  have htext := readText_quote style.asciiOnly key.toList
    (':' :: ' ' :: (render style (level + 1) v ++ rest)) fuel (by omega)
  rw [hquote, readFields]
  have hcolon : skipSpaces (':' :: ' ' :: (render style (level + 1) v ++ rest)) =
      ':' :: ' ' :: (render style (level + 1) v ++ rest) := rfl
  rw [List.singleton_append] at hspaces
  simp only [htext, bind, Except.bind, hcolon, hspaces]
  cases readValue b fuel (render style (level + 1) v ++ rest) with
  | error e => rfl
  | ok p =>
    rw [String.ofList_toList]
    rfl

theorem readValue_listChars (b : Builder α) (fuel : Nat) {spaces cs : List Char}
    (hspaces : ∀ c ∈ spaces, isSpace c) (hcs : StartsValue cs) :
    readValue b (fuel + 1) ('[' :: (spaces ++ cs)) =
      (readValue b fuel cs).bind fun p =>
        (readItems b fuel (skipSpaces p.2)).map fun q => (b.list (p.1 :: q.1), q.2) := by
  have hskip := hcs.skipSpaces spaces hspaces
  obtain ⟨c, rest, rfl, -, hc, -⟩ := hcs
  simp only [readValue, hskip]
  split
  · rename_i heq
    exact absurd (List.cons.inj heq).1 hc
  · cases readValue b fuel (c :: rest) with
    | error e => rfl
    | ok p =>
      simp only [bind, Except.bind]
      cases readItems b fuel (skipSpaces p.2) <;> rfl

theorem readValue_objectChars (b : Builder α) (fuel : Nat) {spaces cs : List Char}
    (hspaces : ∀ c ∈ spaces, isSpace c) (hcs : StartsValue cs) :
    readValue b (fuel + 1) ('{' :: (spaces ++ cs)) =
      (readFields b fuel [] cs).bind fun p => (b.object p.1).map (·, p.2) := by
  have hskip := hcs.skipSpaces spaces hspaces
  obtain ⟨c, rest, rfl, -, -, hc⟩ := hcs
  simp only [readValue, hskip]
  split
  · rename_i heq
    exact absurd (List.cons.inj heq).1 hc
  · cases readFields b fuel [] (c :: rest) with
    | error e => rfl
    | ok p =>
      simp only [bind, Except.bind]
      cases b.object p.1 <;> rfl

/-! The induction follows the value. Fuel that exceeds what is left of the text stays enough, since
every call reads at least one character. -/

variable (b : Builder α) (style : Style)

mutual

theorem readValue_render (level fuel : Nat) : ∀ (j : Json) (rest : List Char), Stops rest →
    (render style level j ++ rest).length < fuel →
    readValue b fuel (render style level j ++ rest) = (b.build j).map (·, rest)
  | .null, rest, _, hfuel => by
    have hstart : StartsScalar (render style level .null ++ rest) := ⟨'n', _, rfl, by decide, rfl⟩
    rw [hstart.readValue b hfuel]
    rfl
  | .flag x, rest, _, hfuel => by
    have hstart : StartsScalar (render style level (.flag x) ++ rest) := by
      cases x <;> exact ⟨_, _, rfl, by decide, rfl⟩
    rw [hstart.readValue b hfuel]
    cases x <;> rfl
  | .integer n, rest, hrest, hfuel => by
    rw [render] at hfuel ⊢
    rw [((startsScalar_integerChars n).append rest).readValue b hfuel]
    exact readScalar_integer b n hrest
  | .real x, rest, hrest, hfuel => by
    rw [render] at hfuel ⊢
    rw [((startsScalar_realText x).append rest).readValue b hfuel]
    exact readScalar_real b x hrest
  | .text s, rest, _, hfuel => by
    obtain ⟨fuel, rfl⟩ := Nat.exists_eq_succ_of_ne_zero (Nat.ne_zero_of_lt hfuel)
    have hquote : render style level (.text s) ++ rest =
        '"' :: (s.toList.flatMap (escapeChar style.asciiOnly) ++ '"' :: rest) := by
      simp [render, quote]
    rw [hquote, List.length_cons] at hfuel
    have htext := readText_quote style.asciiOnly s.toList rest fuel (by omega)
    rw [hquote, readValue, htext]
    simp only [bind, Except.bind, String.ofList_toList]
    rfl
  | .list [], rest, _, hfuel => by
    obtain ⟨fuel, rfl⟩ := Nat.exists_eq_succ_of_ne_zero (Nat.ne_zero_of_lt hfuel)
    rfl
  | .list (v :: vs), rest, _, hfuel => by
    obtain ⟨fuel, rfl⟩ := Nat.exists_eq_succ_of_ne_zero (Nat.ne_zero_of_lt hfuel)
    have heq : render style level (.list (v :: vs)) ++ rest =
        '[' :: (style.newline (level + 1) ++
          (render style (level + 1) v ++ itemsEnd style level vs rest)) := by
      simp [render, itemsEnd]
    have hstart := (startsValue_render style (level + 1) v).append (itemsEnd style level vs rest)
    rw [heq, List.length_cons, List.length_append, List.length_append] at hfuel
    have hvalue := readValue_render (level + 1) fuel v _ (stops_itemsEnd style level vs rest)
      (by rw [List.length_append]; omega)
    have hitems := readItems_itemsEnd level fuel vs rest (by omega)
    rw [heq, readValue_listChars b fuel (isSpace_newline style _) hstart, hvalue, Builder.build,
      Builder.buildItems]
    cases b.build v with
    | error e => rfl
    | ok a =>
      simp only [bind, Except.bind, Except.map, hitems]
      cases b.buildItems vs <;> rfl
  | .object [], rest, _, hfuel => by
    obtain ⟨fuel, rfl⟩ := Nat.exists_eq_succ_of_ne_zero (Nat.ne_zero_of_lt hfuel)
    have hread : readValue b (fuel + 1) ('{' :: '}' :: rest) = (b.object []).map (·, rest) := by
      rw [readValue]
      cases b.object [] <;> rfl
    rw [Builder.build, Builder.buildFields]
    exact hread
  | .object ((key, v) :: fs), rest, _, hfuel => by
    obtain ⟨fuel, rfl⟩ := Nat.exists_eq_succ_of_ne_zero (Nat.ne_zero_of_lt hfuel)
    have heq : render style level (.object ((key, v) :: fs)) ++ rest =
        '{' :: (style.newline (level + 1) ++
          fieldChars style level key v (fieldsEnd style level fs rest)) := by
      simp [render, fieldsEnd, fieldChars]
    have hstart := startsValue_fieldChars style level key v (fieldsEnd style level fs rest)
    rw [heq, List.length_cons, List.length_append] at hfuel
    obtain ⟨fuel, rfl⟩ := Nat.exists_eq_succ_of_ne_zero
      (Nat.ne_zero_of_lt (Nat.lt_of_succ_lt_succ hfuel))
    have hlength : (render style (level + 1) v ++ fieldsEnd style level fs rest).length + 1 <
        (fieldChars style level key v (fieldsEnd style level fs rest)).length := by
      simp only [fieldChars, List.length_append, List.length_cons]
      omega
    have hvalue := readValue_render (level + 1) fuel v _
      (stops_fieldsEnd style level fs rest) (by omega)
    rw [List.length_append] at hlength
    have hfields (done : List (String × α)) := afterField_fieldsEnd level fuel done fs
      rest (by omega)
    rw [heq, readValue_objectChars b (fuel + 1) (isSpace_newline style _) hstart,
      readFields_fieldChars b style level [] key v (by omega), hvalue, Builder.build,
      Builder.buildFields]
    cases b.build v with
    | error e => rfl
    | ok a =>
      simp only [bind, Except.bind, Except.map, hfields]
      cases b.buildFields (putField key a []) fs <;> rfl

theorem readItems_itemsEnd (level fuel : Nat) : ∀ (items : List Json) (rest : List Char),
    (itemsEnd style level items rest).length < fuel →
    readItems b fuel (skipSpaces (itemsEnd style level items rest)) =
      (b.buildItems items).map (·, rest)
  | [], rest, hfuel => by
    obtain ⟨fuel, rfl⟩ := Nat.exists_eq_succ_of_ne_zero (Nat.ne_zero_of_lt hfuel)
    rw [skipSpaces_itemsEnd_nil]
    rfl
  | v :: vs, rest, hfuel => by
    obtain ⟨fuel, rfl⟩ := Nat.exists_eq_succ_of_ne_zero (Nat.ne_zero_of_lt hfuel)
    obtain ⟨spaces, hspaces, heq⟩ := itemsEnd_cons style level v vs rest
    have hstart := ((startsValue_render style (level + 1) v).append
      (itemsEnd style level vs rest)).skipSpaces spaces hspaces
    have hcomma : skipSpaces (itemsEnd style level (v :: vs) rest) =
        itemsEnd style level (v :: vs) rest := by rw [heq]; rfl
    rw [heq, List.length_cons, List.length_append, List.length_append] at hfuel
    have hvalue := readValue_render (level + 1) fuel v _ (stops_itemsEnd style level vs rest)
      (by rw [List.length_append]; omega)
    have hitems := readItems_itemsEnd level fuel vs rest (by omega)
    rw [hcomma, heq, readItems, hstart, hvalue, Builder.buildItems]
    cases b.build v with
    | error e => rfl
    | ok a =>
      simp only [bind, Except.bind, Except.map, hitems]
      cases b.buildItems vs <;> rfl

theorem afterField_fieldsEnd (level fuel : Nat) (done : List (String × α)) :
    ∀ (fields : List (String × Json)) (rest : List Char),
    (fieldsEnd style level fields rest).length < fuel →
    afterField b fuel done (skipSpaces (fieldsEnd style level fields rest)) =
      (b.buildFields done fields).map (·, rest)
  | [], rest, _ => by
    rw [skipSpaces_fieldsEnd_nil]
    rfl
  | (key, v) :: fs, rest, hfuel => by
    obtain ⟨fuel, rfl⟩ := Nat.exists_eq_succ_of_ne_zero (Nat.ne_zero_of_lt hfuel)
    obtain ⟨spaces, hspaces, heq⟩ := fieldsEnd_cons style level key v fs rest
    have hstart := (startsValue_fieldChars style level key v
      (fieldsEnd style level fs rest)).skipSpaces spaces hspaces
    have hcomma : skipSpaces (fieldsEnd style level ((key, v) :: fs) rest) =
        fieldsEnd style level ((key, v) :: fs) rest := by rw [heq]; rfl
    rw [heq, List.length_cons, List.length_append] at hfuel
    have hlength : (render style (level + 1) v ++ fieldsEnd style level fs rest).length <
        (fieldChars style level key v (fieldsEnd style level fs rest)).length := by
      simp only [fieldChars, List.length_append, List.length_cons]
      omega
    have hvalue := readValue_render (level + 1) fuel v _
      (stops_fieldsEnd style level fs rest) (by omega)
    rw [List.length_append] at hlength
    have hfields (done : List (String × α)) := afterField_fieldsEnd level fuel done fs
      rest (by omega)
    rw [hcomma, heq, afterField, hstart, readFields_fieldChars b style level done key v (by omega),
      hvalue, Builder.buildFields]
    cases b.build v with
    | error e => rfl
    | ok a => exact hfields _

end

/-- Reading a whole text that was written is building the value. -/
@[simp] theorem readWith_toText (j : Json) : readWith b (toText style j) = b.build j := by
  have hspaces : skipSpaces (render style 0 j) = render style 0 j :=
    (startsValue_render style 0 j).skipSpaces [] (by simp)
  have hvalue := readValue_render b style 0 ((render style 0 j).length + 1) j [] stops_nil
    (by simp)
  rw [List.append_nil] at hvalue
  simp only [readWith, toText, String.toList_ofList, hspaces, hvalue]
  cases b.build j <;> rfl

end PlainSheets.Json
