import PlainSheets.Cell.Payload
import PlainSheets.Cell.Writable
import PlainSheets.Proofs.Json.Strict

/-!
The JSON form of values. Main statement: it is JSON proper at any depth, it is its own form, and its
text in any layout is read as it by a strict reader.
-/
namespace PlainSheets

open Json (Safe putField)

variable {admitted : Int → Prop}

/-! Cells. -/

theorem Numeral.ofReal?_ne_integer (x : Binary64) (n : Int) : ofReal? x ≠ some (.integer n) := by
  unfold ofReal?
  split <;> simp

def Atom.Admitted (admitted : Int → Prop) (a : Atom) : Prop :=
  ∀ n, a.numeral? = some (.integer n) → admitted n

namespace Cell

/-- All integers in a cell are admitted, those among its keys too, and there is no bundle in it. -/
inductive Admitted (admitted : Int → Prop) : Cell → Prop
  | atom {a : Atom} (h : a.Admitted admitted) (single : (atom a).isBundle = false) :
    Admitted admitted (.atom a)
  | list {items : List Cell} (h : ∀ c ∈ items, Admitted admitted c) : Admitted admitted (.list items)
  | record {fs : List (Atom × Cell)} (keys : ∀ f ∈ fs, f.1.Admitted admitted)
    (h : ∀ f ∈ fs, Admitted admitted f.2) : Admitted admitted (.record fs)

@[simp] theorem admitted_null : null.Admitted admitted := .atom nofun rfl

@[simp] theorem admitted_text (s : String) : (text s).Admitted admitted := .atom nofun rfl

@[simp] theorem admitted_moment (m : Moment) : (moment m).Admitted admitted := .atom nofun rfl

@[simp] theorem admitted_real (x : Binary64) : (real x).Admitted admitted :=
  .atom (fun n h => absurd h (Numeral.ofReal?_ne_integer x n)) rfl

@[simp] theorem admitted_integer_iff {n : Int} : (integer n).Admitted admitted ↔ admitted n := by
  refine ⟨fun | .atom h _ => h n rfl, fun h => .atom (fun m heq => ?_) rfl⟩
  rwa [← Numeral.integer.inj (Option.some.inj heq)]

@[simp] theorem admitted_list_iff {items : List Cell} :
    (list items).Admitted admitted ↔ ∀ c ∈ items, c.Admitted admitted :=
  ⟨fun | .list h => h, .list⟩

@[simp] theorem admitted_record_iff {fs : List (Atom × Cell)} : (record fs).Admitted admitted ↔
    ∀ f ∈ fs, f.1.Admitted admitted ∧ f.2.Admitted admitted :=
  ⟨fun | .record keys h => fun f hf => ⟨keys f hf, h f hf⟩,
    fun h => .record (fun f hf => (h f hf).1) fun f hf => (h f hf).2⟩

@[simp] theorem admitted_named_iff {fields : List (String × Cell)} :
    (named fields).Admitted admitted ↔ ∀ f ∈ fields, f.2.Admitted admitted := by
  rw [named, admitted_record_iff, List.forall_mem_map]
  exact forall₂_congr fun f _ => and_iff_right nofun

end Cell

/-! A cell has a JSON form just when all its integers are short and there is no bundle in it. -/

@[simp] theorem Atom.isWritable_iff {a : Atom} : a.isWritable ↔ a.Admitted IsShort := by
  match a with
  | .integer n | .sized (.integer _ n) =>
    refine decide_eq_true_iff.trans ⟨fun h m heq => ?_, fun h => h n rfl⟩
    rwa [← Numeral.integer.inj (Option.some.inj heq)]
  | .real x | .sized (.real _ x) =>
    exact iff_of_true rfl fun n h => absurd h (Numeral.ofReal?_ne_integer x n)
  | .null | .noMoment | .flag _ | .sized (.flag _) | .text _ | .sized (.text _) | .moment _ | .date _
  | .clock _ | .decimal _ | .bytes _ | .bundle _ => exact iff_of_true rfl nofun

@[simp] theorem Atom.textFailure?_eq_none_iff {a : Atom} : a.textFailure? = none ↔ a.Admitted IsShort := by
  rw [← Atom.isWritable_iff, textFailure?]
  split
  · rename_i h
    exact iff_of_true rfl h
  · rename_i h
    exact iff_of_false nofun h

theorem Cell.jsonFailure?_atom (a : Atom) : (Cell.atom a).jsonFailure? =
    if (Cell.atom a).isBundle then some .manyValues else a.textFailure? := by
  cases a <;> rfl

mutual

theorem Cell.jsonFailure?_eq_none_iff : ∀ c : Cell, c.jsonFailure? = none ↔ c.Admitted IsShort
  | .atom a => by
    rw [Cell.jsonFailure?_atom]
    split
    · rename_i hbundle
      exact iff_of_false nofun fun | .atom _ single => Bool.noConfusion (hbundle.symm.trans single)
    · rename_i hbundle
      rw [Atom.textFailure?_eq_none_iff]
      exact ⟨fun h => .atom h (Bool.eq_false_of_not_eq_true hbundle), fun | .atom h _ => h⟩
  | .list items => (Cell.itemsFailure?_eq_none_iff items).trans Cell.admitted_list_iff.symm
  | .record fs => by
    rw [Cell.jsonFailure?, Cell.fieldsFailure?_eq_none_iff fs, Cell.admitted_record_iff]

theorem Cell.itemsFailure?_eq_none_iff : ∀ items : List Cell,
    itemsFailure? items = none ↔ ∀ c ∈ items, c.Admitted IsShort
  | [] => by simp [itemsFailure?]
  | c :: items => by
    rw [itemsFailure?, Option.or_eq_none_iff, List.forall_mem_cons, Cell.jsonFailure?_eq_none_iff c,
      Cell.itemsFailure?_eq_none_iff items]

theorem Cell.fieldsFailure?_eq_none_iff : ∀ fs : List (Atom × Cell),
    fieldsFailure? fs = none ↔ ∀ f ∈ fs, f.1.Admitted IsShort ∧ f.2.Admitted IsShort
  | [] => by simp [fieldsFailure?]
  | (k, c) :: fs => by
    rw [fieldsFailure?, Option.or_eq_none_iff, Option.or_eq_none_iff, List.forall_mem_cons,
      Atom.textFailure?_eq_none_iff, Cell.jsonFailure?_eq_none_iff c,
      Cell.fieldsFailure?_eq_none_iff fs, and_assoc]

end

theorem Cell.asJson_of_admitted {c : Cell} (h : c.Admitted IsShort) : c.asJson = .ok c.toJson := by
  rw [asJson, (Cell.jsonFailure?_eq_none_iff c).mpr h]
  rfl

theorem Json.safe_ofReal (x : Binary64) : (ofReal x).Safe admitted := by
  unfold ofReal
  split
  · rename_i hx
    exact .real hx
  · exact .null

theorem Atom.safe_toJson {a : Atom} (h : a.Admitted admitted) : a.toJson.Safe admitted := by
  match a with
  | .null | .noMoment => exact .null
  | .flag b | .sized (.flag b) => exact .flag b
  | .integer n | .sized (.integer _ n) => exact .integer (h n rfl)
  | .real x | .sized (.real _ x) => exact Json.safe_ofReal x
  | .text _ | .sized (.text _) | .moment _ | .date _ | .clock _ | .decimal _ | .bytes _ | .bundle _ =>
    exact .text _

namespace Cell

structure SafeFields (admitted : Int → Prop) (fields : List (String × Json)) : Prop where
  keys : (fields.map Prod.fst).Nodup
  values : ∀ f ∈ fields, f.2.Safe admitted

theorem SafeFields.nil : SafeFields admitted [] := ⟨List.nodup_nil, List.forall_mem_nil _⟩

theorem SafeFields.put {done : List (String × Json)} (h : SafeFields admitted done) (key : String)
    {value : Json} (hvalue : value.Safe admitted) : SafeFields admitted (putField key value done) where
  keys := Json.nodup_putField key value h.keys
  values f hf := by
    rcases Json.mem_putField hf with rfl | hf
    · exact hvalue
    · exact h.values f hf

theorem safe_fieldsToJson {fs : List (Atom × Cell)} (h : ∀ f ∈ fs, f.2.toJson.Safe admitted)
    {done : List (String × Json)} (hdone : SafeFields admitted done) :
    SafeFields admitted (fieldsToJson done fs) := by
  induction fs generalizing done with
  | nil => exact hdone
  | cons f fs ih =>
    rw [List.forall_mem_cons] at h
    exact ih h.2 (hdone.put f.1.display h.1)

theorem safe_toJson {c : Cell} (h : c.Admitted admitted) : c.toJson.Safe admitted := by
  induction h with
  | atom h _ => exact Atom.safe_toJson h
  | list _ ih =>
    rw [toJson, itemsToJson_eq]
    exact .list (List.forall_mem_map.mpr ih)
  | record _ _ ih =>
    obtain ⟨hkeys, hvalues⟩ := safe_fieldsToJson ih .nil
    exact .object hkeys hvalues

theorem fieldsToJson_ofJsonFields {fields : List (String × Json)}
    (h : ∀ f ∈ fields, (ofJson f.2).toJson = f.2) (done : List (String × Json))
    (keys : (done.map Prod.fst ++ fields.map Prod.fst).Nodup) :
    fieldsToJson done (ofJsonFields fields) = done ++ fields := by
  induction fields generalizing done with
  | nil => rw [ofJsonFields, fieldsToJson, List.append_nil]
  | cons f fields ih =>
    rw [List.forall_mem_cons] at h
    have hnew := Json.putField_new f.2 (Json.not_mem_of_nodup keys)
    have hdisplay : (Atom.text f.1).display = f.1 := rfl
    rw [ofJsonFields, fieldsToJson, hdisplay, h.1, hnew, ih h.2 _ (by simpa using keys),
      List.append_assoc]
    rfl

theorem toJson_ofJson {j : Json} (h : j.Safe admitted) : (ofJson j).toJson = j := by
  induction h with
  | null | flag | integer | text => rfl
  | real hx => simp [ofJson, toJson, Atom.toJson, Json.ofReal, hx]
  | @list items _ ih =>
    rw [ofJson, toJson, itemsToJson_eq, ofJsonItems_eq, List.map_map]
    exact congrArg Json.list ((List.map_congr_left ih).trans (List.map_id' items))
  | @object fields keys _ ih =>
    rw [ofJson, toJson]
    exact congrArg Json.object (fieldsToJson_ofJsonFields ih [] keys)

theorem admitted_ofJson {j : Json} (h : j.Safe admitted) : (ofJson j).Admitted admitted := by
  induction h with
  | null | flag | text => exact .atom nofun rfl
  | integer h => exact admitted_integer_iff.mpr h
  | real => exact admitted_real _
  | list _ ih =>
    rw [ofJson, ofJsonItems_eq]
    exact .list (List.forall_mem_map.mpr ih)
  | object _ _ ih =>
    rw [ofJson, ofJsonFields_eq]
    exact .record (List.forall_mem_map.mpr fun _ _ => nofun) (List.forall_mem_map.mpr ih)

/-! Columns of one type. To make cells alike makes no integers and no bundles. -/

theorem admitted_alike {cells : List Cell} (h : ∀ c ∈ cells, c.Admitted admitted) :
    ∀ c ∈ alike cells, c.Admitted admitted := by
  have hmap {f : Cell → Cell} (hf : ∀ c, f c = c ∨ (f c).Admitted admitted) :
      ∀ c ∈ cells.map f, c.Admitted admitted := by
    refine List.forall_mem_map.mpr fun c hc => (hf c).elim (fun heq => ?_) id
    rw [heq]
    exact h c hc
  unfold alike
  split
  · apply hmap
    intro c
    match c with
    | .integer _ | .decimal _ => exact .inr (.atom nofun rfl)
    | .null | .flag _ | .real _ | .text _ | .moment _ | .date _ | .noMoment | .clock _ | .bytes _
    | .sized _ | .bundle _ | .list _ | .record _ => exact .inl rfl
  · apply hmap
    intro c
    match c with
    | .moment _ => exact .inr (.atom nofun rfl)
    | .null | .flag _ | .integer _ | .real _ | .text _ | .date _ | .noMoment | .clock _ | .decimal _
    | .bytes _ | .sized _ | .bundle _ | .list _ | .record _ => exact .inl rfl
  · split
    · apply hmap
      intro c
      match c with
      | .integer _ | .sized (.integer ..) => exact .inr (admitted_real _)
      | .null | .flag _ | .real _ | .text _ | .moment _ | .date _ | .noMoment | .clock _ | .decimal _
      | .bytes _ | .sized (.real ..) | .sized (.flag _) | .sized (.text _) | .bundle _ | .list _
      | .record _ => exact .inl rfl
    · exact h

theorem admitted_get? {fs : Record} (h : ∀ f ∈ fs, f.2.Admitted admitted) (name : String) :
    ((Record.get? fs name).getD null).Admitted admitted := by
  induction fs with
  | nil => exact admitted_null
  | cons f fs ih =>
    rw [List.forall_mem_cons] at h
    rw [Record.get?]
    split
    · exact h.1
    · exact ih h.2

theorem admitted_field {c : Cell} (h : c.Admitted admitted) (name : String) :
    ((Record.get? c.fields name).getD null).Admitted admitted := by
  cases h with
  | atom | list => exact admitted_null
  | record _ h => exact admitted_get? h name

theorem admitted_withField (name : String) {cells column : List Cell}
    (h : ∀ c ∈ cells, c.Admitted admitted) (hcolumn : ∀ c ∈ column, c.Admitted admitted) :
    ∀ c ∈ withField name cells column, c.Admitted admitted := by
  fun_induction withField name cells column with
  | case1 fs cells v column ih =>
    rw [List.forall_mem_cons] at h hcolumn ⊢
    refine ⟨?_, ih h.2 hcolumn.2⟩
    cases h.1 with
    | record keys hfs =>
      exact .record (List.forall_mem_cons.mpr ⟨nofun, keys⟩) (List.forall_mem_cons.mpr ⟨hcolumn.1, hfs⟩)
  | case2 c cells _ column _ ih =>
    rw [List.forall_mem_cons] at h hcolumn ⊢
    exact ⟨h.1, ih h.2 hcolumn.2⟩
  | case3 => exact h

theorem admitted_regroup {cells made : List Cell} (h : ∀ c ∈ cells, c.Admitted admitted)
    (hmade : ∀ c ∈ made, c.Admitted admitted) : ∀ c ∈ regroup cells made, c.Admitted admitted := by
  fun_induction regroup cells made with
  | case1 => exact List.forall_mem_nil _
  | case2 cs rest made ih =>
    rw [List.forall_mem_cons] at h ⊢
    exact ⟨.list fun c hc => hmade c (List.mem_of_mem_take hc),
      ih h.2 fun c hc => hmade c (List.mem_of_mem_drop hc)⟩
  | case3 c rest made _ ih =>
    rw [List.forall_mem_cons] at h ⊢
    exact ⟨h.1, ih h.2 hmade⟩

theorem admitted_uniformTo (fuel : Nat) {cells : List Cell} (h : ∀ c ∈ cells, c.Admitted admitted) :
    ∀ c ∈ uniformTo fuel cells, c.Admitted admitted := by
  induction fuel generalizing cells with
  | zero => exact admitted_alike h
  | succ fuel ih =>
    rw [uniformTo]
    split
    · generalize allNames cells = names
      induction names with
      | nil =>
        refine List.forall_mem_map.mpr fun c hc => ?_
        cases h c hc with
        | atom ha single => exact .atom ha single
        | list hitems => exact .list hitems
        | record => exact .record (List.forall_mem_nil _) (List.forall_mem_nil _)
      | cons name names hmade =>
        have hcolumn := List.forall_mem_map.mpr fun c hc => admitted_field (h c hc) name
        exact admitted_withField name hmade (ih hcolumn)
    · split
      · refine admitted_regroup h (ih fun d hd => ?_)
        obtain ⟨c, hc, hd⟩ := List.mem_flatMap.mp hd
        cases h c hc with
        | atom | record => cases hd
        | list hitems => exact hitems d hd
      · exact admitted_alike h

theorem admitted_uniform {cells : List Cell} (h : ∀ c ∈ cells, c.Admitted admitted) :
    ∀ c ∈ uniform cells, c.Admitted admitted := admitted_uniformTo _ h

end Cell

/-! Payloads. -/

namespace Payload

/-- All integers are admitted, and the keys of each map are distinct. -/
inductive Sound (admitted : Int → Prop) : Payload → Prop
  | cell {c : Cell} (h : c.Admitted admitted) : Sound admitted (.cell c)
  | list {items : List Payload} (h : ∀ p ∈ items, Sound admitted p) : Sound admitted (.list items)
  | record {fields : List (String × Payload)} (keys : (fields.map Prod.fst).Nodup)
    (h : ∀ f ∈ fields, Sound admitted f.2) : Sound admitted (.record fields)
  | boxed {c : Cell} (h : c.Admitted admitted) : Sound admitted (.boxed c)
  | table {columns : List (String × List Cell)}
    (h : ∀ col ∈ columns, ∀ c ∈ col.2, c.Admitted admitted) : Sound admitted (.table columns)
  | frame {columns : List (String × List Payload)}
    (h : ∀ col ∈ columns, ∀ p ∈ col.2, Sound admitted p) : Sound admitted (.frame columns)

theorem safe_rowAt {columns : List (String × List Json)}
    (h : ∀ col ∈ columns, ∀ j ∈ col.2, j.Safe admitted) (i : Nat) :
    (rowAt columns i).Safe admitted := by
  have hrow (done : List (String × Json)) (hdone : Cell.SafeFields admitted done) :
      Cell.SafeFields admitted
        (columns.foldl (fun fields col => putField col.1 (col.2[i]?.getD .null) fields) done) := by
    induction columns generalizing done with
    | nil => exact hdone
    | cons col columns ih =>
      rw [List.forall_mem_cons] at h
      refine ih h.2 _ (hdone.put col.1 ?_)
      cases hj : col.2[i]? with
      | none => exact .null
      | some j => exact h.1 j (List.mem_of_getElem? hj)
  obtain ⟨hkeys, hvalues⟩ := hrow [] .nil
  exact .object hkeys hvalues

theorem safe_rows {columns : List (String × List Json)}
    (h : ∀ col ∈ columns, ∀ j ∈ col.2, j.Safe admitted) : (Json.list (rows columns)).Safe admitted := by
  refine .list ?_
  unfold rows
  split
  · exact List.forall_mem_nil _
  · exact List.forall_mem_map.mpr fun i _ => safe_rowAt h i

theorem safe_toJson {p : Payload} (h : p.Sound admitted) : p.toJson.Safe admitted := by
  induction h with
  | cell h => exact Cell.safe_toJson h
  | list _ ih =>
    rw [toJson, itemsToJson_eq]
    exact .list (List.forall_mem_map.mpr ih)
  | record keys _ ih =>
    rw [toJson, fieldsToJson_eq]
    exact .object (by simpa [Function.comp_def] using keys) (List.forall_mem_map.mpr ih)
  | @boxed c h =>
    rw [toJson]
    have hone := Cell.admitted_uniform (List.forall_mem_singleton.mpr h)
    cases hmade : Cell.uniform [c] with
    | nil => exact .null
    | cons d made =>
      rw [hmade] at hone
      exact Cell.safe_toJson (hone d List.mem_cons_self)
  | table h =>
    rw [toJson]
    refine safe_rows (List.forall_mem_map.mpr fun col hcol => ?_)
    rw [Cell.itemsToJson_eq]
    exact List.forall_mem_map.mpr fun c hc =>
      Cell.safe_toJson (Cell.admitted_uniform (h col hcol) c hc)
  | frame _ ih =>
    rw [toJson, columnsToJson_eq]
    exact safe_rows (List.forall_mem_map.mpr fun col hcol => List.forall_mem_map.mpr (ih col hcol))

theorem itemsFailure?_eq_none {items : List Payload} (h : ∀ p ∈ items, p.jsonFailure? = none) :
    itemsFailure? items = none := by
  induction items with
  | nil => rfl
  | cons p items ih =>
    rw [List.forall_mem_cons] at h
    rw [itemsFailure?, h.1, ih h.2]
    rfl

theorem fieldsFailure?_eq_none {fields : List (String × Payload)}
    (h : ∀ f ∈ fields, f.2.jsonFailure? = none) : fieldsFailure? fields = none := by
  induction fields with
  | nil => rfl
  | cons f fields ih =>
    rw [List.forall_mem_cons] at h
    rw [fieldsFailure?, h.1, ih h.2]
    rfl

theorem columnsFailure?_eq_none {columns : List (String × List Payload)}
    (h : ∀ col ∈ columns, ∀ p ∈ col.2, p.jsonFailure? = none) : columnsFailure? columns = none := by
  induction columns with
  | nil => rfl
  | cons col columns ih =>
    rw [List.forall_mem_cons] at h
    rw [columnsFailure?, itemsFailure?_eq_none h.1, ih h.2]
    rfl

theorem jsonFailure?_eq_none {p : Payload} (h : p.Sound IsShort) : p.jsonFailure? = none := by
  induction h with
  | @cell c h => exact (Cell.jsonFailure?_eq_none_iff c).mpr h
  | list _ ih => exact itemsFailure?_eq_none ih
  | record _ _ ih => exact fieldsFailure?_eq_none ih
  | boxed h =>
    exact (Cell.itemsFailure?_eq_none_iff _).mpr (Cell.admitted_uniform (List.forall_mem_singleton.mpr h))
  | table h =>
    refine (Cell.itemsFailure?_eq_none_iff _).mpr fun c hc => ?_
    obtain ⟨col, hcol, hc⟩ := List.mem_flatMap.mp hc
    exact Cell.admitted_uniform (h col hcol) c hc
  | frame _ ih => exact columnsFailure?_eq_none ih

theorem asJson_of_sound {p : Payload} (h : p.Sound IsShort) : p.asJson = .ok p.toJson := by
  rw [asJson, jsonFailure?_eq_none h]
  rfl

/-- Numbers and dates that are none, keys that are shown alike, a box, and two kinds of tables. -/
def mixed : Payload :=
  .record [("lists", .list [.cell (.real .nan), .cell (.list [.real (.infinite true), .noMoment])]),
    ("keys", .cell (.record [(.integer 1, .text "a"), (.text "1", .bytes [0])])),
    ("box", .boxed (.sized (.integer ⟨true, 64⟩ 5))),
    ("table", .table [("x", [.integer 1, .real .nan]), ("x", [.decimal (.finite false 150 (-2))])]),
    ("frame", .frame [("y", [.cell (.clock .midnight), .list []])])]

end Payload

end PlainSheets
