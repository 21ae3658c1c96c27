import SchemaPack.Proofs.Json.Pointer
import SchemaPack.Proofs.Json.Respelling

namespace SchemaPack

namespace Members

theorem replace_of_absent {members : Members} {name : String} (value : Json)
    (absent : name ∉ members.map (·.1)) :
    (members.map fun entry => if entry.1 == name then (name, value) else entry) = members := by
  refine (List.map_congr_left fun entry listed => if_neg ?_).trans (List.map_id' members)
  rw [beq_iff_eq]
  rintro rfl
  exact absent (List.mem_map_of_mem listed)

theorem insert_between {before after : Members} {name : String} {value : Json} (other : Json)
    (distinct : ((before ++ (name, value) :: after).map (·.1)).Nodup) :
    insert (before ++ (name, value) :: after) name other = before ++ (name, other) :: after := by
  rw [List.map_append, List.map_cons, List.nodup_middle, List.nodup_cons, List.mem_append,
    not_or] at distinct
  have present : contains (before ++ (name, value) :: after) name = true := by
    rw [contains, List.any_append, List.any_cons, beq_self_eq_true, Bool.true_or, Bool.or_true]
  rw [insert, if_pos present, List.map_append, List.map_cons,
    replace_of_absent other distinct.1.1, replace_of_absent other distinct.1.2,
    if_pos (beq_self_eq_true name)]

theorem get?_between {before after : Members} {name : String} {value : Json}
    (distinct : ((before ++ (name, value) :: after).map (·.1)).Nodup) :
    get? (before ++ (name, value) :: after) name = some value :=
  (mem_iff_get? distinct).mp (List.mem_append_right before List.mem_cons_self)

end Members

namespace Pointer

variable {node value other : Json} {token : String}

def put (node : Json) (token : String) (value : Json) : Json :=
  match node with
  | .object members => .object (Members.insert members token value)
  | .array items => .array ((index? token).elim items (items.set · value))
  | other => other

def replaceAt? : List String → Json → Json → Option Json
  | [], value, _ => some value
  | token :: rest, value, node =>
    (step? node token).bind fun inside => (replaceAt? rest value inside).map (put node token)

def replace? (p : Pointer) (value document : Json) : Option Json :=
  replaceAt? p.tokens value document

theorem step?_cases (leads : step? node token = some value) :
    (∃ members, node = .object members ∧ Members.get? members token = some value) ∨
      ∃ (items : List Json) (index : Nat), node = .array items ∧ token = toString index ∧
        items[index]? = some value := by
  cases node with
  | object members => exact .inl ⟨members, rfl, leads⟩
  | array items =>
    obtain ⟨index, numbered, item⟩ := Option.bind_eq_some_iff.mp leads
    exact .inr ⟨items, index, rfl, eq_toString_of_index? numbered, item⟩
  | null | bool | number | string => cases leads

theorem step?_item (items : List Json) (index : Nat) :
    step? (.array items) (toString index) = items[index]? := by
  rw [step?, index?_toString, Option.bind_some]

theorem put_item (items : List Json) (index : Nat) (value : Json) :
    put (.array items) (toString index) value = .array (items.set index value) := by
  rw [put, index?_toString, Option.elim_some]

theorem step?_put (leads : step? node token = some value) :
    step? (put node token other) token = some other := by
  rcases step?_cases leads with ⟨members, rfl, _⟩ | ⟨items, index, rfl, rfl, item⟩
  · exact Members.get?_insert_self members token other
  · have bound := (List.getElem?_eq_some_iff.mp item).1
    rw [put_item, step?_item, List.getElem?_set_self bound]

section Distinct

theorem distinct_of_step? (distinct : node.Distinct) (leads : step? node token = some value) :
    value.Distinct := by
  rcases step?_cases leads with ⟨members, rfl, found⟩ | ⟨items, index, rfl, rfl, item⟩
  · exact distinct.get? found
  · exact Json.distinct_array.mp distinct value (List.mem_of_getElem? item)

theorem distinct_put (distinct : node.Distinct) (inside : value.Distinct) (token : String) :
    (put node token value).Distinct := by
  cases node with
  | object members => exact Json.distinct_insert distinct token inside
  | array items =>
    rw [put]
    cases index? token with
    | none => exact distinct
    | some index =>
      refine Json.distinct_array.mpr fun item listed => ?_
      rcases List.mem_or_eq_of_mem_set listed with old | rfl
      · exact Json.distinct_array.mp distinct item old
      · exact inside
  | null | bool | number | string => exact distinct

theorem put_self (distinct : node.Distinct) (leads : step? node token = some value) :
    put node token value = node := by
  rcases step?_cases leads with ⟨members, rfl, found⟩ | ⟨items, index, rfl, rfl, item⟩
  · obtain ⟨before, after, rfl⟩ := List.append_of_mem (Members.mem_of_get? found)
    exact congrArg Json.object (Members.insert_between value distinct.1)
  · obtain ⟨bound, rfl⟩ := List.getElem?_eq_some_iff.mp item
    rw [put_item, List.set_getElem_self]

theorem put_put (distinct : node.Distinct) (leads : step? node token = some value) (a b : Json) :
    put (put node token a) token b = put node token b := by
  rcases step?_cases leads with ⟨members, rfl, found⟩ | ⟨items, index, rfl, rfl, item⟩
  · obtain ⟨before, after, rfl⟩ := List.append_of_mem (Members.mem_of_get? found)
    have names := distinct.1
    simp only [put, Members.insert_between _ names]
    rw [Members.insert_between]
    simpa using names
  · rw [put_item, put_item, put_item, List.set_set]

end Distinct

section Path

variable {path rest : List String} {document result : Json}

theorem select?_append (path rest : List String) (document : Json) :
    (mk (path ++ rest)).select? document =
      ((mk path).select? document).bind (mk rest).select? := by
  rw [select?, List.foldlM_append]
  rfl

theorem select?_single (token : String) (document : Json) :
    (mk [token]).select? document = step? document token := by
  rw [select?_cons]
  exact Option.bind_fun_some (step? document token)

theorem select?_child (p : Pointer) (token : String) (document : Json) :
    (p.child token).select? document = (p.select? document).bind (step? · token) := by
  rw [child, select?_append]
  exact congrArg _ (funext (select?_single token))

theorem replaceAt?_append (path rest : List String) (value document : Json) :
    replaceAt? (path ++ rest) value document =
      ((mk path).select? document).bind fun inside =>
        (replaceAt? rest value inside).bind (replaceAt? path · document) := by
  induction path generalizing document with
  | nil =>
    cases replaced : replaceAt? rest value document with
    | none => simp [select?, replaced]
    | some result => simp [select?, replaced, replaceAt?]
  | cons token path ih =>
    rw [List.cons_append, replaceAt?, select?_cons]
    cases leads : step? document token with
    | none => rfl
    | some inside =>
      rw [Option.bind_some, Option.bind_some, ih]
      cases (mk path).select? inside with
      | none => rfl
      | some last =>
        rw [Option.bind_some, Option.bind_some]
        cases replaceAt? rest value last with
        | none => rfl
        | some put_there => simp only [Option.bind_some, replaceAt?, leads]

theorem isSome_replaceAt? (path : List String) (value document : Json) :
    (replaceAt? path value document).isSome = ((mk path).select? document).isSome := by
  induction path generalizing document with
  | nil => rfl
  | cons token path ih =>
    rw [replaceAt?, select?_cons]
    cases step? document token with
    | none => rfl
    | some inside => simp only [Option.bind_some, Option.isSome_map, ih]

theorem replaceAt?_cons (replaced : replaceAt? (token :: rest) value document = some result) :
    ∃ inside changed, step? document token = some inside ∧
      replaceAt? rest value inside = some changed ∧ result = put document token changed := by
  obtain ⟨inside, leads, replaced⟩ := Option.bind_eq_some_iff.mp replaced
  obtain ⟨changed, below, rfl⟩ := Option.map_eq_some_iff.mp replaced
  exact ⟨inside, changed, leads, below, rfl⟩

theorem select?_replaceAt? (replaced : replaceAt? path value document = some result) :
    (mk path).select? result = some value := by
  induction path generalizing document result with
  | nil => exact replaced.symm
  | cons token path ih =>
    obtain ⟨inside, changed, leads, below, rfl⟩ := replaceAt?_cons replaced
    rw [select?_cons, step?_put leads, Option.bind_some, ih below]

/-- The value that is replaced last stays. -/
theorem replaceAt?_replaceAt? (distinct : document.Distinct)
    (replaced : replaceAt? path value document = some result) (other : Json) :
    replaceAt? path other result = replaceAt? path other document := by
  induction path generalizing document result with
  | nil => rfl
  | cons token path ih =>
    obtain ⟨inside, changed, leads, below, rfl⟩ := replaceAt?_cons replaced
    rw [replaceAt?, replaceAt?, step?_put leads, leads, Option.bind_some, Option.bind_some,
      ih (distinct_of_step? distinct leads) below]
    refine Option.map_congr fun last _ => ?_
    exact put_put distinct leads changed last

theorem replaceAt?_self (distinct : document.Distinct)
    (selected : (mk path).select? document = some value) :
    replaceAt? path value document = some document := by
  induction path generalizing document with
  | nil => exact selected.symm
  | cons token path ih =>
    rw [select?_cons] at selected
    obtain ⟨inside, leads, selected⟩ := Option.bind_eq_some_iff.mp selected
    rw [replaceAt?, leads, Option.bind_some, ih (distinct_of_step? distinct leads) selected,
      Option.map_some, put_self distinct leads]

theorem distinct_of_select? (distinct : document.Distinct)
    (selected : (mk path).select? document = some value) : value.Distinct := by
  induction path generalizing document with
  | nil =>
    cases selected
    exact distinct
  | cons token path ih =>
    rw [select?_cons] at selected
    obtain ⟨inside, leads, selected⟩ := Option.bind_eq_some_iff.mp selected
    exact ih (distinct_of_step? distinct leads) selected

theorem distinct_of_replaceAt? (distinct : document.Distinct) (inside : value.Distinct)
    (replaced : replaceAt? path value document = some result) : result.Distinct := by
  induction path generalizing document result with
  | nil =>
    cases replaced
    exact inside
  | cons token path ih =>
    obtain ⟨_, changed, leads, below, rfl⟩ := replaceAt?_cons replaced
    exact distinct_put distinct (ih (distinct_of_step? distinct leads) below) token

theorem sizeOf_step?_lt (leads : step? node token = some value) : sizeOf value < sizeOf node := by
  rcases step?_cases leads with ⟨members, rfl, found⟩ | ⟨items, index, rfl, rfl, item⟩
  · have smaller := List.sizeOf_lt_of_mem (Members.mem_of_get? found)
    simp only [Prod.mk.sizeOf_spec, Json.object.sizeOf_spec] at smaller ⊢
    omega
  · have smaller := List.sizeOf_lt_of_mem (List.mem_of_getElem? item)
    simp only [Json.array.sizeOf_spec]
    omega

theorem sizeOf_select?_le (selected : (mk path).select? document = some value) :
    sizeOf value + path.length ≤ sizeOf document := by
  induction path generalizing document with
  | nil =>
    cases selected
    exact Nat.le_refl _
  | cons token path ih =>
    rw [select?_cons] at selected
    obtain ⟨inside, leads, selected⟩ := Option.bind_eq_some_iff.mp selected
    have below := ih selected
    have smaller := sizeOf_step?_lt leads
    rw [List.length_cons]
    omega

theorem isRoot_iff_of_select? {p : Pointer} (selected : p.select? document = some value) :
    p.isRoot = true ↔ value = document := by
  obtain ⟨tokens⟩ := p
  rw [isRoot, List.isEmpty_iff]
  constructor
  · rintro rfl
    exact (Option.some.inj selected).symm
  · rintro rfl
    have size : sizeOf value + tokens.length ≤ sizeOf value := sizeOf_select?_le selected
    have short : tokens.length = 0 := by omega
    exact List.length_eq_zero_iff.mp short

end Path

end Pointer

end SchemaPack
