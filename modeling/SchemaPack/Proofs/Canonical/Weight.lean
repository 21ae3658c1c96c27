import SchemaPack.Canonical
import SchemaPack.Proofs.Json.Totals
import SchemaPack.Proofs.Rules.Invariant

namespace SchemaPack

def Keyword.roleOf (name : String) : Role :=
  ((all.find? (·.name == name)).map Keyword.role).getD .assertion

namespace Canonical

def itemCount (value : Json) : Nat := (value.items?.map List.length).getD 0

/-- How many names `dependentRequired` can still add to `required`. -/
def dependents (value : Json) : Nat := value.total fun _ names => itemCount names

/-- A bound on how many properties can come to be required. -/
def demand (node : Json) : Nat :=
  node.share (fun _ => itemCount) "required" + node.share (fun _ => dependents) "dependentRequired"

/-- What a keyword counts for beside the subschemas in it, where `demand` properties at most come
    to be required. -/
def cost (demand : Nat) (name : String) (value : Json) : Nat :=
  match name with
  | "const" => 4
  | "enum" | "required" => 1 + itemCount value
  | "dependentRequired" => 1 + value.total fun _ names => 1 + itemCount names
  | "maximum" | "minimum" => if value.number?.any (!·.isIntegral) then 2 else 1
  | "exclusiveMaximum" | "exclusiveMinimum" => 3
  | "maxLength" | "maxItems" | "maxProperties" => 6
  | "minProperties" =>
    1 + (value.number?.map fun n => ((demand : Int) + 1 - n.toInt .up).toNat).getD 0
  | _ => 1

def defaultsOf : InstanceType → List String
  | .integer => ["multipleOf"]
  | .array => ["minItems"]
  | .string => ["minLength"]
  | .object => ["minProperties", "required", "properties"]
  | .null | .boolean | .number => []

def pendingDefaults (node : Json) : Nat :=
  if node.containsAny ["enum", "const"] then 0
  else
    (node.declaredType?.map fun type =>
      ((defaultsOf type).filter (!node.contains ·)).length).getD 0

/-- Whether the type of a node may yet become the union of all types. -/
def isOpen (node : Json) : Bool := !node.containsAny ["const", "enum", "anyOf"]

/-- What may yet be written into a node for its type. -/
def potential (node : Json) : Nat :=
  match node.get? "type" with
  | some (.array _) => 41 + 6 * (demand node + 4)
  | some _ => 40 + pendingDefaults node * (demand node + 4)
  | none => if isOpen node then 41 + 6 * (demand node + 4) else 0

/-- How often the keywords of a node may yet be copied. -/
def copies (node : Json) : Nat :=
  match node.get? "type" with
  | some (.array types) => types.length + 2
  | some _ => 1
  | none => if isOpen node then 10 else 1

mutual

/-- A bound on how many rules are applied to a value with the role and inside it. -/
def weight : Role → Json → Nat
  | .subschema, .object members =>
    1 + copies (.object members) * (potential (.object members) +
      (memberWeights members + Members.total (cost (demand (.object members))) members))
  | .subschema, .bool true => 1000
  | .subschema, _ => 1
  | .subschemaList, .array items => itemWeights items
  | .subschemaMap, .object entries => entryWeights entries
  | _, _ => 0

def itemWeights : List Json → Nat
  | [] => 0
  | item :: rest => weight .subschema item + itemWeights rest

def entryWeights : List (String × Json) → Nat
  | [] => 0
  | (_, value) :: rest => weight .subschema value + entryWeights rest

def memberWeights : List (String × Json) → Nat
  | [] => 0
  | (name, value) :: rest => weight (Keyword.roleOf name) value + memberWeights rest

end

mutual

/-- No schema has a name twice, wherever a schema can stand in a value with the role. -/
def Tidy : Role → Json → Prop
  | .subschema, .object members => (members.map (·.1)).Nodup ∧ TidyMembers members
  | .subschemaList, .array items => TidyItems items
  | .subschemaMap, .object entries => TidyEntries entries
  | _, _ => True

def TidyItems : List Json → Prop
  | [] => True
  | item :: rest => Tidy .subschema item ∧ TidyItems rest

def TidyEntries : List (String × Json) → Prop
  | [] => True
  | (_, value) :: rest => Tidy .subschema value ∧ TidyEntries rest

def TidyMembers : List (String × Json) → Prop
  | [] => True
  | (name, value) :: rest => Tidy (Keyword.roleOf name) value ∧ TidyMembers rest

end

def charge (demand : Nat) (name : String) (value : Json) : Nat :=
  weight (Keyword.roleOf name) value + cost demand name value

theorem memberWeights_eq (members : Members) :
    memberWeights members =
      Members.total (fun name => weight (Keyword.roleOf name)) members := by
  induction members with
  | nil => rfl
  | cons entry rest ih => rw [memberWeights, Members.total_cons, ih]

theorem itemWeights_eq (items : List Json) :
    itemWeights items = (items.map (weight .subschema)).sum := by
  induction items with
  | nil => rfl
  | cons item rest ih => rw [itemWeights, List.map_cons, List.sum_cons, ih]

theorem tidyMembers_iff (members : Members) :
    TidyMembers members ↔ ∀ entry ∈ members, Tidy (Keyword.roleOf entry.1) entry.2 := by
  induction members with
  | nil => simp [TidyMembers]
  | cons entry rest ih => rw [TidyMembers, ih, List.forall_mem_cons]

theorem tidyItems_iff (items : List Json) :
    TidyItems items ↔ ∀ item ∈ items, Tidy .subschema item := by
  induction items with
  | nil => simp [TidyItems]
  | cons item rest ih => rw [TidyItems, ih, List.forall_mem_cons]

theorem weight_pos (value : Json) : 1 ≤ weight .subschema value := by
  cases value with
  | object members =>
    rw [weight]
    omega
  | bool value => cases value <;> decide
  | null | number | string | array => exact Nat.le_refl 1

theorem itemWeights_perm {items others : List Json} (perm : items.Perm others) :
    itemWeights items = itemWeights others := by
  rw [itemWeights_eq, itemWeights_eq]
  exact (perm.map _).sum_nat

theorem itemWeights_sublist {items others : List Json} (sublist : items.Sublist others) :
    itemWeights items + others.length ≤ itemWeights others + items.length := by
  induction sublist with
  | slnil => exact Nat.le_refl _
  | cons item _ ih =>
    have positive := weight_pos item
    rw [itemWeights, List.length_cons]
    omega
  | cons_cons item _ ih =>
    rw [itemWeights, itemWeights, List.length_cons, List.length_cons]
    omega

/-- What a node counts for as a whole before anything is copied. -/
def bulk (node : Json) : Nat := potential node + node.total (charge (demand node))

theorem weight_object {node : Json} (object : node.isObject = true) :
    weight .subschema node = 1 + copies node * bulk node := by
  cases node with
  | object members =>
    rw [weight, memberWeights_eq, ← Members.total_add]
    rfl
  | null | bool | number | string | array => cases object

theorem tidy_object {members : Members} :
    Tidy .subschema (.object members) ↔
      (members.map (·.1)).Nodup ∧
        ∀ entry ∈ members, Tidy (Keyword.roleOf entry.1) entry.2 := by
  rw [Tidy, tidyMembers_iff]

theorem Tidy.distinct {node : Json} (tidy : Tidy .subschema node) : node.names.Nodup := by
  cases node with
  | object members => exact (tidy_object.mp tidy).1
  | null | bool | number | string | array => exact List.nodup_nil

theorem Tidy.get? {node : Json} {name : String} {value : Json} (tidy : Tidy .subschema node)
    (found : node.get? name = some value) : Tidy (Keyword.roleOf name) value := by
  cases node with
  | object members => exact (tidy_object.mp tidy).2 _ (Members.mem_of_get? found)
  | null | bool | number | string | array => cases found

theorem Tidy.erase {node : Json} (tidy : Tidy .subschema node) (name : String) :
    Tidy .subschema (node.erase name) := by
  cases node with
  | object members =>
    obtain ⟨distinct, inside⟩ := tidy_object.mp tidy
    refine tidy_object.mpr ⟨Members.nodup_erase distinct name, ?_⟩
    intro entry member
    exact inside entry (List.mem_filter.mp member).1
  | null | bool | number | string | array => exact tidy

theorem Tidy.eraseAll {node : Json} (tidy : Tidy .subschema node) (names : List String) :
    Tidy .subschema (node.eraseAll names) := by
  unfold Json.eraseAll
  induction names generalizing node with
  | nil => exact tidy
  | cons name rest ih => exact ih (tidy.erase name)

theorem Tidy.insert {node : Json} {name : String} {value : Json} (tidy : Tidy .subschema node)
    (added : Tidy (Keyword.roleOf name) value) : Tidy .subschema (node.insert name value) := by
  cases node with
  | object members =>
    obtain ⟨distinct, inside⟩ := tidy_object.mp tidy
    refine tidy_object.mpr ⟨Members.nodup_insert distinct name value, ?_⟩
    intro entry member
    rcases Members.mem_insert member with old | rfl
    · exact inside entry old
    · exact added
  | null | bool | number | string | array => exact tidy

theorem weight_plain {role : Role} (plain : role.holdsSubschemas = false) (value : Json) :
    weight role value = 0 := by
  cases role with
  | subschema | subschemaList | subschemaMap => cases plain
  | identity | reference | comment | assertion | descriptive => cases value <;> rfl

theorem roleOf_plain {name : String} (plain : name ∈ Keyword.plain) :
    (Keyword.roleOf name).holdsSubschemas = false := by
  unfold Keyword.roleOf
  cases found : Keyword.all.find? (·.name == name) with
  | none => rfl
  | some keyword =>
    have named := List.find?_some found
    rw [beq_iff_eq] at named
    exact Keyword.role_of_plain keyword (List.mem_of_find?_eq_some found) (named ▸ plain)

theorem tidy_plain {name : String} (plain : name ∈ Keyword.plain) (value : Json) :
    Tidy (Keyword.roleOf name) value := by
  have holds := roleOf_plain plain
  cases role : Keyword.roleOf name with
  | subschema | subschemaList | subschemaMap =>
    rw [role] at holds
    cases holds
  | identity | reference | comment | assertion | descriptive => cases value <;> exact trivial

theorem charge_plain {name : String} (plain : name ∈ Keyword.plain) (demand : Nat)
    (value : Json) : charge demand name value = cost demand name value := by
  rw [charge, weight_plain (roleOf_plain plain), Nat.zero_add]

theorem cost_pos (demand : Nat) (name : String) (value : Json) : 1 ≤ cost demand name value := by
  unfold cost
  split <;> first | omega | (split <;> omega)

theorem cost_mono {less more : Nat} (le : less ≤ more) (name : String) (value : Json) :
    cost less name value ≤ cost more name value := by
  unfold cost
  split
  all_goals try exact Nat.le_refl _
  cases value.number? with
  | none => exact Nat.le_refl _
  | some n =>
    simp only [Option.map_some, Option.getD_some]
    omega

theorem charge_mono {less more : Nat} (le : less ≤ more) (name : String) (value : Json) :
    charge less name value ≤ charge more name value :=
  Nat.add_le_add_left (cost_mono le name value) _

theorem share_pos {node : Json} {name : String} (present : node.contains name = true)
    (demand : Nat) : 1 ≤ node.share (charge demand) name := by
  rw [Json.contains_eq] at present
  obtain ⟨value, found⟩ := Option.isSome_iff_exists.mp present
  rw [Json.share_of_get? found, charge]
  have positive := cost_pos demand name value
  omega

theorem copies_pos (node : Json) : 0 < copies node := by
  unfold copies
  split
  · omega
  · omega
  · split <;> omega

theorem pendingDefaults_le (node : Json) : pendingDefaults node ≤ 3 := by
  unfold pendingDefaults
  split
  · omega
  · cases node.declaredType? with
    | none => exact Nat.zero_le _
    | some type =>
      have le := List.length_filter_le (!node.contains ·) (defaultsOf type)
      have short : (defaultsOf type).length ≤ 3 := by cases type <;> decide
      exact Nat.le_trans le short

theorem pendingDefaults_of_listed {node : Json}
    (listed : node.containsAny ["enum", "const"] = true) : pendingDefaults node = 0 := by
  rw [pendingDefaults, if_pos listed]

theorem demand_le {node after : Json}
    (required : after.get? "required" = node.get? "required" ∨ after.get? "required" = none)
    (dependent : after.get? "dependentRequired" = node.get? "dependentRequired" ∨
      after.get? "dependentRequired" = none) : demand after ≤ demand node := by
  have first : after.share (fun _ => itemCount) "required" ≤
      node.share (fun _ => itemCount) "required" := by
    unfold Json.share
    rcases required with same | gone
    · exact Nat.le_of_eq (by rw [same])
    · rw [gone]
      exact Nat.zero_le _
  have second : after.share (fun _ => dependents) "dependentRequired" ≤
      node.share (fun _ => dependents) "dependentRequired" := by
    unfold Json.share
    rcases dependent with same | gone
    · exact Nat.le_of_eq (by rw [same])
    · rw [gone]
      exact Nat.zero_le _
  exact Nat.add_le_add first second

theorem weight_lt {node after : Json} (was : node.isObject = true) (is : after.isObject = true)
    (copied : copies after ≤ copies node) (less : bulk after < bulk node) :
    weight .subschema after < weight .subschema node := by
  rw [weight_object was, weight_object is]
  have lt := Nat.mul_lt_mul_of_le_of_lt copied less (copies_pos node)
  omega

/-- A node gets lighter when its type stays and its keywords count for less. -/
theorem weight_lt_of_total {node after : Json} (was : node.isObject = true)
    (is : after.isObject = true) (type : after.get? "type" = node.get? "type")
    (opens : isOpen after = true → isOpen node = true)
    (pending : pendingDefaults after ≤ pendingDefaults node) (demands : demand after ≤ demand node)
    (less : after.total (charge (demand node)) < node.total (charge (demand node))) :
    weight .subschema after < weight .subschema node := by
  refine weight_lt was is ?_ ?_
  · unfold copies
    rw [type]
    split
    · exact Nat.le_refl _
    · exact Nat.le_refl _
    · split
      · rename_i still
        exact Nat.le_of_eq (if_pos (opens still)).symm
      · split <;> omega
  · have lighter := after.total_mono (charge_mono demands)
    have kept : potential after ≤ potential node := by
      have product := Nat.mul_le_mul pending (Nat.add_le_add_right demands 4)
      unfold potential
      rw [type]
      split
      · omega
      · omega
      · split
        · rename_i still
          rw [if_pos (opens still)]
          omega
        · exact Nat.zero_le _
    unfold bulk
    omega

theorem get?_eraseAll_or (node : Json) (names : List String) (name : String) :
    (node.eraseAll names).get? name = node.get? name ∨ (node.eraseAll names).get? name = none := by
  by_cases listed : name ∈ names
  · exact .inr (node.get?_eraseAll_of_mem listed)
  · exact .inl (node.get?_eraseAll_of_notMem listed)

theorem isOpen_eq {node after : Json}
    (typing : ∀ keyword ∈ ["const", "enum", "anyOf"],
      after.contains keyword = node.contains keyword) : isOpen after = isOpen node := by
  simp only [List.forall_mem_cons, List.not_mem_nil, false_implies, implies_true,
    and_true] at typing
  obtain ⟨const, enum, anyOf⟩ := typing
  simp only [isOpen, Json.containsAny, List.any_cons, List.any_nil, const, enum, anyOf]

theorem pendingDefaults_eq {node after : Json} (type : after.get? "type" = node.get? "type")
    (typing : ∀ keyword ∈ ["const", "enum", "anyOf"],
      after.contains keyword = node.contains keyword)
    (defaults : ∀ type, node.declaredType? = some type → ∀ keyword ∈ defaultsOf type,
      after.contains keyword = node.contains keyword) :
    pendingDefaults after = pendingDefaults node := by
  simp only [List.forall_mem_cons, List.not_mem_nil, false_implies, implies_true,
    and_true] at typing
  obtain ⟨const, enum, _⟩ := typing
  have declared : after.declaredType? = node.declaredType? := by
    rw [Json.declaredType?, type, ← Json.declaredType?]
  have waiting : ∀ type, node.declaredType? = some type →
      (defaultsOf type).filter (!after.contains ·) =
        (defaultsOf type).filter (!node.contains ·) := by
    intro type single
    apply List.filter_congr
    intro keyword inside
    rw [defaults type single keyword inside]
  have listed : after.containsAny ["enum", "const"] = node.containsAny ["enum", "const"] := by
    simp only [Json.containsAny, List.any_cons, List.any_nil, const, enum]
  rw [pendingDefaults, pendingDefaults, listed, declared]
  cases single : node.declaredType? with
  | none => rfl
  | some type =>
    rw [Option.map_some, Option.map_some, Option.getD_some, Option.getD_some, waiting type single]

theorem weight_lt_of_kept {node after : Json} (was : node.isObject = true)
    (is : after.isObject = true) (type : after.get? "type" = node.get? "type")
    (typing : ∀ keyword ∈ ["const", "enum", "anyOf"],
      after.contains keyword = node.contains keyword)
    (defaults : ∀ type, node.declaredType? = some type → ∀ keyword ∈ defaultsOf type,
      after.contains keyword = node.contains keyword) (demands : demand after ≤ demand node)
    (less : after.total (charge (demand node)) < node.total (charge (demand node))) :
    weight .subschema after < weight .subschema node := by
  refine weight_lt_of_total was is type ?_ ?_ demands less
  · rw [isOpen_eq typing]
    exact id
  · exact Nat.le_of_eq (pendingDefaults_eq type typing defaults)

theorem weight_eraseAll_lt {node : Json} {names : List String} {name : String}
    (tidy : Tidy .subschema node) (listed : name ∈ names) (present : node.contains name = true)
    (typing : ∀ keyword ∈ ["type", "const", "enum", "anyOf"], keyword ∉ names)
    (defaults : ∀ type, node.declaredType? = some type → ∀ keyword ∈ defaultsOf type,
      keyword ∉ names) :
    weight .subschema (node.eraseAll names) < weight .subschema node := by
  have object : node.isObject = true := by
    rw [Json.contains_eq] at present
    obtain ⟨value, found⟩ := Option.isSome_iff_exists.mp present
    exact Json.isObject_of_get? found
  have kept : ∀ keyword, keyword ∉ names →
      (node.eraseAll names).contains keyword = node.contains keyword := by
    intro keyword absent
    rw [Json.contains_eq, Json.contains_eq, node.get?_eraseAll_of_notMem absent]
  refine weight_lt_of_kept object ?_ ?_ ?_ ?_ ?_ ?_
  · rw [Json.isObject_eraseAll, object]
  · exact node.get?_eraseAll_of_notMem (typing "type" List.mem_cons_self)
  · intro keyword inside
    exact kept keyword (typing keyword (List.mem_cons_of_mem _ inside))
  · intro type declared keyword inside
    exact kept keyword (defaults type declared keyword inside)
  · exact demand_le (get?_eraseAll_or node names _) (get?_eraseAll_or node names _)
  · have dropped := @Json.total_eraseAll_share_le (charge (demand node)) node tidy.distinct names
      name listed
    have positive := share_pos present (demand node)
    omega

theorem contains_insert_of_present {node : Json} {keyword : String} {old : Json}
    (present : node.get? keyword = some old) (value : Json) (name : String) :
    (node.insert keyword value).contains name = node.contains name := by
  rw [Json.contains_eq, Json.contains_eq]
  by_cases same : keyword = name
  · subst same
    rw [Json.get?_insert_self _ _ _ (Json.isObject_of_get? present), present]
    rfl
  · rw [Json.get?_insert_ne _ _ same]

theorem weight_insert_lt {node : Json} {keyword : String} {old value : Json}
    (tidy : Tidy .subschema node) (present : node.get? keyword = some old)
    (other : keyword ≠ "type") (demands : demand (node.insert keyword value) ≤ demand node)
    (less : charge (demand node) keyword value < charge (demand node) keyword old) :
    weight .subschema (node.insert keyword value) < weight .subschema node := by
  have object := Json.isObject_of_get? present
  refine weight_lt_of_kept object ?_ (node.get?_insert_ne _ other) ?_ ?_ demands ?_
  · rw [Json.isObject_insert, object]
  · exact fun name _ => contains_insert_of_present present value name
  · exact fun _ _ name _ => contains_insert_of_present present value name
  · have added := @Json.total_insert_le (charge (demand node)) node tidy.distinct keyword value
    rw [Json.share_of_get? present] at added
    omega

/-- The keywords that bear on what may yet be written into a node. -/
def bearing : List String :=
  ["type", "const", "enum", "anyOf", "multipleOf", "minItems", "minLength", "minProperties",
    "required", "properties"]

theorem mem_bearing_of_default {type : InstanceType} {keyword : String}
    (default : keyword ∈ defaultsOf type) : keyword ∈ bearing := by
  have all_default : ∀ keyword ∈ defaultsOf type, keyword ∈ bearing := by cases type <;> decide
  exact all_default keyword default

theorem weight_lt_of_plain {node after : Json} (was : node.isObject = true)
    (is : after.isObject = true)
    (kept : ∀ keyword ∈ "dependentRequired" :: bearing, after.get? keyword = node.get? keyword)
    (less : after.total (charge (demand node)) < node.total (charge (demand node))) :
    weight .subschema after < weight .subschema node := by
  have same : ∀ keyword ∈ bearing, after.contains keyword = node.contains keyword := by
    intro keyword inside
    rw [Json.contains_eq, Json.contains_eq, kept keyword (List.mem_cons_of_mem _ inside)]
  refine weight_lt_of_kept was is (kept "type" (by decide)) ?_ ?_ ?_ less
  · have bears : ∀ keyword ∈ ["const", "enum", "anyOf"], keyword ∈ bearing := by decide
    exact fun keyword inside => same keyword (bears keyword inside)
  · exact fun type _ keyword inside => same keyword (mem_bearing_of_default inside)
  · exact demand_le (.inl (kept "required" (by decide)))
      (.inl (kept "dependentRequired" (by decide)))

theorem weight_eraseAll_lt_of_plain {node : Json} {names : List String} {name : String}
    (tidy : Tidy .subschema node) (listed : name ∈ names) (present : node.contains name = true)
    (plain : ∀ keyword ∈ names, keyword ∉ bearing) :
    weight .subschema (node.eraseAll names) < weight .subschema node := by
  refine weight_eraseAll_lt tidy listed present ?_ ?_
  · intro keyword typing erased
    have bears : ∀ keyword ∈ ["type", "const", "enum", "anyOf"], keyword ∈ bearing := by decide
    exact plain keyword erased (bears keyword typing)
  · intro type _ keyword default erased
    exact plain keyword erased (mem_bearing_of_default default)

theorem not_isOpen {node : Json} {keyword : String} (listed : keyword ∈ ["const", "enum", "anyOf"])
    (present : node.contains keyword = true) : isOpen node = false := by
  rw [isOpen, Bool.not_eq_false']
  exact List.any_eq_true.mpr ⟨keyword, listed, present⟩

theorem weight_lt_of_listed {node after : Json} {type : String} {keyword : String}
    (is : after.isObject = true) (typed : node.get? "type" = some (.string type))
    (untyped : after.get? "type" = none) (listed : keyword ∈ ["const", "enum", "anyOf"])
    (present : after.contains keyword = true) (demands : demand after ≤ demand node)
    (less : after.total (charge (demand node)) < 40 + node.total (charge (demand node))) :
    weight .subschema after < weight .subschema node := by
  have closed := not_isOpen listed present
  refine weight_lt (Json.isObject_of_get? typed) is ?_ ?_
  · simp only [copies, typed, untyped, closed, Bool.false_eq_true, if_false]
    exact Nat.le_refl _
  · have lighter := after.total_mono (charge_mono demands)
    simp only [bulk, potential, typed, untyped, closed, Bool.false_eq_true, if_false]
    omega

end Canonical

end SchemaPack
