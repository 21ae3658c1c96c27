import SchemaPack.Number.Basic

namespace SchemaPack

/-- A JSON value. Objects keep their members in the order of the document; no name occurs twice in
    a value that was read or built by the operations below. -/
inductive Json where
  | null
  | bool (value : Bool)
  | number (value : Number)
  | string (value : String)
  | array (items : List Json)
  | object (members : List (String × Json))
  deriving Inhabited

abbrev Members := List (String × Json)

namespace Members

def get? (members : Members) (name : String) : Option Json := members.lookup name

def contains (members : Members) (name : String) : Bool := members.any (·.1 == name)

def erase (members : Members) (name : String) : Members := members.filter (·.1 != name)

/-- A name that is present keeps its place, a new one goes last. -/
def insert (members : Members) (name : String) (value : Json) : Members :=
  if members.contains name then
    members.map fun entry => if entry.1 == name then (name, value) else entry
  else members ++ [(name, value)]

end Members

namespace Json

mutual

def decEq : (a b : Json) → Decidable (a = b)
  | .null, .null => isTrue rfl
  | .bool a, .bool b =>
    if h : a = b then isTrue (by rw [h]) else isFalse (by simpa using h)
  | .number a, .number b =>
    if h : a = b then isTrue (by rw [h]) else isFalse (by simpa using h)
  | .string a, .string b =>
    if h : a = b then isTrue (by rw [h]) else isFalse (by simpa using h)
  | .array a, .array b =>
    match decEqItems a b with
    | isTrue h => isTrue (by rw [h])
    | isFalse h => isFalse (by simpa using h)
  | .object a, .object b =>
    match decEqMembers a b with
    | isTrue h => isTrue (by rw [h])
    | isFalse h => isFalse (by simpa using h)
  | .null, .bool _ | .null, .number _ | .null, .string _ | .null, .array _ | .null, .object _
  | .bool _, .null | .bool _, .number _ | .bool _, .string _ | .bool _, .array _
  | .bool _, .object _
  | .number _, .null | .number _, .bool _ | .number _, .string _ | .number _, .array _
  | .number _, .object _
  | .string _, .null | .string _, .bool _ | .string _, .number _ | .string _, .array _
  | .string _, .object _
  | .array _, .null | .array _, .bool _ | .array _, .number _ | .array _, .string _
  | .array _, .object _
  | .object _, .null | .object _, .bool _ | .object _, .number _ | .object _, .string _
  | .object _, .array _ => isFalse nofun

def decEqItems : (a b : List Json) → Decidable (a = b)
  | [], [] => isTrue rfl
  | a :: as, b :: bs =>
    match decEq a b, decEqItems as bs with
    | isTrue h, isTrue t => isTrue (by rw [h, t])
    | isFalse h, _ => isFalse (by simp [h])
    | _, isFalse t => isFalse (by simp [t])
  | [], _ :: _ | _ :: _, [] => isFalse nofun

def decEqMembers : (a b : List (String × Json)) → Decidable (a = b)
  | [], [] => isTrue rfl
  | (n, a) :: as, (m, b) :: bs =>
    match decEq a b, decEqMembers as bs with
    | isTrue h, isTrue t =>
      if k : n = m then isTrue (by rw [h, t, k]) else isFalse (by simp [k])
    | isFalse h, _ => isFalse (by simp [h])
    | _, isFalse t => isFalse (by simp [t])
  | [], _ :: _ | _ :: _, [] => isFalse nofun

end

instance : DecidableEq Json := decEq

def emptyObject : Json := .object []

def bool? : Json → Option Bool
  | .bool value => some value
  | _ => none

def number? : Json → Option Number
  | .number value => some value
  | _ => none

def string? : Json → Option String
  | .string value => some value
  | _ => none

def items? : Json → Option (List Json)
  | .array items => some items
  | _ => none

def members? : Json → Option Members
  | .object members => some members
  | _ => none

def isNull : Json → Bool
  | .null => true
  | _ => false

def isObject (value : Json) : Bool := value.members?.isSome

def get? (value : Json) (name : String) : Option Json := value.members?.bind (·.get? name)

def contains (value : Json) (name : String) : Bool := value.members?.any (·.contains name)

def containsAny (value : Json) (names : List String) : Bool := names.any value.contains

def erase (value : Json) (name : String) : Json :=
  match value with
  | .object members => .object (Members.erase members name)
  | other => other

def eraseAll (value : Json) (names : List String) : Json := names.foldl erase value

def insert (value : Json) (name : String) (member : Json) : Json :=
  match value with
  | .object members => .object (Members.insert members name member)
  | other => other

end Json

end SchemaPack
