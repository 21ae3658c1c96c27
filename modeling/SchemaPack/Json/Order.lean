import SchemaPack.Json.Basic
import SchemaPack.Sorting

namespace SchemaPack

namespace Json

mutual

def sortMembers : Json → Json
  | .array items => .array (sortItems items)
  | .object members =>
    .object (insertionSort (fun a b => Ord.compare a.1 b.1) (sortEntries members))
  | other => other

def sortItems : List Json → List Json
  | [] => []
  | item :: rest => sortMembers item :: sortItems rest

def sortEntries : List (String × Json) → List (String × Json)
  | [] => []
  | (name, value) :: rest => (name, sortMembers value) :: sortEntries rest

end

def rank : Json → Nat
  | .null => 0
  | .bool _ => 1
  | .number _ => 2
  | .string _ => 3
  | .array _ => 4
  | .object _ => 5

mutual

/-- The order on values whose members are sorted: by kind, then by value, arrays and objects
    lexicographically. -/
def compareSorted : Json → Json → Ordering
  | .null, .null => .eq
  | .bool a, .bool b => Ord.compare a b
  | .number a, .number b => a.compare b
  | .string a, .string b => Ord.compare a b
  | .array a, .array b => compareItems a b
  | .object a, .object b => compareEntries a b
  | a, b => Ord.compare a.rank b.rank

def compareItems : List Json → List Json → Ordering
  | [], [] => .eq
  | [], _ :: _ => .lt
  | _ :: _, [] => .gt
  | a :: as, b :: bs => (compareSorted a b).then (compareItems as bs)

def compareEntries : List (String × Json) → List (String × Json) → Ordering
  | [], [] => .eq
  | [], _ :: _ => .lt
  | _ :: _, [] => .gt
  | (n, a) :: as, (m, b) :: bs =>
    ((Ord.compare n m).then (compareSorted a b)).then (compareEntries as bs)

end

/-- Numbers compare by value, so `1` and `1.0` are equal, and members in the order of their names,
    whatever their order in the document. -/
def compare (a b : Json) : Ordering := compareSorted a.sortMembers b.sortMembers

def equal (a b : Json) : Bool := a.compare b == .eq

def comparePlaces (values : List Json) (i j : Nat) : Ordering :=
  (values.getD i .null).compare (values.getD j .null)

/-- Values in ascending order. Comparison is not transitive, so there may be no result, or one that
    depends on what is moved. -/
def sort (moved : Sorting.Moved) (values : List Json) : Option (List Json) :=
  (Sorting.order moved (comparePlaces values) values.length).map (·.map (values.getD · .null))

/-- Whether some neighbours in a list are equal. -/
def repeats (values : List Json) : Bool :=
  (values.zip values.tail).any fun pair => pair.1.equal pair.2

def hasDuplicates (values : List Json) : Option Bool := (sort .references values).map repeats

/-- Drops each value that equals the last one kept. -/
def dropRepeats (last : Json) : List Json → List Json
  | [] => []
  | value :: rest =>
    if value.equal last then dropRepeats last rest else value :: dropRepeats value rest

def unrepeated : List Json → List Json
  | [] => []
  | first :: rest => first :: dropRepeats first rest

def sortUnique (values : List Json) : Option (List Json) := (sort .values values).map unrepeated

mutual

/-- Equality of values whose members are sorted, spelling included: `1` is not `1.0`. -/
def sameSorted : Json → Json → Bool
  | .null, .null => true
  | .bool a, .bool b => a == b
  | .number (.integer a _), .number (.integer b _) => a == b
  | .number (.real a), .number (.real b) => a.units == b.units
  | .string a, .string b => a == b
  | .array a, .array b => sameItems a b
  | .object a, .object b => sameEntries a b
  | _, _ => false

def sameItems : List Json → List Json → Bool
  | [], [] => true
  | a :: as, b :: bs => sameSorted a b && sameItems as bs
  | _, _ => false

def sameEntries : List (String × Json) → List (String × Json) → Bool
  | [], [] => true
  | (n, a) :: as, (m, b) :: bs => n == m && sameSorted a b && sameEntries as bs
  | _, _ => false

end

def same (a b : Json) : Bool := sameSorted a.sortMembers b.sortMembers

end Json

end SchemaPack
