import SchemaPack.Text

namespace SchemaPack

inductive PathStep where
  | root
  | here
  | above
  | entry (name : String)
  deriving DecidableEq, Repr

namespace PathStep

def rank : PathStep → Nat
  | .root => 0
  | .here => 1
  | .above => 2
  | .entry _ => 3

def compare : PathStep → PathStep → Ordering
  | .entry a, .entry b => Ord.compare a b
  | a, b => Ord.compare a.rank b.rank

end PathStep

structure Path where
  text : String
  deriving DecidableEq, Repr

namespace Path

def parts (p : Path) : List String := if p.text.isEmpty then [] else splitText '/' p.text

def isIdle (part : String) : Bool := part.isEmpty || part == "."

def step? (part : String) : Option PathStep :=
  if isIdle part then none else if part = ".." then some .above else some (.entry part)

/-- Idle parts count only at the start, where they say what the path is relative to. -/
def steps (p : Path) : List PathStep :=
  match p.parts with
  | "" :: rest => .root :: rest.filterMap step?
  | "." :: rest => .here :: rest.filterMap step?
  | parts => parts.filterMap step?

def compare (p q : Path) : Ordering := List.compareLex PathStep.compare p.steps q.steps

def isHere (p : Path) : Bool := p.steps == [.here]

def trim : List String → List String
  | [] => []
  | first :: rest => first :: (rest.reverse.dropWhile isIdle).reverse

def parentParts? (parts : List String) : Option (List String) :=
  match trim parts with
  | [] | [""] => none
  | parts => some (trim parts.dropLast)

/-- A name without its last extension. A point that comes first begins no extension. -/
def stemOfName (name : String) : String :=
  match name.toList.reverse.dropWhile (· != '.') with
  | [] | ['.'] => name
  | _ :: stem => String.ofList stem.reverse

def stem? (p : Path) : Option String :=
  match p.steps.getLast? with
  | some (.entry name) => some (stemOfName name)
  | _ => none

def join (p : Path) (name : String) : Path :=
  if p.text.isEmpty || p.text.toList.getLast? == some '/' then ⟨p.text ++ name⟩
  else ⟨p.text ++ "/" ++ name⟩

end Path

end SchemaPack
