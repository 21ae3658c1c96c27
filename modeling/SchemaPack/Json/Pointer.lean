import SchemaPack.Json.Basic
import SchemaPack.Text

namespace SchemaPack

structure Pointer where
  tokens : List String := []
  deriving DecidableEq, Repr

namespace Pointer

def root : Pointer := {}

def isRoot (p : Pointer) : Bool := p.tokens.isEmpty

def child (p : Pointer) (token : String) : Pointer := ⟨p.tokens ++ [token]⟩

def item (p : Pointer) (index : Nat) : Pointer := p.child (toString index)

def escape : List Char → List Char
  | [] => []
  | '~' :: rest => '~' :: '0' :: escape rest
  | '/' :: rest => '~' :: '1' :: escape rest
  | c :: rest => c :: escape rest

def unescape : List Char → List Char
  | [] => []
  | '~' :: '1' :: rest => '/' :: unescape rest
  | '~' :: '0' :: rest => '~' :: unescape rest
  | c :: rest => c :: unescape rest

def text (p : Pointer) : String :=
  String.ofList (p.tokens.flatMap fun token => '/' :: escape token.toList)

/-- A text that is not empty begins with a slash. -/
def ofText? (text : String) : Option Pointer :=
  match text.toList with
  | [] => some root
  | '/' :: rest => some ⟨(splitAt '/' rest).map fun token => String.ofList (unescape token)⟩
  | _ => none

def index? (token : String) : Option Nat :=
  match token.toList with
  | '0' :: _ :: _ => none
  | _ => natural? token

def step? : Json → String → Option Json
  | .object members, token => Members.get? members token
  | .array items, token => (index? token).bind fun index => items[index]?
  | _, _ => none

def select? (p : Pointer) (value : Json) : Option Json := p.tokens.foldlM step? value

end Pointer

end SchemaPack
