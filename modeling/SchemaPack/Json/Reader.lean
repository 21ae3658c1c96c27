import SchemaPack.Json.Basic
import SchemaPack.Number.Literal
import SchemaPack.Text

namespace SchemaPack

/-- A step on the way to a part of a document. The member is unknown where its name could not be
    read. -/
inductive Segment where
  | member (name : String)
  | index (index : Nat)
  | unknown
  deriving DecidableEq, Repr

namespace Segment

def text : Segment → String
  | .member name => name
  | .index position => "[" ++ toString position ++ "]"
  | .unknown => "?"

def dotted : Segment → String
  | .index position => text (.index position)
  | segment => "." ++ segment.text

end Segment

/-- Members are joined by points, indices stand in brackets, a point alone is the root. A member
    without a name leaves its place empty. -/
def pathText : List Segment → String
  | [] => "."
  | first :: rest => first.text ++ String.join (rest.map Segment.dotted)

structure SyntaxError where
  path : List Segment := []
  deriving DecidableEq, Repr

namespace SyntaxError

def under (segment : Segment) (e : SyntaxError) : SyntaxError := ⟨segment :: e.path⟩

end SyntaxError

namespace Json

def malformed {α : Type} : Except SyntaxError α := .error {}

/-- Failures of a part are failures under the segment that leads to it. -/
def within {α : Type} (segment : Segment) (result : Except SyntaxError α) : Except SyntaxError α :=
  result.mapError (·.under segment)

def isSpace (c : Char) : Bool := c == ' ' || c == '\n' || c == '\t' || c == '\r'

def skipSpaces (text : List Char) : List Char := text.dropWhile isSpace

def hexValue? (c : Char) : Option Nat :=
  let n := c.toNat
  if isDigit c then some (n - 48)
  else if 'a' ≤ c ∧ c ≤ 'f' then some (n - 87)
  else if 'A' ≤ c ∧ c ≤ 'F' then some (n - 55)
  else none

def unit? (a b c d : Char) : Option Nat := do
  some ((((← hexValue? a) * 16 + (← hexValue? b)) * 16 + (← hexValue? c)) * 16 + (← hexValue? d))

def unescaped? : Char → Option Char
  | '"' => some '"'
  | '\\' => some '\\'
  | '/' => some '/'
  | 'b' => some '\x08'
  | 'f' => some '\x0c'
  | 'n' => some '\n'
  | 'r' => some '\r'
  | 't' => some '\t'
  | _ => none

def isSurrogate (unit : Nat) : Bool := 0xd800 ≤ unit && unit < 0xe000

def paired? (high low : Nat) : Option Char :=
  if high < 0xdc00 ∧ 0xdc00 ≤ low ∧ low < 0xe000 then
    some (Char.ofNat (0x10000 + (high - 0xd800) * 0x400 + (low - 0xdc00)))
  else none

/-- Reads the rest of a string up to its closing quote. Controls must be escaped, and surrogates
    must come in pairs. -/
def readString (chars : List Char) : List Char → Except SyntaxError (String × List Char)
  | '"' :: rest => .ok (String.ofList chars.reverse, rest)
  | '\\' :: 'u' :: a :: b :: c :: d :: rest =>
    match unit? a b c d with
    | none => malformed
    | some unit =>
      if isSurrogate unit then
        match rest with
        | '\\' :: 'u' :: e :: f :: g :: h :: rest =>
          match (unit? e f g h).bind (paired? unit) with
          | some paired => readString (paired :: chars) rest
          | none => malformed
        | _ => malformed
      else readString (Char.ofNat unit :: chars) rest
  | '\\' :: c :: rest =>
    match unescaped? c with
    | some c => readString (c :: chars) rest
    | none => malformed
  | c :: rest => if c.toNat < 32 then malformed else readString (c :: chars) rest
  | [] => malformed

def readDigits (text : List Char) : Except SyntaxError (List Nat × List Char) :=
  let (digits, rest) := text.span isDigit
  if digits.isEmpty then malformed else .ok (digits.map digitValue, rest)

def readWhole : List Char → Except SyntaxError (List Nat × List Char)
  | '0' :: rest => if rest.head?.any isDigit then malformed else .ok ([0], rest)
  | text => readDigits text

def readFraction : List Char → Except SyntaxError (Option (List Nat) × List Char)
  | '.' :: rest => do
    let (digits, rest) ← readDigits rest
    .ok (some digits, rest)
  | text => .ok (none, text)

def readExponent (text : List Char) : Except SyntaxError (Option Int × List Char) := do
  match text with
  | c :: rest =>
    if c = 'e' ∨ c = 'E' then
      match rest with
      | '-' :: rest =>
        let (digits, rest) ← readDigits rest
        .ok (some (-(ofDigits digits : Int)), rest)
      | '+' :: rest =>
        let (digits, rest) ← readDigits rest
        .ok (some (ofDigits digits : Int), rest)
      | rest =>
        let (digits, rest) ← readDigits rest
        .ok (some (ofDigits digits : Int), rest)
    else .ok (none, text)
  | [] => .ok (none, text)

def readNumber (negative : Bool) (text : List Char) : Except SyntaxError (Json × List Char) := do
  let (whole, rest) ← readWhole text
  let (fraction, rest) ← readFraction rest
  let (exponent, rest) ← readExponent rest
  match Literal.toNumber? { negative, whole, fraction, exponent } with
  | some value => .ok (.number value, rest)
  | none => malformed

def readScalar : List Char → Except SyntaxError (Json × List Char)
  | 'n' :: 'u' :: 'l' :: 'l' :: rest => .ok (.null, rest)
  | 't' :: 'r' :: 'u' :: 'e' :: rest => .ok (.bool true, rest)
  | 'f' :: 'a' :: 'l' :: 's' :: 'e' :: rest => .ok (.bool false, rest)
  | '"' :: rest => do
    let (text, rest) ← readString [] rest
    .ok (.string text, rest)
  | '-' :: rest => readNumber true rest
  | text => readNumber false text

/-- Reads array items and the closing bracket after them, the next item being number `index`. -/
def readItems (readItem : List Char → Except SyntaxError (Json × List Char)) :
    Nat → Nat → List Char → Except SyntaxError (List Json × List Char)
  | 0, _, _ => malformed
  | fuel + 1, index, text => do
    let (item, rest) ← within (.index index) (readItem text)
    match skipSpaces rest with
    | ']' :: rest => .ok ([item], rest)
    | ',' :: rest =>
      match skipSpaces rest with
      | [] | ']' :: _ => malformed
      | text =>
        let (items, rest) ← readItems readItem fuel (index + 1) text
        .ok (item :: items, rest)
    | _ => malformed

def nameExpected {α : Type} : Except SyntaxError α := within .unknown malformed

/-- Reads object members and the closing brace after them. A repeated name keeps its first place
    and takes its last value. -/
def readMembers (readMember : List Char → Except SyntaxError (Json × List Char)) :
    Nat → Members → List Char → Except SyntaxError (Members × List Char)
  | 0, _, _ => malformed
  | fuel + 1, members, text => do
    match text with
    | '"' :: rest =>
      let (name, rest) ← within .unknown (readString [] rest)
      match skipSpaces rest with
      | ':' :: rest =>
        let (value, rest) ← within (.member name) (readMember rest)
        let members := Members.insert members name value
        match skipSpaces rest with
        | '\x7d' :: rest => .ok (members, rest)
        | ',' :: rest => readMembers readMember fuel members (skipSpaces rest)
        | _ => nameExpected
      | _ => malformed
    | _ => nameExpected

/-- Reads a value in which at most `depth` containers may be open at once. -/
def readValue : Nat → List Char → Except SyntaxError (Json × List Char)
  | depth, text =>
    match skipSpaces text, depth with
    | '[' :: rest, depth + 1 =>
      match skipSpaces rest with
      | ']' :: rest => .ok (.array [], rest)
      | [] => malformed
      | rest => do
        let (items, rest) ← readItems (readValue depth) (rest.length + 1) 0 rest
        .ok (.array items, rest)
    | '\x7b' :: rest, depth + 1 =>
      match skipSpaces rest with
      | '\x7d' :: rest => .ok (.object [], rest)
      | rest => do
        let (members, rest) ← readMembers (readValue depth) (rest.length + 1) [] rest
        .ok (.object members, rest)
    | rest, _ => readScalar rest

def maximumDepth : Nat := 127

/-- Reads the first value of a text and ignores what follows. -/
def readFirst (text : String) : Except SyntaxError Json :=
  (readValue maximumDepth text.toList).map (·.1)

def read? (text : String) : Option Json :=
  match readValue maximumDepth text.toList with
  | .ok (value, rest) => if (skipSpaces rest).isEmpty then some value else none
  | .error _ => none

end Json

end SchemaPack
