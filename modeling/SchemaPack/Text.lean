namespace SchemaPack

/-- The parts between the separators. There is always one more part than separators. -/
def splitAt (separator : Char) : List Char → List (List Char)
  | [] => [[]]
  | c :: rest =>
    if c = separator then [] :: splitAt separator rest
    else match splitAt separator rest with
      | [] => [[c]]
      | part :: others => (c :: part) :: others

def splitText (separator : Char) (text : String) : List String :=
  (splitAt separator text.toList).map String.ofList

/-- The blanks of Unicode's White_Space property. -/
def isBlank (c : Char) : Bool :=
  let n := c.toNat
  (9 ≤ n && n ≤ 13) || n == 32 || n == 0x85 || n == 0xa0 || n == 0x1680 ||
    (0x2000 ≤ n && n ≤ 0x200a) || n == 0x2028 || n == 0x2029 || n == 0x202f || n == 0x205f ||
    n == 0x3000

def isDigit (c : Char) : Bool := '0' ≤ c && c ≤ '9'

def digitValue (c : Char) : Nat := c.toNat - 48

def ofDigits (digits : List Nat) : Nat := digits.foldl (fun n digit => n * 10 + digit) 0

def natural? (text : String) : Option Nat :=
  let cs := text.toList
  if cs.isEmpty ∨ ¬ cs.all isDigit then none else some (ofDigits (cs.map digitValue))

end SchemaPack
