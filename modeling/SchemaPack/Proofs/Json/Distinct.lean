import SchemaPack.Json.Reader
import SchemaPack.Proofs.Except
import SchemaPack.Proofs.Json.Totals

namespace SchemaPack.Json

mutual

/-- No object in the value has a name twice. -/
def Distinct : Json → Prop
  | .array items => DistinctItems items
  | .object members => (members.map (·.1)).Nodup ∧ DistinctMembers members
  | .null | .bool _ | .number _ | .string _ => True

def DistinctItems : List Json → Prop
  | [] => True
  | item :: rest => Distinct item ∧ DistinctItems rest

def DistinctMembers : List (String × Json) → Prop
  | [] => True
  | (_, value) :: rest => Distinct value ∧ DistinctMembers rest

end

mutual

def decDistinct : (value : Json) → Decidable (Distinct value)
  | .array items => decDistinctItems items
  | .object members =>
    have := decDistinctMembers members
    inferInstanceAs (Decidable ((members.map (·.1)).Nodup ∧ DistinctMembers members))
  | .null | .bool _ | .number _ | .string _ => isTrue trivial

def decDistinctItems : (items : List Json) → Decidable (DistinctItems items)
  | [] => isTrue trivial
  | item :: rest =>
    have := decDistinct item
    have := decDistinctItems rest
    inferInstanceAs (Decidable (Distinct item ∧ DistinctItems rest))

def decDistinctMembers : (members : List (String × Json)) → Decidable (DistinctMembers members)
  | [] => isTrue trivial
  | (_, value) :: rest =>
    have := decDistinct value
    have := decDistinctMembers rest
    inferInstanceAs (Decidable (Distinct value ∧ DistinctMembers rest))

end

instance : DecidablePred Distinct := decDistinct

theorem distinctMembers_iff (members : Members) :
    DistinctMembers members ↔ ∀ entry ∈ members, Distinct entry.2 := by
  induction members with
  | nil => simp [DistinctMembers]
  | cons entry rest ih => rw [DistinctMembers, ih, List.forall_mem_cons]

theorem distinct_insert {members : Members} (distinct : Distinct (.object members)) (name : String)
    {value : Json} (inside : Distinct value) :
    Distinct (.object (Members.insert members name value)) := by
  rw [Distinct, distinctMembers_iff] at distinct ⊢
  refine ⟨Members.nodup_insert distinct.1 name value, ?_⟩
  intro entry member
  rcases Members.mem_insert member with old | rfl
  · exact distinct.2 entry old
  · exact inside

theorem within_ok {α : Type} {segment : Segment} {result : Except SyntaxError α} {a : α}
    (h : within segment result = .ok a) : result = .ok a := by
  cases result with
  | ok b => exact h
  | error e => cases h

theorem readNumber_distinct {negative : Bool} {text rest : List Char} {value : Json}
    (read : readNumber negative text = .ok (value, rest)) : Distinct value := by
  unfold readNumber at read
  obtain ⟨⟨whole, _⟩, _, read⟩ := bind_eq_ok.mp read
  obtain ⟨⟨fraction, _⟩, _, read⟩ := bind_eq_ok.mp read
  obtain ⟨⟨exponent, _⟩, _, read⟩ := bind_eq_ok.mp read
  dsimp only at read
  split at read
  · cases read
    exact trivial
  · cases read

theorem readScalar_distinct {text rest : List Char} {value : Json}
    (read : readScalar text = .ok (value, rest)) : Distinct value := by
  unfold readScalar at read
  split at read
  · cases read
    exact trivial
  · cases read
    exact trivial
  · cases read
    exact trivial
  · obtain ⟨⟨string, _⟩, _, read⟩ := bind_eq_ok.mp read
    cases read
    exact trivial
  · exact readNumber_distinct read
  · exact readNumber_distinct read

theorem readItems_distinct {readItem : List Char → Except SyntaxError (Json × List Char)}
    (inside : ∀ text value rest, readItem text = .ok (value, rest) → Distinct value)
    {fuel index : Nat} {text rest : List Char} {items : List Json}
    (read : readItems readItem fuel index text = .ok (items, rest)) : DistinctItems items := by
  induction fuel generalizing index text items with
  | zero => cases read
  | succ fuel ih =>
    unfold readItems at read
    obtain ⟨⟨item, after⟩, first, read⟩ := bind_eq_ok.mp read
    have here := inside _ _ _ (within_ok first)
    dsimp only at read
    split at read
    · cases read
      exact ⟨here, trivial⟩
    · split at read
      · cases read
      · cases read
      · obtain ⟨⟨others, last⟩, later, read⟩ := bind_eq_ok.mp read
        cases read
        exact ⟨here, ih later⟩
    · cases read

theorem readMembers_distinct {readMember : List Char → Except SyntaxError (Json × List Char)}
    (inside : ∀ text value rest, readMember text = .ok (value, rest) → Distinct value)
    {fuel : Nat} {members results : Members} {text rest : List Char}
    (distinct : Distinct (.object members))
    (read : readMembers readMember fuel members text = .ok (results, rest)) :
    Distinct (.object results) := by
  induction fuel generalizing members text with
  | zero => cases read
  | succ fuel ih =>
    unfold readMembers at read
    split at read
    · obtain ⟨⟨name, after⟩, _, read⟩ := bind_eq_ok.mp read
      dsimp only at read
      split at read
      · obtain ⟨⟨value, after⟩, first, read⟩ := bind_eq_ok.mp read
        have more := distinct_insert distinct name (inside _ _ _ (within_ok first))
        dsimp only at read
        split at read
        · cases read
          exact more
        · exact ih more read
        · cases read
      · cases read
    · cases read

theorem readValue_distinct {depth : Nat} {text rest : List Char} {value : Json}
    (read : readValue depth text = .ok (value, rest)) : Distinct value := by
  induction depth generalizing text value rest with
  | zero =>
    unfold readValue at read
    split at read
    · rename_i impossible
      cases impossible
    · rename_i impossible
      cases impossible
    · exact readScalar_distinct read
  | succ depth ih =>
    have inside : ∀ text value rest, readValue depth text = .ok (value, rest) → Distinct value :=
      fun _ _ _ given => ih given
    have empty : Distinct (.object []) := ⟨List.nodup_nil, trivial⟩
    unfold readValue at read
    split at read
    · rename_i same
      cases same
      split at read
      · cases read
        exact trivial
      · cases read
      · obtain ⟨⟨items, after⟩, first, read⟩ := bind_eq_ok.mp read
        cases read
        exact readItems_distinct inside first
    · rename_i same
      cases same
      split at read
      · cases read
        exact empty
      · obtain ⟨⟨members, after⟩, first, read⟩ := bind_eq_ok.mp read
        cases read
        exact readMembers_distinct inside empty first
    · exact readScalar_distinct read

theorem read?_distinct {text : String} {value : Json} (read : read? text = some value) :
    value.Distinct := by
  unfold read? at read
  split at read
  · rename_i found rest given
    split at read
    · cases read
      exact readValue_distinct given
    · cases read
  · cases read

end SchemaPack.Json
