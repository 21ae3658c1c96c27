import Mathlib.Data.List.Chain
import SchemaPack.Proofs.Json.Order

namespace SchemaPack.Json

theorem dropRepeats_eq_self {last : Json} {values : List Json}
    (fresh : ((last :: values).zip values).any (fun pair => pair.1.equal pair.2) = false) :
    dropRepeats last values = values := by
  induction values generalizing last with
  | nil => rfl
  | cons value rest ih =>
    rw [List.zip_cons_cons, List.any_cons, Bool.or_eq_false_iff] at fresh
    obtain ⟨here, later⟩ := fresh
    have kept : ¬value.equal last = true := by
      intro same
      rw [equal_comm same] at here
      cases here
    rw [dropRepeats, if_neg kept, ih later]

/-- Each value that is kept was compared with the one kept before it, whatever was dropped between
    them. -/
theorem dropRepeats_isChain (last : Json) (values : List Json) :
    (last :: dropRepeats last values).IsChain fun a b => a.equal b = false := by
  induction values generalizing last with
  | nil => exact .singleton last
  | cons value rest ih =>
    rw [dropRepeats]
    split
    · exact ih last
    · rename_i kept
      refine .cons_cons ?_ (ih value)
      rw [← Bool.not_eq_true]
      exact fun same => kept (equal_comm same)

theorem unrepeated_isChain (values : List Json) :
    (unrepeated values).IsChain fun a b => a.equal b = false := by
  cases values with
  | nil => exact .nil
  | cons first rest => exact dropRepeats_isChain first rest

theorem unrepeated_eq_self {values : List Json} (fresh : repeats values = false) :
    unrepeated values = values := by
  cases values with
  | nil => rfl
  | cons first rest =>
    have kept : dropRepeats first rest = rest := dropRepeats_eq_self fresh
    exact congrArg (first :: ·) kept

/-- What deduplication leaves of some values, in whatever order it finds them: a value for each of
    them and no equal neighbours. -/
structure Represents (kept values : List Json) : Prop where
  drawn : ∀ value ∈ kept, value ∈ values
  covers : ∀ value ∈ values, ∃ other ∈ kept, value.equal other = true
  apart : kept.IsChain fun a b => a.equal b = false

theorem represents_of_sortUnique {values kept : List Json} (ran : sortUnique values = some kept) :
    Represents kept values where
  drawn := fun _ => mem_of_mem_sortUnique ran
  covers := fun _ => exists_mem_sortUnique ran
  apart := by
    obtain ⟨sorted, -, rfl⟩ := Option.map_eq_some_iff.mp ran
    exact unrepeated_isChain sorted

/-- Deduplication keeps a value for each value and leaves no equal neighbours. It drops something
    exactly where duplicates are found, and else only sorts, if there are at most 20 values or if
    comparison orders them. -/
theorem sortUnique_agrees (values : List Json) :
    (∀ kept, sortUnique values = some kept → Represents kept values) ∧
      (Orderable values → ∃ kept found, sortUnique values = some kept ∧
        hasDuplicates values = some found ∧ (kept.length < values.length ↔ found = true) ∧
        (found = false → kept.Perm values)) := by
  refine ⟨fun _ => represents_of_sortUnique, fun orderable => ?_⟩
  refine ⟨_, _, sortUnique_eq orderable, hasDuplicates_eq orderable, ?_⟩
  rw [← (inserted_perm values).length_eq]
  constructor
  · constructor
    · intro shorter
      by_contra none
      rw [unrepeated_eq_self (Bool.eq_false_iff.mpr none)] at shorter
      exact Nat.lt_irrefl _ shorter
    · exact unrepeated_length_lt
  · intro fresh
    rw [unrepeated_eq_self fresh]
    exact inserted_perm values

/-- Two integers that differ, between them the double that both are rounded to, and an object whose
    members stand in either order. -/
def ambiguous : List Json := [
  .number (.integer 9007199254740993),
  .number (.real ⟨false, 4503599627370496, 1075, by decide⟩),
  .number (.integer 9007199254740992),
  .object [("a", .bool true), ("b", .null)],
  .object [("b", .null), ("a", .bool true)]]

theorem sortUnique_agrees_ambiguous :
    Orderable ambiguous ∧ ∃ kept found, sortUnique ambiguous = some kept ∧
      hasDuplicates ambiguous = some found ∧ (kept.length < ambiguous.length ↔ found = true) ∧
      (found = false → kept.Perm ambiguous) ∧ Represents kept ambiguous ∧
      kept = [.number (.integer 9007199254740993), .number (.integer 9007199254740992),
        .object [("a", .bool true), ("b", .null)]] := by
  have few : Orderable ambiguous := .inl (by decide)
  obtain ⟨represents, agrees⟩ := sortUnique_agrees ambiguous
  obtain ⟨kept, found, keeps, finds, shorter, perm⟩ := agrees few
  have result : sortUnique ambiguous = some [.number (.integer 9007199254740993),
      .number (.integer 9007199254740992), .object [("a", .bool true), ("b", .null)]] := by
    decide +kernel
  exact ⟨few, kept, found, keeps, finds, shorter, perm, represents kept keeps,
    Option.some.inj (keeps.symm.trans result)⟩

def pairOf (first : Number) (second : Nat) : Json :=
  .array [.number first, .number (.ofInt64 (.ofNat second))]

def pairsWith (first : Number) (count : Nat) : List Json := (List.range count).map (pairOf first)

def tangled : List Json := pairsWith .zero 4 ++ [
  pairOf (.integer 9007199254740992) 2,
  pairOf (.integer 9007199254740993) 1,
  pairOf (.real ⟨false, 4503599627370496, 1075, by decide⟩) 2,
  pairOf (.integer 9007199254740992) 3]

def disordered : List Json :=
  tangled ++ [pairOf (.integer 9007199254740994) 1] ++
    (pairsWith (.integer 9007199254740994) 13).eraseIdx 1

/-- The references to 21 values are sorted in larger parts than the values are, and only there equal
    ones meet. -/
theorem sortUnique_disagrees :
    disordered.length = 21 ∧ hasDuplicates disordered = some true ∧
      ∃ kept, sortUnique disordered = some kept ∧ kept.length = 21 ∧
        hasDuplicates kept = some false := by
  have length : (sortUnique disordered).map (·.length) = some 21 := by decide +kernel
  have fresh : (sortUnique disordered).bind hasDuplicates = some false := by decide +kernel
  obtain ⟨kept, keeps, counted⟩ := Option.map_eq_some_iff.mp length
  rw [keeps] at fresh
  exact ⟨by decide, by decide +kernel, kept, keeps, counted, fresh⟩

/-- Three pairs equal each other, but sorting leaves others between them that do not. -/
def undiminished : List Json :=
  let low := pairOf (.integer 9007199254740997) 1
  let high := pairOf (.integer 9007199254740997) 2
  let apart := pairOf (.integer 9007199254740996) 3
  tangled ++ pairsWith (.integer 9007199254740994) 8 ++ (List.replicate 8 [low, high]).flatten ++
    [apart, high, low, high, apart, high, low, high,
      pairOf (.real ⟨false, 4503599627370498, 1075, by decide⟩) 3] ++
    pairsWith (.integer 9007199254741000) 24

theorem hasDuplicates_undiminished : hasDuplicates undiminished = some true := by decide +kernel

theorem sortUnique_undiminished : sortUnique undiminished = some undiminished := by decide +kernel

end SchemaPack.Json
