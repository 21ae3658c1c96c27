import Mathlib.Logic.Relation
import Mathlib.Order.Interval.Set.LinearOrder
import SchemaPack.Canonical
import SchemaPack.Proofs.Json.Entries
import SchemaPack.Proofs.Json.Order
import SchemaPack.Proofs.Number.Reals
import SchemaPack.Proofs.Number.Rounding

namespace SchemaPack

namespace Number

theorem exact_lt_of_compare {x y : Number} (less : x.compare y = .lt) : x.exact < y.exact := by
  apply Int.not_le.mp
  intro le
  cases x with
  | integer n _ =>
    cases y with
    | integer m _ =>
      have integers : m ≤ n := Int.le_of_mul_le_mul_right le Binary64.one_pos
      have below : n < m := Std.compare_eq_lt.mp less
      omega
    | real y => exact Int.not_le.mpr (Std.compare_eq_lt.mp less) (units_mono le)
  | real x =>
    cases y with
    | integer m _ => exact Int.not_le.mpr (Std.compare_eq_lt.mp less) (units_mono le)
    | real y => exact Int.not_le.mpr (Std.compare_eq_lt.mp less) (units_mono le)

theorem exact_lt_of_compare_gt {x y : Number} (greater : x.compare y = .gt) :
    y.exact < x.exact := by
  apply exact_lt_of_compare
  rw [compare_swap, greater]
  rfl

end Number

inductive Side where
  | lower
  | upper
  deriving DecidableEq, Repr

namespace Side

def inclusive : Side → String
  | .lower => "minimum"
  | .upper => "maximum"

def exclusive : Side → String
  | .lower => "exclusiveMinimum"
  | .upper => "exclusiveMaximum"

def closed : Side → ℝ → Set ℝ
  | .lower => Set.Ici
  | .upper => Set.Iic

def opened : Side → ℝ → Set ℝ
  | .lower => Set.Ioi
  | .upper => Set.Iio

def Tighter : Side → Number → Number → Prop
  | .lower, x, y => y.exact < x.exact
  | .upper, x, y => x.exact < y.exact

def order : Side → Ordering
  | .lower => .gt
  | .upper => .lt

def tighter : Side → Rule
  | .lower => Redundancy.tighterMinimum
  | .upper => Redundancy.tighterMaximum

theorem order_ne_eq (side : Side) : side.order ≠ .eq := by
  cases side <;> decide

theorem inclusive_ne_exclusive (side : Side) : side.inclusive ≠ side.exclusive := by
  cases side <;> decide

theorem closed_subset_opened (side : Side) {x y : Number} :
    side.closed x.toReal ⊆ side.opened y.toReal ↔ side.Tighter x y := by
  cases side with
  | lower => exact Set.Ici_subset_Ioi.trans Number.toReal_lt_toReal
  | upper => exact Set.Iic_subset_Iio.trans Number.toReal_lt_toReal

theorem opened_subset_closed (side : Side) {x y : Number} :
    side.opened y.toReal ⊆ side.closed x.toReal ↔ ¬side.Tighter x y := by
  cases side with
  | lower => exact Set.Ioi_subset_Ici_iff.trans (Number.toReal_le_toReal.trans Int.not_lt.symm)
  | upper => exact Set.Iio_subset_Iic_iff.trans (Number.toReal_le_toReal.trans Int.not_lt.symm)

theorem tighter_of_compare (side : Side) {x y : Number} (inside : x.compare y = side.order) :
    side.Tighter x y := by
  cases side with
  | lower => exact Number.exact_lt_of_compare_gt inside
  | upper => exact Number.exact_lt_of_compare inside

theorem not_tighter_of_compare (side : Side) {x y : Number} (outside : x.compare y ≠ side.order)
    (apart : x.compare y ≠ .eq) : ¬side.Tighter x y := by
  cases side with
  | lower =>
    cases compared : x.compare y with
    | lt => exact Int.not_lt.mpr (Int.le_of_lt (Number.exact_lt_of_compare compared))
    | eq => exact absurd compared apart
    | gt => exact absurd compared outside
  | upper =>
    cases compared : x.compare y with
    | lt => exact absurd compared outside
    | eq => exact absurd compared apart
    | gt => exact Int.not_lt.mpr (Int.le_of_lt (Number.exact_lt_of_compare_gt compared))

end Side

namespace Json

/-- The real numbers that satisfy the numeric bounds which a node gives on one side. -/
def boundedOn (node : Json) (side : Side) : Set ℝ :=
  {r | (∀ x, node.numberAt? side.inclusive = some x → r ∈ side.closed x.toReal) ∧
    ∀ x, node.numberAt? side.exclusive = some x → r ∈ side.opened x.toReal}

/-- The real numbers that satisfy all numeric bounds of a node. -/
def bounded (node : Json) : Set ℝ := node.boundedOn .lower ∩ node.boundedOn .upper

variable {node other : Json} {side : Side}

theorem numberAt?_congr {name : String} (same : other.get? name = node.get? name) :
    other.numberAt? name = node.numberAt? name := by
  rw [numberAt?, numberAt?, same]

theorem boundedOn_congr (inclusive : other.get? side.inclusive = node.get? side.inclusive)
    (exclusive : other.get? side.exclusive = node.get? side.exclusive) :
    other.boundedOn side = node.boundedOn side := by
  rw [boundedOn, boundedOn, numberAt?_congr inclusive, numberAt?_congr exclusive]

theorem numberAt?_of_none {name : String} (absent : node.get? name = none) :
    node.numberAt? name = none := by
  rw [numberAt?, absent]
  rfl

theorem numberAt?_erase_self (name : String) : (node.erase name).numberAt? name = none := by
  rw [numberAt?, get?_erase_self, Option.bind_none]

theorem numberAt?_erase_ne {name key : String} (ne : name ≠ key) :
    (node.erase name).numberAt? key = node.numberAt? key :=
  numberAt?_congr (node.get?_erase_ne ne)

end Json

section Tighter

variable {node : Json} {side : Side} {closed opened : Number}

theorem Redundancy.tighterBound_transform {name lesser greater : String} {tighter : Ordering}
    (inclusive : node.numberAt? lesser = some closed)
    (exclusive : node.numberAt? greater = some opened) :
    (tighterBound name lesser greater tighter).transform node =
      node.erase (if closed.compare opened = tighter then greater else lesser) := by
  simp only [tighterBound, inclusive, exclusive]

theorem Side.tighter_transform (inclusive : node.numberAt? side.inclusive = some closed)
    (exclusive : node.numberAt? side.exclusive = some opened) :
    side.tighter.transform node =
      node.erase (if closed.compare opened = side.order then side.exclusive
        else side.inclusive) := by
  cases side with
  | lower => exact Redundancy.tighterBound_transform inclusive exclusive
  | upper => exact Redundancy.tighterBound_transform inclusive exclusive

theorem Json.boundedOn_eq (inclusive : node.numberAt? side.inclusive = some closed)
    (exclusive : node.numberAt? side.exclusive = some opened) :
    node.boundedOn side = side.closed closed.toReal ∩ side.opened opened.toReal := by
  ext r
  simp [boundedOn, inclusive, exclusive]

theorem Json.boundedOn_of_inclusive (inclusive : node.numberAt? side.inclusive = some closed)
    (exclusive : node.numberAt? side.exclusive = none) :
    node.boundedOn side = side.closed closed.toReal := by
  ext r
  simp [boundedOn, inclusive, exclusive]

theorem Json.boundedOn_of_exclusive (inclusive : node.numberAt? side.inclusive = none)
    (exclusive : node.numberAt? side.exclusive = some opened) :
    node.boundedOn side = side.opened opened.toReal := by
  ext r
  simp [boundedOn, inclusive, exclusive]

variable (inclusive : node.numberAt? side.inclusive = some closed)
  (exclusive : node.numberAt? side.exclusive = some opened)

include inclusive exclusive

/-- What is admitted stays the same, unless both bounds compare as equal and the inclusive one,
    which is dropped then, is tighter nevertheless. -/
theorem Side.boundedOn_tighter_iff :
    (side.tighter.transform node).boundedOn side = node.boundedOn side ↔
      ¬(closed.compare opened = .eq ∧ side.Tighter closed opened) := by
  have apart := side.inclusive_ne_exclusive
  rw [side.tighter_transform inclusive exclusive, Json.boundedOn_eq inclusive exclusive]
  by_cases inside : closed.compare opened = side.order
  · have tighter := side.closed_subset_opened.mpr (side.tighter_of_compare inside)
    have unequal : closed.compare opened ≠ .eq := inside.trans_ne side.order_ne_eq
    have kept : (node.erase side.exclusive).boundedOn side = side.closed closed.toReal :=
      Json.boundedOn_of_inclusive (by rw [Json.numberAt?_erase_ne apart.symm, inclusive])
        (Json.numberAt?_erase_self _)
    rw [if_pos inside, kept, Set.inter_eq_left.mpr tighter]
    simp [unequal]
  · have kept : (node.erase side.inclusive).boundedOn side = side.opened opened.toReal :=
      Json.boundedOn_of_exclusive (Json.numberAt?_erase_self _)
        (by rw [Json.numberAt?_erase_ne apart, exclusive])
    rw [if_neg inside, kept, eq_comm, Set.inter_eq_right, side.opened_subset_closed]
    by_cases equal : closed.compare opened = .eq
    · simp [equal]
    · simp [equal, side.not_tighter_of_compare inside equal]

theorem Side.exists_erased :
    ∃ kept dropped, [kept, dropped].Perm [side.inclusive, side.exclusive] ∧
      (side.tighter.transform node).contains kept = true ∧
        side.tighter.transform node = node.erase dropped := by
  have apart := side.inclusive_ne_exclusive
  rw [side.tighter_transform inclusive exclusive]
  split
  · refine ⟨_, _, .refl _, ?_, rfl⟩
    rw [Json.contains_eq, Json.get?_erase_ne _ apart.symm, Json.get?_of_numberAt? inclusive]
    rfl
  · refine ⟨_, _, .swap _ _ _, ?_, rfl⟩
    rw [Json.contains_eq, Json.get?_erase_ne _ apart, Json.get?_of_numberAt? exclusive]
    rfl

end Tighter

/-- Of an inclusive and an exclusive bound the tighter one is kept, and nothing else is touched.
    Only where both compare as equal the exclusive one is kept though the other may be tighter. -/
theorem tighterBound_exact (side : Side) (node : Json) (closed opened : Number)
    (inclusive : node.numberAt? side.inclusive = some closed)
    (exclusive : node.numberAt? side.exclusive = some opened) :
    let left := side.tighter.transform node
    (left.boundedOn side = node.boundedOn side ↔
        ¬(closed.compare opened = .eq ∧ side.Tighter closed opened)) ∧
      ∃ kept dropped, [kept, dropped].Perm [side.inclusive, side.exclusive] ∧
        left.contains kept = true ∧ left.entries = node.others [dropped] := by
  intro left
  obtain ⟨kept, dropped, which, stays, erased⟩ := side.exists_erased inclusive exclusive
  refine ⟨side.boundedOn_tighter_iff inclusive exclusive, kept, dropped, which, stays, ?_⟩
  rw [← node.entries_erase_eq, ← erased]

theorem tighterBound_exact_minimum :
    let closed := Number.integer 3
    let opened := Number.real ⟨false, 5629499534213120, 1023, by decide⟩
    let node := Json.object [("minimum", .number closed), ("title", .string "t"),
      ("exclusiveMinimum", .number opened)]
    let left := Side.lower.tighter.transform node
    node.numberAt? Side.lower.inclusive = some closed ∧
      node.numberAt? Side.lower.exclusive = some opened ∧
        left.boundedOn .lower = node.boundedOn .lower ∧
          ∃ kept dropped, [kept, dropped].Perm ["minimum", "exclusiveMinimum"] ∧
            left.contains kept = true ∧ left.entries = node.others [dropped] := by
  intro closed opened node left
  have exact := tighterBound_exact .lower node closed opened rfl rfl
  refine ⟨rfl, rfl, exact.1.mpr ?_, exact.2⟩
  rintro ⟨equal, _⟩
  have greater : closed.compare opened = .gt := by decide +kernel
  rw [greater] at equal
  cases equal

/-- Of two bounds that doubles do not tell apart the one that is kept admits more. -/
theorem tighterMaximum_widens :
    let closed := Number.real ⟨false, 4503599627370496, 1075, by decide⟩
    let opened := Number.integer 9007199254740993
    let node := Json.object [("maximum", .number closed), ("exclusiveMaximum", .number opened)]
    (Redundancy.tighterMaximum.transform node).boundedOn .upper ≠ node.boundedOn .upper := by
  intro closed opened node same
  have equal : closed.compare opened = .eq := by decide +kernel
  have tighter : closed.exact < opened.exact := by decide +kernel
  exact (@Side.boundedOn_tighter_iff node .upper closed opened rfl rfl).mp same ⟨equal, tighter⟩

section Folding

/-- The rules that spell a bound on integers, and the keywords that they touch. -/
def Side.folding : Side → List (Rule × List String)
  | .lower => [(Spelling.inclusiveMinimum, ["minimum", "exclusiveMinimum"]),
      (Collapse.integralMinimum, ["minimum"])]
  | .upper => [(Spelling.inclusiveMaximum, ["maximum", "exclusiveMaximum"]),
      (Collapse.integralMaximum, ["maximum"])]

def Side.keywords : List String := ["minimum", "exclusiveMinimum", "maximum", "exclusiveMaximum"]

/-- One rule that spells a bound on integers is applied. -/
def FoldsBound (node folded : Json) : Prop :=
  ∃ side : Side, ∃ entry ∈ side.folding, ∃ context,
    entry.1.condition node context = true ∧ folded = entry.1.transform node

namespace Side

def rounding : Side → Rounding
  | .lower => .up
  | .upper => .down

def step : Side → Int
  | .lower => 1
  | .upper => -1

variable {side : Side} {x y : Number}

/-- Rounding a bound inwards loses no integer. -/
theorem mem_closed_round (fraction : x.isIntegral = false) (n : ℤ) :
    (n : ℝ) ∈ side.closed (x.round side.rounding).toReal ↔ (n : ℝ) ∈ side.closed x.toReal := by
  have exact := Number.round_exact fraction side.rounding
  cases side with
  | lower =>
    simp only [closed, Set.mem_Ici, Number.toReal_le_intCast, rounding] at exact ⊢
    rw [exact, Int.mul_le_mul_right Binary64.one_pos]
    exact x.toInt_up_le n
  | upper =>
    simp only [closed, Set.mem_Iic, Number.intCast_le_toReal, rounding] at exact ⊢
    rw [exact, Int.mul_le_mul_right Binary64.one_pos]
    exact x.le_toInt_down n

theorem mem_opened_iff_closed (fraction : x.isIntegral = false) (n : ℤ) :
    (n : ℝ) ∈ side.opened x.toReal ↔ (n : ℝ) ∈ side.closed x.toReal := by
  have apart : x.exact ≠ n * Binary64.one := by
    intro whole
    rw [(Number.exact_eq_mul_iff.mp whole).1] at fraction
    cases fraction
  cases side with
  | lower =>
    simp only [opened, closed, Set.mem_Ioi, Set.mem_Ici, Number.toReal_lt_intCast,
      Number.toReal_le_intCast]
    omega
  | upper =>
    simp only [opened, closed, Set.mem_Iio, Set.mem_Iic, Number.intCast_lt_toReal,
      Number.intCast_le_toReal]
    omega

theorem mem_closed_offset (moved : x.offset? side.step = some y) (n : ℤ) :
    (n : ℝ) ∈ side.closed y.toReal ↔ (n : ℝ) ∈ side.opened x.toReal := by
  have sum := Number.offset?_exact moved
  have whole := Number.exact_eq_of_isIntegral (Number.exists_offset?_eq moved).1 .down
  cases side with
  | lower =>
    simp only [closed, opened, Set.mem_Ici, Set.mem_Ioi, Number.toReal_le_intCast,
      Number.toReal_lt_intCast, step] at sum ⊢
    rw [sum, whole, ← Int.add_mul, Int.mul_le_mul_right Binary64.one_pos,
      Int.mul_lt_mul_right Binary64.one_pos]
    exact Int.add_one_le_iff
  | upper =>
    simp only [closed, opened, Set.mem_Iic, Set.mem_Iio, Number.intCast_le_toReal,
      Number.intCast_lt_toReal, step] at sum ⊢
    rw [sum, whole, ← Int.add_mul, Int.mul_le_mul_right Binary64.one_pos,
      Int.mul_lt_mul_right Binary64.one_pos]
    exact Int.le_sub_one_iff

theorem mem_closed_inclusive? (found : Spelling.inclusive? side.rounding side.step x = some y)
    (n : ℤ) : (n : ℝ) ∈ side.closed y.toReal ↔ (n : ℝ) ∈ side.opened x.toReal := by
  unfold Spelling.inclusive? at found
  split at found
  · exact side.mem_closed_offset found n
  · rename_i fraction
    rw [Bool.not_eq_true] at fraction
    cases found
    rw [side.mem_closed_round fraction, side.mem_opened_iff_closed fraction]

theorem exists_inclusive?_eq (found : Spelling.inclusive? side.rounding side.step x = some y) :
    ∃ word, y = .ofInt64 word := by
  unfold Spelling.inclusive? at found
  split at found
  · exact (Number.exists_offset?_eq found).2
  · rename_i fraction
    cases found
    exact Number.exists_round_eq (Bool.not_eq_true _ ▸ fraction) _

end Side

/-- A bound on one side is spelled as one that a signed word holds: the integers stay the same, and
    so do all keywords but the given ones. -/
structure Folded (side : Side) (touched : List String) (node folded : Json) : Prop where
  integers : ∀ n : ℤ, (n : ℝ) ∈ folded.boundedOn side ↔ (n : ℝ) ∈ node.boundedOn side
  word : ∃ word, folded.get? side.inclusive = some (.number (.ofInt64 word))
  others : folded.others touched = node.others touched

variable {side : Side} {node : Json} {context : Context}

theorem Spelling.inclusiveBound_folds {name : String}
    (condition : (inclusiveBound name side.exclusive side.inclusive side.rounding
      side.step).condition node context = true) :
    Folded side [side.inclusive, side.exclusive] node
      ((inclusiveBound name side.exclusive side.inclusive side.rounding side.step).transform
        node) := by
  simp only [inclusiveBound, Bool.and_eq_true, Bool.not_eq_true'] at condition ⊢
  obtain ⟨closed, given⟩ := Option.isSome_iff_exists.mp condition.2
  obtain ⟨opened, exclusive, found⟩ := Option.bind_eq_some_iff.mp given
  have absent : node.numberAt? side.inclusive = none := by
    have missing := condition.1.2
    rw [Json.contains_eq, Option.isSome_eq_false_iff, Option.isNone_iff_eq_none] at missing
    rw [Json.numberAt?, missing, Option.bind_none]
  have object : (node.erase side.exclusive).isObject = true := by
    rw [Json.isObject_erase, Json.isObject_of_get? (Json.get?_of_numberAt? exclusive)]
  have written := Json.get?_insert_self _ side.inclusive (.number closed) object
  have erased := (node.erase side.exclusive).get?_insert_ne (.number closed)
    side.inclusive_ne_exclusive
  rw [node.get?_erase_self] at erased
  simp only [given]
  refine ⟨?_, ?_, ?_⟩
  · intro n
    rw [Json.boundedOn_of_inclusive (Json.numberAt?_of_get? written)
      (Json.numberAt?_of_none erased), Json.boundedOn_of_exclusive absent exclusive]
    exact side.mem_closed_inclusive? found n
  · obtain ⟨word, rfl⟩ := side.exists_inclusive?_eq found
    exact ⟨word, written⟩
  · rw [Json.others_insert _ _ (by simp), Json.others_erase _ (by simp)]

theorem Collapse.integralBound_folds {name : String}
    (condition : (integralBound name side.inclusive side.rounding).condition node context = true) :
    Folded side [side.inclusive] node
      ((integralBound name side.inclusive side.rounding).transform node) := by
  simp only [integralBound, Bool.and_eq_true] at condition ⊢
  obtain ⟨bound, inclusive, fraction⟩ := (Option.any_eq_true _ _).mp condition.2
  rw [Bool.not_eq_true'] at fraction
  simp only [inclusive]
  have written := Json.get?_insert_self node side.inclusive
    (.number (bound.round side.rounding))
    (Json.isObject_of_get? (Json.get?_of_numberAt? inclusive))
  refine ⟨?_, ?_, ?_⟩
  · intro n
    simp only [Json.boundedOn, Set.mem_ofPred_eq, Json.numberAt?_of_get? written, inclusive,
      Json.numberAt?_congr (node.get?_insert_ne _ side.inclusive_ne_exclusive),
      Option.some.injEq, forall_eq', side.mem_closed_round fraction]
  · obtain ⟨word, rounded⟩ := Number.exists_round_eq fraction side.rounding
    exact ⟨word, rounded ▸ written⟩
  · rw [Json.others_insert _ _ (by simp)]

theorem Side.folding_folds : ∀ entry ∈ side.folding,
    entry.1.condition node context = true → Folded side entry.2 node (entry.1.transform node) := by
  cases side with
  | lower =>
    simp only [folding, List.forall_mem_cons]
    exact ⟨@Spelling.inclusiveBound_folds .lower node context _,
      @Collapse.integralBound_folds .lower node context _, List.forall_mem_nil _⟩
  | upper =>
    simp only [folding, List.forall_mem_cons]
    exact ⟨@Spelling.inclusiveBound_folds .upper node context _,
      @Collapse.integralBound_folds .upper node context _, List.forall_mem_nil _⟩

theorem Side.touched_subset : ∀ entry ∈ side.folding,
    entry.2 ⊆ [side.inclusive, side.exclusive] ∧ entry.2 ⊆ Side.keywords := by
  cases side with
  | lower => simp [folding, inclusive, exclusive, keywords]
  | upper => simp [folding, inclusive, exclusive, keywords]

variable {folded : Json} {touched : List String}

theorem Folded.boundedOn_other {other : Side} (folds : Folded side touched node folded)
    (within : touched ⊆ [side.inclusive, side.exclusive])
    (apart : other.inclusive ∉ [side.inclusive, side.exclusive] ∧
      other.exclusive ∉ [side.inclusive, side.exclusive]) :
    folded.boundedOn other = node.boundedOn other :=
  Json.boundedOn_congr
    (Json.get?_of_others folds.others fun listed => apart.1 (within listed))
    (Json.get?_of_others folds.others fun listed => apart.2 (within listed))

theorem Folded.mem_bounded_iff (folds : Folded side touched node folded)
    (within : touched ⊆ [side.inclusive, side.exclusive]) (n : ℤ) :
    (n : ℝ) ∈ folded.bounded ↔ (n : ℝ) ∈ node.bounded := by
  rw [Json.bounded, Json.bounded, Set.mem_inter_iff, Set.mem_inter_iff]
  cases side with
  | lower => rw [folds.integers, folds.boundedOn_other within (by decide)]
  | upper => rw [folds.integers, folds.boundedOn_other within (by decide)]

/-- However often bounds are folded, the integers stay the same, and so do all other keywords. -/
theorem FoldsBound.run (run : Relation.ReflTransGen FoldsBound node folded) :
    (∀ n : ℤ, (n : ℝ) ∈ folded.bounded ↔ (n : ℝ) ∈ node.bounded) ∧
      folded.others Side.keywords = node.others Side.keywords := by
  induction run with
  | refl => exact ⟨fun _ => Iff.rfl, rfl⟩
  | tail _ last ih =>
    obtain ⟨side, entry, listed, context, condition, rfl⟩ := last
    have folds := side.folding_folds entry listed condition
    obtain ⟨within, bounds⟩ := side.touched_subset entry listed
    exact ⟨fun n => (folds.mem_bounded_iff within n).trans (ih.1 n),
      (Members.others_mono bounds folds.others).trans ih.2⟩

end Folding

/-- Spelling the bounds on integers anew is exact: however many of the rules have been applied,
    each leaves the integers as they were in the beginning, writes a bound that is an integer which
    a signed word holds, and touches no other keyword. -/
theorem integerBounds_exact (side : Side) (rule : Rule) (touched : List String)
    (node reached : Json) (context : Context) (run : Relation.ReflTransGen FoldsBound node reached)
    (listed : (rule, touched) ∈ side.folding)
    (condition : rule.condition reached context = true) :
    let folded := rule.transform reached
    (∀ n : ℤ, (n : ℝ) ∈ folded.bounded ↔ (n : ℝ) ∈ node.bounded) ∧
      (∃ word, folded.get? side.inclusive = some (.number (.ofInt64 word))) ∧
        folded.others touched = reached.others touched ∧
          folded.others Side.keywords = node.others Side.keywords := by
  intro folded
  have folds := side.folding_folds (rule, touched) listed condition
  have whole := FoldsBound.run (run.tail ⟨side, _, listed, context, condition, rfl⟩)
  exact ⟨whole.1, folds.word, folds.others, whole.2⟩

theorem integerBounds_exact_fraction :
    let half := Json.number (.real ⟨false, 4503599627370496, 1021, by decide⟩)
    let node := Json.object [("type", .string "integer"), ("minimum", half),
      ("exclusiveMaximum", .number (.integer 10)), ("title", .string "t")]
    let reached := Collapse.integralMinimum.transform node
    let folded := Spelling.inclusiveMaximum.transform reached
    let context : Context :=
      ⟨Dialect.draft202012, Dialect.draft202012, [Vocabulary.validation], .root⟩
    Relation.ReflTransGen FoldsBound node reached ∧
      (Spelling.inclusiveMaximum, ["maximum", "exclusiveMaximum"]) ∈ Side.upper.folding ∧
        Spelling.inclusiveMaximum.condition reached context = true ∧
          (∀ n : ℤ, (n : ℝ) ∈ folded.bounded ↔ (n : ℝ) ∈ node.bounded) ∧
            (∃ word, folded.get? "maximum" = some (.number (.ofInt64 word))) ∧
              folded.others Side.keywords = node.others Side.keywords := by
  intro half node reached folded context
  have first : Collapse.integralMinimum.condition node context = true := by decide +kernel
  have condition : Spelling.inclusiveMaximum.condition reached context = true := by
    decide +kernel
  have run : Relation.ReflTransGen FoldsBound node reached :=
    .single ⟨.lower, _, List.mem_cons_of_mem _ List.mem_cons_self, context, first, rfl⟩
  have listed : (Spelling.inclusiveMaximum, ["maximum", "exclusiveMaximum"]) ∈
      Side.upper.folding := List.mem_cons_self
  have exact := integerBounds_exact .upper _ _ node reached context run listed condition
  exact ⟨run, listed, condition, exact.1, exact.2.1, exact.2.2.2⟩

end SchemaPack
