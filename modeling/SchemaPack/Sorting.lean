namespace SchemaPack

section Insertion

variable {α : Type} (compare : α → α → Ordering)

def insertDescending (x : α) : List α → List α
  | [] => [x]
  | y :: rest =>
    if compare x y == .lt then y :: insertDescending x rest else x :: y :: rest

/-- Each element in turn moves back past those greater than it. -/
def insertAll (sorted xs : List α) : List α :=
  (xs.foldl (fun sorted x => insertDescending compare x sorted) sorted.reverse).reverse

/-- Stable insertion sort, ascending. The comparison need not be transitive. -/
def insertionSort (xs : List α) : List α := insertAll compare [] xs

end Insertion

namespace Sorting

/-- What is moved when a list is sorted. -/
inductive Moved where
  | references
  | values
  deriving DecidableEq, Repr

namespace Moved

/-- The bytes of an element. -/
def width : Moved → Nat
  | .references => 8
  | .values => 72

/-- How many elements of each half a network sorts before the others are inserted. -/
def networkSize (moved : Moved) (length : Nat) : Nat :=
  if moved = .references ∧ 16 ≤ length then 8 else if 8 ≤ length then 4 else 1

end Moved

/-- What two lists have been merged to, and what is left of them. -/
structure Merged (α : Type) where
  taken : List α
  left : List α
  right : List α

/-- Merges two lists for a number of steps. -/
def mergeSteps {α : Type} (rightFirst : α → α → Bool) : Nat → List α → List α → Merged α
  | steps + 1, l :: left, r :: right =>
    if rightFirst l r then
      let merged := mergeSteps rightFirst steps (l :: left) right
      { merged with taken := r :: merged.taken }
    else
      let merged := mergeSteps rightFirst steps left (r :: right)
      { merged with taken := l :: merged.taken }
  | _, left, right => ⟨[], left, right⟩

/-- Some neighbours in a list that is being sorted. -/
structure Run (α : Type) where
  items : List α
  sorted : Bool

section Stable

variable {α : Type} (compare : α → α → Ordering)

def less (a b : α) : Bool := compare a b == .lt

def pair (left right : α) : List α :=
  if less compare right left then [right, left] else [left, right]

/-- Merges two pairs, the elements of each of which are in order. -/
def mergePairs (a b c d : α) : List α :=
  match less compare c a, less compare d b with
  | false, false => a :: pair compare b c ++ [d]
  | false, true => a :: pair compare c d ++ [b]
  | true, false => c :: pair compare a b ++ [d]
  | true, true => c :: pair compare a d ++ [b]

/-- A network for four elements. -/
def four (p q r s : α) : List α :=
  let (a, b) := if less compare q p then (q, p) else (p, q)
  let (c, d) := if less compare s r then (s, r) else (r, s)
  mergePairs compare a b c d

/-- Joins what two lists have been merged to from their starts and from their ends, with the one
    element that may be left between. The ends do not meet if comparisons contradict each other. -/
def meet (left right : List α) (front back : Merged α) : Option (List α) :=
  let lefts := front.left.length + back.left.length
  let rights := front.right.length + back.right.length
  if left.length ≤ lefts ∧ right.length ≤ rights then
    some (front.taken ++ front.left.take (lefts - left.length) ++
      front.right.take (rights - right.length) ++ back.taken.reverse)
  else none

/-- Merges two lists, the second no shorter and at most one longer, from both ends at once. -/
def mergeBothWays (left right : List α) : Option (List α) :=
  meet left right (mergeSteps (fun l r => less compare r l) left.length left right)
    (mergeSteps (fun l r => !less compare r l) left.length left.reverse right.reverse)

def network : List α → Option (List α)
  | [a, b, c, d] => some (four compare a b c d)
  | [a, b, c, d, e, f, g, h] =>
    mergeBothWays compare (four compare a b c d) (four compare e f g h)
  | start => some start

def sortHalf (size : Nat) (half : List α) : Option (List α) := do
  return insertAll compare (← network compare (half.take size)) (half.drop size)

def smallSort (moved : Moved) (xs : List α) : Option (List α) := do
  let size := moved.networkSize xs.length
  let middle := xs.length / 2
  mergeBothWays compare (← sortHalf compare size (xs.take middle))
    (← sortHalf compare size (xs.drop middle))

def median (a b c : α) : α :=
  if less compare a b = less compare a c then
    if less compare b c = less compare a b then b else c
  else a

/-- A median of medians, from eight steps on. -/
def pivotFrom (item : Nat → α) (start step : Nat) : α :=
  if step < 8 then median compare (item start) (item (start + 4 * step)) (item (start + 7 * step))
  else
    median compare (pivotFrom item start (step / 8)) (pivotFrom item (start + 4 * step) (step / 8))
      (pivotFrom item (start + 7 * step) (step / 8))
termination_by step

/-- Stable quicksort, up to a number of divisions. What is equal to the pivot is not sorted any
    further, and there is such if none is less or if the pivot is equal to that of an earlier
    division, `least`, which none is less than. -/
def quicksort (moved : Moved) (fallback : List α → Option (List α)) :
    Nat → Option α → List α → Option (List α)
  | _, _, [] => some []
  | divisions, least, first :: rest =>
    let xs := first :: rest
    if xs.length ≤ 32 then smallSort compare moved xs
    else
      match divisions with
      | 0 => fallback xs
      | divisions + 1 => do
        let pivot := pivotFrom compare (xs.getD · first) 0 (xs.length / 8)
        let below := xs.filter (less compare · pivot)
        if least.any (!less compare · pivot) || below.isEmpty then
          let equal := xs.filter (!less compare pivot ·)
          let above := xs.filter (less compare pivot ·)
          return equal ++ (← quicksort moved fallback divisions none above)
        else
          let others := xs.filter (!less compare · pivot)
          return (← quicksort moved fallback divisions least below) ++
            (← quicksort moved fallback divisions (some pivot) others)

/-- How many elements at the start of a list go on as told. -/
def runLength (goesOn : α → α → Bool) : List α → Nat
  | a :: b :: rest => if goesOn a b then runLength goesOn (b :: rest) + 1 else 1
  | xs => xs.length

def isDescending : List α → Bool
  | a :: b :: _ => less compare b a
  | _ => false

/-- The first run in a list. A run that is there already is taken if it is longer than `short`. -/
def firstRun (moved : Moved) (eager : Bool) (short : Nat) (xs : List α) :
    Option (Run α × List α) :=
  let descending := isDescending compare xs
  let length := runLength (fun a b => less compare b a == descending) xs
  if short < length then
    let run := xs.take length
    some (⟨if descending then run.reverse else run, true⟩, xs.drop length)
  else if eager then do
    return (⟨← smallSort compare moved (xs.take 32), true⟩, xs.drop 32)
  else some (⟨xs.take (short + 1), false⟩, xs.drop (short + 1))

def runs (moved : Moved) (eager : Bool) (short : Nat) : Nat → List α → Option (List (Run α))
  | _, [] => some []
  | 0, _ => some []
  | steps + 1, xs => do
    let (run, rest) ← firstRun compare moved eager short xs
    return run :: (← runs moved eager short steps rest)

def mergeRuns (left right : List α) : List α :=
  if left.length ≤ right.length then left.merge right fun l r => !less compare r l
  else (right.reverse.merge left.reverse fun r l => !less compare r l).reverse

end Stable

section Joining

variable {α : Type} (join : Run α → Run α → Option (Run α))

/-- Joins a run with those before it, down to a depth of the tree that they are joined in. -/
def joinDown (depth : Nat) : List (Run α × Nat) → Run α → Option (List (Run α × Nat) × Run α)
  | [], run => some ([], run)
  | (left, deep) :: before, run =>
    if depth ≤ deep then do joinDown depth before (← join left run)
    else some ((left, deep) :: before, run)

/-- How deep two neighbouring runs are joined, by where they start and end among all elements. -/
def joinDepth (total start middle stop : Nat) : Nat :=
  let scale := (4611686018427387904 + total - 1) / total
  63 - Nat.log2 ((scale * (start + middle)) ^^^ (scale * (middle + stop)))

def joinAll (total : Nat) : List (Run α × Nat) → Run α → Nat → List (Run α) → Option (Run α)
  | before, run, _, [] => (joinDown join 0 before run).map (·.2)
  | before, run, stop, next :: rest => do
    let depth := joinDepth total (stop - run.items.length) stop (stop + next.items.length)
    let (before, run) ← joinDown join depth before run
    joinAll total ((run, depth) :: before) next (stop + next.items.length) rest

end Joining

section Stable

variable {α : Type} (compare : α → α → Ordering)

/-- How long a run must be at least to be taken as it is, less one. -/
def shortRun (total : Nat) : Nat :=
  if total ≤ 4096 then min (total - total / 2) 64 - 1
  else
    let shift := (1 + Nat.log2 total) / 2
    (1 <<< shift + total >>> shift) / 2 - 1

variable (sortRun : List α → Option (List α))

def Run.finish (run : Run α) : Option (List α) :=
  if run.sorted then some run.items else sortRun run.items

/-- Joins two runs, unsorted as they are if there is room to sort them together. -/
def joinRuns (room : Nat) (left right : Run α) : Option (Run α) :=
  if !left.sorted && !right.sorted && left.items.length + right.items.length ≤ room then
    some ⟨left.items ++ right.items, false⟩
  else do
    return ⟨mergeRuns compare (← left.finish sortRun) (← right.finish sortRun), true⟩

/-- Merge sort of runs. No run is left to sort if runs are sorted eagerly. -/
def driftsort (moved : Moved) (eager : Bool) (xs : List α) : Option (List α) := do
  let room := max (xs.length - xs.length / 2) (8000000 / moved.width)
  match ← runs compare moved eager (shortRun xs.length) xs.length xs with
  | [] => return []
  | first :: rest =>
    let run ← joinAll (joinRuns compare sortRun room) xs.length [] first first.items.length rest
    run.finish sortRun

end Stable

section Stable

variable {α : Type} (compare : α → α → Ordering) (moved : Moved)

def sortEagerly (xs : List α) : Option (List α) :=
  driftsort compare (fun run => some (insertionSort compare run)) moved true xs

def sortRun (run : List α) : Option (List α) :=
  quicksort compare moved (sortEagerly compare moved) (2 * Nat.log2 run.length) none run

/-- A stable sort for a comparison that orders the elements. With another one there may be no
    result, or one that depends on what is moved. -/
def stableSort (xs : List α) : Option (List α) :=
  if xs.length ≤ 20 then some (insertionSort compare xs)
  else driftsort compare (sortRun compare moved) moved (xs.length ≤ 64) xs

end Stable

def order (moved : Moved) (compare : Nat → Nat → Ordering) (length : Nat) : Option (List Nat) :=
  stableSort compare moved (List.range length)

end Sorting

end SchemaPack
