import SqlScribe.Sorting.Merge
import SqlScribe.Sorting.Runs

/-!
# Sorting by a strict order that may fail

`sorted` arranges a list by a strict order alone, and elements of which neither is less keep their
places relative to each other. The list is cut into runs, and neighbouring runs are merged. A list
of fewer than 64 elements is a single run.

Which runs are merged first follows from where they lie in the list. Think of the list as the
numbers from 0 to 1 and of each run as its middle. Between two neighbours some binary fraction
divides the two middles; the number of its places is the *depth* of their boundary. Runs at a deeper
boundary are merged before those at a less deep one, so that runs of one length are merged as in a
balanced tree.

The first comparison that fails is the outcome, so which elements are compared first is part of what
a caller can see. So it is with numbers that are neither less nor greater than any other: where the
elements of such a list end up depends on which of them are compared.
-/

namespace SqlScribe.Sorting

/-- The number of binary places after which `a / c` and `b / c` are told apart, for `a + 2 ≤ b` and
`b < c`. -/
def depth (a b c : Nat) : Nat :=
  ((List.range (c.log2 + 1)).find? fun k =>
    Nat.pow 2 k * a / c ≠ Nat.pow 2 k * b / c).getD 0

example : depth 1 3 4 = 1 ∧ depth 4 6 16 = 3 := by decide +kernel

/-- A run that waits to be merged, with the depth of its boundary with the run behind it. -/
structure Waiting (α : Type) where
  run : List α
  depth : Nat

section

variable {α ε : Type} (less : α → α → Except ε Bool)

/-- Merges the last run with the runs in front of it whose boundary lies deeper than `depth`. The
waiting runs are given from the last to the first. -/
def settle (depth : Nat) :
    List (Waiting α) → List α → StateT Nat (Except ε) (List (Waiting α) × List α)
  | [], last => return ([], last)
  | top :: rest, last => do
    if top.depth > depth then settle depth rest (← mergeRuns less top.run last)
    else return (top :: rest, last)

/-- Merges all runs, from the last on. A run that is shorter than the one two places behind it is
merged with the one between them first. -/
def mergeAll : List (List α) → List α → StateT Nat (Except ε) (List α)
  | [], last => return last
  | [top], last => mergeRuns less top last
  | top :: second :: rest, last => do
    if second.length < last.length then
      mergeAll ((← mergeRuns less second top) :: rest) last
    else mergeAll (second :: rest) (← mergeRuns less top last)
termination_by waiting => waiting.length

/-- Sorts a list of `size` elements of which those in front of `behind` are runs: `last`, which
begins at the place `start`, and the runs that wait. `fuel` bounds the number of runs to come. -/
def sortBehind (size : Nat) :
    Nat → List (Waiting α) → Nat → List α → List α → StateT Nat (Except ε) (List α)
  | 0, waiting, _, last, _ | _, waiting, _, last, [] => mergeAll less (waiting.map (·.run)) last
  | fuel + 1, waiting, start, last, behind => do
    let (next, behind) ← firstRun less (leastRun size) behind
    let border := start + last.length
    let depth := depth (start + border) (2 * border + next.length) (2 * size)
    let (waiting, merged) ← settle less depth waiting last
    sortBehind size fuel (⟨merged, depth⟩ :: waiting) border next behind

end

end Sorting

open Sorting in
/-- The elements in ascending order, equal ones in their old order. The first merge is patient until
a run has won seven times in a row. -/
def sorted {α ε : Type} (less : α → α → Except ε Bool) (xs : List α) : Except ε (List α) := do
  let (run, behind) ← firstRun less (leastRun xs.length) xs
  StateT.run' (sortBehind less xs.length xs.length [] 0 run behind) 7

end SqlScribe
