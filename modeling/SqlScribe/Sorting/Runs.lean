import SqlScribe.Sorting.Search

/-!
# Runs

A run begins with the elements that go up, or strictly down, by themselves. If it is too short, the
elements behind it are inserted one by one, each behind the elements that it is not less than.
-/

namespace SqlScribe.Sorting

section

variable {α ε : Type} (less : α → α → Except ε Bool)

/-- How long the elements keep going down (`down`) or not down from `previous` on. -/
def runLength (down : Bool) (previous : α) : List α → Except ε Nat
  | [] => .ok 0
  | x :: rest => do
    if (← less x previous) == down then return (← runLength down x rest) + 1
    else return 0

/-- The run with `x` behind the elements that it is not less than. -/
def insertInto (run : List α) (x : α) : Except ε (List α) := do
  let place ← partitionPoint (fun y => (less x y).map (!·)) run false 0 run.length
  return run.take place ++ x :: run.drop place

/-- The run at the front of a list, of at least `least` elements if there are as many, and what is
behind it. -/
def firstRun (least : Nat) : List α → Except ε (List α × List α)
  | [] => .ok ([], [])
  | [x] => .ok ([x], [])
  | x :: y :: rest => do
    let down ← less y x
    let more ← runLength less down y rest
    let run := x :: y :: rest.take more
    let start := if down then run.reverse else run
    let lacking := least - run.length
    let behind := rest.drop more
    return (← (behind.take lacking).foldlM (insertInto less) start, behind.drop lacking)

end

/-- The least length of the runs of a list of `n` elements. A list of 64 elements or more gets runs
of 32 to 64 elements, as many as a power of two or a few less. -/
def leastRun (n : Nat) : Nat :=
  if n < 64 then n
  else
    let step := Nat.pow 2 (n.log2 - 5)
    (n + step - 1) / step

example : leastRun 66 = 33 ∧ leastRun 65 = 33 ∧ leastRun 64 = 32 := by decide +kernel

end SqlScribe.Sorting
