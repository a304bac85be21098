import SqlScribe.Sorting.Search

/-!
# Merging two neighbouring runs

Two runs are merged by asking, over and over, whether an element on the right is less than one on
the left. What is in place already is left alone: the elements on the left that the first on the
right is not less than, and those on the right that are not less than the last on the left. Of the
rest the shorter run decides the end at which the merge begins, its own front or back.

A merge places single elements until one run has won several times in a row; how many times that
takes is its *patience*. From then on it places stretches: it gallops through the left run to the
place of the next element on the right, and then the other way round, for as long as one of the two
stretches has seven elements or more. Stretches make a merge less patient and going back to single
elements makes it more patient, and the next merge begins with the patience that this one ended
with.

For a consistent order all this changes only how many comparisons are made. With a number that is
neither less nor greater than any other it also decides where the elements end up.
-/

namespace SqlScribe.Sorting

/-- Two runs on the way to one. Both lists begin at the end at which the merge works: the front, or
the back with `fromBack`. -/
structure Merge (α : Type) where
  fromBack : Bool
  left : List α
  right : List α
  /-- What has been placed, the last first. -/
  placed : List α

namespace Merge

section

variable {α ε : Type}

/-- Places the next `k` elements of the left run. -/
def takeLeft (m : Merge α) (k : Nat) : Merge α :=
  { m with left := m.left.drop k, placed := (m.left.take k).reverse ++ m.placed }

/-- Places the next `k` elements of the right run. -/
def takeRight (m : Merge α) (k : Nat) : Merge α :=
  { m with right := m.right.drop k, placed := (m.right.take k).reverse ++ m.placed }

/-- Nothing is left to compare. The far element of the run that was shorter, the left one at the
front and the right one at the back, comes after all others, so it need not be asked for. -/
def isFinished (m : Merge α) : Bool :=
  if m.fromBack then m.left.isEmpty || m.right.length ≤ 1
  else m.right.isEmpty || m.left.length ≤ 1

/-- The elements of a finished merge in their order. -/
def result (m : Merge α) : List α :=
  if m.fromBack then m.right.reverse ++ m.left.reverse ++ m.placed
  else m.placed.reverse ++ m.right ++ m.left

/-- How many elements have no place yet. -/
def remaining (m : Merge α) : Nat :=
  m.left.length + m.right.length

variable (less : α → α → Except ε Bool)

/-- Places single elements until the merge is finished or one run has won `patience` times in a row.
`lefts` and `rights` count how often the runs have just won. -/
def singly (patience lefts rights : Nat) (m : Merge α) : Except ε (Merge α) :=
  if m.isFinished || patience ≤ lefts || patience ≤ rights then .ok m
  else
    match hl : m.left, hr : m.right with
    | a :: _, b :: _ => do
      if (← less b a) == m.fromBack then singly patience (lefts + 1) 0 (m.takeLeft 1)
      else singly patience 0 (rights + 1) (m.takeRight 1)
    | _, _ => .ok m
termination_by m.remaining
decreasing_by all_goals simp [remaining, takeLeft, takeRight, hl, hr]

/-- Places the elements on the left that come before the next on the right, and then that one.
Answers how many came before it. -/
def leftStretch (m : Merge α) : Except ε (Nat × Merge α) :=
  match m.right with
  | [] => .ok (0, m)
  | b :: _ => do
    let k ← gallop (fun a => (less b a).map (· == m.fromBack)) m.left m.fromBack
    let m := m.takeLeft k
    return (k, if m.isFinished then m else m.takeRight 1)

/-- Places the elements on the right that come before the next on the left, and then that one.
Answers how many came before it. -/
def rightStretch (m : Merge α) : Except ε (Nat × Merge α) :=
  match m.left with
  | [] => .ok (0, m)
  | a :: _ => do
    let k ← gallop (fun b => (less b a).map (· != m.fromBack)) m.right m.fromBack
    let m := m.takeRight k
    return (k, if m.isFinished then m else m.takeLeft 1)

/-- Places stretches until the merge is finished or both stretches of a round have fewer than seven
elements; each round after the first lowers the patience, which stays above zero. Answers the
patience that is left. `fuel` bounds the number of rounds. -/
def byStretches : Nat → Nat → Merge α → Except ε (Nat × Merge α)
  | 0, patience, m => .ok (patience, m)
  | fuel + 1, patience, m => do
    let (lefts, m) ← m.leftStretch less
    if m.isFinished then return (patience, m)
    let (rights, m) ← m.rightStretch less
    if m.isFinished || (lefts < 7 && rights < 7) then return (patience, m)
    byStretches fuel (max 1 (patience - 1)) m

/-- Carries a merge to its end, by single elements and by stretches in turn, and answers with what
patience it ends. `fuel` bounds the number of turns. -/
def finish : Nat → Nat → Merge α → Except ε (Nat × Merge α)
  | 0, patience, m => .ok (patience, m)
  | fuel + 1, patience, m => do
    let m ← m.singly less patience 0 0
    if m.isFinished then return (patience, m)
    let (patience, m) ← m.byStretches less fuel patience
    if m.isFinished then return (patience, m)
    finish fuel (patience + 1) m

end

/-- The merge of two runs of which the first on the right is less than all on the left, and the last
on the left not less than any on the right. One element can be placed at once. -/
def ofRuns {α : Type} (left right : List α) : Merge α :=
  if left.length ≤ right.length then
    Merge.takeRight ⟨false, left, right, []⟩ 1
  else
    Merge.takeLeft ⟨true, left.reverse, right.reverse, []⟩ 1

end Merge

/-- Two neighbouring runs as one; the state is the patience of the merges. -/
def mergeRuns {α ε : Type} (less : α → α → Except ε Bool) (left right : List α) :
    StateT Nat (Except ε) (List α) := do
  let some first := right.head? | return left
  let low ← gallop (fun a => (less first a).map (!·)) left false
  let some last := left.getLast? | return right
  if left.length ≤ low then return left ++ right
  let high ← gallop (fun b => (less b last).map (!·)) right.reverse true
  let middle := right.length - high
  if middle = 0 then return left ++ right
  let m := Merge.ofRuns (left.drop low) (right.take middle)
  let (patience, m) ← m.finish less m.remaining (← get)
  set patience
  return left.take low ++ m.result ++ right.drop middle

end SqlScribe.Sorting
