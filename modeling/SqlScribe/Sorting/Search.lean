/-!
# How far a test holds

A list is sorted with few comparisons by asking how many elements at its front pass a test, and by
testing only some of them. `partitionPoint` halves a part of the list until the place is found.
`gallop` first tests the places 0, 1, 3, 7 and so on until one fails, and then halves the part in
between, so that a short answer costs few tests however long the list is.

Where the elements that pass all come first, both answer how many there are. Where they do not, as
with a number that is neither less nor greater than any other, the answer depends on which elements
are tested.
-/

namespace SqlScribe.Sorting

variable {α ε : Type} (test : α → Except ε Bool) (xs : List α)

/-- The place up to which the test holds among the `gap` elements from `low` on. Of two elements in
the middle the second is tested, or the first with `early`. -/
def partitionPoint (early : Bool) (low gap : Nat) : Except ε Nat :=
  if _h : gap = 0 then .ok low
  else
    let half := (if early then gap - 1 else gap) / 2
    match xs[low + half]? with
    | none => .ok low
    | some x => do
      if ← test x then partitionPoint early (low + half + 1) (gap - half - 1)
      else partitionPoint early low half
termination_by gap
decreasing_by all_goals grind

/-- The place up to which the test holds, if it holds in front of `low` and `place` is the next to
be tested. -/
def gallopFrom (early : Bool) (low place : Nat) : Except ε Nat :=
  match _h : xs[place]? with
  | none => partitionPoint test xs early low (xs.length - low)
  | some x => do
    if ← test x then gallopFrom early (place + 1) (2 * place + 1)
    else partitionPoint test xs early low (place - low)
termination_by xs.length - place
decreasing_by grind

/-- The place up to which the test holds. -/
def gallop (early : Bool) : Except ε Nat :=
  gallopFrom test xs early 0 0

example : gallop (fun n => (.ok (n < 5) : Except Empty Bool)) [1, 2, 3, 4, 5, 6] false = .ok 4 := by
  cbv

-- Only the places 0, 1, 3 and 2 are tested.
example : gallop (fun n => (.ok (n < 5) : Except Empty Bool)) [1, 2, 9, 9, 1, 1] false = .ok 2 := by
  cbv

end SqlScribe.Sorting
