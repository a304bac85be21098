import Mathlib.Data.List.Sort
import SqlScribe.Proofs.Sorting

/-!
# Sorting puts into order

If the comparisons are those of a linear order of keys, the outcome of sorting ascends. Together
with the fact that it has the elements of the list that was given, this says all about it that does
not depend on which elements were compared.

The searches are right on lists whose elements that pass a test come first, and each search of
sorting is in such a list. A merge works from the front or from the back. Both are one argument if
"before" is read in the direction of the merge: what has been placed is before what is not, and
both runs go on in order. The far element of the run that was shorter is never compared, so that it
comes after all others is part of what every step keeps. Since a round of stretches places at least
one element, the merge is finished when it ends.
-/

namespace SqlScribe

/-- An outcome with a property that every result has anyway. -/
theorem Arrives.and {ε α : Type} {certain : Prop} {P Q : α → Prop} {x : Except ε α}
    (hp : Arrives certain P x) (hq : Yields Q x) : Arrives certain (fun a => P a ∧ Q a) x :=
  ⟨fun a ha => ⟨hp.yields a ha, hq a ha⟩, hp.exists_ok⟩

namespace Sorting

variable {α ε κ : Type} [LinearOrder κ]

/-! ## Searching -/

section

variable {test : α → Except ε Bool} {p : α → Bool} {xs : List α} {n : Nat}

/-- Whether exactly the first `n` elements of a list pass a test. -/
def PassesUpTo (p : α → Bool) (xs : List α) (n : Nat) : Prop :=
  n ≤ xs.length ∧ ∀ i (h : i < xs.length), p xs[i] = decide (i < n)

/-- If an element passes only together with all in front of it, those that pass are a front part. -/
theorem exists_passesUpTo (h : xs.Pairwise fun a b => p b = true → p a = true) :
    ∃ n, PassesUpTo p xs n := by
  induction xs with
  | nil => exact ⟨0, Nat.le_refl 0, fun i hi => absurd hi (Nat.not_lt_zero i)⟩
  | cons x rest ih =>
    obtain ⟨hx, hrest⟩ := List.pairwise_cons.mp h
    cases hp : p x with
    | true =>
      obtain ⟨n, hn, hall⟩ := ih hrest
      refine ⟨n + 1, Nat.succ_le_succ hn, fun i hi => ?_⟩
      cases i with
      | zero => exact hp.trans (decide_eq_true n.succ_pos).symm
      | succ i => simpa using hall i (Nat.lt_of_succ_lt_succ hi)
    | false =>
      refine ⟨0, Nat.zero_le _, fun i hi => ?_⟩
      have fails : ∀ y ∈ x :: rest, p y = false :=
        List.forall_mem_cons.mpr ⟨hp, fun y hy => Bool.eq_false_iff.mpr fun hy' =>
          Bool.false_ne_true (hp.symm.trans (hx y hy hy'))⟩
      simpa using fails _ (List.getElem_mem hi)

/-- Whatever is in front of the border passes. -/
theorem PassesUpTo.front (h : PassesUpTo p xs n) {x : α} (hx : x ∈ xs.take n) : p x = true := by
  obtain ⟨i, hi, rfl⟩ := List.mem_take_iff_getElem.mp hx
  rw [h.2 i (by omega)]
  exact decide_eq_true (by omega)

/-- Whatever is behind the border fails. -/
theorem PassesUpTo.behind (h : PassesUpTo p xs n) {x : α} (hx : x ∈ xs.drop n) : p x = false := by
  obtain ⟨i, hi, rfl⟩ := List.mem_drop_iff_getElem.mp hx
  rw [h.2 (n + i) (by omega)]
  exact decide_eq_false (by omega)

section

variable (htest : ∀ x ∈ xs, test x = .ok (p x)) (hn : PassesUpTo p xs n)

include htest hn

/-- Halving finds the border. -/
theorem partitionPoint_eq (early : Bool) {low gap : Nat} (hlow : low ≤ n) (hhigh : n ≤ low + gap)
    (hlength : low + gap ≤ xs.length) : partitionPoint test xs early low gap = .ok n := by
  -- the place lies between `low` and `low + gap` all the time
  fun_induction partitionPoint with
  | case1 low => exact congrArg Except.ok (by omega)
  | case2 low gap _ half hx =>
    have inside : low + half < xs.length := by
      have : half < gap := by grind
      omega
    rw [List.getElem?_eq_getElem inside] at hx
    cases hx
  | case3 low gap _ half x hx behind before =>
    have bound : half < gap := by grind
    obtain ⟨hi, rfl⟩ := List.getElem?_eq_some_iff.mp hx
    rw [htest _ (List.getElem_mem hi), hn.2 _ hi]
    by_cases hplace : low + half < n
    · simp only [hplace, decide_true]
      exact behind (by omega) (by omega) (by omega)
    · simp only [hplace, decide_false]
      exact before hlow (by omega) (by omega)

/-- Galloping finds the border as well: it overshoots it and goes on by halving. -/
theorem gallopFrom_eq (early : Bool) {low place : Nat} (hlow : low ≤ n) (hplace : low ≤ place) :
    gallopFrom test xs early low place = .ok n := by
  have inside := hn.1
  fun_induction gallopFrom with
  | case1 low place hx =>
    exact partitionPoint_eq htest hn early hlow (by omega) (by omega)
  | case2 low place x hx ih =>
    obtain ⟨hi, rfl⟩ := List.getElem?_eq_some_iff.mp hx
    rw [htest _ (List.getElem_mem hi), hn.2 _ hi]
    by_cases hfurther : place < n
    · simp only [hfurther, decide_true]
      exact ih hfurther (by omega)
    · simp only [hfurther, decide_false]
      exact partitionPoint_eq htest hn early hlow (by omega) (by omega)

end

/-- Galloping finds how many elements pass the test. -/
theorem arrives_gallop {certain : Prop} (htest : ∀ x ∈ xs, test x = .ok (p x))
    (h : xs.Pairwise fun a b => p b = true → p a = true) (early : Bool) :
    Arrives certain (PassesUpTo p xs) (gallop test xs early) := by
  obtain ⟨n, hn⟩ := exists_passesUpTo h
  rw [gallop, gallopFrom_eq htest hn early (Nat.zero_le n) (Nat.le_refl 0)]
  exact arrives_ok hn

end

/-! ## Lists in order -/

/-- Whether two elements are compared by their keys, whichever comes first. -/
def Compared (less : α → α → Except ε Bool) (key : α → κ) (a b : α) : Prop :=
  less a b = .ok (decide (key a < key b)) ∧ less b a = .ok (decide (key b < key a))

/-- Whether the keys of a list ascend. -/
abbrev Ascends (key : α → κ) (xs : List α) : Prop := xs.Pairwise fun a b => key a ≤ key b

variable {less : α → α → Except ε Bool} {key : α → κ} {certain : Prop}

/-- Comparisons of two elements come in pairs. -/
theorem Compared.symm {a b : α} (h : Compared less key a b) : Compared less key b a := And.symm h

/-- Lists with the same elements are compared alike. -/
theorem compared_of_perm {xs ys : List α} (h : xs.Pairwise (Compared less key)) (hp : ys.Perm xs) :
    ys.Pairwise (Compared less key) :=
  (hp.pairwise_iff Compared.symm).mpr h

/-- Any two elements can be compared, if it does not matter whether there is an outcome. -/
theorem decides_any (a b : α) (_ : True) (_ : True) : Decides False (less a b) :=
  ⟨fun _ _ => trivial, nofun⟩

/-! ## Runs -/

/-- Two neighbours in a run go the way of the run. -/
theorem arrives_runLength {previous : α} {xs : List α}
    (h : (previous :: xs).Pairwise (Compared less key)) (down : Bool) :
    Arrives certain
      (fun n => (previous :: xs.take n).IsChain fun a b => decide (key b < key a) = down)
      (runLength less down previous xs) := by
  induction xs generalizing previous with
  | nil => exact arrives_ok (.singleton previous)
  | cons x rest ih =>
    obtain ⟨hprevious, hrest⟩ := List.pairwise_cons.mp h
    rw [runLength, (hprevious x List.mem_cons_self).2]
    show Arrives certain _ (if _ then _ else _)
    split
    next hgoes =>
      refine (ih hrest).bind fun n hn => arrives_ok ?_
      exact .cons_cons (eq_of_beq hgoes) hn
    next => exact arrives_ok (.singleton previous)

/-- An element put at its place in a run. -/
theorem ascends_insertInto {run : List α} {x : α} (hrun : Ascends key run)
    (h : (x :: run).Pairwise (Compared less key)) :
    Arrives certain (Ascends key) (insertInto less run x) := by
  have search : ∀ y ∈ run, (less x y).map (!·) = .ok (!decide (key x < key y)) := by
    intro y hy
    rw [((List.pairwise_cons.mp h).1 y hy).1]
    rfl
  -- the run ascends, so what is not above the element stands in front
  have first : run.Pairwise fun a b =>
      (!decide (key x < key b)) = true → (!decide (key x < key a)) = true := by
    refine hrun.imp fun {a b} hab hb => ?_
    simp only [Bool.not_eq_true', decide_eq_false_iff_not, not_lt] at hb ⊢
    exact hab.trans hb
  obtain ⟨n, hn⟩ := exists_passesUpTo first
  have below : ∀ y ∈ run.take n, key y ≤ key x := fun y hy => by simpa using hn.front hy
  have above : ∀ y ∈ run.drop n, key x ≤ key y := fun y hy =>
    le_of_lt (by simpa using hn.behind hy)
  rw [insertInto, partitionPoint_eq search hn false (Nat.zero_le n) (by simpa using hn.1) (by simp)]
  refine arrives_ok (List.pairwise_append.mpr ⟨hrun.sublist (List.take_sublist n run),
    List.pairwise_cons.mpr ⟨above, hrun.sublist (List.drop_sublist n run)⟩, fun y hy z hz => ?_⟩)
  rcases List.mem_cons.mp hz with rfl | hz
  · exact below y hy
  · exact (below y hy).trans (above z hz)

/-- Elements put into a run one by one. -/
theorem ascends_foldlM_insertInto {run xs : List α} (hrun : Ascends key run)
    (h : (run ++ xs).Pairwise (Compared less key)) :
    Arrives certain (Ascends key) (xs.foldlM (insertInto less) run) := by
  induction xs generalizing run with
  | nil => exact arrives_ok hrun
  | cons x rest ih =>
    have apart : (x :: run ++ rest).Pairwise (Compared less key) :=
      compared_of_perm h List.perm_middle.symm
    have kept : Yields (·.Perm (x :: run)) (insertInto less run x) :=
      (arrives_insertInto decides_any (fun _ _ => trivial) trivial).yields
    rw [List.foldlM_cons]
    refine ((ascends_insertInto hrun (List.pairwise_append.mp apart).1).and kept).bind
      fun r ⟨hr, hperm⟩ => ih hr (compared_of_perm apart (hperm.append_right rest))

/-- A chain that goes down ascends when it is read from its end. -/
theorem ascends_of_isChain {run : List α} {down : Bool}
    (h : run.IsChain fun a b => decide (key b < key a) = down) :
    Ascends key (if down then run.reverse else run) := by
  cases down with
  | true =>
    have descends : run.Pairwise fun a b => key b < key a :=
      List.isChain_iff_pairwise.mp (h.imp fun _ _ hab => of_decide_eq_true hab)
    exact List.pairwise_reverse.mpr (descends.imp le_of_lt)
  | false =>
    exact List.isChain_iff_pairwise.mp (h.imp fun _ _ hab => not_lt.mp (of_decide_eq_false hab))

/-- The first run ascends, also where it was found going down. -/
theorem ascends_firstRun (least : Nat) {xs : List α} (h : xs.Pairwise (Compared less key)) :
    Arrives certain (fun r => Ascends key r.1) (firstRun less least xs) := by
  match xs with
  | [] => exact arrives_ok .nil
  | [x] => exact arrives_ok (List.pairwise_singleton _ x)
  | x :: y :: rest =>
    obtain ⟨hx, hbehind⟩ := List.pairwise_cons.mp h
    rw [firstRun, (hx y List.mem_cons_self).2]
    refine (arrives_runLength hbehind _).bind fun more hmore => ?_
    have start : Ascends key (if decide (key y < key x) then (x :: y :: rest.take more).reverse
        else x :: y :: rest.take more) := ascends_of_isChain (.cons_cons rfl hmore)
    have whole : (x :: y :: rest.take more ++ rest.drop more).Pairwise (Compared less key) := by
      rw [List.cons_append, List.cons_append, List.take_append_drop]
      exact h
    refine (ascends_foldlM_insertInto start ?_).bind fun r hr => arrives_ok hr
    -- the elements to put in are compared with those of the run, turned round or not
    refine (compared_of_perm whole (List.Perm.append_right _ ?_)).sublist
      ((List.Sublist.refl _).append (List.take_sublist _ _))
    split
    · exact List.reverse_perm _
    · exact .refl _

/-- The first run is taken off the front, and nothing is lost. -/
theorem yields_firstRun (least : Nat) (xs : List α) :
    Yields (fun r => (r.1 ++ r.2).Perm xs) (firstRun less least xs) :=
  (arrives_firstRun decides_any least fun _ _ => trivial).yields.mono fun _ h => h.1

/-! ## Merging -/

namespace Merge

/-- Whether one element may be placed before another by a merge that works from the front or from
the back. -/
def Before (fromBack : Bool) (key : α → κ) (a b : α) : Prop :=
  if fromBack then key b ≤ key a else key a ≤ key b

/-- What is before something before another one is before that. -/
theorem Before.trans {fromBack : Bool} {a b c : α} (hab : Before fromBack key a b)
    (hbc : Before fromBack key b c) : Before fromBack key a c := by
  cases fromBack with
  | true => exact le_trans (α := κ) hbc hab
  | false => exact le_trans (α := κ) hab hbc

/-- What the comparison of the next element on the right with the next on the left says. -/
theorem before_of_lower {fromBack : Bool} {a b : α}
    (h : (decide (key b < key a) == fromBack) = true) : Before fromBack key a b := by
  cases fromBack with
  | true => exact le_of_lt (of_decide_eq_true (eq_of_beq h))
  | false => exact not_lt.mp (of_decide_eq_false (eq_of_beq h))

/-- A comparison that fails tells the order as well. -/
theorem before_of_not_lower {fromBack : Bool} {a b : α}
    (h : (decide (key b < key a) == fromBack) = false) : Before fromBack key b a := by
  cases fromBack with
  | true => exact not_lt.mp (of_decide_eq_false (by simpa using h))
  | false => exact le_of_lt (of_decide_eq_true (by simpa using h))

/-- Elements that come before one that is compared are compared like it. -/
theorem lower_of_before {fromBack : Bool} {a a' b : α} (h : Before fromBack key a a')
    (hb : (decide (key b < key a') == fromBack) = true) :
    (decide (key b < key a) == fromBack) = true := by
  cases fromBack with
  | true =>
    have below : key b < key a' := of_decide_eq_true (eq_of_beq hb)
    exact beq_iff_eq.mpr (decide_eq_true (below.trans_le h))
  | false =>
    have above : key a' ≤ key b := not_lt.mp (of_decide_eq_false (eq_of_beq hb))
    exact beq_iff_eq.mpr (decide_eq_false (not_lt.mpr (le_trans h above)))

/-- What is before an element that stays on its side stays on its side too. -/
theorem not_lower_of_before {fromBack : Bool} {a b b' : α} (h : Before fromBack key b b')
    (hb : (decide (key b' < key a) != fromBack) = true) :
    (decide (key b < key a) != fromBack) = true := by
  cases fromBack with
  | true =>
    have above : ¬ key b' < key a := by simpa using hb
    have : ¬ key b < key a := fun hlt => above (lt_of_le_of_lt h hlt)
    simpa using this
  | false =>
    have below : key b' < key a := by simpa using hb
    have : key b < key a := lt_of_le_of_lt h below
    simpa using this

/-- What every step of a merge keeps. -/
structure Ordered (less : α → α → Except ε Bool) (key : α → κ) (m : Merge α) : Prop where
  compared : m.elements.Pairwise (Compared less key)
  placed : m.placed.Pairwise fun a b => Before m.fromBack key b a
  left : m.left.Pairwise (Before m.fromBack key)
  right : m.right.Pairwise (Before m.fromBack key)
  ahead : ∀ a ∈ m.placed, ∀ b ∈ m.left ++ m.right, Before m.fromBack key a b
  /-- The far element of the run that was shorter comes after the other run. -/
  far : if m.fromBack then ∀ b ∈ m.right.getLast?, ∀ a ∈ m.left, Before m.fromBack key a b
    else ∀ a ∈ m.left.getLast?, ∀ b ∈ m.right, Before m.fromBack key b a

variable {m : Merge α}

/-- The far element is not lost while others are taken. -/
theorem mem_getLast?_of_drop {xs : List α} {k : Nat} {x : α} (h : x ∈ (xs.drop k).getLast?) :
    x ∈ xs.getLast? := by
  rw [List.getLast?_drop] at h
  split at h
  · cases h
  · exact h

/-- Taking from the left keeps a merge in order if what is taken is before all on the right. -/
theorem Ordered.takeLeft (h : m.Ordered less key) {k : Nat}
    (hk : ∀ a ∈ m.left.take k, ∀ b ∈ m.right, Before m.fromBack key a b) :
    (m.takeLeft k).Ordered less key := by
  have cut : (m.left.take k ++ m.left.drop k).Pairwise (Before m.fromBack key) := by
    rw [List.take_append_drop]
    exact h.left
  obtain ⟨front, behind, across⟩ := List.pairwise_append.mp cut
  refine ⟨compared_of_perm h.compared (elements_takeLeft m k), ?_, behind, h.right, ?_, ?_⟩
  -- what is placed is kept with the last one first
  · refine List.pairwise_append.mpr ⟨List.pairwise_reverse.mpr front, h.placed, ?_⟩
    intro a ha b hb
    exact h.ahead b hb a (List.mem_append_left _ (List.mem_of_mem_take (List.mem_reverse.mp ha)))
  · intro a ha b hb
    rcases List.mem_append.mp ha with ha | ha <;> rcases List.mem_append.mp hb with hb | hb
    · exact across a (List.mem_reverse.mp ha) b hb
    · exact hk a (List.mem_reverse.mp ha) b hb
    · exact h.ahead a ha b (List.mem_append_left _ (List.mem_of_mem_drop hb))
    · exact h.ahead a ha b (List.mem_append_right _ hb)
  -- the far element stays the far one, on whichever side it is
  · have far := h.far
    show if m.fromBack = true then _ else _
    split at far
    next hback =>
      rw [if_pos hback]
      exact fun b hb a ha => far b hb a (List.mem_of_mem_drop ha)
    next hback =>
      rw [if_neg hback]
      exact fun a ha b hb => far a (mem_getLast?_of_drop ha) b hb

/-- The same on the right. -/
theorem Ordered.takeRight (h : m.Ordered less key) {k : Nat}
    (hk : ∀ b ∈ m.right.take k, ∀ a ∈ m.left, Before m.fromBack key b a) :
    (m.takeRight k).Ordered less key := by
  have cut : (m.right.take k ++ m.right.drop k).Pairwise (Before m.fromBack key) := by
    rw [List.take_append_drop]
    exact h.right
  obtain ⟨front, behind, across⟩ := List.pairwise_append.mp cut
  refine ⟨compared_of_perm h.compared (elements_takeRight m k), ?_, h.left, behind, ?_, ?_⟩
  · refine List.pairwise_append.mpr ⟨List.pairwise_reverse.mpr front, h.placed, ?_⟩
    intro a ha b hb
    exact h.ahead b hb a (List.mem_append_right _ (List.mem_of_mem_take (List.mem_reverse.mp ha)))
  · intro a ha b hb
    rcases List.mem_append.mp ha with ha | ha <;> rcases List.mem_append.mp hb with hb | hb
    · exact hk a (List.mem_reverse.mp ha) b hb
    · exact across a (List.mem_reverse.mp ha) b hb
    · exact h.ahead a ha b (List.mem_append_left _ hb)
    · exact h.ahead a ha b (List.mem_append_right _ (List.mem_of_mem_drop hb))
  · have far := h.far
    show if m.fromBack = true then _ else _
    split at far
    next hback =>
      rw [if_pos hback]
      exact fun b hb a ha => far b (mem_getLast?_of_drop hb) a ha
    next hback =>
      rw [if_neg hback]
      exact fun a ha b hb => far a ha b (List.mem_of_mem_drop hb)

/-- Two runs with at most one element left are finished. -/
theorem isFinished_of_remaining (h : m.remaining ≤ 1) : m.isFinished = true := by
  unfold remaining at h
  unfold isFinished
  split
  · exact Bool.or_eq_true_iff.mpr (.inr (decide_eq_true (by omega)))
  · exact Bool.or_eq_true_iff.mpr (.inr (decide_eq_true (by omega)))

/-- A merge that goes on has elements on both sides. -/
theorem right_ne_nil (h : m.isFinished = false) : m.right ≠ [] := by
  intro he
  unfold isFinished at h
  split at h <;> simp [he] at h

/-- The only element is the last one. -/
theorem eq_getLast?_of_length {xs : List α} {x : α} (h : xs.length ≤ 1) (hx : x ∈ xs) :
    x ∈ xs.getLast? := by
  match xs, h with
  | [y], _ => exact congrArg some (List.mem_singleton.mp hx).symm

/-- The elements of a finished merge are in order. -/
theorem Ordered.ascends_result (h : m.Ordered less key) (hend : m.isFinished = true) :
    Ascends key m.result := by
  have hahead := h.ahead
  have hfar := h.far
  have hplaced := h.placed
  have hleft := h.left
  have hright := h.right
  unfold isFinished at hend
  unfold result
  -- a merge from the back has placed the greatest elements, one from the front the least
  cases hback : m.fromBack with
  | true =>
    simp only [hback, if_true, Before, Bool.or_eq_true, List.isEmpty_iff,
      decide_eq_true_eq] at hahead hfar hplaced hleft hright hend ⊢
    have between : ∀ b ∈ m.right, ∀ a ∈ m.left, key b ≤ key a := by
      intro b hb a ha
      rcases hend with he | hlength
      · rw [he] at ha
        cases ha
      · exact hfar b (eq_getLast?_of_length hlength hb) a ha
    rw [List.append_assoc]
    refine List.pairwise_append.mpr ⟨List.pairwise_reverse.mpr hright,
      List.pairwise_append.mpr ⟨List.pairwise_reverse.mpr hleft, hplaced, ?_⟩, ?_⟩
    · exact fun a ha b hb => hahead b hb a (List.mem_append_left _ (List.mem_reverse.mp ha))
    · intro b hb x hx
      rcases List.mem_append.mp hx with hx | hx
      · exact between b (List.mem_reverse.mp hb) x (List.mem_reverse.mp hx)
      · exact hahead x hx b (List.mem_append_right _ (List.mem_reverse.mp hb))
  | false =>
    simp only [hback, Bool.false_eq_true, if_false, Before, Bool.or_eq_true, List.isEmpty_iff,
      decide_eq_true_eq] at hahead hfar hplaced hleft hright hend ⊢
    have between : ∀ b ∈ m.right, ∀ a ∈ m.left, key b ≤ key a := by
      intro b hb a ha
      rcases hend with he | hlength
      · rw [he] at hb
        cases hb
      · exact hfar a (eq_getLast?_of_length hlength ha) b hb
    rw [List.append_assoc]
    refine List.pairwise_append.mpr ⟨List.pairwise_reverse.mpr hplaced,
      List.pairwise_append.mpr ⟨hright, hleft, between⟩, ?_⟩
    intro a ha b hb
    refine hahead a (List.mem_reverse.mp ha) b (List.mem_append.mpr ?_)
    exact (List.mem_append.mp hb).symm

/-- The comparison of two elements that a merge has not placed yet. -/
theorem Ordered.less_right_left (h : m.Ordered less key) {a b : α} (ha : a ∈ m.left)
    (hb : b ∈ m.right) : less b a = .ok (decide (key b < key a)) := by
  obtain ⟨-, unplaced, -⟩ := List.pairwise_append.mp h.compared
  exact ((List.pairwise_append.mp unplaced).2.2 a ha b hb).2

/-- Taking elements one at a time. -/
theorem ordered_singly (patience lefts rights : Nat) (h : m.Ordered less key) :
    Arrives certain (fun m' => m'.Ordered less key ∧ m'.remaining ≤ m.remaining)
      (m.singly less patience lefts rights) := by
  -- on the steps; each takes the first element of a side
  fun_induction singly with
  | case1 => exact arrives_ok ⟨h, Nat.le_refl _⟩
  | case3 => exact arrives_ok ⟨h, Nat.le_refl _⟩
  | case2 lefts rights m _ a left b right hl hr onLeft onRight =>
    have ha : a ∈ m.left := hl ▸ List.mem_cons_self
    have hb : b ∈ m.right := hr ▸ List.mem_cons_self
    have hleft := h.left
    have hright := h.right
    rw [hl, List.pairwise_cons] at hleft
    rw [hr, List.pairwise_cons] at hright
    rw [h.less_right_left ha hb]
    show Arrives certain _ (if _ then _ else _)
    split
    next hlower =>
      have first := before_of_lower hlower
      have next : (m.takeLeft 1).Ordered less key := by
        refine h.takeLeft fun x hx y hy => ?_
        rw [hl, List.take_succ_cons, List.take_zero, List.mem_singleton] at hx
        rw [hr] at hy
        subst hx
        rcases List.mem_cons.mp hy with rfl | hy
        · exact first
        · exact first.trans (hright.1 y hy)
      refine (onLeft next).mono fun m' hm' => ⟨hm'.1, hm'.2.trans ?_⟩
      simp [remaining, Merge.takeLeft]
    next hlower =>
      have first := before_of_not_lower (Bool.eq_false_iff.mpr hlower)
      have next : (m.takeRight 1).Ordered less key := by
        refine h.takeRight fun y hy x hx => ?_
        rw [hr, List.take_succ_cons, List.take_zero, List.mem_singleton] at hy
        rw [hl] at hx
        subst hy
        rcases List.mem_cons.mp hx with rfl | hx
        · exact first
        · exact first.trans (hleft.1 x hx)
      refine (onRight next).mono fun m' hm' => ⟨hm'.1, hm'.2.trans ?_⟩
      simp [remaining, Merge.takeRight]

/-- A round takes an element, unless the merge was finished before it. -/
theorem ordered_leftStretch (h : m.Ordered less key) :
    Arrives certain
      (fun r => r.2.Ordered less key ∧ r.2.remaining ≤ m.remaining ∧
        (m.isFinished = false → r.2.isFinished = true ∨ r.2.remaining < m.remaining))
      (m.leftStretch less) := by
  unfold leftStretch
  split
  next hr =>
    exact arrives_ok ⟨h, Nat.le_refl _, fun hunfinished => absurd hr (right_ne_nil hunfinished)⟩
  next b right hr =>
    have hb : b ∈ m.right := hr ▸ List.mem_cons_self
    have search : ∀ a ∈ m.left, (less b a).map (· == m.fromBack) =
        .ok (decide (key b < key a) == m.fromBack) := by
      intro a ha
      rw [h.less_right_left ha hb]
      rfl
    refine (arrives_gallop search (h.left.imp lower_of_before) _).bind fun k hk => arrives_ok ?_
    have hright := h.right
    rw [hr, List.pairwise_cons] at hright
    -- what is before the next element on the right is before all of them
    have fromNext : ∀ a, Before m.fromBack key a b → ∀ y ∈ m.right, Before m.fromBack key a y := by
      intro a hab y hy
      rw [hr] at hy
      rcases List.mem_cons.mp hy with rfl | hy
      · exact hab
      · exact hab.trans (hright.1 y hy)
    have next := h.takeLeft fun a ha => fromNext a (before_of_lower (hk.front ha))
    have shorter : (m.takeLeft k).remaining ≤ m.remaining := by simp [remaining, Merge.takeLeft]
    dsimp only
    split
    next hend => exact ⟨next, shorter, fun _ => .inl hend⟩
    next =>
      have both : ((m.takeLeft k).takeRight 1).remaining < m.remaining := by
        have : m.right.length ≠ 0 := by simp [hr]
        simp only [remaining, Merge.takeLeft, Merge.takeRight, List.length_drop]
        omega
      refine ⟨next.takeRight fun x hx a ha => ?_, both.le, fun _ => .inr both⟩
      have hx : x ∈ m.right.take 1 := hx
      rw [hr, List.take_succ_cons, List.take_zero, List.mem_singleton] at hx
      subst hx
      exact before_of_not_lower (hk.behind ha)

/-- A stretch from the right, and the element from the left that ends it. -/
theorem ordered_rightStretch (h : m.Ordered less key) :
    Arrives certain (fun r => r.2.Ordered less key ∧ r.2.remaining ≤ m.remaining)
      (m.rightStretch less) := by
  unfold rightStretch
  split
  next => exact arrives_ok ⟨h, Nat.le_refl _⟩
  next a left hl =>
    have ha : a ∈ m.left := hl ▸ List.mem_cons_self
    have search : ∀ b ∈ m.right, (less b a).map (· != m.fromBack) =
        .ok (decide (key b < key a) != m.fromBack) := by
      intro b hb
      rw [h.less_right_left ha hb]
      rfl
    refine (arrives_gallop search (h.right.imp not_lower_of_before) _).bind fun k hk =>
      arrives_ok ?_
    have hleft := h.left
    rw [hl, List.pairwise_cons] at hleft
    have fromNext : ∀ b, Before m.fromBack key b a → ∀ x ∈ m.left, Before m.fromBack key b x := by
      intro b hba x hx
      rw [hl] at hx
      rcases List.mem_cons.mp hx with rfl | hx
      · exact hba
      · exact hba.trans (hleft.1 x hx)
    have next := h.takeRight fun b hb =>
      fromNext b (before_of_not_lower (by simpa using hk.front hb))
    dsimp only
    split
    next => exact ⟨next, by simp [remaining, Merge.takeRight]⟩
    next =>
      refine ⟨next.takeLeft fun x hx b hb => ?_, ?_⟩
      · have hx : x ∈ m.left.take 1 := hx
        rw [hl, List.take_succ_cons, List.take_zero, List.mem_singleton] at hx
        subst hx
        have lower : (decide (key b < key x) == m.fromBack) = true := by simpa using hk.behind hb
        exact before_of_lower lower
      · simp only [remaining, Merge.takeLeft, Merge.takeRight, List.length_drop]
        omega

/-- Stretches in turns keep the order, and make a merge shorter if it is not finished. -/
theorem ordered_byStretches (fuel patience : Nat) (h : m.Ordered less key) :
    Arrives certain
      (fun r => r.2.Ordered less key ∧ r.2.remaining ≤ m.remaining ∧
        (fuel ≠ 0 → m.isFinished = false → r.2.isFinished = true ∨ r.2.remaining < m.remaining))
      (m.byStretches less fuel patience) := by
  -- on the fuel; only the stretch from the left is needed to get shorter
  induction fuel generalizing patience m with
  | zero => exact arrives_ok ⟨h, Nat.le_refl _, fun hne => absurd rfl hne⟩
  | succ fuel ih =>
    refine (ordered_leftStretch h).bind fun ⟨lefts, m'⟩ ⟨hm', hle', hlt'⟩ => ?_
    show Arrives certain _ (if m'.isFinished then _ else _)
    split
    next => exact arrives_ok ⟨hm', hle', fun _ => hlt'⟩
    next hunfinished =>
    refine (ordered_rightStretch hm').bind fun ⟨rights, m''⟩ ⟨hm'', hle''⟩ => ?_
    have less'' : m.isFinished = false → m''.remaining < m.remaining := fun hm =>
      lt_of_le_of_lt hle'' ((hlt' hm).resolve_left hunfinished)
    show Arrives certain _ (if m''.isFinished || (lefts < 7 && rights < 7) then _ else _)
    split
    · exact arrives_ok ⟨hm'', hle''.trans hle', fun _ hm => .inr (less'' hm)⟩
    · refine (ih _ hm'').mono fun r hr =>
        ⟨hr.1, hr.2.1.trans (hle''.trans hle'), fun _ hm => .inr ?_⟩
      exact lt_of_le_of_lt hr.2.1 (less'' hm)

/-- A merge that may take as many turns as it has elements is carried to its end. -/
theorem ordered_finish (fuel patience : Nat) (h : m.Ordered less key) (hfuel : m.remaining ≤ fuel) :
    Arrives certain (fun r => r.2.Ordered less key ∧ r.2.isFinished = true)
      (m.finish less fuel patience) := by
  induction fuel generalizing patience m with
  | zero => exact arrives_ok ⟨h, isFinished_of_remaining (hfuel.trans (Nat.zero_le 1))⟩
  | succ fuel ih =>
    refine (ordered_singly patience 0 0 h).bind fun m' ⟨hm', hle'⟩ => ?_
    split
    next hend => exact arrives_ok ⟨hm', hend⟩
    next hunfinished =>
    refine (ordered_byStretches fuel patience hm').bind
      fun ⟨patience', m''⟩ ⟨hm'', hle'', hlt''⟩ => ?_
    show Arrives certain _ (if m''.isFinished then _ else _)
    split
    next hend => exact arrives_ok ⟨hm'', hend⟩
    next hunfinished' =>
      refine ih _ hm'' ?_
      -- without fuel the one element left would be the end
      by_cases hnone : fuel = 0
      · exact absurd (isFinished_of_remaining (hle''.trans (by omega))) hunfinished'
      · have fewer : m''.remaining < m'.remaining :=
          (hlt'' hnone (Bool.eq_false_iff.mpr hunfinished)).resolve_left hunfinished'
        omega

/-- A merge that is finished has the elements it began with. -/
theorem yields_finish (fuel patience : Nat) (m : Merge α) :
    Yields (fun r => From m r.2) (m.finish less fuel patience) :=
  (arrives_finish decides_any fuel patience fun _ _ => trivial).yields

/-- A merge begins in order if the first element on the right is below the left run and the last on
the left above the right one. -/
theorem ordered_ofRuns {left right : List α} (h : (left ++ right).Pairwise (Compared less key))
    (hleft : Ascends key left) (hright : Ascends key right)
    (hfirst : ∀ b ∈ right.head?, ∀ a ∈ left, key b ≤ key a)
    (hlast : ∀ a ∈ left.getLast?, ∀ b ∈ right, key b ≤ key a) :
    (ofRuns left right).Ordered less key := by
  unfold ofRuns
  split
  -- from the front, the first element on the right is the least
  · have start : Ordered less key ⟨false, left, right, []⟩ :=
      ⟨h, .nil, hleft, hright, List.forall_mem_nil _, hlast⟩
    refine start.takeRight fun b hb a ha => hfirst b ?_ a ha
    rw [List.head?_eq_getElem?]
    obtain ⟨i, hi, rfl⟩ := List.mem_take_iff_getElem.mp hb
    obtain rfl : i = 0 := by omega
    exact List.getElem?_eq_getElem _
  -- from the back, the last element on the left is the greatest
  · have start : Ordered less key ⟨true, left.reverse, right.reverse, []⟩ := by
      refine ⟨compared_of_perm h ((List.reverse_perm _).append (List.reverse_perm _)), .nil,
        List.pairwise_reverse.mpr hleft, List.pairwise_reverse.mpr hright, List.forall_mem_nil _,
        fun b hb a ha => ?_⟩
      rw [List.getLast?_reverse] at hb
      exact hfirst b hb a (List.mem_reverse.mp ha)
    refine start.takeLeft fun a ha b hb => hlast a ?_ b (List.mem_reverse.mp hb)
    rw [← List.head?_reverse, List.head?_eq_getElem?]
    obtain ⟨i, hi, rfl⟩ := List.mem_take_iff_getElem.mp ha
    obtain rfl : i = 0 := by omega
    exact List.getElem?_eq_getElem _

end Merge

/-- No element of a list in order is before the first. -/
theorem Ascends.head_le {xs : List α} {first : α} (h : Ascends key xs)
    (hfirst : xs.head? = some first) : ∀ x ∈ xs, key first ≤ key x := by
  cases xs with
  | nil => cases hfirst
  | cons x rest =>
    obtain rfl := Option.some.inj hfirst
    exact List.forall_mem_cons.mpr ⟨le_refl _, (List.pairwise_cons.mp h).1⟩

/-- None is behind the last. -/
theorem Ascends.le_last {xs : List α} {last : α} (h : Ascends key xs)
    (hlast : xs.getLast? = some last) : ∀ x ∈ xs, key x ≤ key last := by
  obtain ⟨front, rfl⟩ := List.getLast?_eq_some_iff.mp hlast
  obtain ⟨-, -, behind⟩ := List.pairwise_append.mp h
  refine List.forall_mem_append.mpr ⟨fun x hx => behind x hx last List.mem_cons_self, ?_⟩
  exact List.forall_mem_singleton.mpr (le_refl _)

/-- The first search cuts the run on the left where the one on the right begins. -/
theorem arrives_low {left : List α} {first : α} (hleft : Ascends key left)
    (hless : ∀ a ∈ left, less first a = .ok (decide (key first < key a))) :
    Arrives certain (fun low => (∀ a ∈ left.take low, key a ≤ key first) ∧
        ∀ a ∈ left.drop low, key first ≤ key a)
      (gallop (fun a => (less first a).map (!·)) left false) := by
  have search : ∀ a ∈ left, (less first a).map (!·) = .ok (!decide (key first < key a)) := by
    intro a ha
    rw [hless a ha]
    rfl
  have goes : left.Pairwise fun a a' =>
      (!decide (key first < key a')) = true → (!decide (key first < key a)) = true := by
    refine hleft.imp fun {a a'} haa' ha' => ?_
    simp only [Bool.not_eq_true', decide_eq_false_iff_not, not_lt] at ha' ⊢
    exact haa'.trans ha'
  refine (arrives_gallop search goes false).mono fun low hlow => ⟨fun a ha => ?_, fun a ha => ?_⟩
  · simpa using hlow.front ha
  · exact le_of_lt (by simpa using hlow.behind ha)

/-- The second one, which goes from the back, cuts the run on the right where the one on the left
ends. -/
theorem arrives_high {right : List α} {last : α} (hright : Ascends key right)
    (hless : ∀ b ∈ right, less b last = .ok (decide (key b < key last))) :
    Arrives certain (fun high => (∀ b ∈ right.take (right.length - high), key b ≤ key last) ∧
        ∀ b ∈ right.drop (right.length - high), key last ≤ key b)
      (gallop (fun b => (less b last).map (!·)) right.reverse true) := by
  have search : ∀ b ∈ right.reverse,
      (less b last).map (!·) = .ok (!decide (key b < key last)) := by
    intro b hb
    rw [hless b (List.mem_reverse.mp hb)]
    rfl
  have goes : right.reverse.Pairwise fun b b' =>
      (!decide (key b' < key last)) = true → (!decide (key b < key last)) = true := by
    refine List.pairwise_reverse.mpr (hright.imp fun {b b'} hbb' hb => ?_)
    simp only [Bool.not_eq_true', decide_eq_false_iff_not, not_lt] at hb ⊢
    exact hb.trans hbb'
  refine (arrives_gallop search goes true).mono fun high hhigh => ⟨fun b hb => ?_, fun b hb => ?_⟩
  · have inFront : b ∈ right.reverse.drop high := by
      rw [List.drop_reverse]
      exact List.mem_reverse.mpr hb
    exact le_of_lt (by simpa using hhigh.behind inFront)
  · have atEnd : b ∈ right.reverse.take high := by
      rw [List.take_reverse]
      exact List.mem_reverse.mpr hb
    simpa using hhigh.front atEnd

/-- Two runs in order are merged into one. -/
theorem ascends_mergeRuns {left right : List α} (hleft : Ascends key left)
    (hright : Ascends key right) (h : (left ++ right).Pairwise (Compared less key)) :
    Carries certain (Ascends key) (mergeRuns less left right) := by
  have across : ∀ a ∈ left, ∀ b ∈ right, less b a = .ok (decide (key b < key a)) :=
    fun a ha b hb => ((List.pairwise_append.mp h).2.2 a ha b hb).2
  unfold mergeRuns
  cases hfirst : right.head? with
  | none => exact carries_pure hleft
  | some first =>
    have firstLe : ∀ b ∈ right, key first ≤ key b := hright.head_le hfirst
    refine (carries_lift (arrives_low hleft fun a ha =>
      across a ha first (List.mem_of_head? hfirst))).bind fun low hlow => ?_
    obtain ⟨below, above⟩ := hlow
    cases hlast : left.getLast? with
    | none => exact carries_pure hright
    | some last =>
      have leLast : ∀ a ∈ left, key a ≤ key last := hleft.le_last hlast
      dsimp only
      split
      next hall =>
        refine carries_pure (List.pairwise_append.mpr ⟨hleft, hright, fun a ha b hb => ?_⟩)
        rw [← List.take_of_length_le hall] at ha
        exact (below a ha).trans (firstLe b hb)
      next hpart =>
      refine (carries_lift (arrives_high hright fun b hb =>
        across last (List.mem_of_getLast? hlast) b hb)).bind fun high hhigh => ?_
      obtain ⟨lower, upper⟩ := hhigh
      generalize right.length - high = middle at lower upper
      split
      next hnone =>
        subst hnone
        exact carries_pure (List.pairwise_append.mpr
          ⟨hleft, hright, fun a ha b hb => (leLast a ha).trans (upper b hb)⟩)
      next hsome =>
      have start : (Merge.ofRuns (left.drop low) (right.take middle)).Ordered less key := by
        refine Merge.ordered_ofRuns
          (h.sublist ((List.drop_sublist low left).append (List.take_sublist middle right)))
          (hleft.sublist (List.drop_sublist low left))
          (hright.sublist (List.take_sublist middle right)) (fun b hb a ha => ?_)
          fun a ha b hb => ?_
        · rw [List.head?_take, if_neg hsome, hfirst] at hb
          obtain rfl := Option.some.inj hb
          exact above a ha
        · have ha := Merge.mem_getLast?_of_drop ha
          rw [hlast] at ha
          obtain rfl := Option.some.inj ha
          exact lower b hb
      refine carries_get.bind fun patience _ => ?_
      refine (carries_lift ((Merge.ordered_finish _ patience start (Nat.le_refl _)).and
        (Merge.yields_finish _ patience _))).bind
        fun ⟨_, m⟩ ⟨⟨hm, hend⟩, hfrom⟩ => ?_
      refine (carries_set _).bind fun _ _ => carries_pure ?_
      have between : ∀ x ∈ m.result, x ∈ left.drop low ∨ x ∈ right.take middle := fun x hx =>
        List.mem_append.mp ((m.result_perm.trans (List.Perm.trans hfrom
          (Merge.elements_ofRuns _ _))).mem_iff.mp hx)
      -- what is left alone in front, the merge, and what is left alone behind
      refine List.pairwise_append.mpr ⟨List.pairwise_append.mpr
        ⟨hleft.sublist (List.take_sublist low left), hm.ascends_result hend, ?_⟩,
        hright.sublist (List.drop_sublist middle right), ?_⟩
      · intro a ha x hx
        refine (below a ha).trans ?_
        rcases between x hx with hx | hx
        · exact above x hx
        · exact firstLe x (List.mem_of_mem_take hx)
      · intro x hx b hb
        refine le_trans ?_ (upper b hb)
        rcases List.mem_append.mp hx with hx | hx
        · exact leLast x (List.mem_of_mem_take hx)
        · rcases between x hx with hx | hx
          · exact leLast x (List.mem_of_mem_drop hx)
          · exact lower x hx

/-- Two runs that are merged have the elements of both. -/
theorem yields_mergeRuns (left right : List α) (n : Nat) :
    Yields (fun r => r.1.Perm (left ++ right)) (mergeRuns less left right n) :=
  (carries_mergeRuns decides_any (fun _ _ => trivial) n).yields

/-! ## Sorting -/

/-- The runs that wait stay in order while the deeper ones are merged. -/
theorem ascends_settle (depth : Nat) {waiting : List (Waiting α)} {last : List α}
    (hwaiting : ∀ w ∈ waiting, Ascends key w.run) (hlast : Ascends key last)
    (h : (waiting.flatMap (·.run) ++ last).Pairwise (Compared less key)) :
    Carries certain (fun r => (∀ w ∈ r.1, Ascends key w.run) ∧ Ascends key r.2)
      (settle less depth waiting last) := by
  induction waiting generalizing last with
  | nil => exact carries_pure ⟨hwaiting, hlast⟩
  | cons top rest ih =>
    obtain ⟨htop, hrest⟩ := List.forall_mem_cons.mp hwaiting
    have apart : (rest.flatMap (·.run) ++ (top.run ++ last)).Pairwise (Compared less key) := by
      refine compared_of_perm h ?_
      rw [List.flatMap_cons, List.append_assoc]
      exact List.perm_append_comm_assoc ..
    unfold settle
    split
    · intro n
      refine ((ascends_mergeRuns htop hlast (List.pairwise_append.mp apart).2.1 n).and
        (yields_mergeRuns top.run last n)).bind fun r hr => ?_
      exact ih hrest hr.1 (compared_of_perm apart (hr.2.append_left _)) r.2
    · exact carries_pure ⟨hwaiting, hlast⟩

/-- They also keep their elements together. -/
theorem yields_settle (depth : Nat) (waiting : List (Waiting α)) (last : List α) (n : Nat) :
    Yields (fun r => (r.1.1.flatMap (·.run) ++ r.1.2).Perm (waiting.flatMap (·.run) ++ last))
      (settle less depth waiting last n) :=
  (carries_settle decides_any depth (fun _ _ => trivial) n).yields

/-- All runs that wait are merged into one. -/
theorem ascends_mergeAll {waiting : List (List α)} {last : List α}
    (hwaiting : ∀ run ∈ waiting, Ascends key run) (hlast : Ascends key last)
    (h : (waiting.flatten ++ last).Pairwise (Compared less key)) :
    Carries certain (Ascends key) (mergeAll less waiting last) := by
  fun_induction mergeAll with
  | case1 => exact carries_pure hlast
  | case2 top last =>
    rw [List.flatten_singleton] at h
    exact ascends_mergeRuns (hwaiting top List.mem_cons_self) hlast h
  | case3 top second rest last _ ih =>
    obtain ⟨htop, hbehind⟩ := List.forall_mem_cons.mp hwaiting
    obtain ⟨hsecond, hrest⟩ := List.forall_mem_cons.mp hbehind
    have apart : ((second ++ top) ++ (rest.flatten ++ last)).Pairwise (Compared less key) := by
      refine compared_of_perm h ?_
      rw [List.flatten_cons, List.flatten_cons, ← List.append_assoc top,
        List.append_assoc (top ++ second)]
      exact List.perm_append_comm.append_right _
    intro n
    refine ((ascends_mergeRuns hsecond htop (List.pairwise_append.mp apart).1 n).and
      (yields_mergeRuns second top n)).bind fun r hr => ?_
    refine ih r.1 (List.forall_mem_cons.mpr ⟨hr.1, hrest⟩) hlast ?_ r.2
    rw [List.flatten_cons, List.append_assoc]
    exact compared_of_perm apart (hr.2.append_right _)
  | case4 top second rest last _ ih =>
    obtain ⟨htop, hbehind⟩ := List.forall_mem_cons.mp hwaiting
    have apart : ((second :: rest).flatten ++ (top ++ last)).Pairwise (Compared less key) := by
      refine compared_of_perm h ?_
      rw [@List.flatten_cons _ top, List.append_assoc]
      exact List.perm_append_comm_assoc ..
    intro n
    refine ((ascends_mergeRuns htop hlast (List.pairwise_append.mp apart).2.1 n).and
      (yields_mergeRuns top last n)).bind fun r hr => ?_
    exact ih r.1 hbehind hr.1 (compared_of_perm apart (hr.2.append_left _)) r.2

/-- Whatever runs wait, the list is in order once nothing is left behind them. -/
theorem ascends_sortBehind (size fuel : Nat) (waiting : List (Waiting α)) (start : Nat)
    {last behind : List α} (hwaiting : ∀ w ∈ waiting, Ascends key w.run) (hlast : Ascends key last)
    (h : (waiting.flatMap (·.run) ++ last ++ behind).Pairwise (Compared less key)) :
    Carries certain (Ascends key) (sortBehind less size fuel waiting start last behind) := by
  have all : ∀ {waiting : List (Waiting α)} {last behind : List α},
      (∀ w ∈ waiting, Ascends key w.run) → Ascends key last →
      (waiting.flatMap (·.run) ++ last ++ behind).Pairwise (Compared less key) →
        Carries certain (Ascends key) (mergeAll less (waiting.map (·.run)) last) := by
    intro waiting last behind hwaiting hlast h
    rw [List.flatMap_def] at h
    exact ascends_mergeAll (List.forall_mem_map.mpr hwaiting) hlast (List.pairwise_append.mp h).1
  -- on the fuel; elements are compared in pairs wherever the runs have moved them
  induction fuel generalizing waiting start last behind with
  | zero => exact all hwaiting hlast h
  | succ fuel ih =>
    cases behind with
    | nil => exact all hwaiting hlast h
    | cons x xs =>
      obtain ⟨hfront, hbehind, -⟩ := List.pairwise_append.mp h
      refine (carries_lift ((ascends_firstRun _ hbehind).and (yields_firstRun _ (x :: xs)))).bind
        fun ⟨next, behind⟩ ⟨hnext, hperm⟩ => ?_
      intro n
      refine ((ascends_settle _ hwaiting hlast hfront n).and (yields_settle _ waiting last n)).bind
        fun ⟨⟨waiting', merged⟩, n'⟩ ⟨⟨hwaiting', hmerged⟩, hsettled⟩ => ?_
      refine ih _ _ (List.forall_mem_cons.mpr ⟨hmerged, hwaiting'⟩) hnext
        (compared_of_perm h ?_) n'
      rw [List.flatMap_cons, List.append_assoc]
      exact (List.perm_append_comm.trans hsettled).append hperm

end Sorting

open Sorting

/-- **Sorting puts into order.** If every two elements are compared by their keys, the same elements
come out with ascending keys. -/
theorem exists_sorted_ascending {α ε κ : Type} [LinearOrder κ] {less : α → α → Except ε Bool}
    {key : α → κ} {xs : List α} (h : xs.Pairwise (Compared less key)) :
    ∃ ys, sorted less xs = .ok ys ∧ ys.Perm xs ∧ Ascends key ys := by
  have inOrder : Arrives True (Ascends key) (sorted less xs) := by
    refine ((ascends_firstRun _ h).and (yields_firstRun _ xs)).bind
      fun ⟨run, behind⟩ ⟨hrun, hperm⟩ => ?_
    have hcompared := compared_of_perm h hperm
    exact (ascends_sortBehind _ _ [] 0 (List.forall_mem_nil _) hrun hcompared 7).bind
      fun r hr => arrives_ok hr
  obtain ⟨ys, hys⟩ := inOrder.exists_ok trivial
  exact ⟨ys, hys, sorted_perm hys, inOrder.yields ys hys⟩

/-- Elements with different keys can be put into order in one way only. -/
theorem sorted_eq_iff {α ε κ : Type} [LinearOrder κ] {less : α → α → Except ε Bool}
    {key : α → κ} {xs ys : List α} (h : xs.Pairwise (Compared less key))
    (hkeys : (xs.map key).Nodup) :
    sorted less xs = .ok ys ↔ ys.Perm xs ∧ ys.Pairwise fun a b => key a < key b := by
  obtain ⟨zs, hzs, hperm, hpairs⟩ := exists_sorted_ascending h
  have strict : zs.Pairwise fun a b => key a < key b := by
    have differ : zs.Pairwise fun a b => key a ≠ key b :=
      List.pairwise_map.mp ((hperm.map key).nodup_iff.mpr hkeys)
    exact (hpairs.and differ).imp fun h => lt_of_le_of_ne h.1 h.2
  constructor
  · intro h
    obtain rfl := Except.ok.inj (hzs.symm.trans h)
    exact ⟨hperm, strict⟩
  · rintro ⟨hys, hlt⟩
    have same : zs = ys := (hperm.trans hys.symm).eq_of_pairwise
      (fun a b _ _ hab hba => absurd hab (not_lt.mpr hba.le)) strict hlt
    rw [hzs, same]

end SqlScribe
