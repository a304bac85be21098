import SqlScribe.Proofs.Outcome
import SqlScribe.Sorting

/-!
# Sorting keeps the elements

Sorting moves elements and asks for comparisons, and does nothing else. So whatever the comparisons
say, the outcome holds the elements of the list that was given; and if every two elements can be
compared, there is an outcome.

Both are said at once by `Arrives`: the property of the results, and that there is one if that is
certain. Each step of sorting arrives if its comparisons do. The number of elements that a search
finds is of no interest here, because a list is divided the same way wherever it is cut.
-/

namespace SqlScribe

/-! ## Outcomes that are certain -/

/-- Whether an outcome has only results with a property, and has one if that is certain. -/
structure Arrives {ε α : Type} (certain : Prop) (P : α → Prop) (x : Except ε α) : Prop where
  yields : Yields P x
  exists_ok : certain → ∃ a, x = .ok a

section

variable {ε α β : Type} {certain : Prop} {P : α → Prop} {Q : β → Prop}

/-- A result that is there arrives. -/
theorem arrives_ok {a : α} (h : P a) : Arrives (ε := ε) certain P (.ok a) :=
  ⟨yields_ok h, fun _ => ⟨a, rfl⟩⟩

/-- Two steps in a row arrive if the second does for every result of the first. -/
theorem Arrives.bind {x : Except ε α} {f : α → Except ε β} (hx : Arrives certain P x)
    (hf : ∀ a, P a → Arrives certain Q (f a)) : Arrives certain Q (x >>= f) where
  yields := hx.yields.bind fun a ha => (hf a ha).yields
  exists_ok hc := by
    obtain ⟨a, ha⟩ := hx.exists_ok hc
    obtain ⟨b, hb⟩ := (hf a (hx.yields a ha)).exists_ok hc
    exact ⟨b, bind_eq_ok.mpr ⟨a, ha, hb⟩⟩

/-- A weaker property of the results. -/
theorem Arrives.mono {x : Except ε α} {P' : α → Prop} (hx : Arrives certain P x)
    (h : ∀ a, P a → P' a) : Arrives certain P' x :=
  ⟨hx.yields.mono h, hx.exists_ok⟩

/-- An outcome of which only matters that there is one. -/
abbrev Decides (certain : Prop) (x : Except ε α) : Prop := Arrives certain (fun _ => True) x

/-- An answer may be turned round. -/
theorem Decides.map {x : Except ε α} (hx : Decides certain x) (f : α → β) :
    Decides certain (x.map f) := by
  cases x with
  | ok a => exact arrives_ok trivial
  | error e => exact ⟨fun _ _ => trivial, fun hc => nomatch hx.exists_ok hc⟩

/-- The same of steps that carry the patience of merges along. -/
def Carries (certain : Prop) (P : α → Prop) (x : StateT Nat (Except ε) α) : Prop :=
  ∀ n, Arrives certain (fun r => P r.1) (x n)

/-- A step that leaves the patience as it is. -/
theorem carries_pure {a : α} (h : P a) : Carries (ε := ε) certain P (pure a) :=
  fun _ => arrives_ok h

/-- Two steps in a row, the second with the patience that the first has left. -/
theorem Carries.bind {x : StateT Nat (Except ε) α} {f : α → StateT Nat (Except ε) β}
    (hx : Carries certain P x) (hf : ∀ a, P a → Carries certain Q (f a)) :
    Carries certain Q (x >>= f) :=
  fun n => (hx n).bind fun r hr => hf r.1 hr r.2

theorem Carries.mono {x : StateT Nat (Except ε) α} {P' : α → Prop} (hx : Carries certain P x)
    (h : ∀ a, P a → P' a) : Carries certain P' x :=
  fun n => (hx n).mono fun r hr => h r.1 hr

/-- A step that does not know of the patience. -/
theorem carries_lift {x : Except ε α} (hx : Arrives certain P x) :
    Carries certain P (liftM x : StateT Nat (Except ε) α) :=
  fun _ => hx.bind fun _ ha => arrives_ok ha

theorem carries_get :
    Carries (ε := ε) certain (fun _ => True) (get : StateT Nat (Except ε) Nat) :=
  fun _ => arrives_ok trivial

theorem carries_set (n : Nat) :
    Carries (ε := ε) certain (fun _ => True) (set n : StateT Nat (Except ε) PUnit) :=
  fun _ => arrives_ok trivial

end

namespace Sorting

variable {α ε : Type} {less : α → α → Except ε Bool} {certain : Prop} {good : α → Prop}

/-- Elements may be compared wherever they are moved. -/
theorem forall_mem_of_perm {xs ys : List α} (h : ∀ x ∈ xs, good x) (hp : ys.Perm xs) :
    ∀ y ∈ ys, good y := fun y hy => h y (hp.mem_iff.mp hy)

/-! ## Searching -/

section

variable {test : α → Except ε Bool} {xs : List α}

/-- Halving a stretch asks for comparisons within the list only. -/
theorem decides_partitionPoint (h : ∀ x ∈ xs, Decides certain (test x)) (early : Bool)
    (low gap : Nat) : Decides certain (partitionPoint test xs early low gap) := by
  fun_induction partitionPoint with
  | case1 => exact arrives_ok trivial
  | case2 => exact arrives_ok trivial
  | case3 low gap _ half x hx behind before =>
    refine (h x (List.mem_of_getElem? hx)).bind fun holds _ => ?_
    cases holds with
    | true => exact behind
    | false => exact before

/-- Galloping does so as well, and halves the last stretch. -/
theorem decides_gallopFrom (h : ∀ x ∈ xs, Decides certain (test x)) (early : Bool)
    (low place : Nat) : Decides certain (gallopFrom test xs early low place) := by
  -- as far as it gallops, each place is twice as far as the one before
  fun_induction gallopFrom with
  | case1 => exact decides_partitionPoint h ..
  | case2 low place x hx ih =>
    refine (h x (List.mem_of_getElem? hx)).bind fun holds _ => ?_
    cases holds with
    | true => exact ih
    | false => exact decides_partitionPoint h ..

theorem decides_gallop (h : ∀ x ∈ xs, Decides certain (test x)) (early : Bool) :
    Decides certain (gallop test xs early) :=
  decides_gallopFrom h early 0 0

end

/-! ## Runs -/

section

variable (hless : ∀ a b, good a → good b → Decides certain (less a b))

include hless

/-- The length of a run is found by comparing neighbours. -/
theorem decides_runLength {previous : α} {xs : List α} (h : ∀ x ∈ previous :: xs, good x)
    (down : Bool) : Decides certain (runLength less down previous xs) := by
  -- each element is compared with the one before it
  induction xs generalizing previous with
  | nil => exact arrives_ok trivial
  | cons x rest ih =>
    obtain ⟨hprevious, hrest⟩ := List.forall_mem_cons.mp h
    refine (hless x previous (hrest x List.mem_cons_self) hprevious).bind fun goes _ => ?_
    split
    · exact (ih hrest).bind fun _ _ => arrives_ok trivial
    · exact arrives_ok trivial

/-- An element is put into a run wherever the search says. -/
theorem arrives_insertInto {run : List α} {x : α} (hrun : ∀ y ∈ run, good y) (hx : good x) :
    Arrives certain (fun r => r.Perm (x :: run)) (insertInto less run x) := by
  have search : ∀ y ∈ run, Decides certain ((less x y).map (!·)) :=
    fun y hy => (hless x y hx (hrun y hy)).map _
  refine (decides_partitionPoint search false 0 run.length).bind fun place _ => arrives_ok ?_
  calc (run.take place ++ x :: run.drop place).Perm (x :: (run.take place ++ run.drop place)) :=
        List.perm_middle
    _ = x :: run := by rw [List.take_append_drop]

/-- Elements put into a run one by one, each at its place. -/
theorem arrives_foldlM_insertInto {run xs : List α} (h : ∀ y ∈ run ++ xs, good y) :
    Arrives certain (fun r => r.Perm (run ++ xs)) (xs.foldlM (insertInto less) run) := by
  induction xs generalizing run with
  | nil =>
    rw [List.append_nil]
    exact arrives_ok (.refl _)
  | cons x rest ih =>
    obtain ⟨hrun, hxs⟩ := List.forall_mem_append.mp h
    obtain ⟨hx, -⟩ := List.forall_mem_cons.mp hxs
    rw [List.foldlM_cons]
    refine (arrives_insertInto hless hrun hx).bind fun r hr => ?_
    have moved : (r ++ rest).Perm (run ++ x :: rest) :=
      (hr.append_right rest).trans List.perm_middle.symm
    exact (ih (forall_mem_of_perm h moved)).mono fun r' hr' => hr'.trans moved

/-- A run and what is behind it are what was there, and a list that is not empty has a run. -/
theorem arrives_firstRun (least : Nat) {xs : List α} (h : ∀ x ∈ xs, good x) :
    Arrives certain (fun r => (r.1 ++ r.2).Perm xs ∧ (xs ≠ [] → r.2.length < xs.length))
      (firstRun less least xs) := by
  match xs with
  | [] => exact arrives_ok ⟨.refl _, fun hne => absurd rfl hne⟩
  | [x] => exact arrives_ok ⟨.refl _, fun _ => Nat.one_pos⟩
  | x :: y :: rest =>
    have hall := h
    obtain ⟨hx, hbehind⟩ := List.forall_mem_cons.mp h
    obtain ⟨hy, -⟩ := List.forall_mem_cons.mp hbehind
    refine (hless y x hy hx).bind fun down _ => ?_
    refine (decides_runLength hless hbehind down).bind fun more _ => ?_
    dsimp only
    -- a run that goes down is turned round, and a short one is filled up from what follows
    generalize hstart : (if down then (x :: y :: rest.take more).reverse
      else x :: y :: rest.take more) = start
    generalize hlacking : least - (x :: y :: rest.take more).length = lacking
    have hperm : start.Perm (x :: y :: rest.take more) := by
      rw [← hstart]
      split
      · exact List.reverse_perm _
      · exact .refl _
    have whole : (start ++ ((rest.drop more).take lacking ++ (rest.drop more).drop lacking)).Perm
        (x :: y :: rest) := by
      rw [List.take_append_drop]
      refine (hperm.append_right _).trans (.of_eq ?_)
      rw [List.cons_append, List.cons_append, List.take_append_drop]
    have hgood : ∀ z ∈ start ++ (rest.drop more).take lacking, good z := by
      intro z hz
      refine hall z (whole.mem_iff.mp ?_)
      rw [← List.append_assoc]
      exact List.mem_append_left _ hz
    refine (arrives_foldlM_insertInto hless hgood).bind fun r hr => arrives_ok ⟨?_, fun _ => ?_⟩
    · refine (hr.append_right _).trans ?_
      rw [List.append_assoc]
      exact whole
    · simp only [List.length_drop, List.length_cons]
      omega

end

/-! ## Merging -/

namespace Merge

/-- The elements of a merge, placed or not. -/
def elements (m : Merge α) : List α := m.placed ++ (m.left ++ m.right)

/-- What is taken from the left goes to the ones that are placed, and nothing is lost. -/
theorem elements_takeLeft (m : Merge α) (k : Nat) : (m.takeLeft k).elements.Perm m.elements := by
  have cut : (m.left.take k ++ (m.left.drop k ++ m.right)) = m.left ++ m.right := by
    rw [← List.append_assoc, List.take_append_drop]
  calc ((m.left.take k).reverse ++ m.placed ++ (m.left.drop k ++ m.right)).Perm
        (m.placed ++ m.left.take k ++ (m.left.drop k ++ m.right)) :=
        (((List.reverse_perm _).append_right _).trans List.perm_append_comm).append_right _
    _ = m.placed ++ (m.left ++ m.right) := by rw [List.append_assoc, cut]

/-- The same on the right. -/
theorem elements_takeRight (m : Merge α) (k : Nat) :
    (m.takeRight k).elements.Perm m.elements := by
  have cut : (m.right.take k ++ m.right.drop k) = m.right := List.take_append_drop ..
  calc ((m.right.take k).reverse ++ m.placed ++ (m.left ++ m.right.drop k)).Perm
        (m.placed ++ m.right.take k ++ (m.left ++ m.right.drop k)) :=
        (((List.reverse_perm _).append_right _).trans List.perm_append_comm).append_right _
    _ = m.placed ++ (m.right.take k ++ (m.left ++ m.right.drop k)) := List.append_assoc ..
    _ |>.Perm (m.placed ++ (m.left ++ (m.right.take k ++ m.right.drop k))) := by
        refine .append_left _ ?_
        rw [← List.append_assoc, ← List.append_assoc]
        exact List.perm_append_comm.append_right _
    _ = m.placed ++ (m.left ++ m.right) := by rw [cut]

/-- Finished or not, the result has the elements of the merge. -/
theorem result_perm (m : Merge α) : m.result.Perm m.elements := by
  unfold result
  split
  · refine (List.perm_append_comm).trans ?_
    exact .append_left _ ((List.perm_append_comm).trans
      ((List.reverse_perm _).append (List.reverse_perm _)))
  · rw [List.append_assoc]
    exact (List.reverse_perm _).append List.perm_append_comm

/-- A merge goes on from another: it has the same elements. -/
def From (m m' : Merge α) : Prop := m'.elements.Perm m.elements

/-- Steps of a merge may be chained. -/
theorem From.trans {m m' m'' : Merge α} (h : From m m') (h' : From m' m'') : From m m'' :=
  List.Perm.trans h' h

section

variable (hless : ∀ a b, good a → good b → Decides certain (less a b))

include hless

/-- Taking elements one at a time. -/
theorem arrives_singly (patience lefts rights : Nat) {m : Merge α}
    (h : ∀ x ∈ m.elements, good x) :
    Arrives certain (From m) (m.singly less patience lefts rights) := by
  -- one case for each way in which it stops, and one for an element from either side
  fun_induction singly with
  | case1 => exact arrives_ok (.refl _)
  | case3 => exact arrives_ok (.refl _)
  | case2 lefts rights m _ a left b right hl hr onLeft onRight =>
    have ha : good a := h a (by simp [elements, hl])
    have hb : good b := h b (by simp [elements, hr])
    refine (hless b a hb ha).bind fun r _ => ?_
    split
    · have hp := elements_takeLeft m 1
      exact (onLeft (forall_mem_of_perm h hp)).mono fun _ => From.trans hp
    · have hp := elements_takeRight m 1
      exact (onRight (forall_mem_of_perm h hp)).mono fun _ => From.trans hp

/-- Taking a whole stretch from the left. -/
theorem arrives_leftStretch {m : Merge α} (h : ∀ x ∈ m.elements, good x) :
    Arrives certain (fun r => From m r.2) (m.leftStretch less) := by
  unfold leftStretch
  split
  next => exact arrives_ok (.refl _)
  next b right hr =>
    have search : ∀ a ∈ m.left, Decides certain ((less b a).map (· == m.fromBack)) :=
      fun a ha => (hless b a (h b (by simp [elements, hr])) (h a (by simp [elements, ha]))).map _
    refine (decides_gallop search _).bind fun k _ => arrives_ok ?_
    have hp := elements_takeLeft m k
    dsimp only
    split
    · exact hp
    · exact From.trans hp (elements_takeRight _ 1)

/-- Taking a whole stretch from the right. -/
theorem arrives_rightStretch {m : Merge α} (h : ∀ x ∈ m.elements, good x) :
    Arrives certain (fun r => From m r.2) (m.rightStretch less) := by
  unfold rightStretch
  split
  next => exact arrives_ok (.refl _)
  next a left hl =>
    have search : ∀ b ∈ m.right, Decides certain ((less b a).map (· != m.fromBack)) :=
      fun b hb => (hless b a (h b (by simp [elements, hb])) (h a (by simp [elements, hl]))).map _
    refine (decides_gallop search _).bind fun k _ => arrives_ok ?_
    have hp := elements_takeRight m k
    dsimp only
    split
    · exact hp
    · exact From.trans hp (elements_takeLeft _ 1)

/-- Stretches from both sides in turns, until they get short or a side is empty. -/
theorem arrives_byStretches (fuel patience : Nat) {m : Merge α} (h : ∀ x ∈ m.elements, good x) :
    Arrives certain (fun r => From m r.2) (m.byStretches less fuel patience) := by
  -- on the fuel: each round hands what it has merged to the next
  induction fuel generalizing patience m with
  | zero => exact arrives_ok (.refl _)
  | succ fuel ih =>
    refine (arrives_leftStretch hless h).bind fun ⟨lefts, m'⟩ hm' => ?_
    show Arrives certain _ (if m'.isFinished then _ else _)
    split
    · exact arrives_ok hm'
    have behind := arrives_rightStretch hless (forall_mem_of_perm h hm')
    refine behind.bind fun ⟨rights, m''⟩ hm'' => ?_
    have both := hm'.trans hm''
    show Arrives certain _ (if m''.isFinished || (lefts < 7 && rights < 7) then _ else _)
    split
    · exact arrives_ok both
    · exact (ih _ (forall_mem_of_perm h both)).mono fun _ => both.trans

/-- Both ways of merging in turns, until one side is empty. -/
theorem arrives_finish (fuel patience : Nat) {m : Merge α} (h : ∀ x ∈ m.elements, good x) :
    Arrives certain (fun r => From m r.2) (m.finish less fuel patience) := by
  induction fuel generalizing patience m with
  | zero => exact arrives_ok (.refl _)
  | succ fuel ih =>
    refine (arrives_singly hless patience 0 0 h).bind fun m' hm' => ?_
    split
    · exact arrives_ok hm'
    have behind := arrives_byStretches hless fuel patience (forall_mem_of_perm h hm')
    refine behind.bind fun ⟨patience', m''⟩ hm'' => ?_
    have both := hm'.trans hm''
    show Arrives certain _ (if m''.isFinished then _ else _)
    split
    · exact arrives_ok both
    · exact (ih _ (forall_mem_of_perm h both)).mono fun _ => both.trans

end

/-- Two runs that are about to be merged, with the first element already placed. -/
theorem elements_ofRuns (left right : List α) :
    (ofRuns left right).elements.Perm (left ++ right) := by
  unfold ofRuns
  split
  · exact elements_takeRight ⟨false, left, right, []⟩ 1
  · exact (elements_takeLeft ⟨true, left.reverse, right.reverse, []⟩ 1).trans
      ((List.reverse_perm _).append (List.reverse_perm _))

end Merge

section

variable (hless : ∀ a b, good a → good b → Decides certain (less a b))

include hless

/-- Two runs are merged without losing an element. -/
theorem carries_mergeRuns {left right : List α} (h : ∀ x ∈ left ++ right, good x) :
    Carries certain (fun r => r.Perm (left ++ right)) (mergeRuns less left right) := by
  rw [List.forall_mem_append] at h
  obtain ⟨hleft, hright⟩ := h
  unfold mergeRuns
  cases hfirst : right.head? with
  | none =>
    rw [List.head?_eq_none_iff.mp hfirst, List.append_nil]
    exact carries_pure (.refl _)
  | some first =>
    have hgood : good first := hright first (List.mem_of_head? hfirst)
    have search : ∀ a ∈ left, Decides certain ((less first a).map (!·)) :=
      fun a ha => (hless first a hgood (hleft a ha)).map _
    -- what is in order already stays outside of the merge: first on the left, then on the right
    refine (carries_lift (decides_gallop search false)).bind fun low _ => ?_
    cases hlast : left.getLast? with
    | none =>
      rw [List.getLast?_eq_none_iff.mp hlast]
      exact carries_pure (.refl _)
    | some last =>
      have hgood : good last := hleft last (List.mem_of_getLast? hlast)
      dsimp only
      split
      · exact carries_pure (.refl _)
      have search : ∀ b ∈ right.reverse, Decides certain ((less b last).map (!·)) :=
        fun b hb => (hless b last (hright b (List.mem_reverse.mp hb)) hgood).map _
      refine (carries_lift (decides_gallop search true)).bind fun high _ => ?_
      generalize right.length - high = middle
      split
      · exact carries_pure (.refl _)
      have taken := Merge.elements_ofRuns (left.drop low) (right.take middle)
      have hgood : ∀ x ∈ (Merge.ofRuns (left.drop low) (right.take middle)).elements, good x := by
        intro x hx
        rcases List.mem_append.mp (taken.mem_iff.mp hx) with hx | hx
        · exact hleft x (List.mem_of_mem_drop hx)
        · exact hright x (List.mem_of_mem_take hx)
      refine carries_get.bind fun patience _ => ?_
      refine (carries_lift (Merge.arrives_finish hless _ patience hgood)).bind fun r hr => ?_
      refine (carries_set r.1).bind fun _ _ => carries_pure ?_
      -- what is left alone on both sides, and the merge in between
      have between : r.2.result.Perm (left.drop low ++ right.take middle) :=
        r.2.result_perm.trans (List.Perm.trans hr taken)
      calc (left.take low ++ r.2.result ++ right.drop middle).Perm
            (left.take low ++ (left.drop low ++ right.take middle) ++ right.drop middle) :=
            (between.append_left _).append_right _
        _ = left ++ right := by
            rw [← List.append_assoc, List.take_append_drop, List.append_assoc,
              List.take_append_drop]

end

/-! ## Sorting -/

section

variable (hless : ∀ a b, good a → good b → Decides certain (less a b))

include hless

/-- Waiting runs are merged with the last one as long as they are deeper. -/
theorem carries_settle (depth : Nat) {waiting : List (Waiting α)} {last : List α}
    (h : ∀ x ∈ waiting.flatMap (·.run) ++ last, good x) :
    Carries certain
      (fun r => (r.1.flatMap (·.run) ++ r.2).Perm (waiting.flatMap (·.run) ++ last))
      (settle less depth waiting last) := by
  -- on the runs that wait; each merge makes one run of the top and the last
  induction waiting generalizing last with
  | nil => exact carries_pure (.refl _)
  | cons top rest ih =>
    have apart : (rest.flatMap (·.run) ++ (top.run ++ last)).Perm
        ((top :: rest).flatMap (·.run) ++ last) := by
      rw [List.flatMap_cons, List.append_assoc]
      exact List.perm_append_comm_assoc ..
    have hall : ∀ x ∈ rest.flatMap (·.run) ++ (top.run ++ last), good x :=
      fun x hx => h x (apart.mem_iff.mp hx)
    unfold settle
    split
    · have pair := carries_mergeRuns hless fun x hx => hall x (List.mem_append_right _ hx)
      refine pair.bind fun r hr => ?_
      have moved := hr.append_left (rest.flatMap (·.run))
      exact (ih (forall_mem_of_perm hall moved)).mono
        fun _ hr' => hr'.trans (moved.trans apart)
    · exact carries_pure (.refl _)

/-- In the end all runs that wait are merged. -/
theorem carries_mergeAll {waiting : List (List α)} {last : List α}
    (h : ∀ x ∈ waiting.flatten ++ last, good x) :
    Carries certain (fun r => r.Perm (waiting.flatten ++ last)) (mergeAll less waiting last) := by
  -- the top is merged with the one below it if that is shorter than the last one, and otherwise
  -- with the last one
  fun_induction mergeAll with
  | case1 => exact carries_pure (.refl _)
  | case2 top last =>
    rw [List.flatten_singleton] at h ⊢
    exact carries_mergeRuns hless h
  | case3 top second rest last _ ih =>
    have apart : ((second ++ top) ++ (rest.flatten ++ last)).Perm
        ((top :: second :: rest).flatten ++ last) := by
      rw [List.flatten_cons, List.flatten_cons, ← List.append_assoc top,
        List.append_assoc (top ++ second)]
      exact List.perm_append_comm.append_right _
    have hall : ∀ x ∈ (second ++ top) ++ (rest.flatten ++ last), good x :=
      fun x hx => h x (apart.mem_iff.mp hx)
    have pair := carries_mergeRuns hless fun x hx => hall x (List.mem_append_left _ hx)
    refine pair.bind fun r hr => ?_
    have moved :
        ((r :: rest).flatten ++ last).Perm ((second ++ top) ++ (rest.flatten ++ last)) := by
      rw [List.flatten_cons, List.append_assoc]
      exact hr.append_right _
    exact (ih r (forall_mem_of_perm hall moved)).mono
      fun _ hr' => hr'.trans (moved.trans apart)
  | case4 top second rest last _ ih =>
    have apart : ((second :: rest).flatten ++ (top ++ last)).Perm
        ((top :: second :: rest).flatten ++ last) := by
      rw [@List.flatten_cons _ top, List.append_assoc]
      exact List.perm_append_comm_assoc ..
    have hall : ∀ x ∈ (second :: rest).flatten ++ (top ++ last), good x :=
      fun x hx => h x (apart.mem_iff.mp hx)
    have pair := carries_mergeRuns hless fun x hx => hall x (List.mem_append_right _ hx)
    refine pair.bind fun r hr => ?_
    have moved := hr.append_left (second :: rest).flatten
    exact (ih r (forall_mem_of_perm hall moved)).mono
      fun _ hr' => hr'.trans (moved.trans apart)

/-- Runs are taken off what is left, and merged with those that wait. -/
theorem carries_sortBehind (size fuel : Nat) (waiting : List (Waiting α)) (start : Nat)
    {last behind : List α} (hfuel : behind.length ≤ fuel)
    (h : ∀ x ∈ waiting.flatMap (·.run) ++ last ++ behind, good x) :
    Carries certain (fun r => r.Perm (waiting.flatMap (·.run) ++ last ++ behind))
      (sortBehind less size fuel waiting start last behind) := by
  -- every run takes an element, so the fuel lasts
  induction fuel generalizing waiting start last behind with
  | zero =>
    obtain rfl := List.length_eq_zero_iff.mp (Nat.le_zero.mp hfuel)
    rw [List.append_nil, List.flatMap_def] at h ⊢
    exact carries_mergeAll hless h
  | succ fuel ih =>
    cases behind with
    | nil =>
      rw [List.append_nil, List.flatMap_def] at h ⊢
      exact carries_mergeAll hless h
    | cons x xs =>
      obtain ⟨hfront, hbehind⟩ := List.forall_mem_append.mp h
      refine (carries_lift (arrives_firstRun hless _ hbehind)).bind fun ⟨next, behind⟩ hnext => ?_
      obtain ⟨hrun, hshorter⟩ := hnext
      refine (carries_settle hless _ hfront).bind fun ⟨waiting', merged⟩ hsettled => ?_
      have moved : ∀ depth, ((⟨merged, depth⟩ :: waiting' : List (Waiting α)).flatMap (·.run) ++
          next ++ behind).Perm (waiting.flatMap (·.run) ++ last ++ (x :: xs)) := by
        intro depth
        rw [List.flatMap_cons, List.append_assoc]
        exact (List.perm_append_comm.trans hsettled).append hrun
      have shorter : behind.length < (x :: xs).length := hshorter (List.cons_ne_nil x xs)
      have lasts : behind.length ≤ fuel := by omega
      exact (ih _ _ lasts (forall_mem_of_perm h (moved _))).mono fun _ hr => hr.trans (moved _)

end

end Sorting

open Sorting

/-- **Sorting rearranges.** The outcome has the elements of the list, and there is one if every two
of them can be compared. -/
theorem arrives_sorted {α ε : Type} {less : α → α → Except ε Bool} {certain : Prop}
    {good : α → Prop} (hless : ∀ a b, good a → good b → Decides certain (less a b)) {xs : List α}
    (h : ∀ x ∈ xs, good x) : Arrives certain (fun r => r.Perm xs) (sorted less xs) := by
  refine (arrives_firstRun hless _ h).bind fun ⟨run, behind⟩ hrun => ?_
  have hperm : (run ++ behind).Perm xs := hrun.1
  have lasts : behind.length ≤ xs.length := by
    have := hperm.length_eq
    rw [List.length_append] at this
    omega
  have whole := carries_sortBehind hless xs.length xs.length [] 0 lasts
    (forall_mem_of_perm h hperm) 7
  exact whole.bind fun r hr => arrives_ok (hr.trans hperm)

/-- A sorted list holds the elements of the list that was given. -/
theorem sorted_perm {α ε : Type} {less : α → α → Except ε Bool} {xs ys : List α}
    (h : sorted less xs = .ok ys) : ys.Perm xs := by
  have any : ∀ a b, (fun _ => True) a → (fun _ => True) b → Decides False (less a b) :=
    fun _ _ _ _ => ⟨fun _ _ => trivial, nofun⟩
  exact (arrives_sorted any fun _ _ => trivial).yields ys h

/-- A list is sorted if every two of its elements can be compared. -/
theorem exists_sorted {α ε : Type} {less : α → α → Except ε Bool} {xs : List α}
    (h : ∀ a ∈ xs, ∀ b ∈ xs, ∃ r, less a b = .ok r) : ∃ ys, sorted less xs = .ok ys := by
  have answers : ∀ a b, a ∈ xs → b ∈ xs → Decides True (less a b) :=
    fun a b ha hb => ⟨fun _ _ => trivial, fun _ => h a ha b hb⟩
  exact (arrives_sorted answers fun _ hx => hx).exists_ok trivial

end SqlScribe
