import Mathlib.Logic.Function.Basic
import SqlScribe.Draft.Select

/-!
# Clauses in any order

A draft of a select has ten parts. Each step looks at one of them and changes that part alone
(`take_eq`), so steps of different parts may change places: both ways succeed with the same draft,
or both fail (`taken_swap`). They may fail with different errors, for the first step that fails
tells.

Two rows of steps that have the same steps in the same order for each part lead into each other by
such changes. The induction is on the first row: its first step stands somewhere in the second one
behind steps of other parts only, and is brought to the front there (`taken_front`).
-/

namespace SqlScribe

/-! ## Parts -/

/-- The parts of a draft of a select. -/
inductive SelectPart where
  | items | source | joins | filter | groupBy | having | orderBy | limit | offset | distinct
deriving DecidableEq

/-- What a part holds. -/
def SelectPart.Content : SelectPart → Type
  | items => List SelectItem
  | source => Option Source
  | joins => List Join
  | filter | having => Option Expr
  | groupBy | orderBy => List Expr
  | limit | offset => Option Nat
  | distinct => Flag

namespace SelectDraft

/-- What the parts of a draft hold. -/
def parts (x : SelectDraft) : (p : SelectPart) → p.Content
  | .items => x.soFar.items
  | .source => x.soFar.source
  | .joins => x.soFar.joins
  | .filter => x.soFar.filter
  | .groupBy => x.soFar.groupBy
  | .having => x.soFar.having
  | .orderBy => x.soFar.orderBy
  | .limit => x.soFar.limit
  | .offset => x.soFar.offset
  | .distinct => x.soFar.distinct

/-- The draft with these parts. -/
def ofParts (f : (p : SelectPart) → p.Content) : SelectDraft :=
  ⟨⟨f .items, f .source, f .joins, f .filter, f .groupBy, f .having, f .orderBy, f .limit,
    f .offset, f .distinct⟩⟩

@[simp] theorem parts_ofParts (f : (p : SelectPart) → p.Content) : (ofParts f).parts = f := by
  funext p
  cases p <;> rfl

/-- The draft with one part changed. -/
def setPart (x : SelectDraft) (p : SelectPart) (content : p.Content) : SelectDraft :=
  ofParts (Function.update x.parts p content)

variable {x : SelectDraft} {p q : SelectPart}

theorem parts_setPart_of_ne (h : q ≠ p) (content : p.Content) :
    (x.setPart p content).parts q = x.parts q := by
  rw [setPart, parts_ofParts, Function.update_of_ne h]

theorem setPart_comm (h : p ≠ q) (content : p.Content) (content' : q.Content) :
    (x.setPart p content).setPart q content' = (x.setPart q content').setPart p content := by
  simp only [setPart, parts_ofParts]
  rw [Function.update_comm h]

end SelectDraft

/-! ## Steps -/

/-- A step of a draft of a select, with what it is given. Joins of all kinds are one step. -/
inductive SelectStep where
  | addItems (items : List Projection)
  | addItem (item : Projection) (aliasName : Name)
  | withSource (origin : Origin) (aliasName : Name)
  | addJoin (origin : Origin) (on : Expr) (kind : Data) (aliasName : Name)
  | addFilter (condition : Expr)
  | addGroups (items : List Projection)
  | addHaving (condition : Expr)
  | addOrder (items : List Projection)
  | withLimit (n : Data)
  | withOffset (n : Data)
  | withDistinct (flag : Flag)

namespace SelectStep

/-- The part that a step sets. -/
def part : SelectStep → SelectPart
  | addItems _ | addItem .. => .items
  | withSource .. => .source
  | addJoin .. => .joins
  | addFilter _ => .filter
  | addGroups _ => .groupBy
  | addHaving _ => .having
  | addOrder _ => .orderBy
  | withLimit _ => .limit
  | withOffset _ => .offset
  | withDistinct _ => .distinct

/-- What a step makes of its part. -/
def change : (s : SelectStep) → s.part.Content → Build s.part.Content
  | addItems items => fun (old : List SelectItem) =>
    (SelectItem.ofColumns items).map fun items => old ++ items
  | addItem item aliasName => fun (old : List SelectItem) =>
    (SelectItem.ofColumn item).map fun item =>
      old ++ [if aliasName.isAbsent then item else ⟨item.expr, aliasName⟩]
  | withSource origin aliasName => fun _ => (origin.source? aliasName).map some
  | addJoin origin on kind aliasName => fun (old : List Join) => do
    let source ← origin.source? aliasName
    let j ← Join.make source on.optional kind
    return old ++ [j]
  | addFilter condition => fun old => addCondition old condition
  | addGroups items => fun (old : List Expr) =>
    (SelectItem.ofColumns items).map fun items => old ++ items.map (·.expr)
  | addHaving condition => fun old => addCondition old condition
  | addOrder items => fun (old : List Expr) =>
    (SelectDraft.sortedItems items).map fun items => old ++ items
  | withLimit n => fun _ => requireCount .limit n
  | withOffset n => fun _ => requireCount .offset n
  | withDistinct flag => fun _ => .ok flag

end SelectStep

namespace SelectDraft

/-- The draft after a step. -/
def take (x : SelectDraft) : SelectStep → Build SelectDraft
  | .addItems items => x.addItems items
  | .addItem item aliasName => x.addItem item aliasName
  | .withSource origin aliasName => x.withSource origin aliasName
  | .addJoin origin on kind aliasName => x.addJoin origin on kind aliasName
  | .addFilter condition => x.addFilter condition
  | .addGroups items => x.addGroups items
  | .addHaving condition => x.addHaving condition
  | .addOrder items => x.addOrder items
  | .withLimit n => x.withLimit n
  | .withOffset n => x.withOffset n
  | .withDistinct flag => .ok (x.withDistinct flag)

variable {s t : SelectStep} {pre post steps steps' : List SelectStep}

/-- **Every step changes one part.** It looks at what this part holds, and at nothing else of the
draft. -/
theorem take_eq (x : SelectDraft) (s : SelectStep) :
    x.take s = (s.change (x.parts s.part)).map (x.setPart s.part) := by
  cases s with
  | addItems items =>
    show (SelectItem.ofColumns items).map _ = ((SelectItem.ofColumns items).map _).map _
    cases SelectItem.ofColumns items <;> rfl
  | addItem item aliasName =>
    show (SelectItem.ofColumn item).map _ = ((SelectItem.ofColumn item).map _).map _
    cases SelectItem.ofColumn item <;> rfl
  | withSource origin aliasName =>
    show (origin.source? aliasName).map _ = ((origin.source? aliasName).map _).map _
    cases origin.source? aliasName <;> rfl
  | addJoin origin on kind aliasName =>
    show (origin.source? aliasName >>= _) = (origin.source? aliasName >>= _).map _
    cases origin.source? aliasName with
    | error err => rfl
    | ok source =>
      show (Join.make source on.optional kind >>= _) =
        (Join.make source on.optional kind >>= _).map _
      cases Join.make source on.optional kind <;> rfl
  | addFilter condition => rfl
  | addGroups items =>
    show (SelectItem.ofColumns items).map _ = ((SelectItem.ofColumns items).map _).map _
    cases SelectItem.ofColumns items <;> rfl
  | addHaving condition => rfl
  | addOrder items =>
    show (sortedItems items).map _ = ((sortedItems items).map _).map _
    cases sortedItems items <;> rfl
  | withLimit n => rfl
  | withOffset n => rfl
  | withDistinct flag => rfl

/-! ## Runs -/

/-- The draft after some steps, unless one of them fails. -/
def taken (x : SelectDraft) (steps : List SelectStep) : Option SelectDraft :=
  (steps.foldlM take x).toOption

theorem taken_cons (x : SelectDraft) (s : SelectStep) (steps : List SelectStep) :
    x.taken (s :: steps) = (x.take s).toOption.bind fun y => y.taken steps := by
  unfold taken
  rw [List.foldlM_cons]
  cases x.take s <;> rfl

/-- **Steps of different parts may change places.** -/
theorem taken_swap (h : s.part ≠ t.part) (x : SelectDraft) (steps : List SelectStep) :
    x.taken (s :: t :: steps) = x.taken (t :: s :: steps) := by
  -- neither step sees what the other one has changed
  have unseen : ∀ a, (x.setPart s.part a).parts t.part = x.parts t.part :=
    parts_setPart_of_ne (Ne.symm h)
  have unseen' : ∀ b, (x.setPart t.part b).parts s.part = x.parts s.part := parts_setPart_of_ne h
  simp only [taken_cons, take_eq]
  cases hs : s.change (x.parts s.part) <;> cases ht : t.change (x.parts t.part) <;>
    simp [Except.map, Except.toOption, unseen, unseen', hs, ht, setPart_comm h]

/-- A step may be brought to the front of steps of other parts. -/
theorem taken_front (h : ∀ s ∈ pre, s.part ≠ t.part) (x : SelectDraft) (post : List SelectStep) :
    x.taken (pre ++ t :: post) = x.taken (t :: (pre ++ post)) := by
  induction pre generalizing x with
  | nil => rfl
  | cons s pre ih =>
    obtain ⟨hs, hpre⟩ := List.forall_mem_cons.mp h
    calc x.taken (s :: (pre ++ t :: post))
        = (x.take s).toOption.bind fun y => y.taken (t :: (pre ++ post)) := by
          rw [taken_cons]
          simp only [ih hpre]
      _ = x.taken (s :: t :: (pre ++ post)) := (taken_cons x s _).symm
      _ = x.taken (t :: s :: (pre ++ post)) := taken_swap hs x _

/-- Whether two rows of steps have the same steps for each part, in the same order. -/
def SameForEachPart (steps steps' : List SelectStep) : Prop :=
  ∀ p : SelectPart, steps.filter (fun s => s.part = p) = steps'.filter (fun s => s.part = p)

/-- **What is taken depends on the steps for each part only.** -/
theorem taken_congr (h : SameForEachPart steps steps') (x : SelectDraft) :
    x.taken steps = x.taken steps' := by
  induction steps generalizing x steps' with
  | nil =>
    cases steps' with
    | nil => rfl
    | cons s rest => simpa using (h s.part).symm
  | cons s rest ih =>
    have found := (h s.part).symm
    rw [List.filter_cons_of_pos (by simp)] at found
    obtain ⟨pre, post, rfl, hpre, -, -⟩ := List.filter_eq_cons_iff.mp found
    have others : ∀ t ∈ pre, t.part ≠ s.part := fun t ht => by simpa using hpre t ht
    have behind : SameForEachPart rest (pre ++ post) := by
      intro p
      by_cases hp : s.part = p
      · subst hp
        have gone : pre.filter (fun t => t.part = s.part) = [] := by
          simpa [List.filter_eq_nil_iff] using others
        simpa [gone] using h s.part
      · simpa [hp] using h p
    rw [taken_front others, taken_cons, taken_cons]
    simp only [ih behind]

/-- **Clauses may be set in any order.** If two rows of steps have the same steps for each part, in
the same order, then either both lead from a draft to the same draft, so that what is finished is
the same select or the same error, or both fail. -/
theorem clauses_in_any_order (h : SameForEachPart steps steps') (x : SelectDraft) :
    (∃ y, steps.foldlM take x = .ok y ∧ steps'.foldlM take x = .ok y ∧
      (steps.foldlM take x >>= finish) = (steps'.foldlM take x >>= finish)) ∨
    ((∃ e, steps.foldlM take x = .error e) ∧ ∃ e, steps'.foldlM take x = .error e) := by
  have same := taken_congr h x
  unfold taken at same
  cases hrun : steps.foldlM take x with
  | ok y =>
    cases hrun' : steps'.foldlM take x with
    | ok y' =>
      rw [hrun, hrun'] at same
      cases same
      exact .inl ⟨y, rfl, rfl, rfl⟩
    | error e =>
      rw [hrun, hrun'] at same
      cases same
  | error e =>
    cases hrun' : steps'.foldlM take x with
    | ok y =>
      rw [hrun, hrun'] at same
      cases same
    | error e' => exact .inr ⟨⟨e, rfl⟩, e', rfl⟩

/-- A select with its clauses in the order in which they are written. -/
def writtenOrder : List SelectStep :=
  [.addItems [.operand (.column .absent (.word "id"))],
    .withSource (.named (.word "users")) .absent,
    .addFilter (.isNull (.column .absent (.word "name")) (.switch true)),
    .addFilter (.isNull (.column .absent (.word "mail")) (.switch true)),
    .addOrder [.operand (.column .absent (.word "name"))], .withLimit (.int 5),
    .withLimit (.int 10)]

/-- The same clauses, those behind the projection first. -/
def mixedOrder : List SelectStep :=
  [.withLimit (.int 5), .addFilter (.isNull (.column .absent (.word "name")) (.switch true)),
    .addOrder [.operand (.column .absent (.word "name"))],
    .addFilter (.isNull (.column .absent (.word "mail")) (.switch true)), .withLimit (.int 10),
    .withSource (.named (.word "users")) .absent,
    .addItems [.operand (.column .absent (.word "id"))]]

/-- Both orders give one draft, in which the conditions are joined and the later limit stands. -/
theorem mixedOrder_same :
    SameForEachPart writtenOrder mixedOrder ∧
      ∃ y, writtenOrder.foldlM take empty = .ok y ∧ mixedOrder.foldlM take empty = .ok y ∧
        y.soFar.limit = some 10 ∧
        (y.soFar.filter.map fun c => (c.conditions .and).length) = some 2 := by
  have same : SameForEachPart writtenOrder mixedOrder := by
    intro p
    cases p <;> rfl
  refine ⟨same, ?_⟩
  rcases clauses_in_any_order same empty with ⟨y, hy, hy', -⟩ | ⟨⟨e, he⟩, -⟩
  · refine ⟨y, hy, hy', ?_⟩
    cases hy
    exact ⟨rfl, rfl⟩
  · cases he

end SelectDraft

end SqlScribe
