import SqlScribe.Draft.Change
import SqlScribe.Proofs.Outcome

/-!
# Conditions that accumulate

Joining operands by a connective is putting lists one behind the other. Each operand stands for a
list of conditions (`Expr.conditions`), and two operands or more give the connective of all their
conditions. That connective stands for the same conditions again, so it does not matter how operands
are grouped (`combine_congr`).

The grouping does matter for a single operand: `combine` takes a lone condition out of its
connective, and that condition may stand for several. So everything here is about two operands or
more.

A draft that is given conditions one by one holds, after each of them, what `combine` makes of the
condition that it had and of those given so far. That is the invariant of the run, and it says that
the draft is the one that takes them all at once.
-/

namespace SqlScribe

namespace Expr

variable {op : Connective} {e : Expr} {es fs : List Expr}

/-! ## Grouping -/

theorem conditions_ne_nil (op : Connective) (e : Expr) : e.conditions op ≠ [] := by
  unfold conditions
  split
  · split <;> nofun
  · nofun

/-- Expressions are joined as they are. -/
theorem allConditions_of_isExpr (h : ∀ e ∈ es, e.isExpr = true) :
    allConditions op es = .ok (es.flatMap (conditions op)) := by
  induction es with
  | nil => rfl
  | cons e rest ih =>
    obtain ⟨he, hrest⟩ := List.forall_mem_cons.mp h
    rw [allConditions, operand_of_isExpr he, ih hrest]
    rfl

/-- Only the conditions count, and not how they are grouped. -/
theorem combine_congr (hes : ∀ e ∈ es, e.isExpr = true) (hfs : ∀ e ∈ fs, e.isExpr = true)
    (h : es.flatMap (conditions op) = fs.flatMap (conditions op)) :
    combine op es = combine op fs := by
  unfold combine
  rw [allConditions_of_isExpr hes, allConditions_of_isExpr hfs, h]

/-- **Two expressions or more become the connective of all their conditions.** -/
theorem combine_many (op : Connective) (hmany : 2 ≤ es.length) (h : ∀ e ∈ es, e.isExpr = true) :
    ∃ whole, combine op es = .ok whole ∧ whole.isExpr = true ∧
      whole.conditions op = es.flatMap (conditions op) := by
  obtain ⟨a, b, rest, rfl⟩ : ∃ a b rest, es = a :: b :: rest := by
    match es, hmany with
    | a :: b :: rest, _ => exact ⟨a, b, rest, rfl⟩
  -- each of the first two has a condition, so no condition is alone
  obtain ⟨first, behind, hfirst⟩ := List.exists_cons_of_ne_nil (conditions_ne_nil op a)
  have more : behind ++ (b :: rest).flatMap (conditions op) ≠ [] := by
    simp [conditions_ne_nil]
  obtain ⟨second, others, hsecond⟩ := List.exists_cons_of_ne_nil more
  have all : (a :: b :: rest).flatMap (conditions op) = first :: second :: others := by
    rw [List.flatMap_cons, hfirst, List.cons_append, hsecond]
  refine ⟨.logical op first (second :: others), ?_, rfl, ?_⟩
  · unfold combine
    rw [allConditions_of_isExpr h, all]
    rfl
  · rw [conditions_same, all]

theorem combine_two (op : Connective) {a b : Expr} (ha : a.isExpr = true) (hb : b.isExpr = true) :
    ∃ whole, combine op [a, b] = .ok whole ∧ whole.isExpr = true ∧
      whole.conditions op = a.conditions op ++ b.conditions op := by
  obtain ⟨whole, hwhole, hexpr, hconditions⟩ := combine_many op (Nat.le_refl [a, b].length)
    (List.forall_mem_cons.mpr ⟨ha, List.forall_mem_singleton.mpr hb⟩)
  exact ⟨whole, hwhole, hexpr, by simpa using hconditions⟩

/-- An operand that is no expression is joined as the expression that it stands for. -/
theorem combine_operand (op : Connective) (e : Expr) (es : List Expr) :
    combine op (e :: es) = e.operand >>= fun w => combine op (w :: es) := by
  cases h : e.operand with
  | error err =>
    unfold combine allConditions
    rw [h]
    rfl
  | ok w =>
    show combine op (e :: es) = combine op (w :: es)
    unfold combine allConditions
    rw [h, operand_of_isExpr (isExpr_of_operand h)]

/-- A group of expressions behind an operand may be joined first. -/
theorem combine_group {whole : Expr} (hmany : 2 ≤ es.length) (h : ∀ e ∈ es, e.isExpr = true)
    (hwhole : combine op es = .ok whole) (e : Expr) :
    combine op (e :: es) = combine op [e, whole] := by
  obtain ⟨_, hjoined, hexpr, hconditions⟩ := combine_many op hmany h
  cases hwhole.symm.trans hjoined
  rw [combine_operand op e es, combine_operand op e [whole]]
  cases hw : e.operand with
  | error err => rfl
  | ok w =>
    have first := isExpr_of_operand hw
    refine combine_congr (List.forall_mem_cons.mpr ⟨first, h⟩)
      (List.forall_mem_cons.mpr ⟨first, List.forall_mem_singleton.mpr hexpr⟩) ?_
    simp [hconditions]

end Expr

open SqlScribe.Expr (combine)

/-! ## Runs -/

section

variable {p : Expr} {ps : List Expr}

/-- **Preserved by every step.** Behind a condition that is there, each further one is joined to
all those before. -/
theorem foldlM_addCondition_some (w : Expr) (hps : ∀ e ∈ p :: ps, e.isExpr = true) :
    (p :: ps).foldlM addCondition (some w) = (combine .and (w :: p :: ps)).map some := by
  -- on the conditions, for every one that is there before them
  induction ps generalizing w p with
  | nil =>
    show (addCondition (some w) p >>= fun c => .ok c) = _
    exact bind_pure _
  | cons q rest ih =>
    obtain ⟨hp, hrest⟩ := List.forall_mem_cons.mp hps
    rw [List.foldlM_cons, addCondition, Expr.combine_operand .and w [p],
      Expr.combine_operand .and w (p :: q :: rest)]
    cases hw : w.operand with
    | error err => rfl
    | ok v =>
      have hv := Expr.isExpr_of_operand hw
      obtain ⟨whole, hwhole, hexpr, hconditions⟩ := Expr.combine_two .and hv hp
      have step : ((combine .and [v, p]).map some >>= fun c =>
          (q :: rest).foldlM addCondition c) = (q :: rest).foldlM addCondition (some whole) := by
        rw [hwhole]
        rfl
      refine step.trans ((ih whole hrest).trans (congrArg _ ?_))
      -- joining flattens, so the conditions on both sides are the same list
      refine Expr.combine_congr (List.forall_mem_cons.mpr ⟨hexpr, hrest⟩)
        (List.forall_mem_cons.mpr ⟨hv, hps⟩) ?_
      simp [hconditions]

/-- **Two conditions or more, one by one, are their conjunction at once.** -/
theorem foldlM_addCondition {whole : Expr} (hmany : 2 ≤ ps.length)
    (hps : ∀ p ∈ ps, p.isExpr = true) (hwhole : combine .and ps = .ok whole)
    (old : Option Expr) : ps.foldlM addCondition old = addCondition old whole := by
  obtain ⟨p, q, rest, rfl⟩ : ∃ p q rest, ps = p :: q :: rest := by
    match ps, hmany with
    | p :: q :: rest, _ => exact ⟨p, q, rest, rfl⟩
  -- with none before, the first condition takes its place
  cases old with
  | some w =>
    rw [foldlM_addCondition_some w hps, Expr.combine_group hmany hps hwhole w, addCondition]
  | none =>
    have taken : ∀ {e : Expr}, e.isExpr = true → addCondition none e = .ok (some e) := by
      intro e he
      cases e <;> first | rfl | cases he
    obtain ⟨hp, hrest⟩ := List.forall_mem_cons.mp hps
    obtain ⟨_, hjoined, hexpr, -⟩ := Expr.combine_many .and hmany hps
    cases hwhole.symm.trans hjoined
    rw [List.foldlM_cons, taken hp, taken hexpr]
    show (q :: rest).foldlM addCondition (some p) = _
    rw [foldlM_addCondition_some p hrest, hwhole]
    rfl

/-- A condition can be added where there is none or an expression. -/
theorem exists_addCondition {old : Option Expr} (hold : ∀ w ∈ old, w.isExpr = true)
    (hp : p.isExpr = true) : ∃ new, addCondition old p = .ok new := by
  cases old with
  | none => exact ⟨_, rfl⟩
  | some w =>
    obtain ⟨whole, hwhole, -, -⟩ := Expr.combine_two .and (hold w rfl) hp
    exact ⟨some whole, by rw [addCondition, hwhole]; rfl⟩

end

/-! ## Drafts -/

/-- The place of a condition in a draft. -/
structure ConditionPlace (σ : Type) where
  get : σ → Option Expr
  set : σ → Option Expr → σ
  get_set : ∀ x c, get (set x c) = c
  set_get : ∀ x, set x (get x) = x
  set_set : ∀ x c c', set (set x c) c' = set x c'

namespace ConditionPlace

variable {σ : Type}

/-- The draft with one condition more. -/
def add (place : ConditionPlace σ) (x : σ) (p : Expr) : Build σ :=
  (addCondition (place.get x) p).map (place.set x)

/-- A run over the drafts is a run over their conditions. -/
theorem foldlM_add (place : ConditionPlace σ) (ps : List Expr) (x : σ) :
    ps.foldlM place.add x = (ps.foldlM addCondition (place.get x)).map (place.set x) := by
  induction ps generalizing x with
  | nil => exact congrArg Except.ok (place.set_get x).symm
  | cons p rest ih =>
    rw [List.foldlM_cons, List.foldlM_cons, add]
    cases addCondition (place.get x) p with
    | error err => rfl
    | ok c =>
      show rest.foldlM place.add (place.set x c) = (rest.foldlM addCondition c).map (place.set x)
      rw [ih, place.get_set]
      exact congrArg (fun f => (rest.foldlM addCondition c).map f) (funext (place.set_set x c))

/-- Where the conditions on rows of a select stand. -/
def selectRows : ConditionPlace SelectDraft :=
  ⟨fun x => x.soFar.filter, fun x c => x.change fun s => { s with filter := c }, fun _ _ => rfl,
    fun ⟨⟨_, _, _, _, _, _, _, _, _, _⟩⟩ => rfl, fun _ _ _ => rfl⟩

/-- Where the conditions on groups of a select stand. -/
def selectGroups : ConditionPlace SelectDraft :=
  ⟨fun x => x.soFar.having, fun x c => x.change fun s => { s with having := c }, fun _ _ => rfl,
    fun ⟨⟨_, _, _, _, _, _, _, _, _, _⟩⟩ => rfl, fun _ _ _ => rfl⟩

/-- Where the conditions of an update stand. -/
def updateRows : ConditionPlace UpdateDraft :=
  ⟨UpdateDraft.filter, fun x c => { x with filter := c }, fun _ _ => rfl, fun _ => rfl,
    fun _ _ _ => rfl⟩

/-- Where the conditions of a delete stand. -/
def deleteRows : ConditionPlace DeleteDraft :=
  ⟨DeleteDraft.filter, fun x c => { x with filter := c }, fun _ _ => rfl, fun _ => rfl,
    fun _ _ _ => rfl⟩

end ConditionPlace

/-- Whether drafts take expressions one by one as they take another one at once, and take it where
they hold no condition or an expression. -/
def TakesAtOnce {σ : Type} (held : σ → Option Expr) (add : σ → Expr → Build σ) (ps : List Expr)
    (whole : Expr) : Prop :=
  ∀ x, ps.foldlM add x = add x whole ∧
    ((∀ w ∈ held x, w.isExpr = true) → ∃ y, add x whole = .ok y)

theorem takesAtOnce_add {σ : Type} (place : ConditionPlace σ) {ps : List Expr} {whole : Expr}
    (hmany : 2 ≤ ps.length) (hps : ∀ p ∈ ps, p.isExpr = true)
    (hwhole : combine .and ps = .ok whole) : TakesAtOnce place.get place.add ps whole := by
  intro x
  refine ⟨?_, fun hheld => ?_⟩
  · rw [place.foldlM_add, foldlM_addCondition hmany hps hwhole]
    rfl
  · obtain ⟨_, hjoined, hexpr, -⟩ := Expr.combine_many .and hmany hps
    cases hwhole.symm.trans hjoined
    obtain ⟨c, hc⟩ := exists_addCondition hheld hexpr
    exact ⟨place.set x c, by rw [ConditionPlace.add, hc]; rfl⟩

/-- **Conditions accumulate like one conjunction.** Two expressions or more can be joined, and every
draft, whatever it holds, takes them one by one as it takes their conjunction. Joining expressions
by one connective does not depend on the grouping. -/
theorem conditions_accumulate {ps : List Expr} (hmany : 2 ≤ ps.length)
    (hps : ∀ p ∈ ps, p.isExpr = true) :
    (∃ whole, combine .and ps = .ok whole ∧
      TakesAtOnce (fun x => x.soFar.filter) SelectDraft.addFilter ps whole ∧
      TakesAtOnce (fun x => x.soFar.having) SelectDraft.addHaving ps whole ∧
      TakesAtOnce UpdateDraft.filter UpdateDraft.addFilter ps whole ∧
      TakesAtOnce DeleteDraft.filter DeleteDraft.addFilter ps whole) ∧
    ∀ (op : Connective) (a b c : Expr), a.isExpr = true → b.isExpr = true → c.isExpr = true →
      ∃ ab bc abc, combine op [a, b] = .ok ab ∧ combine op [b, c] = .ok bc ∧
        combine op [a, b, c] = .ok abc ∧ combine op [ab, c] = .ok abc ∧
        combine op [a, bc] = .ok abc := by
  constructor
  · obtain ⟨whole, hwhole, -, -⟩ := Expr.combine_many .and hmany hps
    exact ⟨whole, hwhole, takesAtOnce_add .selectRows hmany hps hwhole,
      takesAtOnce_add .selectGroups hmany hps hwhole,
      takesAtOnce_add .updateRows hmany hps hwhole, takesAtOnce_add .deleteRows hmany hps hwhole⟩
  · intro op a b c ha hb hc
    have hbc : ∀ e ∈ [b, c], e.isExpr = true :=
      List.forall_mem_cons.mpr ⟨hb, List.forall_mem_singleton.mpr hc⟩
    obtain ⟨ab, hab', habexpr, habconditions⟩ := Expr.combine_two op ha hb
    obtain ⟨bc, hbc', -, -⟩ := Expr.combine_two op hb hc
    obtain ⟨abc, habc', -, -⟩ := Expr.combine_two op habexpr hc
    have behind : combine op [a, b, c] = combine op [ab, c] := by
      refine Expr.combine_congr (List.forall_mem_cons.mpr ⟨ha, hbc⟩)
        (List.forall_mem_cons.mpr ⟨habexpr, List.forall_mem_singleton.mpr hc⟩) ?_
      simp [habconditions]
    have before : combine op [a, b, c] = combine op [a, bc] :=
      Expr.combine_group (Nat.le_refl [b, c].length) hbc hbc' a
    exact ⟨ab, bc, abc, hab', hbc', behind.trans habc', habc',
      before.symm.trans (behind.trans habc')⟩

/-- Conditions of several shapes: a connective of a single connective, another connective, and one
of two columns. -/
def severalShapes : List Expr :=
  let column (s : String) : Expr := .column .absent (.word s)
  [.logical .and (.logical .and (column "paid") [column "sent"]) [],
    .logical .or (column "paid") [column "due"], .logical .and (column "sent") [column "due"]]

/-- A select that has a condition already, on the value of a name. -/
def namedRows : SelectDraft :=
  ⟨⟨[], none, [], some (.binary .eq (.column .absent (.word "name")) (.literal (.text "a"))), [],
    none, [], none, none, .switch false⟩⟩

/-- One level of each is taken apart, whether they come one by one or at once. -/
theorem severalShapes_accumulate :
    2 ≤ severalShapes.length ∧ (∀ p ∈ severalShapes, p.isExpr = true) ∧
      ∃ whole y, combine .and severalShapes = .ok whole ∧
        (whole.conditions .and).length = 4 ∧
        severalShapes.foldlM SelectDraft.addFilter namedRows = namedRows.addFilter whole ∧
        namedRows.addFilter whole = .ok y ∧
        (y.soFar.filter.map fun c => (c.conditions .and).length) = some 5 := by
  have hmany : 2 ≤ severalShapes.length := by decide
  have hexprs : ∀ p ∈ severalShapes, p.isExpr = true := by simp [severalShapes, Expr.isExpr]
  obtain ⟨⟨whole, hwhole, hrows, -⟩, -⟩ := conditions_accumulate hmany hexprs
  cases hwhole
  exact ⟨hmany, hexprs, _, _, rfl, rfl, (hrows namedRows).1, rfl, rfl⟩

end SqlScribe
