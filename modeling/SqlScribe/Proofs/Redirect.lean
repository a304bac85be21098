import SqlScribe.Proofs.Mapped
import SqlScribe.Proofs.PartsWalk

/-!
# References in place of references

A function on nodes redirects if it puts references in place of references and leaves every other
node alone. Nothing is written below a reference, and as a name or a switch one node does as well as
another. So what is written of a scope keeps its shape: the nodes that a dialect writes of a
redirected scope are those of the scope, one by one and in the same order, each of them redirected
(`ownNodes_mapped`).
-/

namespace SqlScribe

/-- Whether an expression refers to a column or to all columns. -/
def Expr.refersToColumns : Expr → Bool
  | .column _ _ | .star _ | .excluded _ | .image _ _ => true
  | _ => false

/-- Whether a function on nodes puts references in place of references, and changes nothing else. -/
structure Redirects (g : Expr → Expr) : Prop where
  keeps : ∀ e : Expr, e.refersToColumns = false → g e = e
  refers : ∀ e : Expr, e.refersToColumns = true → (g e).refersToColumns = true

/-- A tree with a function applied to it if it is an expression. -/
def Tree.onExpr (h : Expr → Expr) : Tree → Tree
  | .expr e => .expr (h e)
  | .select s => .select s

/-! ## Nodes that a dialect writes of a scope -/

namespace Tree

/-- **Induction over what is written.** What holds of a tree if it holds of what a dialect writes
below it holds of all. -/
theorem written_induction {d : Dialect} {P : Tree → Prop}
    (step : ∀ t : Tree, (∀ b ∈ t.written d, P b) → P t) (t : Tree) : P t :=
  step t fun b hb =>
    have := sizeOf_lt_of_mem_written hb
    written_induction step b
termination_by sizeOf t

/-- The nodes that a dialect writes of a scope, from the root down. A select is another scope. -/
def ownNodes (d : Dialect) (t : Tree) : List Expr :=
  match t with
  | .select _ => []
  | .expr e => e :: ((Tree.expr e).written d).attach.flatMap fun b => b.1.ownNodes d
termination_by sizeOf t
decreasing_by exact sizeOf_lt_of_mem_written b.2

theorem ownNodes_expr (d : Dialect) (e : Expr) :
    (Tree.expr e).ownNodes d = e :: ((Tree.expr e).written d).flatMap (ownNodes d) := by
  rw [ownNodes, List.flatMap_def, List.attach_map_val (f := ownNodes d), ← List.flatMap_def]

theorem ownNodes_select (d : Dialect) (s : Select) : (Tree.select s).ownNodes d = [] := by
  rw [ownNodes]

/-- The nodes of a scope are written. -/
theorem mem_writtenNodes_of_mem_ownNodes {d : Dialect} {n : Expr} {t : Tree}
    (h : n ∈ t.ownNodes d) : Tree.expr n ∈ t.writtenNodes d := by
  -- on the written tree; only expressions have nodes of their own
  induction t using written_induction (d := d) with
  | step t ih =>
    cases t with
    | select s =>
      rw [ownNodes_select] at h
      cases h
    | expr e =>
      rw [ownNodes_expr] at h
      rw [writtenNodes_eq]
      rcases List.mem_cons.mp h with rfl | h
      · exact List.mem_cons_self
      · obtain ⟨b, hb, hn⟩ := List.mem_flatMap.mp h
        exact List.mem_cons_of_mem _ (List.mem_flatMap.mpr ⟨b, hb, ih b hb hn⟩)

end Tree

/-! ## Names and rows -/

section

variable {g : Expr → Expr}

namespace Expr

theorem isNode_of_isExpr {e : Expr} (h : e.isExpr = true) : e.IsNode := by
  cases e with
  | tuple _ | foreign _ => cases h
  | _ => exact ⟨_, _, rfl⟩

theorem isExpr_of_refersToColumns {e : Expr} (h : e.refersToColumns = true) : e.isExpr = true := by
  cases e with
  | column _ _ | star _ | excluded _ | image _ _ => rfl
  | _ => cases h

theorem refersToColumns_mapFields (h : Expr → Expr) (e : Expr) :
    (e.mapFields h).refersToColumns = e.refersToColumns := by
  cases e <;> rfl

/-- A redirected scope has a reference at its root, or the root is left as it is. -/
theorem mapped_cases (hg : Redirects g) (e : Expr) :
    (e.refersToColumns = true ∧ (e.mapped g).refersToColumns = true) ∨
      (e.refersToColumns = false ∧ e.mapped g = e.mapFields (mapped g)) := by
  have root := refersToColumns_mapFields (mapped g) e
  cases href : e.refersToColumns with
  | true =>
    refine .inl ⟨rfl, ?_⟩
    rw [mapped_of_isExpr g (isExpr_of_refersToColumns href)]
    exact hg.refers _ (root.trans href)
  | false =>
    refine .inr ⟨rfl, ?_⟩
    rw [mapped_eq]
    split
    · exact hg.keeps _ (root.trans href)
    · rfl

theorem isExpr_mapped (hg : Redirects g) (e : Expr) : (e.mapped g).isExpr = e.isExpr := by
  rcases mapped_cases hg e with ⟨h, h'⟩ | ⟨-, h⟩
  · rw [isExpr_of_refersToColumns h, isExpr_of_refersToColumns h']
  · rw [h, isExpr_mapFields]

/-- A redirected scope does as a name and as a switch what it did before. -/
theorem names_mapped (hg : Redirects g) (e : Expr) : SameNames e (e.mapped g) := by
  cases hexpr : e.isExpr with
  | true =>
    have hexpr' := (isExpr_mapped hg e).trans hexpr
    exact .of_isNode (isNode_of_isExpr hexpr) (isNode_of_isExpr hexpr')
  | false =>
    cases e with
    | foreign object => exact .refl _
    | tuple items =>
      rw [mapped, mappedAll_eq_map]
      exact .tuple (by rw [List.isEmpty_map])
    | _ => cases hexpr

theorem isRow_mapped (hg : Redirects g) (e : Expr) : (e.mapped g).isRow = e.isRow := by
  rcases mapped_cases hg e with ⟨h, h'⟩ | ⟨-, h⟩
  · have none (e : Expr) (h : e.refersToColumns = true) : e.isRow = false := by
      cases e with
      | column _ _ | star _ | excluded _ | image _ _ => rfl
      | _ => cases h
    rw [none _ h, none _ h']
  · rw [h]
    cases e <;> rfl

theorem parts_mapped (hg : Redirects g) (e : Expr) :
    (e.mapped g).parts = e.parts.map (mapped g) := by
  rcases mapped_cases hg e with ⟨h, h'⟩ | ⟨-, h⟩
  · have none (e : Expr) (h : e.refersToColumns = true) : e.parts = [] := by
      cases e with
      | column _ _ | star _ | excluded _ | image _ _ => rfl
      | _ => cases h
    rw [none _ h, none _ h']
    rfl
  · rw [h]
    cases e <;> simp [mapFields, parts]

end Expr

/-! ## What is written -/

theorem selects_mapStrangers (h : Expr → Expr) (q : Query) :
    (q.mapStrangers h).selects = q.selects := by
  cases q <;> rfl

theorem bindingOf_map {h : Expr → Expr} (names : ∀ e, SameNames e (h e))
    (bindings : List (Name × Expr)) (name : List Char) :
    bindingOf (bindings.map fun b => (h b.1, h b.2)) name = (bindingOf bindings name).map h := by
  unfold bindingOf
  rw [List.find?_map, Option.map_map, Option.map_map]
  simp only [Function.comp_def, (names _).word]

theorem markedBy_map {h : Expr → Expr} (names : ∀ e, SameNames e (h e))
    (bindings : List (Name × Expr)) (parts : List Template.Part) :
    markedBy (bindings.map fun b => (h b.1, h b.2)) parts = (markedBy bindings parts).map h := by
  induction parts with
  | nil => rfl
  | cons part rest ih =>
    cases part with
    | text cs => exact ih
    | mark name => rw [markedBy, markedBy, ih, bindingOf_map names, List.map_append,
        Option.toList_map]

/-- The expressions that a raw fragment writes, with a function applied to all of its fields. -/
theorem rawParts_map {h : Expr → Expr} (names : ∀ e, SameNames e (h e))
    (sql aliasName template : Expr) (bindings : List (Name × Expr)) :
    rawParts (h sql).view (h aliasName) (h template).isTrue
        (bindings.map fun b => (h b.1, h b.2)) =
      (rawParts sql.view aliasName template.isTrue bindings).map h := by
  unfold rawParts
  rw [(names template).isTrue]
  split
  · rfl
  · -- the marks are those of the text, which stays; where there is none, nothing is written
    rcases (names sql).rawChars (names aliasName) with hchars | ⟨⟨e, he⟩, e', he'⟩
    · rw [hchars]
      split
      · exact markedBy_map names bindings _
      · rfl
    · rw [he, he']
      rfl

/-- What a dialect writes below a node with a function applied to its fields. -/
theorem written_mapFields {h : Expr → Expr} (names : ∀ e, SameNames e (h e))
    (rows : ∀ e : Expr, (h e).isRow = e.isRow) (parts : ∀ e : Expr, (h e).parts = e.parts.map h)
    (d : Dialect) (e : Expr) :
    (Tree.expr (e.mapFields h)).written d = ((Tree.expr e).written d).map (Tree.onExpr h) := by
  have selects (q : Query) : (q.mapStrangers h).selects.map Tree.select =
      (q.selects.map Tree.select).map (Tree.onExpr h) := by
    rw [selects_mapStrangers, List.map_map]
    rfl
  -- a list is written by its items or by its branches, and queries keep their selects
  cases e with
  | inList operand items negated =>
    simp only [Expr.mapFields, Tree.written, rows, Expr.branches, List.isEmpty_map]
    split
    · simp [List.map_flatMap, List.flatMap_map, parts, List.zip_map, Tree.onExpr]
    · split <;> simp [Tree.onExpr]
  | raw sql aliasName template bindings =>
    show (rawParts _ _ _ _).map Tree.expr = ((rawParts _ _ _ _).map Tree.expr).map (Tree.onExpr h)
    rw [rawParts_map names, List.map_map, List.map_map]
    rfl
  | inQuery operand query negated =>
    show Tree.expr (h operand) :: _ = _
    rw [selects]
    rfl
  | «exists» query negated | scalar query => exact selects query
  | window partition order =>
    show (partition.map h ++ order.map h).map Tree.expr =
      ((partition ++ order).map Tree.expr).map (Tree.onExpr h)
    rw [← List.map_append, List.map_map, List.map_map]
    rfl
  | _ => simp [Expr.mapFields, Tree.written, Tree.branches, Expr.branches, Tree.onExpr]

theorem written_mapped (hg : Redirects g) (d : Dialect) (e : Expr) :
    (Tree.expr (e.mapped g)).written d =
      ((Tree.expr e).written d).map (Tree.onExpr (Expr.mapped g)) := by
  rcases Expr.mapped_cases hg e with ⟨h, h'⟩ | ⟨-, h⟩
  · have none (e : Expr) (h : e.refersToColumns = true) : (Tree.expr e).written d = [] := by
      cases e with
      | column _ _ | star _ | excluded _ | image _ _ => rfl
      | _ => cases h
    rw [none _ h, none _ h']
    rfl
  · rw [h]
    exact written_mapFields (Expr.names_mapped hg) (Expr.isRow_mapped hg)
      (Expr.parts_mapped hg) d e

/-- **Redirecting keeps the shape of a scope**: the nodes that are written are those that were
written before, each redirected. -/
theorem ownNodes_mapped (hg : Redirects g) (d : Dialect) (t : Tree) :
    (t.onExpr (Expr.mapped g)).ownNodes d = (t.ownNodes d).map (Expr.mapped g) := by
  induction t using Tree.written_induction (d := d) with
  | step t ih =>
    cases t with
    | select s =>
      rw [Tree.onExpr, Tree.ownNodes_select]
      rfl
    | expr e =>
      rw [Tree.onExpr, Tree.ownNodes_expr, Tree.ownNodes_expr, written_mapped hg,
        List.flatMap_map, List.map_cons, List.map_flatMap]
      exact congrArg _ (List.flatMap_congr ih)

end

end SqlScribe
