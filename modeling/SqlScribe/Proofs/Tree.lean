import SqlScribe.Render.Change

/-!
# Statements as trees

An expression and a select are both nodes of one tree. `Tree.branches` lists what is written inside
a node, in the order of its fields and clauses; a nested query hangs below the node that holds it.
What is never written is no branch: the operand of a membership in an empty list, the expressions
that no mark of a template names, and names and switches.

A statement is a row of trees. `Statement.clauses` are those that bind values in the order of the
clauses, `Statement.extras` are the condition of an upsert and what a change returns, which the
dialects put in different places.
-/

namespace SqlScribe

/-- A node of a statement. -/
inductive Tree where
  | expr (e : Expr)
  | select (s : Select)

/-! ## Branches -/

/-- The selects of a query. What is no query has none. -/
def Query.selects : Query → List Select
  | .select s => [s]
  | .union u => u.members
  | _ => []

/-- The selects of a source. -/
def Source.selects : Source → List Select
  | .derived query _ => query.selects
  | _ => []

/-- What is written of a join. -/
def Join.branches : Join → List Tree
  | .join right on _ => right.selects.map .select ++ on.toList.map .expr
  | .other _ => []

/-- The expression that replaces a mark: the first of its name. -/
def bindingOf (bindings : List (Name × Expr)) (name : List Char) : Option Expr :=
  (bindings.find? fun b => b.1.same (.word (String.ofList name))).map (·.2)

/-- The expressions that replace the marks of a template, in the order of the text. -/
def markedBy (bindings : List (Name × Expr)) : List Template.Part → List Expr
  | [] => []
  | .text _ :: rest => markedBy bindings rest
  | .mark name :: rest => (bindingOf bindings name).toList ++ markedBy bindings rest

/-- The expressions that a raw fragment writes. -/
def rawParts (sql : Data) (aliasName : Name) (template : Bool) (bindings : List (Name × Expr)) :
    List Expr :=
  if !template then []
  else
    match rawChars sql aliasName with
    | .ok cs => markedBy bindings (Template.parts cs)
    | .error _ => []

/-- What is written of an expression below its root. -/
def Expr.branches : Expr → List Tree
  | .not operand | .isNull operand _ | .cast operand _ | .aggregateText operand
  | .sorted operand _ | .jsonExtract operand _ _ | .jsonType operand _ => [.expr operand]
  | .binary _ left right | .jsonContains left right _ | .jsonEdge left right _ _
  | .matches left right _ => [.expr left, .expr right]
  | .between operand low high _ => [.expr operand, .expr low, .expr high]
  | .logical _ first rest | .row first rest | .textSearch first rest =>
    .expr first :: rest.map .expr
  | .inList operand items _ => if items.isEmpty then [] else .expr operand :: items.map .expr
  | .inQuery operand query _ => .expr operand :: query.selects.map .select
  | .exists query _ | .scalar query => query.selects.map .select
  | .call _ args _ | .coalesce args | .concat args => args.map .expr
  | .window partition order => (partition ++ order).map .expr
  | .over _ args spec => args.map .expr ++ [.expr spec]
  | .raw sql aliasName template bindings =>
    (rawParts sql.view aliasName template.isTrue bindings).map .expr
  | _ => []

theorem Expr.branches_inList {operand : Expr} {items : List Expr} {negated : Flag}
    (h : items.isEmpty = false) :
    (Expr.inList operand items negated).branches = .expr operand :: items.map .expr := by
  rw [branches, h]
  rfl

/-- What is written of a select, in the order of its clauses. -/
def Select.branches (s : Select) : List Tree :=
  s.items.map (fun i => .expr i.expr) ++ (s.source.toList.flatMap Source.selects).map .select ++
    s.joins.flatMap Join.branches ++ s.filter.toList.map .expr ++ s.groupBy.map .expr ++
    s.having.toList.map .expr ++ s.orderBy.map .expr

namespace Tree

/-- What is written below the root of a tree. -/
def branches : Tree → List Tree
  | .expr e => e.branches
  | .select s => s.branches

/-! ## Branches are smaller -/

theorem sizeOf_select_of_mem_query {q : Query} {s : Select} (h : s ∈ q.selects) :
    sizeOf s < sizeOf q := by
  cases q with
  | select t =>
    obtain rfl : s = t := by simpa [Query.selects] using h
    simp
  | union u =>
    have := List.sizeOf_lt_of_mem (show s ∈ u.members from h)
    cases u
    simp at this ⊢
    omega
  | draft _ | other _ => simp [Query.selects] at h

theorem sizeOf_select_of_mem_source {o : Source} {s : Select} (h : s ∈ o.selects) :
    sizeOf s < sizeOf o := by
  cases o with
  | derived query aliasName =>
    have := sizeOf_select_of_mem_query (show s ∈ query.selects from h)
    simp
    omega
  | table _ | other _ => simp [Source.selects] at h

theorem sizeOf_of_mem_join {j : Join} {t : Tree} (h : t ∈ j.branches) :
    sizeOf t < sizeOf j + 1 := by
  cases j with
  | join right on kind =>
    simp only [Join.branches, List.mem_append, List.mem_map] at h
    rcases h with ⟨s, hs, rfl⟩ | ⟨e, he, rfl⟩
    · have := sizeOf_select_of_mem_source hs
      simp
      omega
    · obtain rfl : on = some e := by simpa using he
      simp
      omega
  | other _ => simp [Join.branches] at h

theorem sizeOf_of_mem_item {i : SelectItem} : sizeOf (Tree.expr i.expr) < sizeOf i + 1 := by
  cases i
  simp only [Tree.expr.sizeOf_spec, SelectItem.mk.sizeOf_spec]
  omega

/-- Whatever a template says, only named expressions are put into it. -/
theorem mem_of_mem_rawParts {sql : Data} {aliasName : Name} {template : Bool}
    {bindings : List (Name × Expr)} {e : Expr} (h : e ∈ rawParts sql aliasName template bindings) :
    ∃ b ∈ bindings, b.2 = e := by
  have marked : ∀ parts, e ∈ markedBy bindings parts → ∃ b ∈ bindings, b.2 = e := by
    intro parts he
    induction parts with
    | nil => simp [markedBy] at he
    | cons part rest ih =>
      cases part with
      | text cs => exact ih he
      | mark name =>
        rcases List.mem_append.mp he with he | he
        · simp only [bindingOf, Option.mem_toList, Option.map_eq_some_iff] at he
          obtain ⟨b, hb, rfl⟩ := he
          exact ⟨b, List.mem_of_find?_eq_some hb, rfl⟩
        · exact ih he
  unfold rawParts at h
  -- an empty template asks for nothing, and a text that is no template neither
  split at h
  · simp at h
  · split at h
    · exact marked _ h
    · simp at h

theorem sizeOf_of_mem_rawParts {sql : Data} {aliasName : Name} {template : Bool}
    {bindings : List (Name × Expr)} {e : Expr} (h : e ∈ rawParts sql aliasName template bindings) :
    sizeOf e < sizeOf bindings := by
  obtain ⟨b, hb, rfl⟩ := mem_of_mem_rawParts h
  have := List.sizeOf_lt_of_mem hb
  cases b
  simp at this ⊢
  omega

theorem sizeOf_of_mem_exprs {es : List Expr} {t : Tree} (h : t ∈ es.map Tree.expr) :
    sizeOf t < sizeOf es + 1 := by
  obtain ⟨e, he, rfl⟩ := List.mem_map.mp h
  have := List.sizeOf_lt_of_mem he
  simp
  omega

theorem sizeOf_of_mem_selects {q : Query} {t : Tree} (h : t ∈ q.selects.map Tree.select) :
    sizeOf t < sizeOf q + 1 := by
  obtain ⟨s, hs, rfl⟩ := List.mem_map.mp h
  have := sizeOf_select_of_mem_query hs
  simp
  omega

theorem sizeOf_of_mem_expr {e : Expr} {t : Tree} (h : t ∈ e.branches) :
    sizeOf t < sizeOf e + 1 := by
  cases e with
  | not _ | isNull _ _ | cast _ _ | aggregateText _ | sorted _ _ | jsonExtract _ _ _
  | jsonType _ _ =>
    obtain rfl := List.mem_singleton.mp h
    simp +arith
  | binary _ _ _ | jsonContains _ _ _ | jsonEdge _ _ _ _ | «matches» _ _ _ =>
    rcases List.mem_cons.mp h with rfl | h
    · simp
      omega
    · obtain rfl := List.mem_singleton.mp h
      simp
      omega
  | between operand low high negated =>
    simp only [Expr.branches, List.mem_cons, List.not_mem_nil, or_false] at h
    rcases h with rfl | rfl | rfl <;> simp <;> omega
  | logical _ _ rest | row _ rest | textSearch _ rest =>
    rcases List.mem_cons.mp h with rfl | h
    · simp +arith
    · have := sizeOf_of_mem_exprs h
      simp
      omega
  -- a list without items has no branches
  | inList operand items negated =>
    simp only [Expr.branches] at h
    split at h
    · simp at h
    · rcases List.mem_cons.mp h with rfl | h
      · simp
        omega
      · have := sizeOf_of_mem_exprs h
        simp
        omega
  | inQuery operand query negated =>
    rcases List.mem_cons.mp h with rfl | h
    · simp
      omega
    · have := sizeOf_of_mem_selects h
      simp
      omega
  | «exists» _ _ | scalar _ =>
    have := sizeOf_of_mem_selects h
    simp
    omega
  | call _ _ _ | coalesce _ | concat _ =>
    have := sizeOf_of_mem_exprs h
    simp
    omega
  | window partition order =>
    simp only [Expr.branches, List.map_append] at h
    rcases List.mem_append.mp h with h | h
    · have := sizeOf_of_mem_exprs h
      simp
      omega
    · have := sizeOf_of_mem_exprs h
      simp
      omega
  | «over» name args spec =>
    rcases List.mem_append.mp h with h | h
    · have := sizeOf_of_mem_exprs h
      simp
      omega
    · obtain rfl := List.mem_singleton.mp h
      simp
      omega
  | raw sql aliasName template bindings =>
    obtain ⟨c, hc, rfl⟩ := List.mem_map.mp h
    have := sizeOf_of_mem_rawParts hc
    simp
    omega
  | column _ _ | star _ | literal _ | truth _ | rowToJson _ _ | excluded _ | image _ _ | tuple _
  | foreign _ => simp [Expr.branches] at h

theorem sizeOf_of_mem_select {s : Select} {t : Tree} (h : t ∈ s.branches) :
    sizeOf t < sizeOf s + 1 := by
  obtain ⟨items, source, joins, filter, groupBy, having, orderBy, limit, offset, distinct⟩ := s
  simp only [Select.branches, List.mem_append] at h
  -- the items, where the rows come from, the joins, and the other clauses in their order
  rcases h with (((((h | h) | h) | h) | h) | h) | h
  · obtain ⟨i, hi, rfl⟩ := List.mem_map.mp h
    have := List.sizeOf_lt_of_mem hi
    have := @sizeOf_of_mem_item i
    simp at this ⊢
    omega
  · simp only [List.mem_map, List.mem_flatMap, Option.mem_toList] at h
    obtain ⟨s, ⟨o, rfl, hs⟩, rfl⟩ := h
    have := sizeOf_select_of_mem_source hs
    simp
    omega
  · obtain ⟨j, hj, h⟩ := List.mem_flatMap.mp h
    have := List.sizeOf_lt_of_mem hj
    have := sizeOf_of_mem_join h
    simp
    omega
  · simp only [List.mem_map, Option.mem_toList] at h
    obtain ⟨e, rfl, rfl⟩ := h
    simp
    omega
  · have := sizeOf_of_mem_exprs h
    simp
    omega
  · simp only [List.mem_map, Option.mem_toList] at h
    obtain ⟨e, rfl, rfl⟩ := h
    simp
    omega
  · have := sizeOf_of_mem_exprs h
    simp
    omega

/-- A branch is smaller than its tree. -/
theorem sizeOf_lt_of_mem {t b : Tree} (h : b ∈ t.branches) : sizeOf b < sizeOf t := by
  cases t with
  | expr e =>
    have := sizeOf_of_mem_expr h
    simp
    omega
  | select s =>
    have := sizeOf_of_mem_select h
    simp
    omega

/-- **Induction over trees.** What holds of a tree if it holds of its branches holds of all. -/
theorem induction {P : Tree → Prop} (step : ∀ t : Tree, (∀ b ∈ t.branches, P b) → P t) (t : Tree) :
    P t :=
  step t fun b hb =>
    have := sizeOf_lt_of_mem hb
    induction step b
termination_by sizeOf t

/-! ## Nodes -/

/-- The nodes of a tree: its root and those of its branches. -/
def nodes (t : Tree) : List Tree := t :: t.branches.attach.flatMap fun b => b.1.nodes
termination_by sizeOf t
decreasing_by exact sizeOf_lt_of_mem b.2

theorem nodes_eq (t : Tree) : t.nodes = t :: t.branches.flatMap nodes := by
  rw [nodes, List.flatMap_def, List.attach_map_val (f := nodes), ← List.flatMap_def]

/-- Whether all nodes of a tree have a property. -/
def Every (p : Tree → Prop) (t : Tree) : Prop := ∀ n ∈ t.nodes, p n

theorem every_iff {p : Tree → Prop} {t : Tree} :
    t.Every p ↔ p t ∧ ∀ b ∈ t.branches, b.Every p := by
  unfold Every
  rw [nodes_eq]
  simp only [List.forall_mem_cons, List.mem_flatMap]
  constructor
  · rintro ⟨ht, h⟩
    exact ⟨ht, fun b hb n hn => h n ⟨b, hb, hn⟩⟩
  · rintro ⟨ht, h⟩
    exact ⟨ht, fun n ⟨b, hb, hn⟩ => h b hb n hn⟩

theorem Every.branch {p : Tree → Prop} {t b : Tree} (h : t.Every p) (hb : b ∈ t.branches) :
    b.Every p :=
  (every_iff.mp h).2 b hb

end Tree

/-! ## Statements -/

/-- The trees of items. -/
def itemTrees (items : List SelectItem) : List Tree := items.map fun i => .expr i.expr

/-- The trees of the values of assignments. -/
def valueTrees (assignments : List Assignment) : List Tree := assignments.map fun a => .expr a.value

/-- The trees of the rows of an insert. -/
def InsertSource.trees : InsertSource → List Tree
  | .rows lists => lists.flatten.map .expr
  | .query s => [.select s]
  | .draft _ => []

/-- The assignments of an upsert. -/
def ConflictClause.assignments : ConflictClause → List Assignment
  | .conflict ⟨_, .update assignments _⟩ => assignments
  | _ => []

/-- The condition of an upsert. -/
def ConflictClause.filter? : ConflictClause → Option Expr
  | .conflict ⟨_, .update _ filter⟩ => filter
  | _ => none

namespace Statement

/-- The trees of a statement in the order of its clauses, but for the condition of an upsert and
what a change returns. -/
def clauses : Statement → List Tree
  | .select s => [.select s]
  | .union u => u.members.map .select
  | .insert i =>
    i.source.trees ++ valueTrees (i.conflict.toList.flatMap ConflictClause.assignments)
  | .update u => valueTrees u.assignments ++ u.filter.toList.map .expr
  | .delete x => x.filter.toList.map .expr

/-- The condition of an upsert and what a change returns. -/
def extras : Statement → List Tree
  | .select _ | .union _ => []
  | .insert i =>
    (i.conflict.toList.flatMap fun c => c.filter?.toList).map .expr ++ itemTrees i.returning
  | .update u => itemTrees u.returning
  | .delete x => itemTrees x.returning

/-- Whether all nodes of a statement have a property. -/
def Every (p : Tree → Prop) (s : Statement) : Prop := ∀ t ∈ s.clauses ++ s.extras, t.Every p

end Statement

end SqlScribe
