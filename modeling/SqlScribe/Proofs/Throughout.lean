import SqlScribe.Proofs.Tree

/-!
# Properties of all nodes, written or not

`Tree.Every` looks at the nodes that are written. Some steps see more: before an upsert is written
its expressions are rebuilt node by node, and then a list of rows is checked again even if nothing
of it is written. `Expr.All` goes through all nodes, at any nesting: into queries, into expressions
that no mark of a template names, and into tuples. Names and switches are no nodes.

What holds of all nodes holds of those that are written (`Tree.every_of_all`).
-/

namespace SqlScribe

mutual

/-- Whether all nodes of an expression have a property, written or not. -/
def Expr.All (p : Tree → Prop) : Expr → Prop
  | .column table name => p (.expr (.column table name))
  | .star table => p (.expr (.star table))
  | .literal value => p (.expr (.literal value))
  | .truth value => p (.expr (.truth value))
  | .not operand => p (.expr (.not operand)) ∧ operand.All p
  | .isNull operand negated => p (.expr (.isNull operand negated)) ∧ operand.All p
  | .binary op left right => p (.expr (.binary op left right)) ∧ left.All p ∧ right.All p
  | .logical op first rest => p (.expr (.logical op first rest)) ∧ first.All p ∧ allExprs p rest
  | .inList operand items negated =>
    p (.expr (.inList operand items negated)) ∧ operand.All p ∧ allExprs p items
  | .inQuery operand query negated =>
    p (.expr (.inQuery operand query negated)) ∧ operand.All p ∧ query.All p
  | .between operand low high negated =>
    p (.expr (.between operand low high negated)) ∧ operand.All p ∧ low.All p ∧ high.All p
  | .exists query negated => p (.expr (.exists query negated)) ∧ query.All p
  | .scalar query => p (.expr (.scalar query)) ∧ query.All p
  | .row first rest => p (.expr (.row first rest)) ∧ first.All p ∧ allExprs p rest
  | .call name args distinct => p (.expr (.call name args distinct)) ∧ allExprs p args
  | .cast operand target => p (.expr (.cast operand target)) ∧ operand.All p
  | .coalesce parts => p (.expr (.coalesce parts)) ∧ allExprs p parts
  | .concat parts => p (.expr (.concat parts)) ∧ allExprs p parts
  | .aggregateText operand => p (.expr (.aggregateText operand)) ∧ operand.All p
  | .sorted operand direction => p (.expr (.sorted operand direction)) ∧ operand.All p
  | .window partition order =>
    p (.expr (.window partition order)) ∧ allExprs p partition ∧ allExprs p order
  | .over name args spec => p (.expr (.over name args spec)) ∧ allExprs p args ∧ spec.All p
  | .jsonExtract document path asText =>
    p (.expr (.jsonExtract document path asText)) ∧ document.All p
  | .jsonContains document value negated =>
    p (.expr (.jsonContains document value negated)) ∧ document.All p ∧ value.All p
  | .jsonEdge document value edge negated =>
    p (.expr (.jsonEdge document value edge negated)) ∧ document.All p ∧ value.All p
  | .jsonType document type => p (.expr (.jsonType document type)) ∧ document.All p
  | .textSearch first rest => p (.expr (.textSearch first rest)) ∧ first.All p ∧ allExprs p rest
  | .matches search query negated =>
    p (.expr (.matches search query negated)) ∧ search.All p ∧ query.All p
  | .rowToJson table pretty => p (.expr (.rowToJson table pretty))
  | .excluded column => p (.expr (.excluded column))
  | .raw sql aliasName template bindings =>
    p (.expr (.raw sql aliasName template bindings)) ∧ allBindings p bindings
  | .image side column => p (.expr (.image side column))
  | .tuple items => p (.expr (.tuple items)) ∧ allExprs p items
  | .foreign object => p (.expr (.foreign object))

/-- Whether all nodes of a list of expressions have a property. -/
def allExprs (p : Tree → Prop) : List Expr → Prop
  | [] => True
  | e :: rest => e.All p ∧ allExprs p rest

/-- Whether all nodes of named expressions have a property. -/
def allBindings (p : Tree → Prop) : List (Name × Expr) → Prop
  | [] => True
  | b :: rest => allBinding p b ∧ allBindings p rest

/-- Whether all nodes of a named expression have a property. -/
def allBinding (p : Tree → Prop) : Name × Expr → Prop
  | (_, e) => e.All p

/-- Whether all nodes of an optional expression have a property. -/
def allOption (p : Tree → Prop) : Option Expr → Prop
  | none => True
  | some e => e.All p

/-- Whether all nodes of a query have a property. What is no query has none. -/
def Query.All (p : Tree → Prop) : Query → Prop
  | .select s => s.All p
  | .union u => u.All p
  | .draft _ | .other _ => True

/-- Whether all nodes of a union have a property. -/
def Union.All (p : Tree → Prop) : Union → Prop
  | ⟨members, _⟩ => allSelects p members

/-- Whether all nodes of a list of selects have a property. -/
def allSelects (p : Tree → Prop) : List Select → Prop
  | [] => True
  | s :: rest => s.All p ∧ allSelects p rest

/-- Whether all nodes of a select have a property. -/
def Select.All (p : Tree → Prop) : Select → Prop
  | ⟨items, source, joins, filter, groupBy, having, orderBy, limit, offset, distinct⟩ =>
    p (.select ⟨items, source, joins, filter, groupBy, having, orderBy, limit, offset, distinct⟩) ∧
      allItems p items ∧ allOrigin p source ∧ allJoins p joins ∧ allOption p filter ∧
      allExprs p groupBy ∧ allOption p having ∧ allExprs p orderBy

/-- Whether all nodes of an optional source have a property. -/
def allOrigin (p : Tree → Prop) : Option Source → Prop
  | none => True
  | some o => o.All p

/-- Whether all nodes of a source have a property. -/
def Source.All (p : Tree → Prop) : Source → Prop
  | .derived query _ => query.All p
  | .table _ | .other _ => True

/-- Whether all nodes of the items of a projection have a property. -/
def allItems (p : Tree → Prop) : List SelectItem → Prop
  | [] => True
  | i :: rest => i.All p ∧ allItems p rest

/-- Whether all nodes of an item have a property. -/
def SelectItem.All (p : Tree → Prop) : SelectItem → Prop
  | ⟨expr, _⟩ => expr.All p

/-- Whether all nodes of joins have a property. -/
def allJoins (p : Tree → Prop) : List Join → Prop
  | [] => True
  | j :: rest => j.All p ∧ allJoins p rest

/-- Whether all nodes of a join have a property. -/
def Join.All (p : Tree → Prop) : Join → Prop
  | .join right on _ => right.All p ∧ allOption p on
  | .other _ => True

end

/-- Whether all nodes of a tree have a property, written or not. -/
def Tree.All (p : Tree → Prop) : Tree → Prop
  | .expr e => e.All p
  | .select s => s.All p

section

variable {p : Tree → Prop}

theorem allExprs_iff {es : List Expr} : allExprs p es ↔ ∀ e ∈ es, e.All p := by
  induction es with
  | nil => simp [allExprs]
  | cons e rest ih => simp [allExprs, ih]

theorem allSelects_iff {ss : List Select} : allSelects p ss ↔ ∀ s ∈ ss, s.All p := by
  induction ss with
  | nil => simp [allSelects]
  | cons s rest ih => simp [allSelects, ih]

theorem allItems_iff {is : List SelectItem} : allItems p is ↔ ∀ i ∈ is, i.expr.All p := by
  induction is with
  | nil => simp [allItems]
  | cons i rest ih =>
    cases i
    simp [allItems, SelectItem.All, ih]

theorem allJoins_iff {js : List Join} : allJoins p js ↔ ∀ j ∈ js, j.All p := by
  induction js with
  | nil => simp [allJoins]
  | cons j rest ih => simp [allJoins, ih]

theorem allBindings_iff {bs : List (Name × Expr)} :
    allBindings p bs ↔ ∀ b ∈ bs, b.2.All p := by
  induction bs with
  | nil => simp [allBindings]
  | cons b rest ih =>
    obtain ⟨name, e⟩ := b
    simp only [allBindings, allBinding, ih, List.forall_mem_cons]

theorem allOption_iff {o : Option Expr} : allOption p o ↔ ∀ e ∈ o.toList, e.All p := by
  cases o <;> simp [allOption]

theorem allOrigin_iff {o : Option Source} : allOrigin p o ↔ ∀ s ∈ o.toList, s.All p := by
  cases o <;> simp [allOrigin]

/-- What holds of all nodes holds of the root. -/
theorem Expr.All.root {e : Expr} (h : e.All p) : p (.expr e) := by
  cases e <;> first | exact h | exact h.1

theorem Select.All.root {s : Select} (h : s.All p) : p (.select s) := by
  cases s
  exact h.1

/-! ## Written nodes -/

theorem Query.All.selects {q : Query} (h : q.All p) : ∀ s ∈ q.selects, s.All p := by
  cases q with
  | select t => simpa [Query.selects, Query.All] using h
  | union u =>
    cases u
    exact allSelects_iff.mp h
  | draft _ | other _ => simp [Query.selects]

theorem Source.All.selects {o : Source} (h : o.All p) : ∀ s ∈ o.selects, s.All p := by
  cases o with
  | derived query _ => exact Query.All.selects (q := query) (by simpa [Source.All] using h)
  | table _ | other _ => simp [Source.selects]

theorem Join.All.branches {j : Join} (h : j.All p) : ∀ b ∈ j.branches, b.All p := by
  cases j with
  | join right on kind =>
    rw [Join.All] at h
    intro b hb
    rcases List.mem_append.mp hb with hb | hb
    · obtain ⟨s, hs, rfl⟩ := List.mem_map.mp hb
      exact h.1.selects s hs
    · obtain ⟨e, he, rfl⟩ := List.mem_map.mp hb
      exact allOption_iff.mp h.2 e he
  | other _ => simp [Join.branches]

theorem forall_expr {es : List Expr} (h : allExprs p es) : ∀ b ∈ es.map Tree.expr, b.All p := by
  intro b hb
  obtain ⟨e, he, rfl⟩ := List.mem_map.mp hb
  exact allExprs_iff.mp h e he

theorem Expr.All.branches {e : Expr} (h : e.All p) : ∀ b ∈ e.branches, b.All p := by
  cases e with
  | not _ | isNull _ _ | cast _ _ | aggregateText _ | sorted _ _ | jsonExtract _ _ _
  | jsonType _ _ => exact List.forall_mem_singleton.mpr h.2
  | binary _ _ _ | jsonContains _ _ _ | jsonEdge _ _ _ _ | «matches» _ _ _ =>
    exact List.forall_mem_cons.mpr ⟨h.2.1, List.forall_mem_singleton.mpr h.2.2⟩
  | between _ _ _ _ =>
    exact List.forall_mem_cons.mpr ⟨h.2.1, List.forall_mem_cons.mpr ⟨h.2.2.1,
      List.forall_mem_singleton.mpr h.2.2.2⟩⟩
  | logical _ _ _ | row _ _ | textSearch _ _ =>
    exact List.forall_mem_cons.mpr ⟨h.2.1, forall_expr h.2.2⟩
  | inList _ items _ =>
    -- a list without items is not written, and so has no branches
    simp only [Expr.branches]
    split
    · exact List.forall_mem_nil _
    · exact List.forall_mem_cons.mpr ⟨h.2.1, forall_expr h.2.2⟩
  | inQuery _ query _ =>
    refine List.forall_mem_cons.mpr ⟨h.2.1, fun b hb => ?_⟩
    obtain ⟨s, hs, rfl⟩ := List.mem_map.mp hb
    exact Query.All.selects h.2.2 s hs
  | «exists» _ _ | scalar _ =>
    intro b hb
    obtain ⟨s, hs, rfl⟩ := List.mem_map.mp hb
    exact Query.All.selects h.2 s hs
  | call _ _ _ | coalesce _ | concat _ => exact forall_expr h.2
  | window partition order =>
    simp only [Expr.branches, List.map_append]
    exact List.forall_mem_append.mpr ⟨forall_expr h.2.1, forall_expr h.2.2⟩
  | «over» _ _ _ =>
    exact List.forall_mem_append.mpr ⟨forall_expr h.2.1, List.forall_mem_singleton.mpr h.2.2⟩
  -- only bindings that fill a mark are branches
  | raw _ _ _ bindings =>
    intro b hb
    obtain ⟨e, he, rfl⟩ := List.mem_map.mp hb
    obtain ⟨binding, hmem, rfl⟩ := Tree.mem_of_mem_rawParts he
    exact allBindings_iff.mp h.2 binding hmem
  | column _ _ | star _ | literal _ | truth _ | rowToJson _ _ | excluded _ | image _ _ | tuple _
  | foreign _ => exact List.forall_mem_nil _

theorem Select.All.branches {s : Select} (h : s.All p) : ∀ b ∈ s.branches, b.All p := by
  obtain ⟨items, source, joins, filter, groupBy, having, orderBy, limit, offset, distinct⟩ := s
  obtain ⟨-, hitems, horigin, hjoins, hfilter, hgroup, hhaving, horder⟩ := h
  -- the condition of the rows and that of the groups
  have option : ∀ {o : Option Expr}, allOption p o → ∀ b ∈ o.toList.map Tree.expr, b.All p := by
    intro o ho b hb
    obtain ⟨e, he, rfl⟩ := List.mem_map.mp hb
    exact allOption_iff.mp ho e he
  simp only [Select.branches, List.forall_mem_append]
  refine ⟨⟨⟨⟨⟨⟨fun b hb => ?_, fun b hb => ?_⟩, fun b hb => ?_⟩, option hfilter⟩,
    forall_expr hgroup⟩, option hhaving⟩, forall_expr horder⟩
  -- the items, where the rows come from, and the joins
  · obtain ⟨i, hi, rfl⟩ := List.mem_map.mp hb
    exact allItems_iff.mp hitems i hi
  · obtain ⟨t, ht, rfl⟩ := List.mem_map.mp hb
    obtain ⟨o, ho, ht⟩ := List.mem_flatMap.mp ht
    exact (allOrigin_iff.mp horigin o ho).selects t ht
  · obtain ⟨j, hj, hb⟩ := List.mem_flatMap.mp hb
    exact (allJoins_iff.mp hjoins j hj).branches b hb

theorem Tree.All.branches {t : Tree} (h : t.All p) : ∀ b ∈ t.branches, b.All p := by
  cases t with
  | expr e => exact Expr.All.branches h
  | select s => exact Select.All.branches h

/-- **What holds of all nodes holds of those that are written.** -/
theorem Tree.every_of_all {t : Tree} (h : t.All p) : t.Every p := by
  induction t using Tree.induction with
  | step t ih =>
    refine every_iff.mpr ⟨?_, fun b hb => ih b hb (h.branches b hb)⟩
    cases t with
    | expr e => exact Expr.All.root h
    | select s => exact Select.All.root h

end

end SqlScribe
