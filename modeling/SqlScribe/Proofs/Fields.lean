import SqlScribe.Expr.Make

/-!
# Nodes of one scope

A scope is an expression without the selects that are nested in it. `Expr.fields` are the
expressions that stand in a node at all, written or not: operands, names, switches, the items of
lists, the names and the expressions of a raw fragment, and what stands in the place of a query and
is none. `Expr.scope` lists the nodes of a scope.
-/

namespace SqlScribe

/-! ## Fields -/

/-- What stands in the place of a query and is none. -/
def Query.strangers : Query → List Expr
  | .other object => [object]
  | _ => []

/-- What stands in the place of a query, with a function applied to it if it is none. -/
def Query.mapStrangers (h : Expr → Expr) : Query → Query
  | .other object => .other (h object)
  | q => q

/-- The names and the expressions of bindings. -/
def bindingFields (bindings : List (Name × Expr)) : List Expr :=
  bindings.flatMap fun b => [b.1, b.2]

namespace Expr

/-- The expressions that stand in a node. -/
def fields : Expr → List Expr
  | .column table name => [table, name]
  | .star e | .truth e | .not e | .cast e _ | .aggregateText e | .sorted e _ | .jsonType e _
  | .excluded e => [e]
  | .isNull operand negated => [operand, negated]
  | .jsonExtract document _ asText => [document, asText]
  | .rowToJson table pretty => [table, pretty]
  | .binary _ left right => [left, right]
  | .logical _ first rest | .row first rest | .textSearch first rest => first :: rest
  | .inList operand items negated => operand :: items ++ [negated]
  | .inQuery operand query negated => operand :: query.strangers ++ [negated]
  | .between operand low high negated => [operand, low, high, negated]
  | .jsonContains a b negated | .jsonEdge a b _ negated | .matches a b negated => [a, b, negated]
  | .exists query negated => query.strangers ++ [negated]
  | .scalar query => query.strangers
  | .call _ args distinct => args ++ [distinct]
  | .coalesce items | .concat items | .tuple items => items
  | .window partition order => partition ++ order
  | .over _ args spec => args ++ [spec]
  | .raw sql aliasName template bindings => sql :: aliasName :: template :: bindingFields bindings
  | .literal _ | .image _ _ | .foreign _ => []

/-- A node with a function applied to each of its fields. -/
def mapFields (h : Expr → Expr) : Expr → Expr
  | .column table name => .column (h table) (h name)
  | .star table => .star (h table)
  | .truth value => .truth (h value)
  | .not operand => .not (h operand)
  | .isNull operand negated => .isNull (h operand) (h negated)
  | .binary op left right => .binary op (h left) (h right)
  | .logical op first rest => .logical op (h first) (rest.map h)
  | .inList operand items negated => .inList (h operand) (items.map h) (h negated)
  | .inQuery operand query negated => .inQuery (h operand) (query.mapStrangers h) (h negated)
  | .between operand low high negated => .between (h operand) (h low) (h high) (h negated)
  | .exists query negated => .exists (query.mapStrangers h) (h negated)
  | .scalar query => .scalar (query.mapStrangers h)
  | .row first rest => .row (h first) (rest.map h)
  | .call name args distinct => .call name (args.map h) (h distinct)
  | .cast operand target => .cast (h operand) target
  | .coalesce parts => .coalesce (parts.map h)
  | .concat parts => .concat (parts.map h)
  | .aggregateText operand => .aggregateText (h operand)
  | .sorted operand direction => .sorted (h operand) direction
  | .window partition order => .window (partition.map h) (order.map h)
  | .over name args spec => .over name (args.map h) (h spec)
  | .jsonExtract document path asText => .jsonExtract (h document) path (h asText)
  | .jsonContains document value negated => .jsonContains (h document) (h value) (h negated)
  | .jsonEdge document value edge negated => .jsonEdge (h document) (h value) edge (h negated)
  | .jsonType document type => .jsonType (h document) type
  | .textSearch first rest => .textSearch (h first) (rest.map h)
  | .matches search query negated => .matches (h search) (h query) (h negated)
  | .rowToJson table pretty => .rowToJson (h table) (h pretty)
  | .excluded name => .excluded (h name)
  | .raw sql aliasName template bindings =>
    .raw (h sql) (h aliasName) (h template) (bindings.map fun b => (h b.1, h b.2))
  | .tuple items => .tuple (items.map h)
  | .literal value => .literal value
  | .image side part => .image side part
  | .foreign object => .foreign object

theorem strangers_mapStrangers (h : Expr → Expr) (q : Query) :
    (q.mapStrangers h).strangers = q.strangers.map h := by
  cases q <;> rfl

theorem fields_mapFields (h : Expr → Expr) (e : Expr) :
    (e.mapFields h).fields = e.fields.map h := by
  cases e <;>
    simp [mapFields, fields, bindingFields, strangers_mapStrangers, List.map_flatMap,
      List.flatMap_map]

theorem isExpr_mapFields (h : Expr → Expr) (e : Expr) : (e.mapFields h).isExpr = e.isExpr := by
  cases e <;> rfl

/-! ## Fields are smaller -/

theorem sizeOf_of_mem_strangers {q : Query} {e : Expr} (h : e ∈ q.strangers) :
    sizeOf e < sizeOf q := by
  cases q with
  | other object =>
    obtain rfl := List.mem_singleton.mp h
    simp
  | select _ | union _ | draft _ => cases h

theorem sizeOf_of_mem_bindingFields {bindings : List (Name × Expr)} {e : Expr}
    (h : e ∈ bindingFields bindings) : sizeOf e < sizeOf bindings := by
  obtain ⟨⟨name, value⟩, hb, he⟩ := List.mem_flatMap.mp h
  have := List.sizeOf_lt_of_mem hb
  simp only [List.mem_cons, List.not_mem_nil, or_false] at he
  rcases he with rfl | rfl <;> simp at this <;> omega

theorem sizeOf_lt_of_mem_fields {e c : Expr} (h : c ∈ e.fields) : sizeOf c < sizeOf e := by
  -- one case for each form that a list of fields has
  cases e with
  | literal _ | image _ _ | foreign _ => cases h
  | star _ | truth _ | not _ | cast _ _ | aggregateText _ | sorted _ _ | jsonType _ _
  | excluded _ =>
    obtain rfl := List.mem_singleton.mp h
    simp +arith
  | column _ _ | isNull _ _ | jsonExtract _ _ _ | rowToJson _ _ | binary _ _ _
  | between _ _ _ _ | jsonContains _ _ _ | jsonEdge _ _ _ _ | «matches» _ _ _ =>
    simp only [fields, List.mem_cons, List.not_mem_nil, or_false] at h
    rcases h with rfl | h <;> simp <;> grind
  | logical _ _ _ | row _ _ | textSearch _ _ =>
    rcases List.mem_cons.mp h with rfl | h
    · simp +arith
    · have := List.sizeOf_lt_of_mem h
      simp
      omega
  | coalesce items | concat items | tuple items =>
    have := List.sizeOf_lt_of_mem (show c ∈ items from h)
    simp
    omega
  -- the operand, the items, and the flag behind them
  | inList _ _ _ =>
    simp only [fields, List.cons_append, List.mem_cons, List.mem_append, List.not_mem_nil,
      or_false] at h
    rcases h with rfl | h | rfl
    · simp +arith
    · have := List.sizeOf_lt_of_mem h
      simp
      omega
    · simp +arith
  | inQuery _ _ _ =>
    simp only [fields, List.cons_append, List.mem_cons, List.mem_append, List.not_mem_nil,
      or_false] at h
    rcases h with rfl | h | rfl
    · simp +arith
    · have := sizeOf_of_mem_strangers h
      simp
      omega
    · simp +arith
  | «exists» _ _ =>
    rcases List.mem_append.mp h with h | h
    · have := sizeOf_of_mem_strangers h
      simp
      omega
    · obtain rfl := List.mem_singleton.mp h
      simp +arith
  | scalar _ =>
    have := sizeOf_of_mem_strangers h
    simp
    omega
  | call _ _ _ | «over» _ _ _ =>
    rcases List.mem_append.mp h with h | h
    · have := List.sizeOf_lt_of_mem h
      simp
      omega
    · obtain rfl := List.mem_singleton.mp h
      simp +arith
  | window _ _ =>
    rcases List.mem_append.mp h with h | h <;> have := List.sizeOf_lt_of_mem h <;> simp <;> omega
  | raw _ _ _ _ =>
    simp only [fields, List.mem_cons] at h
    rcases h with rfl | rfl | rfl | h
    · simp +arith
    · simp +arith
    · simp +arith
    · have := sizeOf_of_mem_bindingFields h
      simp
      omega

/-- **Induction over a scope.** What holds of an expression if it holds of its fields holds of
all. -/
theorem scope_induction {P : Expr → Prop} (step : ∀ e : Expr, (∀ c ∈ e.fields, P c) → P e)
    (e : Expr) : P e :=
  step e fun c hc =>
    have := sizeOf_lt_of_mem_fields hc
    scope_induction step c
termination_by sizeOf e

/-! ## Nodes of a scope -/

/-- The nodes of a scope: an expression and those of its fields. -/
def scope (e : Expr) : List Expr := e :: e.fields.attach.flatMap fun c => c.1.scope
termination_by sizeOf e
decreasing_by exact sizeOf_lt_of_mem_fields c.2

theorem scope_eq (e : Expr) : e.scope = e :: e.fields.flatMap scope := by
  rw [scope, List.flatMap_def, List.attach_map_val (f := scope), ← List.flatMap_def]

/-- All nodes of a scope have a property if its root has it, and all nodes of its fields. -/
theorem forall_scope {p : Expr → Prop} {e : Expr} :
    (∀ n ∈ e.scope, p n) ↔ p e ∧ ∀ c ∈ e.fields, ∀ n ∈ c.scope, p n := by
  rw [scope_eq]
  simp only [List.forall_mem_cons, List.mem_flatMap, forall_exists_index, and_imp]
  exact and_congr_right fun _ => ⟨fun h c hc n hn => h n c hc hn, fun h n c hc hn => h c hc n hn⟩

end Expr

end SqlScribe
