import SqlScribe.Proofs.Rebuilding
import SqlScribe.Proofs.Rewriting

/-!
# Changed scopes

`mapped f` hands every node of a scope to `f`, from the leaves up. It is what `rebuild` gives if all
goes well (`yields_rebuild_mapped`), said without steps that may fail.
-/

namespace SqlScribe

namespace Expr

/-! ## Changed scopes -/

mutual

/-- An expression with every node of its scope changed by a function, from the leaves up. -/
def mapped (f : Expr → Expr) : Expr → Expr
  | .column table name => f (.column (mapped f table) (mapped f name))
  | .star table => f (.star (mapped f table))
  | .truth value => f (.truth (mapped f value))
  | .not operand => f (.not (mapped f operand))
  | .isNull operand negated => f (.isNull (mapped f operand) (mapped f negated))
  | .binary op left right => f (.binary op (mapped f left) (mapped f right))
  | .logical op first rest => f (.logical op (mapped f first) (mappedAll f rest))
  | .inList operand items negated =>
    f (.inList (mapped f operand) (mappedAll f items) (mapped f negated))
  | .inQuery operand query negated =>
    f (.inQuery (mapped f operand) (mappedQuery f query) (mapped f negated))
  | .between operand low high negated =>
    f (.between (mapped f operand) (mapped f low) (mapped f high) (mapped f negated))
  | .exists query negated => f (.exists (mappedQuery f query) (mapped f negated))
  | .scalar query => f (.scalar (mappedQuery f query))
  | .row first rest => f (.row (mapped f first) (mappedAll f rest))
  | .call name args distinct => f (.call name (mappedAll f args) (mapped f distinct))
  | .cast operand target => f (.cast (mapped f operand) target)
  | .coalesce parts => f (.coalesce (mappedAll f parts))
  | .concat parts => f (.concat (mappedAll f parts))
  | .aggregateText operand => f (.aggregateText (mapped f operand))
  | .sorted operand direction => f (.sorted (mapped f operand) direction)
  | .window partition order => f (.window (mappedAll f partition) (mappedAll f order))
  | .over name args spec => f (.over name (mappedAll f args) (mapped f spec))
  | .jsonExtract document path asText =>
    f (.jsonExtract (mapped f document) path (mapped f asText))
  | .jsonContains document value negated =>
    f (.jsonContains (mapped f document) (mapped f value) (mapped f negated))
  | .jsonEdge document value edge negated =>
    f (.jsonEdge (mapped f document) (mapped f value) edge (mapped f negated))
  | .jsonType document type => f (.jsonType (mapped f document) type)
  | .textSearch first rest => f (.textSearch (mapped f first) (mappedAll f rest))
  | .matches search query negated =>
    f (.matches (mapped f search) (mapped f query) (mapped f negated))
  | .rowToJson table pretty => f (.rowToJson (mapped f table) (mapped f pretty))
  | .excluded name => f (.excluded (mapped f name))
  | .raw sql aliasName template bindings =>
    f (.raw (mapped f sql) (mapped f aliasName) (mapped f template) (mappedBindings f bindings))
  | .tuple items => .tuple (mappedAll f items)
  | .literal value => f (.literal value)
  | .image side part => f (.image side part)
  | .foreign object => .foreign object

/-- What stands in the place of a query; a query is left alone. -/
def mappedQuery (f : Expr → Expr) : Query → Query
  | .select s => .select s
  | .union u => .union u
  | .draft s => .draft s
  | .other object => .other (mapped f object)

/-- Expressions, each with the nodes of its scope changed. -/
def mappedAll (f : Expr → Expr) : List Expr → List Expr
  | [] => []
  | e :: rest => mapped f e :: mappedAll f rest

/-- Named expressions with the nodes of their scopes changed. -/
def mappedBindings (f : Expr → Expr) : List (Name × Expr) → List (Name × Expr)
  | [] => []
  | b :: rest => mappedBinding f b :: mappedBindings f rest

/-- A named expression with the nodes of its scope changed. -/
def mappedBinding (f : Expr → Expr) : Name × Expr → Name × Expr
  | (name, e) => (mapped f name, mapped f e)

end

section

variable (f : Expr → Expr)

theorem mappedAll_eq_map (es : List Expr) : mappedAll f es = es.map (mapped f) := by
  induction es with
  | nil => rfl
  | cons e rest ih => rw [mappedAll, ih, List.map_cons]

theorem mappedQuery_eq (q : Query) : mappedQuery f q = q.mapStrangers (mapped f) := by
  cases q <;> rfl

theorem mappedBindings_eq_map (bs : List (Name × Expr)) :
    mappedBindings f bs = bs.map fun b => (mapped f b.1, mapped f b.2) := by
  induction bs with
  | nil => rfl
  | cons b rest ih =>
    obtain ⟨name, e⟩ := b
    rw [mappedBindings, ih, List.map_cons]
    rfl

/-- A node is changed after its fields. What is no expression is not handed on. -/
theorem mapped_eq (e : Expr) :
    e.mapped f = if e.isExpr then f (e.mapFields (mapped f)) else e.mapFields (mapped f) := by
  cases e <;> simp [mapped, mapFields, isExpr, mappedAll_eq_map, mappedQuery_eq,
    mappedBindings_eq_map]

theorem mapped_of_isExpr {e : Expr} (h : e.isExpr = true) :
    e.mapped f = f (e.mapFields (mapped f)) := by
  rw [mapped_eq, if_pos h]

end

/-- A property of all nodes of a changed scope: it holds if the function gives only such nodes from
nodes with such fields. -/
theorem forall_scope_mapped {f : Expr → Expr} {p : Expr → Prop}
    (hf : ∀ e : Expr, e.isExpr = true → (∀ c ∈ e.fields, ∀ n ∈ c.scope, p n) →
      ∀ n ∈ (f e).scope, p n)
    (hother : ∀ e : Expr, e.isExpr = false → p e) (e : Expr) : ∀ n ∈ (e.mapped f).scope, p n := by
  induction e using scope_induction with
  | step e ih =>
    have below : ∀ c ∈ (e.mapFields (mapped f)).fields, ∀ n ∈ c.scope, p n := by
      rw [fields_mapFields]
      exact List.forall_mem_map.mpr ih
    rw [mapped_eq]
    split
    next h => exact hf _ ((isExpr_mapFields _ _).trans h) below
    next h =>
      refine forall_scope.mpr ⟨hother _ ?_, below⟩
      rw [isExpr_mapFields]
      exact Bool.eq_false_iff.mpr h

end Expr

/-! ## Rebuilding -/

section

variable {f : Expr → Build Expr} {g : Expr → Expr}

/-- A node that is checked again is given back as it is. -/
theorem yields_rechecked (e : Expr) : Yields (· = e) e.rechecked := by
  cases e with
  | inList operand items negated => exact yields_makeInList operand items negated
  | _ => exact yields_ok rfl

/-- A rebuilt expression is the one with every node of its scope changed. -/
theorem yields_rebuild_mapped (hf : ∀ e, Yields (· = g e) (f e)) (e : Expr) :
    Yields (· = e.mapped g) (e.rebuild f) := by
  induction e using Expr.scope_induction with
  | step e ih =>
    have fields : Yields (· = e.fields.map (Expr.mapped g)) (e.fields.mapM (Expr.rebuild f)) :=
      yields_mapM ih
    cases he : e.isExpr with
    | true =>
      rw [Expr.rebuild_eq f he, Expr.mapped_of_isExpr g he]
      refine fields.bind fun fs hfs => ?_
      rw [hfs, Expr.withFields_map]
      exact (yields_built (yields_rechecked _)).bind fun node hnode => hnode ▸ hf _
    | false =>
      rw [Expr.rebuild_eq_of_not_isExpr f he, Expr.mapped_eq, he]
      exact fields.bind fun fs hfs => yields_ok (by rw [hfs, Expr.withFields_map]; rfl)

/-- What ought to be an expression, rebuilt by a function that leaves alone what is none. -/
theorem yields_mapNodesM_mapped (hf : ∀ e, Yields (· = g e) (f e))
    (hother : ∀ e : Expr, e.isExpr = false → g e = e) (e : Expr) :
    Yields (· = e.mapped g) (Expr.mapNodesM f e) := by
  unfold Expr.mapNodesM
  split
  · exact yields_rebuild_mapped hf e
  next hexpr =>
    -- a record is handed to the function as a whole, and nothing in it is rebuilt
    split
    · cases e with
      | foreign object => exact (hf _).mono fun _ h => h.trans (hother _ rfl)
      | tuple items => contradiction
      | _ => exact absurd rfl hexpr
    · exact yields_error

theorem yields_mapNodes_mapped (hother : ∀ e : Expr, e.isExpr = false → g e = e) (e : Expr) :
    Yields (· = e.mapped g) (Expr.mapNodes g e) :=
  yields_mapNodesM_mapped (fun _ => yields_ok rfl) hother e

end

end SqlScribe
