import SqlScribe.Proofs.Collect
import SqlScribe.Proofs.Throughout

/-!
# Statements of the right types

The constructors check what is known about a node itself, and not the types of its parts. Here are
the conditions under which the parts have the types that they are declared with: a name is a text or
left out, a switch is on or off, a nested query is one, and a list of rows has rows of one width.
Only where an expression is declared anything may stand, because that is what rendering has to
survive.

The conditions at a single node are properties of trees; `Statement.All` asks for them at all nodes.
-/

namespace SqlScribe

/-! ## Names and switches -/

namespace Expr

/-- Whether a name is a text. -/
def isText (n : Name) : Bool := n.asText?.isSome

/-- Whether a name is a text or left out. -/
def isName (n : Name) : Bool := n.isAbsent || n.isText

/-- Whether a switch is on or off. -/
def isSwitch : Flag → Bool
  | .switch _ => true
  | _ => false

/-- The number of items of a row. -/
def width? (e : Expr) : Option Nat := e.rowItems?.map List.length

/-- Whether an expression gives a window: by a specification, or by leaving it out. -/
def isFrame : Expr → Bool
  | .window .. | .tuple [] => true
  | .foreign object => !object.isTrue
  | _ => false

/-- Whether an expression is about JSON documents or full-text search. -/
def isSpecial : Expr → Bool
  | .jsonExtract .. | .jsonContains .. | .jsonEdge .. | .jsonType .. | .textSearch ..
  | .matches .. | .rowToJson .. => true
  | _ => false

/-- Whether an expression is a bound array. -/
def isArray : Expr → Bool
  | .literal (.array _) => true
  | _ => false

end Expr

/-- Whether a nested query is a select or a union. -/
def Query.isQuery : Query → Bool
  | .select _ | .union _ => true
  | _ => false

/-- Whether the names of a table are names. -/
structure Table.IsTyped (t : Table) : Prop where
  name : t.name.isText = true
  schema : t.schema.isName = true
  aliasName : t.aliasName.isName = true
  primaryKey : ∀ k ∈ t.primaryKey, k.isText = true

/-- Whether a source is a table or a query under an alias. -/
def Source.IsTyped : Source → Prop
  | .table t => t.IsTyped
  | .derived query aliasName => query.isQuery = true ∧ aliasName.isText = true
  | .other _ => False

/-- Whether a join is one. -/
def Join.IsTyped : Join → Prop
  | .join right _ _ => right.IsTyped
  | .other _ => False

/-- Whether a join is a full join. -/
def Join.isFull : Join → Bool
  | .join _ _ .full => true
  | _ => false

namespace Tree

/-- Whether the root of a tree is one that the constructors accept, with parts of the declared
types. Anything may stand where an expression is declared. -/
def IsTyped : Tree → Prop
  | .expr (.column table name) => table.isName = true ∧ name.isText = true
  | .expr (.star table) => table.isName = true
  | .expr (.truth value) => value.isSwitch = true
  | .expr (.isNull _ negated) | .expr (.between _ _ _ negated)
  | .expr (.jsonContains _ _ negated) | .expr (.jsonEdge _ _ _ negated)
  | .expr (.matches _ _ negated) => negated.isSwitch = true
  | .expr (.inList operand items negated) =>
    IsBuilt (.expr (.inList operand items negated)) ∧ negated.isSwitch = true
  | .expr (.inQuery _ query negated) | .expr (.exists query negated) =>
    query.isQuery = true ∧ negated.isSwitch = true
  | .expr (.scalar query) => query.isQuery = true
  | .expr (.call _ _ distinct) => distinct.isSwitch = true
  | .expr (.jsonExtract _ _ asText) => asText.isSwitch = true
  | .expr (.rowToJson table pretty) => table.isText = true ∧ pretty.isSwitch = true
  | .expr (.excluded column) => column.isText = true
  | .expr (.raw sql aliasName template bindings) =>
    sql.isText = true ∧ aliasName.isName = true ∧ template.isSwitch = true ∧
      ∀ b ∈ bindings, b.1.isText = true
  | .select s =>
    (∀ i ∈ s.items, i.aliasName.isName = true) ∧ (∀ o ∈ s.source, o.IsTyped) ∧
      (∀ j ∈ s.joins, j.IsTyped) ∧ s.distinct.isSwitch = true
  | _ => True

/-- Whether the root of a tree, if it is a function over a window, has a window. -/
def IsFramed : Tree → Prop
  | .expr (.over _ _ spec) => spec.isFrame = true
  | _ => True

/-- Whether the root of a tree is something that every dialect has: no JSON, no full-text search, no
array, no full join, and no part of the rows without an order. -/
def IsPortable : Tree → Prop
  | .expr e => e.isSpecial = false ∧ e.isArray = false
  | .select s =>
    (∀ j ∈ s.joins, j.isFull = false) ∧
      ((s.limit.isSome ∨ s.offset.isSome) → s.orderBy ≠ [])

/-- Whether the root of a tree is written alike by PostgreSQL and SQLite: no raw fragment, no cast,
no aggregate to a text, no membership of rows, no JSON, no full-text search, and no rows to skip
without a limit. -/
def IsShared : Tree → Prop
  | .expr (.raw ..) | .expr (.cast ..) | .expr (.aggregateText _) => False
  | .expr (.inList operand _ _) => operand.isRow = false
  | .expr e => e.isSpecial = false
  | .select s => s.offset.isSome → s.limit.isSome

end Tree

/-! ## Consequences -/

section

theorem Expr.foreign_of_isText {n : Name} (h : n.isText = true) :
    ∃ object s, n = .foreign object ∧ object.asText? = some s := by
  cases n with
  | foreign object =>
    obtain ⟨s, hs⟩ := Option.isSome_iff_exists.mp h
    exact ⟨object, s, rfl, hs⟩
  | _ => cases h

theorem Expr.foreign_of_isName {n : Name} (h : n.isName = true) :
    ∃ object, n = .foreign object := by
  rcases (Bool.or_eq_true _ _).mp h with h | h
  · cases n with
    | foreign object => exact ⟨object, rfl⟩
    | _ => cases h
  · obtain ⟨object, _, rfl, -⟩ := foreign_of_isText h
    exact ⟨object, rfl⟩

theorem Expr.eq_switch_of_isSwitch {f : Flag} (h : f.isSwitch = true) : ∃ on, f = .switch on := by
  unfold Expr.isSwitch at h
  split at h
  · exact ⟨_, rfl⟩
  · cases h

theorem Expr.foreign_of_isSwitch {f : Flag} (h : f.isSwitch = true) :
    ∃ object, f = .foreign object := by
  obtain ⟨on, rfl⟩ := eq_switch_of_isSwitch h
  exact ⟨_, rfl⟩

/-- A name that is true is a text. -/
theorem Expr.isText_of_isTrue {n : Name} (h : n.isName = true) (ht : n.isTrue = true) :
    n.isText = true := by
  rcases (Bool.or_eq_true _ _).mp h with h | h
  · cases n with
    | foreign object =>
      cases object with
      | null => cases ht
      | _ => cases h
    | _ => cases h
  · exact h

/-- The texts of names, where all are texts. -/
theorem Expr.mapM_asText?_of_isText {ns : List Name} (h : ∀ n ∈ ns, n.isText = true) :
    ∃ texts, ns.mapM Expr.asText? = some texts := by
  induction ns with
  | nil => exact ⟨[], rfl⟩
  | cons n rest ih =>
    obtain ⟨hn, hrest⟩ := List.forall_mem_cons.mp h
    obtain ⟨s, hs⟩ := Option.isSome_iff_exists.mp hn
    obtain ⟨texts, ht⟩ := ih hrest
    exact ⟨s :: texts, by simp [List.mapM_cons, hs, ht]⟩

/-- The name by which the columns of a table are qualified is a text. -/
theorem Table.IsTyped.qualifier {t : Table} (h : t.IsTyped) : t.qualifier.isText = true := by
  unfold Table.qualifier Expr.orElse
  split
  next ht => exact Expr.isText_of_isTrue h.aliasName ht
  · exact h.name

theorem nameOf_isText {n : Name} (h : n.isText = true) : ∃ f, nameOf n = .ok f := by
  obtain ⟨s, hs⟩ := Option.isSome_iff_exists.mp h
  exact ⟨_, by rw [nameOf, hs]⟩

/-- A list of rows is checked by the widths alone. -/
theorem Expr.makeInList_eq_ok_iff {operand : Expr} {items : List Expr} {negated : Flag} :
    makeInList operand items negated = .ok (.inList operand items negated) ↔
      ∀ i ∈ items, i.width? = operand.width? := by
  unfold makeInList
  -- behind a row there are rows as wide, and behind anything else no rows
  cases h : operand.rowItems? with
  | some left =>
    have hw : operand.width? = some left.length := by rw [width?, h]; rfl
    simp only [hw]
    split
    next hall =>
      refine iff_of_true rfl fun i hi => ?_
      exact beq_iff_eq.mp (List.all_eq_true.mp hall i hi)
    next hall =>
      refine iff_of_false (fun he => nomatch he) fun hw => hall ?_
      exact List.all_eq_true.mpr fun i hi => beq_iff_eq.mpr (hw i hi)
  | none =>
    have hw : operand.width? = none := by rw [width?, h]; rfl
    simp only [hw]
    have row : ∀ i : Expr, i.width? = none ↔ i.isRow = false := fun i => by
      rw [width?, isRow, Option.map_eq_none_iff, ← Option.isNone_iff_eq_none,
        Option.isSome_eq_false_iff]
    split
    next hany =>
      obtain ⟨i, hi, hr⟩ := List.any_eq_true.mp hany
      exact iff_of_false (fun he => nomatch he) fun hw => by simp [(row i).mp (hw i hi)] at hr
    next hany =>
      refine iff_of_true rfl fun i hi => (row i).mpr ?_
      exact Bool.eq_false_iff.mpr fun hr => hany (List.any_eq_true.mpr ⟨i, hi, hr⟩)

end

end SqlScribe
