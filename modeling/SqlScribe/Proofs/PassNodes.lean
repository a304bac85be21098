import SqlScribe.Proofs.Outcome
import SqlScribe.Proofs.Pass
import SqlScribe.Proofs.Throughout

/-!
# Trees of statements that are passed over

A statement is passed over tree by tree: in the order of its clauses, each tree of the statement
comes to its own tree, passed over in a place with some role (`Statement.passed_trees`). So what is
known of a tree and the tree after a pass is known of statements.
-/

namespace SqlScribe

/-- Whether a tree is another one after a pass, in a place with some role. -/
inductive Passed (P : Pass) : Tree → Tree → Prop where
  | expr (role : Role) (e : Expr) : Passed P (.expr e) (.expr (e.pass P role))
  | select (s : Select) : Passed P (.select s) (.select (s.pass P))

section

open List (Forall₂)

variable (P : Pass)

theorem passed_exprs (role : Role) (es : List Expr) :
    Forall₂ (Passed P) (es.map .expr) ((es.map fun e => e.pass P role).map .expr) := by
  rw [List.map_map]
  exact forall₂_map_same fun e _ => .expr role e

theorem passed_filter (filter : Option Expr) :
    Forall₂ (Passed P) (filter.toList.map .expr) ((passFilter P filter).toList.map .expr) := by
  cases filter with
  | none => exact .nil
  | some e => exact .cons (.expr .condition e) .nil

theorem passed_values (assignments : List Assignment) :
    Forall₂ (Passed P) (valueTrees assignments)
      (valueTrees (assignments.map (Assignment.pass P))) := by
  unfold valueTrees
  rw [List.map_map]
  exact forall₂_map_same fun a _ => .expr .value a.value

theorem passed_items (items : List SelectItem) :
    Forall₂ (Passed P) (itemTrees items) (itemTrees (passItems P items)) := by
  unfold itemTrees
  rw [passItems_eq_map, List.map_map]
  refine forall₂_map_same fun i _ => ?_
  rw [Function.comp_apply, SelectItem.pass_eq]
  exact .expr .value i.expr

theorem passed_selects (ss : List Select) :
    Forall₂ (Passed P) (ss.map .select) ((ss.map fun s => s.pass P).map .select) := by
  rw [List.map_map]
  exact forall₂_map_same fun s _ => .select s

theorem InsertSource.passed_trees (source : InsertSource) :
    Forall₂ (Passed P) source.trees (source.pass P).trees := by
  cases source with
  | rows lists =>
    have values : (lists.map (passAll P .value)).flatten =
        lists.flatten.map fun e => e.pass P .value := by
      rw [List.map_flatten]
      exact congrArg List.flatten (List.map_congr_left fun row _ => passAll_eq_map P .value row)
    show Forall₂ (Passed P) (lists.flatten.map .expr)
      ((lists.map (passAll P .value)).flatten.map .expr)
    rw [values]
    exact passed_exprs P .value _
  | query s => exact .cons (.select s) .nil
  | draft s => exact .nil

theorem ConflictClause.assignments_pass (c : ConflictClause) :
    (c.pass P).assignments = c.assignments.map (Assignment.pass P) := by
  rcases c with ⟨_, _ | _⟩ | _ <;> rfl

theorem ConflictClause.filter?_pass (c : ConflictClause) :
    (c.pass P).filter? = passFilter P c.filter? := by
  rcases c with ⟨_, _ | _⟩ | _ <;> rfl

/-- **A statement is passed over tree by tree.** -/
theorem Statement.passed_trees (s : Statement) :
    Forall₂ (Passed P) (s.clauses ++ s.extras) ((s.pass P).clauses ++ (s.pass P).extras) := by
  cases s with
  | select s => exact .cons (.select s) .nil
  | union u =>
    refine List.rel_append ?_ .nil
    show Forall₂ (Passed P) (u.members.map .select) ((u.pass P).members.map .select)
    rw [Union.members_pass]
    exact passed_selects P u.members
  | insert i =>
    obtain ⟨target, columns, source, conflict, returning⟩ := i
    -- the rows, the assignments of a conflict, its condition, and what is returned
    refine List.rel_append (List.rel_append (source.passed_trees P) ?_)
      (List.rel_append ?_ (passed_items P returning))
    · cases conflict with
      | none => exact .nil
      | some c =>
        simp only [Insert.pass, Option.map_some, Option.toList_some, List.flatMap_singleton,
          c.assignments_pass]
        exact passed_values P c.assignments
    · cases conflict with
      | none => exact .nil
      | some c =>
        simp only [Insert.pass, Option.map_some, Option.toList_some, List.flatMap_singleton,
          c.filter?_pass]
        exact passed_filter P c.filter?
  | update u =>
    exact List.rel_append (List.rel_append (passed_values P u.assignments)
      (passed_filter P u.filter)) (passed_items P u.returning)
  | delete x => exact List.rel_append (passed_filter P x.filter) (passed_items P x.returning)

end

end SqlScribe
