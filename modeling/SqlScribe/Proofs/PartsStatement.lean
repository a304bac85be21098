import SqlScribe.Proofs.PartsWalk
import SqlScribe.Proofs.Statement

/-!
# Statements show their selects

Some expressions of a change are rewritten before they are written: references to incoming values,
and the columns of what is returned. So a node need not be written as it stands in the statement.
But no nested select is entered on the way, and each select of a statement is written as it stands,
in every dialect: its fragment is a part of the statement.
-/

namespace SqlScribe

/-- What is written for the selects in some trees. -/
def scopesOf (d : Dialect) (ts : List Tree) : List (Rendered Fragment) :=
  (ts.flatMap (Tree.scopes d)).map (Select.render d)

@[simp] theorem scopesOf_append (d : Dialect) (ts us : List Tree) :
    scopesOf d (ts ++ us) = scopesOf d ts ++ scopesOf d us := by
  simp [scopesOf]

theorem scopesOf_map {ι : Type} (d : Dialect) (t : ι → Tree) (is : List ι) :
    scopesOf d (is.map t) = is.flatMap fun i => scopesOf d [t i] := by
  simp [scopesOf, List.flatMap_map, List.map_flatMap]

section

variable {d : Dialect} {α β : Type} {hold : β → List Fragment} {known : List Fragment}
  {vs : List (Rendered Fragment)}

/-- A step of which nothing is shown, but whose result is known to have a property. -/
theorem shows_given {P : α → Prop} {x : Rendered α} {f : α → Rendered β} (hx : Yields P x)
    (hf : ∀ a, P a → Shows hold known vs (f a)) : Shows hold known vs (x >>= f) where
  known b hb := by
    obtain ⟨a, ha, hb⟩ := bind_eq_ok.mp hb
    exact (hf a (hx a ha)).known b hb
  outcomes b hb := by
    obtain ⟨a, ha, hb⟩ := bind_eq_ok.mp hb
    exact (hf a (hx a ha)).outcomes b hb

/-! ## Trees -/

theorem shows_scopes (t : Tree) : Shows sole [] (scopesOf d [t]) (t.render d) :=
  (walked d t).mono fun v hv => by
    rw [scopesOf, List.flatMap_singleton] at hv
    obtain ⟨q, hq, rfl⟩ := List.mem_map.mp hv
    exact Tree.mem_outcomes_of_mem_scopes hq

theorem Tree.Alike.scopesOf_eq {ts ts' : List Tree} (h : List.Forall₂ Tree.Alike ts ts') :
    scopesOf d ts' = scopesOf d ts := by
  rw [scopesOf, scopesOf, flatMap_scopes h]

/-- What is written for a rewritten expression shows the selects of the original. -/
theorem shows_rewritten {e e' : Expr} (h : Alike e e') :
    Shows sole [] (scopesOf d [.expr e]) (e'.render d) := by
  rw [← Tree.Alike.scopesOf_eq (.cons h.tree .nil)]
  exact shows_scopes (.expr e')

theorem mem_outcomes_of_mem_scopesOf {ts : List Tree} {v : Rendered Fragment}
    (h : v ∈ scopesOf d ts) : v ∈ ts.flatMap (Tree.outcomes d) := by
  obtain ⟨q, hq, rfl⟩ := List.mem_map.mp h
  obtain ⟨t, ht, hq⟩ := List.mem_flatMap.mp hq
  exact List.mem_flatMap.mpr ⟨t, ht, Tree.mem_outcomes_of_mem_scopes hq⟩

/-! ## Common clauses -/

theorem shows_itemList (items : List SelectItem) :
    Shows sole [] (scopesOf d (itemTrees items)) (itemList d items) :=
  ((shows_renderItems fun t _ => walked d t).mono fun _ => mem_outcomes_of_mem_scopesOf).last
    fun fs => shows_after fun _ => shows_ok (by grind)

theorem shows_conditionClause (filter : Option Expr) :
    Shows id [] (scopesOf d (filter.toList.map .expr)) (conditionClause d filter) :=
  ((shows_renderFilter "WHERE" fun e _ => walked d (.expr e)).mono fun _ =>
    mem_outcomes_of_mem_scopesOf).last fun fs => shows_after fun _ => shows_ok (by grind)

theorem shows_returningClause (items : List SelectItem) :
    Shows id [] (scopesOf d (itemTrees items)) (returningClause d items) := by
  unfold returningClause
  split
  next hi =>
    obtain rfl := List.isEmpty_iff.mp hi
    exact shows_nothing _
  · split
    · exact shows_error
    · exact (shows_itemList items).last fun f => shows_ok (by grind)

theorem shows_outputClause (side : RowImage) (items : List SelectItem) :
    Shows id [] (scopesOf .mssql (itemTrees items)) (outputClause side items) := by
  unfold outputClause
  split
  next hi =>
    obtain rfl := List.isEmpty_iff.mp hi
    exact shows_nothing _
  · refine shows_given (yields_rebuilt (yields_imageItems side items)) fun items' ha => ?_
    rw [← Tree.Alike.scopesOf_eq ha]
    exact (shows_itemList items').last fun f => shows_ok (by grind)

/-! ## Assignments -/

theorem shows_assignment (column : Name) {e e' : Expr} (h : Alike e e') :
    Shows sole [] (scopesOf d [.expr e]) (Assignment.render d ⟨column, e'⟩) :=
  shows_after fun c => (shows_rewritten h).last fun f => shows_ok (by grind)

theorem shows_assignments {assignments : List Assignment} {x : Assignment → Rendered Fragment}
    (h : ∀ a ∈ assignments, Shows sole [] (scopesOf d [.expr a.value]) (x a)) :
    Shows sole [] (scopesOf d (valueTrees assignments))
      ((allOk (assignments.map x)).map (Fragment.join ", ")) := by
  rw [valueTrees, scopesOf_map]
  exact (shows_each h).map (by grind)

theorem shows_assignmentList (assignments : List Assignment) :
    Shows sole [] (scopesOf d (valueTrees assignments)) (assignmentList d assignments) :=
  shows_assignments fun a _ => shows_assignment a.column (.refl a.value)

theorem shows_mappedList {g : Expr → Expr} (hg : ∀ e, Alike e (g e))
    (assignments : List Assignment) :
    Shows sole [] (scopesOf d (valueTrees assignments)) (mappedList d g assignments) :=
  shows_assignments fun a _ =>
    shows_given (yields_rebuilt (yields_mapNodes hg a.value)) fun _ he =>
      shows_assignment a.column he

/-! ## Rows of an insert -/

theorem shows_valuesOf (rows : List (List Expr)) :
    Shows sole [] (scopesOf d (rows.flatten.map .expr)) (valuesOf d rows) := by
  have each : ∀ row : List Expr, Shows sole [] (scopesOf d (row.map .expr))
      ((textsOf row (renderEach d row)).map Fragment.tuple) := fun row =>
    ((shows_texts fun e _ => walked d (.expr e)).mono fun _ =>
      mem_outcomes_of_mem_scopesOf).map (by grind)
  have same : scopesOf d (rows.flatten.map .expr) =
      rows.flatMap fun row => scopesOf d (row.map .expr) := by
    induction rows with
    | nil => rfl
    | cons row rest ih =>
      rw [List.flatten_cons, List.map_append, scopesOf_append, ih, List.flatMap_cons]
  rw [same]
  exact (shows_each fun row _ => each row).last fun fs => shows_ok (by grind)

theorem shows_renderQuery (source : InsertSource) :
    Shows sole [] (scopesOf d source.trees) (source.renderQuery d) := by
  cases source with
  | rows lists => exact shows_valuesOf lists
  | query s => exact shows_scopes (.select s)
  | draft s => exact shows_nothing _

theorem shows_rowSource (i : Insert) :
    Shows sole [] (scopesOf d i.source.trees) (i.rowSource d) := by
  refine (shows_renderQuery i.source).last fun f => ?_
  split
  · exact shows_ok (by grind)
  · exact shows_ok (by grind)

/-! ## Upserts -/

theorem shows_filterClause (filter : Option Expr) :
    Shows id [] (scopesOf d (filter.toList.map .expr)) (Conflict.filterClause d filter) := by
  cases filter with
  | none => exact shows_nothing _
  | some e =>
    refine shows_given (yields_rebuilt (yields_mapNodes (alike_replaceExcluded d) e))
      fun e' he => ?_
    have same : scopesOf d ((some e).toList.map .expr) = scopesOf d ((some e').toList.map .expr) :=
      (Tree.Alike.scopesOf_eq (.cons he.tree .nil)).symm
    rw [same]
    exact shows_conditionClause (some e')

/-- The selects of an upsert are those of its assignments and of its condition. -/
theorem shows_onConflict (c : Conflict) :
    Shows sole [] (scopesOf d (Conflict.assignedTrees c.action) ++
      scopesOf d (Conflict.filterTrees c.action)) (c.onConflict d) := by
  obtain ⟨target, action⟩ := c
  cases action with
  | nothing => exact shows_nothing _
  | update assignments filter =>
    have rest : ∀ ts : List Fragment, Shows sole []
        (scopesOf d (valueTrees assignments) ++ scopesOf d (filter.toList.map .expr))
        (mappedList d (replaceExcluded (incoming d)) assignments >>= fun list =>
          Conflict.filterClause d filter >>= fun filter => .ok (Fragment.join " "
            (Fragment.ofText "ON CONFLICT" :: ts ++ ("DO UPDATE SET " ++ list) :: filter))) :=
      fun ts => (shows_mappedList (alike_replaceExcluded d) assignments).bind fun list =>
        (shows_filterClause filter).last fun fs => shows_ok (by grind)
    unfold Conflict.onConflict
    dsimp only
    split
    · exact rest []
    · exact shows_after fun t => rest [t.parens]

theorem shows_onDuplicateKey (columns : List Name) (c : Conflict) :
    Shows sole [] (scopesOf .mysql (Conflict.assignedTrees c.action) ++
      scopesOf .mysql (Conflict.filterTrees c.action)) (c.onDuplicateKey columns) := by
  obtain ⟨target, action⟩ := c
  cases action with
  | nothing => exact shows_nothing _
  | update assignments filter =>
    unfold Conflict.onDuplicateKey
    cases filter with
    | some e => exact shows_error
    | none =>
      exact (shows_mappedList (alike_replaceExcluded .mysql) assignments).bind fun f =>
        shows_ok (by grind)

theorem shows_conflictClause (hd : d ≠ .mssql) (columns : List Name) (clause : ConflictClause) :
    Shows sole [] (scopesOf d (valueTrees clause.assignments) ++
      scopesOf d (clause.filter?.toList.map .expr)) (clause.render d columns) := by
  cases clause with
  | other object => exact shows_error
  | conflict c =>
    rw [Conflict.assignedTrees_eq, Conflict.filterTrees_eq]
    cases d with
    | mysql => exact shows_onDuplicateKey columns c
    | sqlite | postgres => exact shows_onConflict c
    | mssql => exact absurd rfl hd

/-! ## Merging -/

theorem shows_matchedClause (target : Name) (action : ConflictAction) :
    Shows id [] (scopesOf .mssql (Conflict.filterTrees action) ++
      scopesOf .mssql (Conflict.assignedTrees action)) (matchedClause target action) := by
  cases action with
  | nothing => exact shows_nothing _
  | update assignments filter =>
    -- the assignments behind a condition that is already written
    have rest : ∀ known cs : List Fragment, (∀ g ∈ known, Fragment.Within g cs) →
        Shows id known (scopesOf .mssql (valueTrees assignments))
          (mappedList .mssql (mergeScope target) assignments >>= fun list =>
            .ok ["WHEN MATCHED" ++ Fragment.join "" cs, "THEN UPDATE SET " ++ list]) :=
      fun known cs h => (shows_mappedList (alike_mergeScope target) assignments).last fun list =>
        shows_ok (by grind)
    unfold matchedClause
    cases filter with
    | none => exact rest [] [] nofun
    | some e =>
      refine shows_given (yields_rebuilt (yields_mapNodes (alike_mergeScope target) e))
        fun e' he => ?_
      have condition : Shows sole [] (scopesOf .mssql [.expr e])
          (conditionOf .mssql e' (e'.render .mssql)) := by
        rw [← Tree.Alike.scopesOf_eq (.cons he.tree .nil)]
        refine ((shows_conditionOf .mssql e').trans fun v hv => ?_).mono fun _ =>
          mem_outcomes_of_mem_scopesOf
        rw [List.flatMap_singleton] at hv
        exact covers_of_mem (List.mem_singleton_self _)
          (shows_predicate (walked .mssql (.expr e'))) v hv
      exact condition.bind fun f => shows_after fun _ =>
        rest (sole f ++ []) [" AND " ++ f] (by grind)

/-- An upsert of SQL Server shows its rows, its condition, its assignments and what it returns. -/
theorem shows_merge (i : Insert) (c : Conflict) :
    Shows sole [] (scopesOf .mssql i.source.trees ++
      (scopesOf .mssql (Conflict.filterTrees c.action) ++
        scopesOf .mssql (Conflict.assignedTrees c.action)) ++
      scopesOf .mssql (itemTrees i.returning)) (i.merge c) := by
  rw [List.append_assoc]
  refine shows_after fun _ => shows_after fun target => shows_after fun targetName =>
    shows_after fun sourceName => shows_after fun columns =>
    (shows_renderQuery i.source).bind fun rows => shows_after fun pairs =>
    shows_after fun table => (shows_matchedClause target c.action).bind fun matched =>
    shows_after fun incoming => (shows_outputClause .inserted i.returning).last fun output =>
    shows_ok ?_
  have source : rows.PartOf ("USING " ++ rows.parens ++ " AS " ++ sourceName ++ " " ++
      columns.parens) :=
    .left _ (.left _ (.left _ (.left _ (.right _ (Fragment.partOf_parens .self)))))
  grind

/-! ## Statements -/

/-- An insert of a dialect that has conflict clauses. -/
theorem shows_insertWith (hd : d ≠ .mssql) (i : Insert) :
    Shows sole [] (scopesOf d (i.source.trees ++ valueTrees i.assignments ++
        i.condition.map .expr ++ itemTrees i.returning)) (i.render d) := by
  rw [Insert.render_of_ne hd]
  have conflicts : Shows id [] (scopesOf d (valueTrees i.assignments ++ i.condition.map .expr))
      (allOk (i.conflict.toList.map fun c => c.render d i.columns)) := by
    cases hc : i.conflict with
    | none =>
      rw [Insert.assignments, Insert.condition, hc]
      exact shows_nothing _
    | some c =>
      rw [i.assignments_of_conflict hc, i.condition_of_conflict hc, scopesOf_append]
      exact (shows_conflictClause hd i.columns c).last fun f => shows_ok (by grind)
  rw [List.append_assoc, List.append_assoc, scopesOf_append, ← List.append_assoc, scopesOf_append]
  exact shows_after fun head => (shows_rowSource i).bind fun rows => conflicts.bind fun conflict =>
    (shows_returningClause i.returning).last fun returning => shows_ok (by grind)

theorem shows_insert (i : Insert) : Shows sole [] (scopesOf d (i.trees d)) (i.render d) := by
  cases d with
  | mssql =>
    cases hc : i.conflict with
    | none =>
      rw [Insert.trees_of_none hc, scopesOf_append, Insert.render_of_none hc]
      exact shows_after fun head => (shows_outputClause .inserted i.returning).bind fun output =>
        (shows_rowSource i).last fun rows => shows_ok (by grind)
    | some clause =>
      cases clause with
      | other object =>
        rw [Insert.render_of_other hc]
        exact shows_error
      | conflict c =>
        rw [Insert.trees_of_conflict hc, List.append_assoc i.source.trees,
          Insert.render_of_conflict hc]
        simp only [scopesOf_append]
        exact shows_merge i c
  | sqlite | mysql | postgres => exact shows_insertWith (by simp) i

theorem shows_tailClauses (side : RowImage) (filter : Option Expr) (returning : List SelectItem) :
    Shows id [] (scopesOf d (tailTrees d filter returning))
      (tailClauses d side filter returning) := by
  cases d with
  | mssql =>
    rw [tailTrees, scopesOf_append]
    exact (shows_outputClause side returning).bind fun output =>
      (shows_conditionClause filter).last fun fs => shows_ok (by grind)
  | sqlite | mysql | postgres =>
    show Shows id [] (scopesOf _ (filter.toList.map .expr ++ itemTrees returning)) _
    rw [scopesOf_append]
    exact (shows_conditionClause filter).bind fun fs =>
      (shows_returningClause returning).last fun returned => shows_ok (by grind)

/-- **Whatever is written for a statement shows the selects of its trees**, at any nesting: each of
them can be written by itself, and what is written for it is a part of the statement. -/
theorem shows_statement (s : Statement) : Shows sole [] (scopesOf d (s.trees d)) (s.render d) := by
  cases s with
  | select s => exact shows_scopes (.select s)
  | union u =>
    exact (shows_selects (q := .union u) fun s _ => walked d (.select s)).mono fun _ =>
      mem_outcomes_of_mem_scopesOf
  | insert i => exact shows_insert i
  | update u =>
    rw [Statement.trees, scopesOf_append]
    exact shows_after fun target => (shows_assignmentList u.assignments).bind fun list =>
      (shows_tailClauses .inserted u.filter u.returning).last fun tail => shows_ok (by grind)
  | delete x =>
    exact shows_after fun target =>
      (shows_tailClauses .deleted x.filter x.returning).last fun tail => shows_ok (by grind)

end

end SqlScribe
