import SqlScribe.Proofs.PassRebuilding
import SqlScribe.Proofs.PassWalk

/-!
# Statements that are passed over are written alike

A statement is written from its clauses, and these from expressions, items and sources, which are
written alike before a pass and after it (`Pass.Writes`). Before it writes some clauses, a change
rewrites references node by node; there the pass has to commute with the rewriting
(`Pass.Rewrites`), so that the clause is written from an expression that is passed over. Then the
whole statement is written alike (`Statement.same_render`).
-/

namespace SqlScribe

open Fragment (mapValues)

theorem rebuilt_map {α β : Type} (k : α → β) (x : Build α) :
    rebuilt (x.map k) = (rebuilt x).map k := by
  cases x <;> rfl

/-! ## The target -/

section

variable {P : Pass}

/-- The target of a change is a table, which no pass touches. -/
theorem targetOf_pass (o : Source) : targetOf (o.pass P) = targetOf o := by
  cases o <;> rfl

theorem qualifier_pass (o : Source) : (o.pass P).qualifier = o.qualifier := by
  cases o <;> rfl

/-- Rows that are given as lists stay so. -/
theorem isRows_pass (source : InsertSource) : (source.pass P).isRows = source.isRows := by
  cases source <;> rfl

/-- The head of an insert stays as it is. -/
theorem head_pass (i : Insert) : (i.pass P).head = i.head := by
  unfold Insert.head
  rw [Insert.pass, targetOf_pass]

end

/-! ## Clauses without rewriting -/

section

variable {P : Pass} [P.KeepsLooks] {g : Value → Value} {d : Dialect} (h : P.Writes g d)

include h

/-- A value is written as before. -/
theorem same_value (e : Expr) : SameUpTo g ((e.pass P .value).render d) (e.render d) :=
  h.value_inner (inner_expr h e)

/-- Items are written as before, and the same ones lack an alias. -/
theorem same_itemList (items : List SelectItem) :
    SameUpTo g (itemList d (passItems P items)) (itemList d items) := by
  unfold itemList
  rw [passItems_eq_map, unnamed_pass, requireTexts_pass, ← passItems_eq_map]
  exact (agree_allOk (same_items h items)).bind fun fs fs' hfs => agree_after fun _ =>
    agree_ok (by rw [Fragment.mapValues_join, Fragment.mapValues_join, hfs])

/-- A condition is written as before. -/
theorem same_conditionClause (filter : Option Expr) :
    EachUpTo g (conditionClause d (passFilter P filter)) (conditionClause d filter) := by
  have checked : requireTexts (passFilter P filter).toList = requireTexts filter.toList := by
    rw [passFilter_eq_map, Option.toList_map, requireTexts_pass]
  unfold conditionClause
  rw [checked]
  exact (h.filter "WHERE" (inner_condition h filter)).bind fun c c' hc => agree_after fun _ =>
    agree_ok hc

/-- What is returned is written as before. -/
theorem same_returningClause (items : List SelectItem) :
    EachUpTo g (returningClause d (passItems P items)) (returningClause d items) := by
  unfold returningClause
  rw [show (passItems P items).isEmpty = items.isEmpty by rw [passItems_eq_map, List.isEmpty_map]]
  split
  · exact .refl _
  · split
    · exact .refl _
    · exact (same_itemList h items).bind fun f f' hf => agree_ok (by simp [hf])

/-- An assignment is written as before. -/
theorem same_assignment (a : Assignment) : SameUpTo g ((a.pass P).render d) (a.render d) :=
  agree_after fun _ => (same_value h a.value).bind fun f f' hf => agree_ok (by simp [hf])

theorem same_assignmentList (assignments : List Assignment) :
    SameUpTo g (assignmentList d (assignments.map (Assignment.pass P)))
      (assignmentList d assignments) := by
  unfold assignmentList
  rw [List.map_map]
  exact agree_joined ", " (forall₂_map_same fun a _ => same_assignment h a)

/-! ### Rows of an insert -/

/-- Rows are written as before, row by row. -/
theorem same_valuesOf (lists : List (List Expr)) :
    SameUpTo g (valuesOf d (lists.map (passAll P .value))) (valuesOf d lists) := by
  have row (es : List Expr) : SameUpTo g
      ((textsOf (passAll P .value es) (renderEach d (passAll P .value es))).map Fragment.tuple)
      ((textsOf es (renderEach d es)).map Fragment.tuple) := by
    rw [passAll_eq_map]
    exact (h.texts (inner_all h es)).map fun fs fs' hfs => by
      rw [Fragment.mapValues_tuple, Fragment.mapValues_tuple, hfs]
  unfold valuesOf
  rw [List.map_map]
  exact (agree_allOk (forall₂_map_same fun es _ => row es)).bind fun fs fs' hfs =>
    agree_ok (by simp [hfs])

/-- What is written of a select that was never finished does not matter, but whether it can be. -/
theorem same_renderDraft (s : Select) :
    SameUpTo g ((s.inner P).renderDraft d) (s.renderDraft d) := by
  obtain ⟨items, source, joins, filter, groupBy, having, orderBy, limit, offset, distinct⟩ := s
  have checked : requireTexts (unnamed (passItems P items)) = requireTexts (unnamed items) := by
    rw [passItems_eq_map, unnamed_pass, requireTexts_pass]
  rw [Select.inner]
  exact agree_step (agree_allOk (same_items h items)).discard_eq fun _ =>
    agree_step checked fun _ =>
    agree_step (same_origin h source).discard_eq fun _ =>
    agree_step (agree_allOk (same_joins h joins)).discard_eq fun _ => .refl _

/-- The rows of an insert are written as before, or refused as before. -/
theorem same_renderQuery (source : InsertSource) :
    SameUpTo g ((source.pass P).renderQuery d) (source.renderQuery d) := by
  cases source with
  | rows lists => exact same_valuesOf h lists
  | query s => exact (h.select _).trans (inner_select h s)
  | draft s => exact same_renderDraft h s

/-- They are wrapped where they were wrapped before. -/
theorem same_rowSource (i : Insert) : SameUpTo g ((i.pass P).rowSource d) (i.rowSource d) := by
  unfold Insert.rowSource
  refine (same_renderQuery h i.source).bind fun f f' hf => ?_
  rw [Insert.pass, isRows_pass, Option.isSome_map]
  -- SQLite wraps a query that stands before a conflict clause
  split
  · exact agree_ok (by simp [hf])
  · exact agree_ok hf

end

/-! ## Rewritten clauses -/

section

variable {P : Pass} [P.KeepsLooks] {g : Value → Value} {d : Dialect}

omit [P.KeepsLooks] in
/-- Steps after a rewriting that is made before a pass or after it. -/
theorem same_rewritten {role : Role} {k : Expr → Expr} {β : Type} {φ : β → β} {e : Expr}
    {f f' : Expr → Rendered β}
    (hk : Expr.mapNodes k (e.pass P role) = (Expr.mapNodes k e).map (Expr.pass P role))
    (hf : ∀ e, Agree φ (f (e.pass P role)) (f' e)) :
    Agree φ (rebuilt (Expr.mapNodes k (e.pass P role)) >>= f)
      (rebuilt (Expr.mapNodes k e) >>= f') := by
  rw [hk, rebuilt_map]
  exact agree_view hf

/-- Assignments are rewritten to what a pass makes of the rewritten ones. -/
theorem same_mappedList (h : P.Writes g d) {k : Expr → Expr}
    (hk : ∀ role e, Expr.mapNodes k (e.pass P role) = (Expr.mapNodes k e).map (Expr.pass P role))
    (assignments : List Assignment) :
    SameUpTo g (mappedList d k (assignments.map (Assignment.pass P)))
      (mappedList d k assignments) := by
  unfold mappedList
  rw [List.map_map]
  exact agree_joined ", " (forall₂_map_same fun a _ =>
    same_rewritten (hk .value a.value) fun e => same_assignment h ⟨a.column, e⟩)

variable (hr : P.Rewrites)

include hr

/-- The columns of a returned row are rewritten before the pass or after it. -/
theorem same_outputClause (h : P.Writes g .mssql) (side : RowImage) (items : List SelectItem) :
    EachUpTo g (outputClause side (passItems P items)) (outputClause side items) := by
  have image := imageItems_pass (P := P) (fun e => hr.image side .value e) items
  unfold outputClause
  rw [passItems_eq_map, List.isEmpty_map, image, rebuilt_map]
  split
  · exact .refl _
  · refine agree_view fun items => ?_
    rw [← passItems_eq_map]
    exact (same_itemList h items).bind fun f f' hf => agree_ok (by simp [hf])

section

variable (h : P.Writes g d)

include h

/-! ### Conflict clauses -/

/-- The condition of an upsert is rewritten before the pass or after it. -/
theorem same_filterClause (filter : Option Expr) :
    EachUpTo g (Conflict.filterClause d (passFilter P filter))
      (Conflict.filterClause d filter) := by
  cases filter with
  | none => exact .refl _
  | some e =>
    exact same_rewritten (hr.excluded d .condition e) fun e => same_conditionClause h (some e)

/-- The conflict clause of SQLite and PostgreSQL is written as before. -/
theorem same_onConflict (c : Conflict) :
    SameUpTo g ((c.pass P).onConflict d) (c.onConflict d) := by
  obtain ⟨target, action⟩ := c
  cases action with
  | nothing => exact .refl _
  | update assignments filter =>
    -- what follows the target, whether there is one or not
    have rest (ts : List Fragment) : SameUpTo g
        (mappedList d (replaceExcluded (incoming d)) (assignments.map (Assignment.pass P)) >>=
          fun list => Conflict.filterClause d (passFilter P filter) >>= fun filter =>
            .ok (Fragment.join " "
              (Fragment.ofText "ON CONFLICT" :: ts ++ ("DO UPDATE SET " ++ list) :: filter)))
        (mappedList d (replaceExcluded (incoming d)) assignments >>=
          fun list => Conflict.filterClause d filter >>= fun filter =>
            .ok (Fragment.join " "
              (Fragment.ofText "ON CONFLICT" :: ts ++ ("DO UPDATE SET " ++ list) :: filter))) :=
      (same_mappedList h (hr.excluded d) assignments).bind fun l l' hl =>
        (same_filterClause hr h filter).bind fun fs fs' hfs => agree_ok (by simp [hl, hfs])
    unfold Conflict.onConflict Conflict.pass ConflictAction.pass
    dsimp only
    split
    · exact rest []
    · exact agree_after fun t => rest [t.parens]

omit h in
/-- The clause of MySQL is written as before. -/
theorem same_onDuplicateKey (h : P.Writes g .mysql) (columns : List Name) (c : Conflict) :
    SameUpTo g ((c.pass P).onDuplicateKey columns) (c.onDuplicateKey columns) := by
  obtain ⟨target, action⟩ := c
  cases action with
  | nothing => exact .refl _
  | update assignments filter =>
    unfold Conflict.onDuplicateKey Conflict.pass ConflictAction.pass
    dsimp only
    rw [passFilter_eq_map, Option.isSome_map]
    split
    · exact .refl _
    · exact (same_mappedList h (hr.excluded .mysql) assignments).bind fun f f' hf =>
        agree_ok (by simp [hf])

theorem same_conflictClause (columns : List Name) (c : ConflictClause) :
    SameUpTo g ((c.pass P).render d columns) (c.render d columns) := by
  cases c with
  | conflict c =>
    cases d with
    | mysql => exact same_onDuplicateKey hr h columns c
    | sqlite | postgres | mssql => exact same_onConflict hr h c
  | other object => exact .refl _

end

/-! ### Merging -/

/-- The condition of a merge stands behind `AND`, and is rewritten before it is written as a
condition. -/
theorem same_matchedClause (h : P.Writes g .mssql) (target : Name) (action : ConflictAction) :
    EachUpTo g (matchedClause target (action.pass P)) (matchedClause target action) := by
  cases action with
  | nothing => exact .refl _
  | update assignments filter =>
    have rest (cs cs' : List Fragment) (hcs : cs.map (mapValues g) = cs'.map (mapValues g)) :
        EachUpTo g
          (mappedList .mssql (mergeScope target) (assignments.map (Assignment.pass P)) >>=
            fun list => .ok ["WHEN MATCHED" ++ Fragment.join "" cs, "THEN UPDATE SET " ++ list])
          (mappedList .mssql (mergeScope target) assignments >>=
            fun list => .ok ["WHEN MATCHED" ++ Fragment.join "" cs', "THEN UPDATE SET " ++ list]) :=
      (same_mappedList h (hr.merge target) assignments).bind fun l l' hl =>
        agree_ok (by simp [hl, hcs])
    unfold matchedClause ConflictAction.pass
    cases filter with
    | none => exact rest [] [] rfl
    | some e =>
      exact same_rewritten (hr.merge target .condition e) fun e =>
        (h.underConnective (inner_expr h e)).bind fun f f' hf =>
        agree_step (requireTexts_pass P .condition [e]) fun _ => rest _ _ (by simp [hf])

/-- A merge is written as before. -/
theorem same_merge (h : P.Writes g .mssql) (i : Insert) (c : Conflict) :
    SameUpTo g ((i.pass P).merge (c.pass P)) (i.merge c) := by
  unfold Insert.merge
  exact agree_step rfl fun _ => agree_step (qualifier_pass i.target) fun target =>
    agree_after fun _ => agree_after fun _ => agree_after fun _ =>
    (same_renderQuery h i.source).bind fun rows rows' hrows => agree_after fun _ =>
    agree_step (targetOf_pass i.target) fun _ =>
    (same_matchedClause hr h target c.action).bind fun matched matched' hmatched =>
    agree_after fun _ =>
    (same_outputClause hr h .inserted i.returning).bind fun output output' houtput =>
      agree_ok (by simp [hrows, hmatched, houtput])

/-! ## Statements -/

section

variable (h : P.Writes g d)

include h

/-- An insert of a dialect that has conflict clauses. -/
theorem same_insertWith (hd : d ≠ .mssql) (i : Insert) :
    SameUpTo g ((i.pass P).render d) (i.render d) := by
  have conflicts : EachUpTo g
      (allOk ((i.pass P).conflict.toList.map fun c => c.render d (i.pass P).columns))
      (allOk (i.conflict.toList.map fun c => c.render d i.columns)) := by
    rw [Insert.pass, Option.toList_map, List.map_map]
    exact agree_allOk (forall₂_map_same fun c _ => same_conflictClause hr h i.columns c)
  rw [Insert.render_of_ne hd, Insert.render_of_ne hd]
  exact agree_step (head_pass i) fun head => (same_rowSource h i).bind fun rows rows' hrows =>
    conflicts.bind fun cs cs' hcs => (same_returningClause h i.returning).bind fun rs rs' hrs =>
      agree_ok (by simp [hrows, hcs, hrs])

/-- An insert is written as before, in the form of its dialect. -/
theorem same_insert (i : Insert) : SameUpTo g ((i.pass P).render d) (i.render d) := by
  obtain ⟨target, columns, source, conflict, returning⟩ := i
  cases d with
  | mssql =>
    cases conflict with
    | none =>
      exact agree_step (head_pass _) fun head =>
        (same_outputClause hr h .inserted returning).bind fun output output' houtput =>
        (same_rowSource h _).bind fun rows rows' hrows => agree_ok (by simp [houtput, hrows])
    -- a merge is laid out by itself
    | some clause =>
      cases clause with
      | conflict c => exact same_merge hr h _ c
      | other object => exact .refl _
  | sqlite | postgres | mysql => exact same_insertWith hr h (by simp) _

/-- The end of a change is written as before. -/
theorem same_tailClauses (side : RowImage) (filter : Option Expr) (returning : List SelectItem) :
    EachUpTo g (tailClauses d side (passFilter P filter) (passItems P returning))
      (tailClauses d side filter returning) := by
  cases d with
  | mssql =>
    exact (same_outputClause hr h side returning).bind fun output output' houtput =>
      (same_conditionClause h filter).bind fun cs cs' hcs => agree_ok (by simp [houtput, hcs])
  | sqlite | postgres | mysql =>
    exact (same_conditionClause h filter).bind fun cs cs' hcs =>
      (same_returningClause h returning).bind fun rs rs' hrs => agree_ok (by simp [hcs, hrs])

/-- **A statement is written alike before a pass and after it**, if roots are. -/
theorem Statement.same_render (s : Statement) :
    SameUpTo g ((s.pass P).render d) (s.render d) := by
  cases s with
  | select s => exact (h.select _).trans (inner_select h s)
  | union u => exact same_union h u
  | insert i => exact same_insert hr h i
  | update u =>
    -- the target holds no expression, so only the clauses behind it are passed
    exact agree_step (targetOf_pass u.target) fun _ =>
      (same_assignmentList h u.assignments).bind fun l l' hl =>
      (same_tailClauses hr h .inserted u.filter u.returning).bind fun cs cs' hcs =>
        agree_ok (by simp [hl, hcs])
  | delete x =>
    exact agree_step (targetOf_pass x.target) fun _ =>
      (same_tailClauses hr h .deleted x.filter x.returning).bind fun cs cs' hcs =>
        agree_ok (by simp [hcs])

end

end

end SqlScribe
