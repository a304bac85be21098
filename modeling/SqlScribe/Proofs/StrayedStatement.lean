import SqlScribe.Proofs.Redirect
import SqlScribe.Proofs.StrayedWalk

/-!
# Stray references in statements

Whatever an upsert does not replace is written as it stands: selects and unions, updates and
deletes, the rows of an insert and what a change returns. A reference to an incoming value anywhere
in these makes the statement fail. SQL Server takes the columns of what is returned from an image of
the row first, and that neither brings in references nor removes any.
-/

namespace SqlScribe

/-! ## Scopes and references -/

namespace Tree

theorem writtenNodes_trans {d : Dialect} {t m n : Tree} (hm : m ∈ t.writtenNodes d)
    (hn : n ∈ m.writtenNodes d) : n ∈ t.writtenNodes d := by
  induction t using written_induction (d := d) with
  | step t ih =>
    rw [writtenNodes_eq] at hm
    rcases List.mem_cons.mp hm with rfl | hm
    · exact hn
    · obtain ⟨b, hb, hm⟩ := List.mem_flatMap.mp hm
      rw [writtenNodes_eq]
      exact List.mem_cons_of_mem _ (List.mem_flatMap.mpr ⟨b, hb, ih b hb hm⟩)

/-- A reference is written in the scope itself or in a select that is nested in it. -/
theorem hasExcluded_iff_scopes {d : Dialect} {t : Tree} :
    t.HasExcluded d ↔ (∃ column, Expr.excluded column ∈ t.ownNodes d) ∨
      ∃ q ∈ t.scopes d, (Tree.select q).HasExcluded d := by
  constructor
  · intro h
    -- on the written tree; a select begins a scope of its own
    induction t using written_induction (d := d) with
    | step t ih =>
      cases t with
      | select s =>
        refine .inr ⟨s, ?_, h⟩
        rw [scopes_eq]
        exact List.mem_cons_self
      | expr e =>
        rw [ownNodes_expr, scopes_expr]
        rcases hasExcluded_iff.mp h with ⟨column, he⟩ | ⟨b, hb, h⟩
        · obtain rfl := Tree.expr.inj he
          exact .inl ⟨column, List.mem_cons_self⟩
        · refine (ih b hb h).imp ?_ ?_
          · rintro ⟨column, hc⟩
            exact ⟨column, List.mem_cons_of_mem _ (List.mem_flatMap.mpr ⟨b, hb, hc⟩)⟩
          · rintro ⟨q, hq, h⟩
            exact ⟨q, List.mem_flatMap.mpr ⟨b, hb, hq⟩, h⟩
  · rintro (⟨column, h⟩ | ⟨q, hq, column, h⟩)
    · exact ⟨column, mem_writtenNodes_of_mem_ownNodes h⟩
    · exact ⟨column, writtenNodes_trans (mem_scopes.mp hq) h⟩

/-- A redirected scope holds the selects that it held before. -/
theorem scopes_mapped {g : Expr → Expr} (hg : Redirects g) (d : Dialect) (t : Tree) :
    (t.onExpr (Expr.mapped g)).scopes d = t.scopes d := by
  induction t using written_induction (d := d) with
  | step t ih =>
    cases t with
    | select s => rfl
    | expr e =>
      rw [onExpr, scopes_expr, scopes_expr, written_mapped hg, List.flatMap_map]
      exact List.flatMap_congr ih

end Tree

/-! ## Images -/

/-- A column of a changed row, as a column of its image. -/
def imaged (side : RowImage) : Expr → Expr
  | .column _ name => .image side name.asText?
  | .star _ => .image side none
  | e => e

theorem redirects_imaged (side : RowImage) : Redirects (imaged side) where
  keeps e h := by
    cases e with
    | column _ _ | star _ => cases h
    | _ => rfl
  refers e h := by
    cases e with
    | column _ _ | star _ | excluded _ | image _ _ => rfl
    | _ => cases h

theorem yields_imaged (side : RowImage) (e : Expr) :
    Yields (· = imaged side e) (imageOf side e) := by
  cases e with
  | column table name =>
    simp only [imageOf, imaged]
    cases name.asText? with
    | some s => exact yields_ok rfl
    | none => exact yields_error
  | _ => exact yields_ok rfl

/-- What is returned from an image has references where it had them before. -/
theorem hasExcluded_imaged (side : RowImage) (d : Dialect) (e : Expr) :
    (Tree.expr (e.mapped (imaged side))).HasExcluded d ↔ (Tree.expr e).HasExcluded d := by
  have hg := redirects_imaged side
  have nodes := ownNodes_mapped hg d (.expr e)
  have scopes := Tree.scopes_mapped hg d (.expr e)
  -- an image takes the place of a column, and a reference stays one
  have same (n : Expr) : (∃ column, n.mapped (imaged side) = .excluded column) ↔
      ∃ column, n = .excluded column := by
    cases n <;> simp [Expr.mapped, imaged]
  rw [Tree.onExpr] at nodes scopes
  rw [Tree.hasExcluded_iff_scopes, Tree.hasExcluded_iff_scopes, nodes, scopes]
  refine or_congr_left ?_
  simp only [List.mem_map]
  constructor
  · rintro ⟨column, n, hn, h⟩
    obtain ⟨column, rfl⟩ := (same n).mp ⟨column, h⟩
    exact ⟨column, hn⟩
  · rintro ⟨column, h⟩
    obtain ⟨column', h'⟩ := (same (.excluded column)).mpr ⟨column, rfl⟩
    exact ⟨column', _, h, h'⟩

theorem yields_imagedItems (side : RowImage) (items : List SelectItem) :
    Yields (fun items' =>
        itemTrees items' = (itemTrees items).map (Tree.onExpr (Expr.mapped (imaged side))))
      (imageItems side items) := by
  have other (e : Expr) (h : e.isExpr = false) : imaged side e = e := by
    cases e with
    | tuple _ | foreign _ => rfl
    | _ => cases h
  induction items with
  | nil => exact yields_ok rfl
  | cons i rest ih =>
    exact (yields_mapNodesM_mapped (yields_imaged side) other i.expr).bind fun e he =>
      ih.bind fun rest' hrest => yields_ok (congrArg₂ List.cons (congrArg Tree.expr he) hrest)

/-! ## Statements -/

/-- An insert with grounded expressions, but for those of a conflict clause, which gives references
their meaning itself. -/
def Insert.grounded (i : Insert) : Insert := { i.pass grounding with conflict := i.conflict }

/-- A statement with grounded expressions. -/
def Statement.grounded : Statement → Statement
  | .insert i => .insert i.grounded
  | s => s.pass grounding

/-- What is written of the rows of an insert. Of a select that was never finished the projection,
the source and the joins are written before it is refused. -/
def InsertSource.drawn : InsertSource → List Tree
  | .draft s =>
    itemTrees s.items ++ (s.source.toList.flatMap Source.selects).map .select ++
      s.joins.flatMap Join.branches
  | source => source.trees

/-- The trees of a statement that are written as they stand, without those of an upsert. -/
def Statement.plainTrees : Statement → List Tree
  | .select s => [.select s]
  | .union u => u.members.map .select
  | .insert i => i.source.drawn ++ itemTrees i.returning
  | .update u => valueTrees u.assignments ++ u.filter.toList.map .expr ++ itemTrees u.returning
  | .delete x => x.filter.toList.map .expr ++ itemTrees x.returning

/-- Whether a statement is an upsert that changes the rows that are there. -/
def Statement.isUpsert : Statement → Bool
  | .insert ⟨_, _, _, some (.conflict ⟨_, .update ..⟩), _⟩ => true
  | _ => false

section

variable {d : Dialect} {p : Prop}

theorem strayed_itemList (items : List SelectItem) :
    Strayed (AnyExcluded d (itemTrees items)) (itemList d items)
      (itemList d (passItems grounding items)) := by
  unfold itemList
  rw [passItems_eq_map, unnamed_pass, requireTexts_grounded]
  exact (strayed_renderItems fun t _ => strays d t).last fun _ =>
    (blames_requireTexts _).bind fun _ => blames_ok

theorem strayed_conditionClause (filter : Option Expr) :
    Strayed (AnyExcluded d (filter.toList.map .expr)) (conditionClause d filter)
      (conditionClause d (passFilter grounding filter)) := by
  unfold conditionClause
  rw [passFilter_grounding, Option.toList_map, requireTexts_grounded]
  exact (strayed_renderFilter "WHERE" fun e _ => strays d (.expr e)).last fun _ =>
    (blames_requireTexts _).bind fun _ => blames_ok

theorem strayed_returningClause (items : List SelectItem) :
    Strayed (AnyExcluded d (itemTrees items)) (returningClause d items)
      (returningClause d (passItems grounding items)) := by
  have empty : (passItems grounding items).isEmpty = items.isEmpty := by
    rw [passItems_eq_map, List.isEmpty_map]
  unfold returningClause
  rw [empty]
  split
  next hi =>
    obtain rfl := List.isEmpty_iff.mp hi
    exact (strayed_none blames_ok).congr anyExcluded_nil
  · split
    · exact strayed_error rfl
    · exact (strayed_itemList items).last fun _ => blames_ok

/-- A step that rebuilds what is written next. -/
theorem strayed_rebuilt {α β : Type} {P : α → Prop} {x : Build α} {φ : α → α}
    {f g : α → Rendered β} (hx : Yields P x) (hf : ∀ a, P a → Strayed p (f a) (g (φ a))) :
    Strayed p (rebuilt x >>= f) (rebuilt (x.map φ) >>= g) := by
  cases x with
  | error e => exact strayed_error rfl
  | ok a => exact hf a (hx a rfl)

theorem strayed_outputClause (side : RowImage) (items : List SelectItem) :
    Strayed (AnyExcluded .mssql (itemTrees items)) (outputClause side items)
      (outputClause side (passItems grounding items)) := by
  unfold outputClause
  rw [passItems_eq_map, List.isEmpty_map, imageItems_grounded]
  split
  next hi =>
    obtain rfl := List.isEmpty_iff.mp hi
    exact (strayed_none blames_ok).congr anyExcluded_nil
  · refine strayed_rebuilt (yields_imagedItems side items) fun items' hitems => ?_
    rw [← passItems_eq_map]
    refine ((strayed_itemList items').last fun _ => blames_ok).congr ?_
    rw [hitems, itemTrees, List.map_map, anyExcluded_map, anyExcluded_map]
    exact exists_congr fun i => and_congr_right fun _ => (hasExcluded_imaged side _ i.expr).symm

theorem strayed_assignmentList (assignments : List Assignment) :
    Strayed (AnyExcluded d (valueTrees assignments)) (assignmentList d assignments)
      (assignmentList d (assignments.map (Assignment.pass grounding))) := by
  have each (a : Assignment) : Strayed ((Tree.expr a.value).HasExcluded d) (a.render d)
      ((a.pass grounding).render d) :=
    strayed_after (blames_nameOf a.column) fun _ =>
      (strays d (.expr a.value)).last fun _ => blames_ok
  unfold assignmentList
  rw [List.map_map]
  exact ((strayed_each fun a _ => each a).map _).congr anyExcluded_map

/-! ### Rows of an insert -/

theorem strayed_valuesOf (rows : List (List Expr)) :
    Strayed (AnyExcluded d (rows.flatten.map .expr)) (valuesOf d rows)
      (valuesOf d (rows.map (passAll grounding .value))) := by
  unfold valuesOf
  simp only [List.map_map, Function.comp_def, passAll_grounding]
  refine ((strayed_each fun row _ => (strayed_texts fun e _ => strays d (.expr e)).map _).last
    fun _ => blames_ok).congr ?_
  rw [List.map_flatten, ← List.flatMap_def, anyExcluded_flatMap]
  simp only [anyExcluded_map]

theorem strayed_draft (s : Select) :
    Strayed (AnyExcluded d (InsertSource.draft s).drawn) (s.renderDraft d)
      ((s.inner grounding).renderDraft d) := by
  obtain ⟨items, source, joins, filter, groupBy, having, orderBy, limit, offset, distinct⟩ := s
  rw [Select.inner]
  unfold Select.renderDraft
  dsimp only
  rw [passItems_eq_map, unnamed_pass, requireTexts_grounded]
  refine (((strayed_renderItems fun t _ => strays d t).map _).bind fun _ =>
    strayed_after (blames_requireTexts _) fun _ =>
    ((strayed_renderOrigin fun s _ => strays d (.select s)).map _).bind fun _ =>
    ((strayed_renderJoins fun t _ => strays d t).map _).last fun _ => blames_error rfl).congr ?_
  simp only [InsertSource.drawn, anyExcluded_append, or_assoc]

theorem strayed_renderQuery (source : InsertSource) :
    Strayed (AnyExcluded d source.drawn) (source.renderQuery d)
      ((source.pass grounding).renderQuery d) := by
  cases source with
  | rows lists => exact strayed_valuesOf lists
  | query s => exact (strays d (.select s)).congr (by simp [InsertSource.drawn, InsertSource.trees])
  | draft s => exact strayed_draft s

theorem strayed_rowSource (i : Insert) :
    Strayed (AnyExcluded d i.source.drawn) (i.rowSource d) (i.grounded.rowSource d) := by
  unfold Insert.rowSource Insert.grounded Insert.pass
  dsimp only
  rw [isRows_pass]
  refine (strayed_renderQuery i.source).last fun f => ?_
  split <;> exact blames_ok

theorem blames_head (i : Insert) : Blames p i.head :=
  (blames_targetOf i.target).bind fun _ => (blames_namesOf i.columns).bind fun _ => blames_ok

/-! ### Inserts that change no rows -/

theorem blames_nothing (d : Dialect) (columns target : List Name) :
    Blames p ((Conflict.mk target .nothing).clause d columns) := by
  have onConflict : Blames p ((Conflict.mk target .nothing).onConflict d) := by
    unfold Conflict.onConflict
    dsimp only
    split
    · exact blames_ok
    · exact (blames_namesOf target).bind fun _ => blames_ok
  cases d with
  | mysql => exact (blames_nameOf _).bind fun _ => blames_ok
  | sqlite | postgres | mssql => exact onConflict

theorem blames_clauses (i : Insert) (h : (Statement.insert i).isUpsert = false) :
    Blames p (allOk (i.conflict.toList.map fun c => c.render d i.columns)) := by
  obtain ⟨target, columns, source, conflict, returning⟩ := i
  refine blames_allOk (List.forall_mem_map.mpr fun c hc => ?_)
  obtain rfl := Option.mem_toList.mp hc
  cases c with
  | other object => exact blames_error rfl
  | conflict c =>
    obtain ⟨names, action⟩ := c
    cases action with
    | nothing => exact blames_nothing d columns names
    | update assignments filter => cases h

theorem blames_checkMerge (i : Insert) (c : Conflict) : Blames p (i.checkMerge c) := by
  unfold Insert.checkMerge
  split
  · exact blames_error rfl
  · dsimp only
    split
    · exact blames_ok
    · split <;> exact blames_error rfl

theorem blames_qualifier (o : Source) : Blames p o.qualifier := by
  cases o with
  | table _ | derived _ _ => exact blames_ok
  | other _ => exact blames_error rfl

theorem blames_namesIn (qualifier : Name) (columns : List Name) :
    Blames p (allOk (columns.map (nameIn qualifier))) :=
  blames_allOk (List.forall_mem_map.mpr fun n _ => blames_nameIn qualifier n)

theorem blames_sameColumns (left right : Name) (columns : List Name) :
    Blames p (allOk (columns.map (sameColumn left right))) :=
  blames_allOk (List.forall_mem_map.mpr fun n _ => (blames_nameIn left n).bind fun _ =>
    (blames_nameIn right n).bind fun _ => blames_ok)

/-- A merge that leaves the rows that are there alone. -/
theorem strayed_merge (i : Insert) (target : List Name) :
    Strayed (AnyExcluded .mssql (i.source.drawn ++ itemTrees i.returning))
      (i.merge ⟨target, .nothing⟩) (i.grounded.merge ⟨target, .nothing⟩) :=
  (strayed_after (blames_checkMerge i ⟨target, .nothing⟩) fun _ =>
    strayed_step (qualifier_pass i.target) (blames_qualifier i.target) fun q =>
    strayed_after (blames_nameOf q) fun _ =>
    strayed_after (blames_nameOf mergeAlias) fun _ =>
    strayed_after (blames_namesOf i.columns) fun _ =>
    (strayed_renderQuery i.source).bind fun _ =>
    strayed_after (blames_sameColumns q mergeAlias target) fun _ =>
    strayed_step (targetOf_pass i.target) (blames_targetOf i.target) fun _ =>
    strayed_after blames_ok fun _ =>
    strayed_after (blames_namesIn mergeAlias i.columns) fun _ =>
    (strayed_outputClause .inserted i.returning).last fun _ => blames_ok).congr anyExcluded_append

theorem strayed_insert (i : Insert) (h : (Statement.insert i).isUpsert = false) :
    Strayed (AnyExcluded d (i.source.drawn ++ itemTrees i.returning)) (i.render d)
      (i.grounded.render d) := by
  obtain ⟨target, columns, source, conflict, returning⟩ := i
  cases d with
  | mssql =>
    cases conflict with
    | none =>
      -- what is returned comes before the rows
      refine (strayed_step (head_pass _) (blames_head _) fun _ =>
        (strayed_outputClause .inserted returning).bind fun _ =>
        (strayed_rowSource _).last fun _ => blames_ok).congr ?_
      exact anyExcluded_append.trans or_comm
    | some clause =>
      cases clause with
      | other object => exact strayed_error rfl
      | conflict c =>
        obtain ⟨names, action⟩ := c
        cases action with
        | nothing => exact strayed_merge _ names
        | update assignments filter => cases h
  | sqlite | postgres | mysql =>
    exact (strayed_step (head_pass _) (blames_head _) fun _ => (strayed_rowSource _).bind fun _ =>
      strayed_after (blames_clauses _ h) fun _ => (strayed_returningClause returning).last fun _ =>
      blames_ok).congr anyExcluded_append

/-! ### Other statements -/

theorem strayed_tailClauses (side : RowImage) (filter : Option Expr)
    (returning : List SelectItem) :
    Strayed (AnyExcluded d (filter.toList.map .expr ++ itemTrees returning))
      (tailClauses d side filter returning)
      (tailClauses d side (passFilter grounding filter) (passItems grounding returning)) := by
  cases d with
  | mssql =>
    refine ((strayed_outputClause side returning).bind fun _ =>
      (strayed_conditionClause filter).last fun _ => blames_ok).congr ?_
    exact anyExcluded_append.trans or_comm
  | sqlite | postgres | mysql =>
    exact ((strayed_conditionClause filter).bind fun _ =>
      (strayed_returningClause returning).last fun _ => blames_ok).congr anyExcluded_append

/-- **Where no upsert replaces it, a reference to an incoming value makes a statement fail**, with
its own error or with one that comes up without any reference. -/
theorem Statement.strayed (s : Statement) (h : s.isUpsert = false) :
    Strayed (AnyExcluded d s.plainTrees) (s.render d) (s.grounded.render d) := by
  cases s with
  | select s => exact (strays d (.select s)).congr (by simp [plainTrees])
  | union u => exact strayed_query (q := .union u) fun s _ => strays d (.select s)
  | insert i => exact strayed_insert i h
  | update u =>
    refine (strayed_step (targetOf_pass u.target) (blames_targetOf u.target) fun _ =>
      (strayed_assignmentList u.assignments).bind fun _ =>
      (strayed_tailClauses .inserted u.filter u.returning).last fun _ => blames_ok).congr ?_
    rw [plainTrees, List.append_assoc, anyExcluded_append]
  | delete x =>
    exact strayed_step (targetOf_pass x.target) (blames_targetOf x.target) fun _ =>
      (strayed_tailClauses .deleted x.filter x.returning).last fun _ => blames_ok

end

end SqlScribe
