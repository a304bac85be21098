import SqlScribe.Expr.Rebuild
import SqlScribe.Render.Query
import SqlScribe.Statement

/-!
# Changes of a table as fragments

Inserts, updates and deletes. The target is written without its alias. What a statement returns is
written at its end; SQL Server writes it before the condition or the rows, and takes the columns
from an image of the changed row.

An upsert refers to the incoming values by `excluded`. Each dialect has another name for them, so
the references are replaced before the statement is written: by a pseudo-table, a function, or the
alias of the rows in a `MERGE`, which is how SQL Server writes an upsert.
-/

namespace SqlScribe

/-! ## Common clauses -/

/-- The table that a statement changes. -/
def targetOf : Source → Rendered Fragment
  | .table t => tableName t.schema t.name
  | _ => lacksPart

/-- A list of items. -/
def itemList (d : Dialect) (items : List SelectItem) : Rendered Fragment := do
  let fragments ← allOk (renderItems d items)
  requireTexts (unnamed items)
  return Fragment.join ", " fragments

/-- The clause with the condition of a change, if there is one. -/
def conditionClause (d : Dialect) (filter : Option Expr) : Rendered (List Fragment) := do
  let clause ← renderFilter d "WHERE" filter
  requireTexts filter.toList
  return clause

/-- The clause for what is returned, if anything is. -/
def returningClause (d : Dialect) (items : List SelectItem) : Rendered (List Fragment) :=
  if items.isEmpty then .ok []
  else if !d.hasReturning then lacks d .returning
  else do return ["RETURNING " ++ (← itemList d items)]

/-- A column of a changed row, as a column of its image. -/
def imageOf (side : RowImage) : Expr → Build Expr
  | .column _ name =>
    match name.asText? with
    | some s => .ok (.image side (some s))
    | none => .error (.unwritable name.view)
  | .star _ => .ok (.image side none)
  | e => .ok e

/-- The items with all columns taken from an image of the changed row. -/
def imageItems (side : RowImage) : List SelectItem → Build (List SelectItem)
  | [] => .ok []
  | i :: rest => do
    let e ← Expr.mapNodesM (imageOf side) i.expr
    return ⟨e, i.aliasName⟩ :: (← imageItems side rest)

/-- The clause by which SQL Server returns rows, if anything is returned. -/
def outputClause (side : RowImage) (items : List SelectItem) : Rendered (List Fragment) :=
  if items.isEmpty then .ok []
  else do
    let items ← rebuilt (imageItems side items)
    return ["OUTPUT " ++ (← itemList .mssql items)]

/-- An assignment. -/
def Assignment.render (d : Dialect) (a : Assignment) : Rendered Fragment := do
  let column ← nameOf a.column
  return column ++ " = " ++ (← a.value.render d)

/-- Assignments with commas between them. -/
def assignmentList (d : Dialect) (assignments : List Assignment) : Rendered Fragment :=
  (allOk (assignments.map fun a => a.render d)).map (Fragment.join ", ")

/-- Assignments whose values are changed node by node first. -/
def mappedList (d : Dialect) (f : Expr → Expr) (assignments : List Assignment) :
    Rendered Fragment :=
  (allOk (assignments.map fun a => do
    let value ← rebuilt (Expr.mapNodes f a.value)
    Assignment.render d ⟨a.column, value⟩)).map (Fragment.join ", ")

/-! ## Rows of an insert -/

/-- Lists of values. -/
def valuesOf (d : Dialect) (rows : List (List Expr)) : Rendered Fragment := do
  let rows ← allOk (rows.map fun row => (textsOf row (renderEach d row)).map Fragment.tuple)
  return "VALUES " ++ Fragment.join ", " rows

/-- What becomes of a select that was never finished: its projection, its source and its joins are
written, and then its condition turns out to be none. -/
def Select.renderDraft (d : Dialect) (s : Select) : Rendered Fragment := do
  discard (allOk (renderItems d s.items))
  requireTexts (unnamed s.items)
  discard (renderOrigin d s.source)
  discard (allOk (renderJoins d s.joins))
  .error (.notExpression d "method")

/-- The select that an insert takes its rows from. -/
def InsertSource.renderQuery (d : Dialect) : InsertSource → Rendered Fragment
  | .rows lists => valuesOf d lists
  | .query s => s.render d
  | .draft s => s.renderDraft d

/-- Whether the rows are given one by one. -/
def InsertSource.isRows : InsertSource → Bool
  | .rows _ => true
  | _ => false

namespace Insert

/-- The beginning of an insert. -/
def head (i : Insert) : Rendered Fragment := do
  let target ← targetOf i.target
  return "INSERT INTO " ++ target ++ " " ++ (← namesOf i.columns).parens

/-- The rows of an insert. A select before a conflict clause is wrapped for SQLite, which could not
tell the clause from a join otherwise. -/
def rowSource (d : Dialect) (i : Insert) : Rendered Fragment := do
  let f ← i.source.renderQuery d
  if d = .sqlite && i.conflict.isSome && !i.source.isRows then
    return "SELECT * FROM " ++ f.parens ++ " WHERE true"
  else return f

end Insert

/-! ## Upserts -/

/-- An expression with something else in place of the incoming value of a column. -/
def replaceExcluded (f : Name → Expr) : Expr → Expr
  | .excluded column => f column
  | e => e

/-- The function that gives incoming values in MySQL. -/
def valuesFunction : FunctionName := ⟨"VALUES", by decide +kernel⟩

/-- The incoming value of a column. -/
def incoming (d : Dialect) (column : Name) : Expr :=
  match d with
  | .mysql => .call valuesFunction [.column .absent column] (.switch false)
  | _ => .column (.word "excluded") column

namespace Conflict

/-- The condition of a conflict clause, in the names of the dialect. -/
def filterClause (d : Dialect) : Option Expr → Rendered (List Fragment)
  | none => .ok []
  | some e => do
    let e ← rebuilt (Expr.mapNodes (replaceExcluded (incoming d)) e)
    conditionClause d (some e)

/-- The clause `ON CONFLICT`. -/
def onConflict (d : Dialect) (c : Conflict) : Rendered Fragment := do
  let target : List Fragment ←
    if c.target.isEmpty then pure [] else pure [(← namesOf c.target).parens]
  let action : List Fragment ←
    match c.action with
    | .nothing => pure ["DO NOTHING"]
    | .update assignments filter => do
      let list ← mappedList d (replaceExcluded (incoming d)) assignments
      let filter ← filterClause d filter
      pure (("DO UPDATE SET " ++ list) :: filter)
  return Fragment.join " " (Fragment.ofText "ON CONFLICT" :: target ++ action)

/-- The column that is assigned to itself where nothing is to be done: the first of the target, or
of the insert. -/
def idleColumn (columns : List Name) (c : Conflict) : Name := (c.target ++ columns).headD .absent

/-- The clause `ON DUPLICATE KEY UPDATE`, which has no target and no condition. -/
def onDuplicateKey (columns : List Name) (c : Conflict) : Rendered Fragment :=
  match c.action with
  | .nothing => do
    let name ← nameOf (c.idleColumn columns)
    return "ON DUPLICATE KEY UPDATE " ++ name ++ " = " ++ name
  | .update assignments filter =>
    if filter.isSome then lacks .mysql .conditionalUpsert
    else do
      return "ON DUPLICATE KEY UPDATE " ++
        (← mappedList .mysql (replaceExcluded (incoming .mysql)) assignments)

/-- The conflict clause of a dialect that has one. -/
def clause (d : Dialect) (columns : List Name) (c : Conflict) : Rendered Fragment :=
  match d with
  | .mysql => c.onDuplicateKey columns
  | d => c.onConflict d

end Conflict

/-- What stands in the place of a conflict clause. -/
def ConflictClause.render (d : Dialect) (columns : List Name) : ConflictClause → Rendered Fragment
  | .conflict c => c.clause d columns
  | .other _ => lacksPart

/-! ## Merging -/

/-- The alias of the incoming rows. -/
def mergeAlias : Name := .word "dual"

/-- An expression in the scope of a merge: incoming values come from the rows, and columns without a
table from the target. -/
def mergeScope (target : Name) : Expr → Expr
  | .excluded column => .column mergeAlias column
  | .column .absent name => .column target name
  | e => e

/-- What a merge does with a row that is there. -/
def matchedClause (target : Name) : ConflictAction → Rendered (List Fragment)
  | .nothing => .ok []
  | .update assignments filter => do
    let condition : List Fragment ←
      match filter with
      | none => pure []
      | some e => do
        let e ← rebuilt (Expr.mapNodes (mergeScope target) e)
        let condition ← conditionOf .mssql e (e.render .mssql)
        requireTexts [e]
        pure [" AND " ++ condition]
    let list ← mappedList .mssql (mergeScope target) assignments
    return ["WHEN MATCHED" ++ Fragment.join "" condition, "THEN UPDATE SET " ++ list]

/-- Refuses a merge whose target columns are not all inserted, or of which there are none. -/
def Insert.checkMerge (i : Insert) (c : Conflict) : Rendered Unit :=
  if c.target.isEmpty then lacks .mssql .untargetedUpsert
  else
    let missing := c.target.filter fun column => !i.columns.any column.same
    if missing.isEmpty then .ok ()
    else
      match missing.mapM Expr.asText? with
      | some names => lacks .mssql (.upsertBeyondInsert names)
      | none => unusable

/-- The name by which the target of a merge is called. -/
def Source.qualifier : Source → Rendered Name
  | .table t => .ok t.qualifier
  | .derived _ aliasName => .ok aliasName
  | .other _ => lacksPart

/-- An equality of two columns of the same name. -/
def sameColumn (left right : Name) (column : Name) : Rendered Fragment := do
  let l ← nameIn left column
  return l ++ " = " ++ (← nameIn right column)

/-- An upsert as SQL Server writes it. -/
def Insert.merge (i : Insert) (c : Conflict) : Rendered Fragment := do
  i.checkMerge c
  let target ← i.target.qualifier
  let targetName ← nameOf target
  let sourceName ← nameOf mergeAlias
  let columns ← namesOf i.columns
  let rows ← i.source.renderQuery .mssql
  let pairs ← allOk (c.target.map (sameColumn target mergeAlias))
  let table ← targetOf i.target
  let matched ← matchedClause target c.action
  let incoming ← allOk (i.columns.map (nameIn mergeAlias))
  let output ← outputClause .inserted i.returning
  let inserted := "WHEN NOT MATCHED THEN INSERT " ++ columns.parens ++ " VALUES " ++
    Fragment.tuple incoming
  return Fragment.join " "
    (["MERGE INTO " ++ table ++ " AS " ++ targetName,
      "USING " ++ rows.parens ++ " AS " ++ sourceName ++ " " ++ columns.parens,
      "ON " ++ Fragment.join " AND " pairs] ++ matched ++ [inserted] ++ output) ++ ";"

/-! ## Statements -/

/-- An insert as a fragment. -/
def Insert.render (d : Dialect) (i : Insert) : Rendered Fragment :=
  match d, i.conflict with
  | .mssql, some (.conflict c) => i.merge c
  | .mssql, some (.other _) => lacksPart
  | .mssql, none => do
    let head ← i.head
    let output ← outputClause .inserted i.returning
    let rows ← i.rowSource .mssql
    return Fragment.join " " (head :: output ++ [rows])
  | d, conflict => do
    let head ← i.head
    let rows ← i.rowSource d
    let conflict ← allOk (conflict.toList.map fun c => c.render d i.columns)
    let returning ← returningClause d i.returning
    return Fragment.join " " (head :: rows :: conflict ++ returning)

namespace Insert

variable {i : Insert}

theorem render_of_conflict {c : Conflict} (h : i.conflict = some (.conflict c)) :
    i.render .mssql = i.merge c := by
  unfold render
  rw [h]

theorem render_of_other {object : Expr} (h : i.conflict = some (.other object)) :
    i.render .mssql = lacksPart := by
  unfold render
  rw [h]

theorem render_of_none (h : i.conflict = none) :
    i.render .mssql = (do
      let head ← i.head
      let output ← outputClause .inserted i.returning
      let rows ← i.rowSource .mssql
      return Fragment.join " " (head :: output ++ [rows])) := by
  unfold render
  rw [h]

/-- An insert of a dialect that has conflict clauses. -/
theorem render_of_ne {d : Dialect} (hd : d ≠ .mssql) (i : Insert) :
    i.render d = (do
      let head ← i.head
      let rows ← i.rowSource d
      let conflict ← allOk (i.conflict.toList.map fun c => c.render d i.columns)
      let returning ← returningClause d i.returning
      return Fragment.join " " (head :: rows :: conflict ++ returning)) := by
  cases d with
  | mssql => exact absurd rfl hd
  | sqlite | postgres | mysql => rfl

end Insert

/-- The clauses behind the beginning of an update or a delete: condition and what is returned. -/
def tailClauses (d : Dialect) (side : RowImage) (filter : Option Expr)
    (returning : List SelectItem) : Rendered (List Fragment) :=
  match d with
  | .mssql => do
    let output ← outputClause side returning
    let filter ← conditionClause .mssql filter
    return output ++ filter
  | d => do
    let filter ← conditionClause d filter
    let returning ← returningClause d returning
    return filter ++ returning

/-- An update as a fragment. -/
def Update.render (d : Dialect) (u : Update) : Rendered Fragment := do
  let target ← targetOf u.target
  let list ← assignmentList d u.assignments
  let tail ← tailClauses d .inserted u.filter u.returning
  return Fragment.join " " (("UPDATE " ++ target) :: ("SET " ++ list) :: tail)

/-- A delete as a fragment. -/
def Delete.render (d : Dialect) (x : Delete) : Rendered Fragment := do
  let target ← targetOf x.target
  let tail ← tailClauses d .deleted x.filter x.returning
  return Fragment.join " " (("DELETE FROM " ++ target) :: tail)

/-- A statement as a fragment. -/
def Statement.render (d : Dialect) : Statement → Rendered Fragment
  | .select s => s.render d
  | .union u => u.render d
  | .insert i => i.render d
  | .update u => u.render d
  | .delete x => x.render d

/-! ## What is rewritten

The functions by which a change rewrites its expressions replace references and nothing else. -/

/-- Whether the root is a reference to a column, to all columns or to an incoming value. -/
def Expr.isReference : Expr → Bool
  | .column .. | .star _ | .excluded _ => true
  | _ => false

section

variable {e : Expr}

theorem keeps_replaceExcluded (g : Name → Expr) (h : e.isReference = false) :
    replaceExcluded g e = e := by
  cases e with
  | excluded _ => cases h
  | _ => rfl

theorem keeps_mergeScope (target : Name) (h : e.isReference = false) :
    mergeScope target e = e := by
  cases e with
  | excluded _ | column _ _ => cases h
  | _ => rfl

theorem keeps_imageOf (side : RowImage) (h : e.isReference = false) : imageOf side e = .ok e := by
  cases e with
  | column _ _ | star _ => cases h
  | _ => rfl

end

end SqlScribe
