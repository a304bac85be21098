import SqlScribe.View

/-!
# Statements

The five statements that can be rendered: selects, unions, and the three changes of a table. An
insert takes its rows either from lists of expressions or from a select, and may say what happens
when a row is already there.

The target of a change and the conflict clause of an insert are not checked before they are written,
so something else may stand in their places.
-/

namespace SqlScribe

/-- A column and the value it gets. -/
structure Assignment where
  column : Name
  value : Expr

/-- What an insert does with a row that is already there. -/
inductive ConflictAction where
  | nothing
  /-- Changes the old row, possibly only under a condition. -/
  | update (assignments : List Assignment) (filter : Option Expr)

/-- The columns that tell whether a row is already there, and what is done then. -/
structure Conflict where
  target : List Name
  action : ConflictAction

/-- What stands in the place of a conflict clause. -/
inductive ConflictClause where
  | conflict (c : Conflict)
  /-- No conflict clause at all. -/
  | other (object : Expr)

/-- Where an insert takes its rows from. -/
inductive InsertSource where
  | rows (rows : List (List Expr))
  | query (s : Select)
  /-- A select that was never finished. It has a width, so it is taken; it has no condition yet, so
  it cannot be written. -/
  | draft (s : Select)

/-- Adds rows to a table. -/
structure Insert where
  target : Source
  columns : List Name
  source : InsertSource
  conflict : Option ConflictClause
  returning : List SelectItem

/-- Changes rows of a table. -/
structure Update where
  target : Source
  assignments : List Assignment
  filter : Option Expr
  returning : List SelectItem

/-- Removes rows from a table. -/
structure Delete where
  target : Source
  filter : Option Expr
  returning : List SelectItem

/-- A statement. -/
inductive Statement where
  | select (s : Select)
  | union (u : Union)
  | insert (i : Insert)
  | update (u : Update)
  | delete (d : Delete)

/-! ## Views -/

/-- The view of an assignment. -/
def Assignment.view (a : Assignment) : Data :=
  .record "Assignment" [("column", a.column.view), ("value", a.value.view)]

/-- The view of a list of assignments. -/
def viewAssignments (as : List Assignment) : Data := .tuple (as.map Assignment.view)

/-- The view of a conflict clause. -/
def Conflict.view (c : Conflict) : Data :=
  let fields :=
    match c.action with
    | .nothing => ("nothing", [], none)
    | .update assignments filter => ("update", assignments, filter)
  .record "OnConflict" [("target_columns", .tuple (viewAll c.target)), ("action", .text fields.1),
    ("assignments", viewAssignments fields.2.1), ("where", viewOptional fields.2.2)]

/-- The view of what stands in the place of a conflict clause. -/
def ConflictClause.view : ConflictClause → Data
  | .conflict c => c.view
  | .other object => object.view

/-- The view of an optional conflict clause. -/
def viewConflict : Option ConflictClause → Data
  | some c => c.view
  | none => .null

/-- The view of rows of expressions. -/
def viewRows (rows : List (List Expr)) : Data := .tuple (rows.map fun r => .tuple (viewAll r))

/-- The view of an insert. -/
def Insert.view (i : Insert) : Data :=
  let (rows, source) :=
    match i.source with
    | .rows rows => (rows, Data.null)
    | .query s => ([], s.view)
    | .draft s => ([], s.draftView)
  .record "LogicalInsert" [("table", i.target.view), ("columns", .tuple (viewAll i.columns)),
    ("rows", viewRows rows), ("source", source), ("on_conflict", viewConflict i.conflict),
    ("returning", .tuple (viewItems i.returning))]

/-- The view of an update. -/
def Update.view (u : Update) : Data :=
  .record "LogicalUpdate" [("table", u.target.view),
    ("assignments", viewAssignments u.assignments), ("where", viewOptional u.filter),
    ("returning", .tuple (viewItems u.returning))]

/-- The view of a delete. -/
def Delete.view (d : Delete) : Data :=
  .record "LogicalDelete" [("table", d.target.view), ("where", viewOptional d.filter),
    ("returning", .tuple (viewItems d.returning))]

/-- The view of a statement. -/
def Statement.view : Statement → Data
  | .select s => s.view
  | .union u => u.view
  | .insert i => i.view
  | .update u => u.view
  | .delete d => d.view

end SqlScribe
