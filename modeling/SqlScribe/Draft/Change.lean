import SqlScribe.Draft.Select

/-!
# Drafts of changes

Inserts, updates and deletes grow step by step like selects. An insert names its columns before it
takes rows, and each row has one value for every column. An update sets a column once.

An insert of one row and an update can also be made from a mapping of columns to operands.
-/

namespace SqlScribe

/-! ## Inserts -/

/-- An insert that is still growing. -/
structure InsertDraft where
  table : Table
  columns : List Name
  rows : List (List Expr)
  source : Option Query
  conflict : Option Conflict
  returning : List SelectItem

namespace InsertDraft

/-- An insert into a table. -/
def into (target : Origin) : Build InsertDraft :=
  target.table?.map fun t => ⟨t, [], [], none, none, []⟩

/-- The view of a draft. -/
def view (x : InsertDraft) : Data :=
  .record "InsertBuilder" [("table", x.table.view), ("columns_", .tuple (viewAll x.columns)),
    ("rows", viewRows x.rows), ("source", (x.source.map Query.view).getD .null),
    ("on_conflict_", (x.conflict.map Conflict.view).getD .null),
    ("returning_", .tuple (viewItems x.returning))]

/-- Sets the columns. -/
def withColumns (x : InsertDraft) (names : List Name) : Build InsertDraft :=
  if names.isEmpty then refuse .insertWithoutColumns
  else if !x.rows.isEmpty then refuse .columnsAfterRows
  else .ok { x with columns := names }

/-- Appends a row with one operand for every column. -/
def addRow (x : InsertDraft) (row : List Expr) : Build InsertDraft := do
  if x.columns.isEmpty then refuse .columnsAfterRows
  if row.length ≠ x.columns.length then refuse (.insertRow row.length x.columns.length)
  let row ← Expr.operands row
  return { x with rows := x.rows ++ [row] }

/-- Appends rows. -/
def addRows (x : InsertDraft) : List (List Expr) → Build InsertDraft
  | [] => .ok x
  | row :: rest => do addRows (← x.addRow row) rest

/-- Takes the rows from a query. -/
def withQuery (x : InsertDraft) (query : Query) : InsertDraft := { x with source := some query }

/-- Takes the rows from a select that is finished first. -/
def withDraft (x : InsertDraft) (s : SelectDraft) : Build InsertDraft :=
  s.finish.map fun s => x.withQuery (.select s)

/-- Keeps a row that is already there. -/
def keepingOld (x : InsertDraft) (target : List Name) : Build InsertDraft :=
  (Conflict.make (.ok target) (.text "nothing") (.ok []) none).map fun c =>
    { x with conflict := some c }

/-- Changes a row that is already there. -/
def changingOld (x : InsertDraft) (target : Build (List Name))
    (assignments : Build (List AssignmentEntry)) (condition : Expr) : Build InsertDraft :=
  (Conflict.make target (.text "update") assignments condition.optional).map fun c =>
    { x with conflict := some c }

/-- Appends items to what is returned. -/
def addReturning (x : InsertDraft) (items : List Projection) : Build InsertDraft :=
  (SelectItem.ofColumns items).map fun items => { x with returning := x.returning ++ items }

/-- The finished insert. -/
def finish (x : InsertDraft) : Build Insert :=
  Insert.check (.table x.table) x.columns x.rows x.source (x.conflict.map .conflict) x.returning

end InsertDraft

/-- An insert of one row, given as a mapping from columns to operands. An empty mapping is refused
before the table is looked at, and anything that is no mapping after it. -/
def Insert.ofMapping (target : Origin) (mapping : Build (List (Name × Expr)))
    (returning : Build (List Projection)) : Build Insert := do
  if let .ok [] := mapping then refuse .insertWithoutColumns
  let x ← InsertDraft.into target
  let mapping ← mapping
  let x ← x.withColumns (mapping.map (·.1))
  let x ← x.addRow (mapping.map (·.2))
  let x ← x.addReturning (← returning)
  x.finish

/-! ## Updates -/

/-- An update that is still growing. -/
structure UpdateDraft where
  table : Table
  assignments : List Assignment
  filter : Option Expr
  returning : List SelectItem

namespace UpdateDraft

/-- An update of a table. -/
def of (target : Origin) : Build UpdateDraft := target.table?.map fun t => ⟨t, [], none, []⟩

/-- The view of a draft. -/
def view (x : UpdateDraft) : Data :=
  .record "UpdateBuilder" [("table", x.table.view),
    ("assignments", viewAssignments x.assignments), ("where_", viewOptional x.filter),
    ("returning_", .tuple (viewItems x.returning))]

/-- Sets a column that is not set yet. -/
def assign (x : UpdateDraft) (column : Name) (value : Expr) : Build UpdateDraft := do
  if x.assignments.any fun a => a.column.same column then
    refuse (.duplicateColumn column.view .update)
  let a ← Assignment.make column value
  return { x with assignments := x.assignments ++ [a] }

/-- Sets several columns. -/
def assignAll (x : UpdateDraft) : List (Name × Expr) → Build UpdateDraft
  | [] => .ok x
  | (column, value) :: rest => do assignAll (← x.assign column value) rest

/-- Adds a condition on rows. -/
def addFilter (x : UpdateDraft) (condition : Expr) : Build UpdateDraft :=
  (addCondition x.filter condition).map fun c => { x with filter := c }

/-- Appends items to what is returned. -/
def addReturning (x : UpdateDraft) (items : List Projection) : Build UpdateDraft :=
  (SelectItem.ofColumns items).map fun items => { x with returning := x.returning ++ items }

/-- The finished update. -/
def finish (x : UpdateDraft) : Build Update :=
  Update.check (.table x.table) x.assignments x.filter x.returning

end UpdateDraft

/-- An update that is given as a mapping from columns to operands. -/
def Update.ofMapping (target : Origin) (mapping : Build (List (Name × Expr))) (condition : Expr)
    (returning : Build (List Projection)) : Build Update := do
  let x ← UpdateDraft.of target
  let x ← x.assignAll (← mapping)
  let x ← x.addReturning (← returning)
  let x ← match condition.optional with
    | some c => x.addFilter c
    | none => .ok x
  x.finish

/-! ## Deletes -/

/-- A delete that is still growing. -/
structure DeleteDraft where
  table : Table
  filter : Option Expr
  returning : List SelectItem

namespace DeleteDraft

/-- A delete from a table. -/
def of (target : Origin) : Build DeleteDraft := target.table?.map fun t => ⟨t, none, []⟩

/-- The view of a draft. -/
def view (x : DeleteDraft) : Data :=
  .record "DeleteBuilder" [("table", x.table.view), ("where_", viewOptional x.filter),
    ("returning_", .tuple (viewItems x.returning))]

/-- Adds a condition on rows. -/
def addFilter (x : DeleteDraft) (condition : Expr) : Build DeleteDraft :=
  (addCondition x.filter condition).map fun c => { x with filter := c }

/-- Appends items to what is returned. -/
def addReturning (x : DeleteDraft) (items : List Projection) : Build DeleteDraft :=
  (SelectItem.ofColumns items).map fun items => { x with returning := x.returning ++ items }

/-- The finished delete. -/
def finish (x : DeleteDraft) : Delete := ⟨.table x.table, x.filter, x.returning⟩

end DeleteDraft

end SqlScribe
