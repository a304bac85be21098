import SqlScribe.Expr.Make
import SqlScribe.Statement

/-!
# Checked statements

The functions here put the parts of statements together and refuse a shape that no statement can
have. What a caller may leave out or spell in different ways is settled here too, so that the
records hold the settled form alone.

Where several things are wrong at once the first check that fails gives the cause. Lists are taken
as outcomes, so that what should be a list and is none fails in its turn; the parts of a list are
converted one after the other, and the whole is checked when all parts are there.
-/

namespace SqlScribe

/-- Refuses a list of columns that names one twice, for the first name that comes again. -/
def refuseRepeated (list : ColumnList) (names : List Name) : Build Unit :=
  go [] names
where
  /-- Goes on with the names met so far. -/
  go (seen : List Name) : List Name → Build Unit
    | [] => .ok ()
    | name :: rest => do
      requireKey name.view
      if seen.any name.sameKey then refuse (.duplicateColumn name.view list)
      else go (name :: seen) rest

/-! ## Projections -/

/-- What a caller may put into a projection. -/
inductive Projection where
  | item (i : SelectItem)
  | operand (e : Expr)

namespace SelectItem

/-- The item that a projection gives where plain data are values. -/
def ofOperand : Projection → Build SelectItem
  | .item i => .ok i
  | .operand e => e.operand.map fun e => ⟨e, .absent⟩

/-- The item that a projection gives where a text names a column, or all of them. -/
def ofColumn : Projection → Build SelectItem
  | .item i => .ok i
  | .operand (.foreign object) =>
    match object.asText? with
    | some "*" => .ok ⟨.star .absent, .absent⟩
    | some _ => .ok ⟨.column .absent (.foreign object), .absent⟩
    | none => (Expr.operand (.foreign object)).map fun e => ⟨e, .absent⟩
  | .operand e => e.operand.map fun e => ⟨e, .absent⟩

/-- Items in order, with plain data as values. -/
def ofOperands : List Projection → Build (List SelectItem)
  | [] => .ok []
  | p :: rest => do
    let i ← ofOperand p
    return i :: (← ofOperands rest)

/-- Items in order, with texts as names of columns. -/
def ofColumns : List Projection → Build (List SelectItem)
  | [] => .ok []
  | p :: rest => do
    let i ← ofColumn p
    return i :: (← ofColumns rest)

end SelectItem

/-! ## Sources and joins -/

/-- A table, which has to have a name. -/
def Table.make (name schema aliasName : Name) (primaryKey : Build (List Name)) : Build Table :=
  if name.isTrue then primaryKey.map fun key => ⟨name, schema, aliasName, key⟩
  else refuse .namelessTable

/-- A query as a source, which has to have an alias. -/
def Source.makeDerived (query : Query) (aliasName : Name) : Build Source :=
  if aliasName.isTrue then .ok (.derived query aliasName) else refuse .namelessSubquery

/-- A join. All kinds but the cross join need a condition. -/
def Join.make (right : Source) (on : Option Expr) (kind : Data) : Build Join := do
  let kind ← choose JoinKind.ofText? .unknownJoin "inner" kind
  if kind = .cross && on.isSome then refuse .crossJoinPredicate
  else if kind ≠ .cross && on.isNone then refuse (.joinWithoutPredicate kind)
  else return .join right on kind

/-! ## Selects and unions -/

/-- The number of rows that a clause takes; the null leaves the clause out. -/
def makeCount (clause : CountClause) (given : Data) : Build (Option Nat) :=
  match given with
  | .null => .ok none
  | .int n | .intLabel n => if n < 0 then refuse (.countNegative clause n) else .ok (some n.toNat)
  | d => refuse (.countNotInteger clause d)

/-- An item of an order, which has to be an expression. -/
def makeOrderItem (e : Expr) : Build Expr :=
  match e with
  | .sorted e direction => .ok (.sorted e direction)
  | e => if e.isExpr then .ok (.sorted e .asc) else refuse (.orderNotExpression e.typeName)

/-- The items of an order. -/
def makeOrderItems : List Expr → Build (List Expr)
  | [] => .ok []
  | e :: rest => do
    let e ← makeOrderItem e
    return e :: (← makeOrderItems rest)

namespace Select

/-- Refuses a select without a source that uses what only a source can give. -/
def check (s : Select) : Build Select :=
  if s.source.isSome then .ok s
  else if s.items.isEmpty then refuse .emptySelect
  else if !s.joins.isEmpty then refuse .joinWithoutSource
  else if s.having.isSome then refuse .havingWithoutSource
  else if s.hasStar then refuse .starWithoutSource
  else .ok s

/-- A select from its parts. -/
def make (items : Build (List Projection)) (source : Option Source) (joins : Build (List Join))
    (filter : Option Expr) (groupBy : Build (List Expr)) (having : Option Expr)
    (orderBy : Build (List Expr)) (limit offset : Data) (distinct : Flag) : Build Select := do
  let items ← SelectItem.ofOperands (← items)
  let joins ← joins
  let groupBy ← groupBy
  let orderBy ← makeOrderItems (← orderBy)
  let limit ← makeCount .limit limit
  let offset ← makeCount .offset offset
  check ⟨items, source, joins, filter, groupBy, having, orderBy, limit, offset, distinct⟩

end Select

/-- What a caller may give as a member of a union. -/
inductive UnionMember where
  | select (s : Select)
  /-- No select, but something with an order of its own. -/
  | ordered
  /-- Something else. -/
  | other

namespace UnionMember

/-- The select of a member, which must leave order and number of the rows to the union. -/
def select? : UnionMember → Build Select
  | .select s => if s.isOrdered then refuse .orderedUnionMember else .ok s
  | .ordered => refuse .orderedUnionMember
  | .other => .error .missingPart

/-- The selects of all members. -/
def selects? : List UnionMember → Build (List Select)
  | [] => .ok []
  | m :: rest => do
    let s ← m.select?
    return s :: (← selects? rest)

end UnionMember

/-- Whether all selects that show their width have the same one. -/
def sameWidths (members : List Select) : Bool :=
  match members.filterMap Select.width? with
  | [] => true
  | w :: rest => rest.all fun v => v == w

/-- A union of at least two selects of one width. -/
def Union.make (members : Build (List UnionMember)) (kind : Data) : Build Union := do
  let kind ← choose UnionKind.ofText? .unknownUnion "ALL" kind
  let members ← members
  if members.length < 2 then refuse .unionTooShort
  let selects ← UnionMember.selects? members
  if sameWidths selects then return ⟨selects, kind⟩ else refuse .unionWidths

/-! ## Assignments and conflicts -/

/-- An assignment of an operand to a column, which has to have a name. -/
def Assignment.make (column : Name) (value : Expr) : Build Assignment :=
  if column.isTrue then value.operand.map fun v => ⟨column, v⟩ else refuse .namelessAssignment

/-- What a caller may put into a list of assignments. -/
inductive AssignmentEntry where
  | done (a : Assignment)
  /-- An entry of a mapping from columns to operands. -/
  | pair (column : Name) (value : Expr)
  /-- Something that is no assignment. -/
  | other (typeName : String)

namespace AssignmentEntry

/-- The assignment of an entry. -/
def assignment? : AssignmentEntry → Build Assignment
  | .done a => .ok a
  | .pair column value => Assignment.make column value
  | .other typeName => refuse (.notAnAssignment typeName)

/-- The assignments of all entries. -/
def assignments? : List AssignmentEntry → Build (List Assignment)
  | [] => .ok []
  | e :: rest => do
    let a ← e.assignment?
    return a :: (← assignments? rest)

end AssignmentEntry

/-- The word that names an action on conflict. -/
inductive ConflictWord where
  | nothing | update
deriving DecidableEq, Repr

/-- The action that a spelling names, in any case. -/
def ConflictWord.ofText? (s : String) : Option ConflictWord :=
  match Text.lower s with
  | "nothing" => some .nothing
  | "update" => some .update
  | _ => none

/-- What to do on a conflict. An update needs columns that tell the conflict and something to
assign; doing nothing takes neither assignments nor a condition. -/
def Conflict.make (target : Build (List Name)) (action : Data)
    (assignments : Build (List AssignmentEntry)) (filter : Option Expr) : Build Conflict := do
  let word ← choose ConflictWord.ofText? .unknownConflictAction "" action
  let target ← target
  let assignments ← AssignmentEntry.assignments? (← assignments)
  refuseRepeated .conflictTarget target
  refuseRepeated .conflictUpdate (assignments.map (·.column))
  match word with
  | .update =>
    if target.isEmpty then refuse .updateWithoutTarget
    else if assignments.isEmpty then refuse .updateWithoutAssignments
    else return ⟨target, .update assignments filter⟩
  | .nothing =>
    if !assignments.isEmpty || filter.isSome then refuse .nothingWithDetails
    else return ⟨target, .nothing⟩

/-! ## Changes of a table -/

/-- Rows of operands. -/
def makeRows : List (Build (List Expr)) → Build (List (List Expr))
  | [] => .ok []
  | row :: rest => do
    let row ← Expr.operands (← row)
    return row :: (← makeRows rest)

/-- Refuses rows of another width than the list of columns, for the first of them. -/
def checkRowWidths (columns : Nat) : Nat → List (List Expr) → Build Unit
  | _, [] => .ok ()
  | index, row :: rest =>
    if row.length = columns then checkRowWidths columns (index + 1) rest
    else refuse (.insertRowAt index row.length columns)

namespace InsertSource

/-- Refuses a select that shows another number of columns than the insert has. -/
def checkWidth (columns : Nat) (s : Select) : Build Unit :=
  match s.width? with
  | some n => if n = 0 || n = columns then .ok () else refuse (.insertSourceWidth n columns)
  | none => .ok ()

/-- The rows of an insert: lists of expressions or a select, and not both. -/
def make (columns : Nat) (rows : List (List Expr)) (query : Option Query) : Build InsertSource :=
  match query with
  | none => do
    if rows.isEmpty then refuse .insertNoSource
    checkRowWidths columns 0 rows
    return .rows rows
  | some query => do
    if !rows.isEmpty then refuse .insertBothSources
    match query with
    | .select s => do
      checkWidth columns s
      return .query s
    | .draft s => do
      checkWidth columns s
      return .draft s
    | _ => .error .missingPart

end InsertSource

namespace Insert

/-- An insert from finished parts. -/
def check (target : Source) (columns : List Name) (rows : List (List Expr))
    (query : Option Query) (conflict : Option ConflictClause) (returning : List SelectItem) :
    Build Insert := do
  if columns.isEmpty then refuse .insertWithoutColumns
  refuseRepeated .insert columns
  let source ← InsertSource.make columns.length rows query
  return ⟨target, columns, source, conflict, returning⟩

/-- An insert from its parts. -/
def make (target : Source) (columns : Build (List Name)) (rows : Build (List (Build (List Expr))))
    (query : Option Query) (conflict : Option ConflictClause)
    (returning : Build (List Projection)) : Build Insert := do
  let columns ← columns
  let rows ← makeRows (← rows)
  let returning ← SelectItem.ofOperands (← returning)
  check target columns rows query conflict returning

end Insert

namespace Update

/-- An update from finished parts. -/
def check (target : Source) (assignments : List Assignment) (filter : Option Expr)
    (returning : List SelectItem) : Build Update := do
  if assignments.isEmpty then refuse .emptyUpdate
  refuseRepeated .update (assignments.map (·.column))
  return ⟨target, assignments, filter, returning⟩

/-- An update from its parts. -/
def make (target : Source) (assignments : Build (List AssignmentEntry)) (filter : Option Expr)
    (returning : Build (List Projection)) : Build Update := do
  let assignments ← AssignmentEntry.assignments? (← assignments)
  let returning ← SelectItem.ofOperands (← returning)
  check target assignments filter returning

end Update

/-- A delete from its parts. -/
def Delete.make (target : Source) (filter : Option Expr) (returning : Build (List Projection)) :
    Build Delete := do
  return ⟨target, filter, ← SelectItem.ofOperands (← returning)⟩

/-- A check changes nothing. -/
theorem Select.eq_of_check {s t : Select} (h : s.check = .ok t) : t = s := by
  grind [Select.check, refuse]

end SqlScribe
