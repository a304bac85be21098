import SqlScribe.Expr.Combine
import SqlScribe.Statement.Make

/-!
# Drafts of selects

A select can be put together clause by clause. A draft is what has been put together so far; each
step gives a new draft, so a draft may be kept and continued in several directions. A step checks
what it can see by itself, and `finish` checks the whole.

A repeated clause either replaces what was there (source, limit, offset, distinct), is appended to
it (projection, joins, grouping, order), or is joined to it by `AND` (the two conditions).
-/

namespace SqlScribe

/-- The condition that results when one more is put beside an old one. The first condition is taken
as it is. -/
def addCondition (old : Option Expr) (condition : Expr) : Build (Option Expr) :=
  match old with
  | none => .ok condition.optional
  | some old => (Expr.combine .and [old, condition]).map some

/-- The number of rows that a step sets; it cannot be left out. -/
def requireCount (clause : CountClause) (given : Data) : Build (Option Nat) :=
  match given with
  | .null => refuse (.countNotInteger clause .null)
  | d => makeCount clause d

/-- A select that is still growing. -/
structure SelectDraft where
  soFar : Select

/-- What rows can be taken from, as a caller may give it. -/
inductive Origin where
  | table (t : Table)
  | named (name : Name)
  | select (s : Select)
  | union (u : Union)
  | draft (s : SelectDraft)
  | derived (query : Query) (aliasName : Name)
  | other (typeName : String)

namespace SelectDraft

/-- The select without any clause. -/
def empty : SelectDraft := ⟨⟨[], none, [], none, [], none, [], none, none, .switch false⟩⟩

/-- The finished select. -/
def finish (x : SelectDraft) : Build Select := x.soFar.check

/-- The view of a draft. -/
def view (x : SelectDraft) : Data := x.soFar.draftView

end SelectDraft

namespace Origin

/-- The type name of what was given. -/
def typeName : Origin → String
  | .table _ => "SourceTable"
  | .named _ => "str"
  | .select _ => "LogicalSelect"
  | .union _ => "LogicalUnion"
  | .draft _ => "SelectBuilder"
  | .derived .. => "SubquerySource"
  | .other typeName => typeName

/-- The table that is meant; queries are refused. -/
def table? : Origin → Build Table
  | .table t => .ok t
  | .named name => Table.make name .absent .absent (.ok [])
  | o => refuse (.notATable o.typeName)

/-- The source that is meant, under the alias if there is one. A query needs an alias, and a query
that is a source already keeps its own. -/
def source? (o : Origin) (aliasName : Name) : Build Source :=
  match o with
  | .select s => Source.makeDerived (.select s) aliasName
  | .union u => Source.makeDerived (.union u) aliasName
  | .draft x => do Source.makeDerived (.select (← x.finish)) aliasName
  | .derived query aliasName => .ok (.derived query aliasName)
  | o => o.table?.map fun t =>
    if aliasName.isAbsent then .table t else .table ⟨t.name, t.schema, aliasName, t.primaryKey⟩

end Origin

namespace SelectDraft

/-- A draft with one clause changed. -/
def change (x : SelectDraft) (f : Select → Select) : SelectDraft := ⟨f x.soFar⟩

/-- Appends items to the projection. -/
def addItems (x : SelectDraft) (items : List Projection) : Build SelectDraft :=
  (SelectItem.ofColumns items).map fun items =>
    x.change fun s => { s with items := s.items ++ items }

/-- Appends one item to the projection, under another alias if one is given. -/
def addItem (x : SelectDraft) (item : Projection) (aliasName : Name) : Build SelectDraft :=
  (SelectItem.ofColumn item).map fun item =>
    let item := if aliasName.isAbsent then item else ⟨item.expr, aliasName⟩
    x.change fun s => { s with items := s.items ++ [item] }

/-- Sets the source. -/
def withSource (x : SelectDraft) (origin : Origin) (aliasName : Name) : Build SelectDraft :=
  (origin.source? aliasName).map fun source => x.change fun s => { s with source := some source }

/-- Appends a join. -/
def addJoin (x : SelectDraft) (origin : Origin) (on : Expr) (kind : Data) (aliasName : Name) :
    Build SelectDraft := do
  let source ← origin.source? aliasName
  let j ← Join.make source on.optional kind
  return x.change fun s => { s with joins := s.joins ++ [j] }

/-- Adds a condition on rows. -/
def addFilter (x : SelectDraft) (condition : Expr) : Build SelectDraft :=
  (addCondition x.soFar.filter condition).map fun c => x.change fun s => { s with filter := c }

/-- Appends expressions to group by. -/
def addGroups (x : SelectDraft) (items : List Projection) : Build SelectDraft :=
  (SelectItem.ofColumns items).map fun items =>
    x.change fun s => { s with groupBy := s.groupBy ++ items.map (·.expr) }

/-- Adds a condition on groups. -/
def addHaving (x : SelectDraft) (condition : Expr) : Build SelectDraft :=
  (addCondition x.soFar.having condition).map fun c => x.change fun s => { s with having := c }

/-- The item of an order that a projection gives: ascending, unless it says otherwise. -/
def sortedItem : Projection → Build Expr
  | .operand (.sorted e direction) => .ok (.sorted e direction)
  | p => (SelectItem.ofColumn p).map fun item => .sorted item.expr .asc

/-- The items of an order. -/
def sortedItems : List Projection → Build (List Expr)
  | [] => .ok []
  | p :: rest => do
    let e ← sortedItem p
    return e :: (← sortedItems rest)

/-- Appends items to the order. -/
def addOrder (x : SelectDraft) (items : List Projection) : Build SelectDraft :=
  (sortedItems items).map fun items => x.change fun s => { s with orderBy := s.orderBy ++ items }

/-- Sets the greatest number of rows. -/
def withLimit (x : SelectDraft) (n : Data) : Build SelectDraft :=
  (requireCount .limit n).map fun n => x.change fun s => { s with limit := n }

/-- Sets the number of rows to skip. -/
def withOffset (x : SelectDraft) (n : Data) : Build SelectDraft :=
  (requireCount .offset n).map fun n => x.change fun s => { s with offset := n }

/-- Says whether repeated rows are dropped. -/
def withDistinct (x : SelectDraft) (flag : Flag) : SelectDraft :=
  x.change fun s => { s with distinct := flag }

/-- A select that begins with its projection. -/
def ofItems (items : List Projection) : Build SelectDraft := empty.addItems items

end SelectDraft

/-- A union of selects, which keeps repeated rows unless it is said to be distinct. -/
def Union.ofMembers (members : List UnionMember) (distinct : Flag) : Build Union :=
  Union.make (.ok members) (.text (if distinct.isTrue then "DISTINCT" else "ALL"))

end SqlScribe
