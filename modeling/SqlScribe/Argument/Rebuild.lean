import SqlScribe.Argument
import SqlScribe.Expr.Rebuild
import SqlScribe.Statement.Make

/-!
# Rebuilding the parts of statements

An expression is rebuilt as a whole. A record that is no expression, such as a select or a join, is
rebuilt one level deep: the expressions that stand in its fields are rebuilt, names and switches
among them, and other records in them are left alone. Lists of names are checked again, since two
names may have become one. The record itself comes after its expressions.
-/

namespace SqlScribe

section

variable {m : Type → Type} [Monad m] [MonadExceptOf BuildError m]

/-- An optional part, rebuilt if it is there. -/
def rebuildOptional {α : Type} (g : α → m α) : Option α → m (Option α)
  | none => pure none
  | some a => some <$> g a

/-- The parts of a list, rebuilt in order. -/
def rebuildList {α : Type} (g : α → m α) : List α → m (List α)
  | [] => pure []
  | a :: rest => do
    let a ← g a
    return a :: (← rebuildList g rest)

/-- The names of a table, rebuilt. -/
def Table.rebuildParts (f : Expr → m Expr) (t : Table) : m Table := do
  let name ← t.name.rebuild f
  let schema ← t.schema.rebuild f
  let aliasName ← t.aliasName.rebuild f
  let primaryKey ← Expr.rebuildAll f t.primaryKey
  return ⟨name, schema, aliasName, primaryKey⟩

/-- A source is left alone; what stands in its place and is none is rebuilt. -/
def Source.rebuild (f : Expr → m Expr) : Source → m Source
  | .other object => Source.other <$> Expr.rebuild f object
  | s => pure s

/-- A join is left alone; what stands in its place and is none is rebuilt. -/
def Join.rebuild (f : Expr → m Expr) : Join → m Join
  | .other object => Join.other <$> Expr.rebuild f object
  | j => pure j

/-- A conflict clause is left alone; what stands in its place and is none is rebuilt. -/
def ConflictClause.rebuild (f : Expr → m Expr) : ConflictClause → m ConflictClause
  | .other object => ConflictClause.other <$> Expr.rebuild f object
  | c => pure c

/-- The rows of an insert, rebuilt. -/
def InsertSource.rebuild (f : Expr → m Expr) : InsertSource → m InsertSource
  | .rows lists => InsertSource.rows <$> rebuildList (Expr.rebuildAll f) lists
  | s => pure s

/-- The expressions in the fields of a select, rebuilt. -/
def Select.rebuildParts (f : Expr → m Expr) (s : Select) : m Select := do
  let source ← rebuildOptional (Source.rebuild f) s.source
  let joins ← rebuildList (Join.rebuild f) s.joins
  let filter ← rebuildOptional (Expr.rebuild f) s.filter
  let groupBy ← Expr.rebuildAll f s.groupBy
  let having ← rebuildOptional (Expr.rebuild f) s.having
  let orderBy ← Expr.rebuildAll f s.orderBy
  let distinct ← s.distinct.rebuild f
  return { s with source, joins, filter, groupBy, having, orderBy, distinct }

/-- The expressions in the fields of an insert, rebuilt. -/
def Insert.rebuildParts (f : Expr → m Expr) (i : Insert) : m Insert := do
  let target ← i.target.rebuild f
  let columns ← Expr.rebuildAll f i.columns
  let source ← i.source.rebuild f
  let conflict ← rebuildOptional (ConflictClause.rebuild f) i.conflict
  Expr.built (refuseRepeated .insert columns)
  return { i with target, columns, source, conflict }

/-- The expressions in the fields of a statement, rebuilt. -/
def Statement.rebuildParts (f : Expr → m Expr) : Statement → m Statement
  | .select s => Statement.select <$> s.rebuildParts f
  | .union u => pure (.union u)
  | .insert i => Statement.insert <$> i.rebuildParts f
  | .update u => do
    let target ← u.target.rebuild f
    let filter ← rebuildOptional (Expr.rebuild f) u.filter
    return .update { u with target, filter }
  | .delete d => do
    let target ← d.target.rebuild f
    let filter ← rebuildOptional (Expr.rebuild f) d.filter
    return .delete { d with target, filter }

/-- The condition under which a row is changed, rebuilt. -/
def ConflictAction.rebuild (f : Expr → m Expr) : ConflictAction → m ConflictAction
  | .nothing => pure .nothing
  | .update assignments filter =>
    ConflictAction.update assignments <$> rebuildOptional (Expr.rebuild f) filter

/-- The target and the condition of a conflict clause, rebuilt. -/
def Conflict.rebuildParts (f : Expr → m Expr) (c : Conflict) : m Conflict := do
  let target ← Expr.rebuildAll f c.target
  let action ← c.action.rebuild f
  Expr.built (refuseRepeated .conflictTarget target)
  return ⟨target, action⟩

namespace Argument

/-- The expressions in the fields of an argument, rebuilt. Anything without fields is refused. -/
def rebuildParts (f : Expr → m Expr) : Argument → m Argument
  | .data (.value v) => pure (.data (.value v))
  | .data (.record name fields) => pure (.data (.record name fields))
  | .data _ | .list _ | .tuple _ | .dict _ => throw .wrongArgument
  | .expr e => Argument.expr <$> Expr.rebuild f e
  | .source (.table t) => do return .source (.table (← t.rebuildParts f))
  | .source (.derived query aliasName) => do
    let query ← Expr.rebuildQuery f query
    let aliasName ← aliasName.rebuild f
    return .source (.derived query aliasName)
  | .source s => Argument.source <$> s.rebuild f
  | .item i => do
    let expr ← i.expr.rebuild f
    let aliasName ← i.aliasName.rebuild f
    return .item ⟨expr, aliasName⟩
  | .join (.join right on kind) => do
    let right ← right.rebuild f
    let on ← rebuildOptional (Expr.rebuild f) on
    return .join (.join right on kind)
  | .join j => Argument.join <$> j.rebuild f
  | .statement s => Argument.statement <$> s.rebuildParts f
  | .assignment a => do
    let column ← a.column.rebuild f
    let value ← a.value.rebuild f
    return .assignment ⟨column, value⟩
  | .conflict c => Argument.conflict <$> c.rebuildParts f
  | .select x => do return .select ⟨← x.soFar.rebuildParts f⟩
  | .insert x => do
    let columns ← Expr.rebuildAll f x.columns
    let rows ← rebuildList (Expr.rebuildAll f) x.rows
    let source ← rebuildOptional (Expr.rebuildQuery f) x.source
    return .insert { x with columns, rows, source }
  | .update x => do return .update { x with filter := ← rebuildOptional (Expr.rebuild f) x.filter }
  | .delete x => do return .delete { x with filter := ← rebuildOptional (Expr.rebuild f) x.filter }

end Argument

end

/-- The rebuilt argument beside the type names of what was met, in order. An expression is met as
the last of its nodes, and a record that is none is met as it is. -/
def Argument.traceNodes (f : Expr → Build Expr) (a : Argument) : Build (Argument × List String) :=
  Expr.runTraced do
    let a ← a.rebuildParts (Expr.tracing f)
    match a with
    | .expr _ => pure ()
    | a => Expr.noted a.view.typeName
    return a

end SqlScribe
