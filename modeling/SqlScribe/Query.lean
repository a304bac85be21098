import SqlScribe.Data
import SqlScribe.FunctionName
import SqlScribe.JsonPath
import SqlScribe.LogicalType
import SqlScribe.Operator

/-!
# Expressions and queries

The trees that statements are made of. An expression may hold a query, and a query holds
expressions, so the types are defined together. They name no dialect: what a node looks like in the
text of a query is the business of the rendering.

The places of a tree are not checked when it is built, so anything may stand where an expression, a
name or a switch is expected; it is kept as it was given, and rendering refuses what cannot be
written. Two constructors of `Expr` stand for things that are no expressions, and the constructors
called `other` for things that are no query, no source and no join.

Names and switches have the type `Expr` too: what ought to stand in their places is data, but an
expression may stand there as well, and it is part of the tree like any other.
-/

namespace SqlScribe

mutual

/-- An expression. -/
inductive Expr where
  /-- A column, possibly of a table or an alias. -/
  | column (table name : Expr)
  /-- All columns, possibly of one table. -/
  | star (table : Expr)
  /-- A value, bound and never written. -/
  | literal (value : Value)
  /-- A constant truth value, written as a word or a digit. -/
  | truth (value : Expr)
  | not (operand : Expr)
  | isNull (operand negated : Expr)
  | binary (op : Operator) (left right : Expr)
  /-- Conditions joined by one connective; there is at least one. -/
  | logical (op : Connective) (first : Expr) (rest : List Expr)
  | inList (operand : Expr) (items : List Expr) (negated : Expr)
  | inQuery (operand : Expr) (query : Query) (negated : Expr)
  | between (operand low high negated : Expr)
  | exists (query : Query) (negated : Expr)
  /-- A query used as a scalar. -/
  | scalar (query : Query)
  /-- A row of expressions; there is at least one. -/
  | row (first : Expr) (rest : List Expr)
  | call (name : FunctionName) (args : List Expr) (distinct : Expr)
  | cast (operand : Expr) (target : LogicalType)
  | coalesce (parts : List Expr)
  | concat (parts : List Expr)
  /-- The values of a group as one text with commas. -/
  | aggregateText (operand : Expr)
  /-- An expression with a direction of order. -/
  | sorted (operand : Expr) (direction : Direction)
  /-- The partition and the order of a window. -/
  | window (partition order : List Expr)
  /-- A function over a window. -/
  | over (name : FunctionName) (args : List Expr) (window : Expr)
  | jsonExtract (document : Expr) (path : JsonPath) (asText : Expr)
  /-- Whether a JSON array contains every element of another. -/
  | jsonContains (document value negated : Expr)
  /-- Whether the first or the last element of a JSON array equals a value. -/
  | jsonEdge (document value : Expr) (edge : ArrayEdge) (negated : Expr)
  | jsonType (document : Expr) (type : JsonType)
  /-- The columns of a full-text search; there is at least one. -/
  | textSearch (first : Expr) (rest : List Expr)
  | matches (search query negated : Expr)
  /-- The row of a table as a JSON object. -/
  | rowToJson (table pretty : Expr)
  /-- The incoming value of a column inside an upsert. -/
  | excluded (column : Expr)
  /-- A fragment written as it is. In a template the named expressions replace their marks. -/
  | raw (sql aliasName template : Expr) (bindings : List (Expr × Expr))
  /-- A column, or all columns, of an image of the row that a statement changes. -/
  | image (of : RowImage) (column : Option String)
  /-- A sequence of things: no expression. -/
  | tuple (items : List Expr)
  /-- Anything else that is no expression. -/
  | foreign (object : Data)

/-- A query nested in an expression or used as a source. -/
inductive Query where
  | select (s : Select)
  | union (u : Union)
  /-- A select that was never finished, which is no query yet. -/
  | draft (s : Select)
  /-- No query at all. -/
  | other (object : Expr)

/-- A union of selects. -/
structure Union where
  members : List Select
  kind : UnionKind

/-- A select. A source may be missing, as in a select of constants. -/
structure Select where
  items : List SelectItem
  source : Option Source
  joins : List Join
  filter : Option Expr
  groupBy : List Expr
  having : Option Expr
  orderBy : List Expr
  limit : Option Nat
  offset : Option Nat
  distinct : Expr

/-- A table as a source of rows or as the target of a change. The primary key is known to the
library alone; no statement mentions it. -/
structure Table where
  name : Expr
  schema : Expr
  aliasName : Expr
  primaryKey : List Expr

/-- What rows are taken from, or what stands in the place of a table. -/
inductive Source where
  | table (t : Table)
  | derived (query : Query) (aliasName : Expr)
  /-- No source at all. -/
  | other (object : Expr)

/-- A column of the result, possibly renamed. -/
structure SelectItem where
  expr : Expr
  aliasName : Expr

/-- A source joined to the ones before it. -/
inductive Join where
  | join (right : Source) (on : Option Expr) (kind : JoinKind)
  /-- No join at all. -/
  | other (object : Expr)

end

/-- A name as a caller gives it: a word, or nothing where there is none. Whatever else it is, it is
kept, and refused where it would have to be written. -/
abbrev Name := Expr

/-- A switch as a caller sets it. It is on if a condition on it holds. -/
abbrev Flag := Expr

namespace Expr

/-- No name at all. -/
@[match_pattern] abbrev absent : Name := .foreign .null

/-- A name that is a text. -/
@[match_pattern] abbrev word (s : String) : Name := .foreign (.text s)

/-- A switch that is on or off. -/
@[match_pattern] abbrev switch (on : Bool) : Flag := .foreign (.bool on)

instance : Inhabited Expr := ⟨absent⟩

/-- Whether the tree is an expression at its root. -/
def isExpr : Expr → Bool
  | .tuple _ | .foreign _ => false
  | _ => true

/-- Whether the root is a star. -/
def isStar : Expr → Bool
  | .star _ => true
  | _ => false

/-- The items of a row. -/
def rowItems? : Expr → Option (List Expr)
  | .row first rest => some (first :: rest)
  | _ => none

/-- Whether the root is a row. -/
def isRow (e : Expr) : Bool := e.rowItems?.isSome

/-- The condition that an optional argument gives: the null is none. -/
def optional : Expr → Option Expr
  | .foreign .null => none
  | e => some e

end Expr

namespace Select

/-- Whether an item of the projection is a star. -/
def hasStar (s : Select) : Bool := s.items.any fun i => i.expr.isStar

/-- The number of columns, unless a star hides it. -/
def width? (s : Select) : Option Nat := if s.hasStar then none else some s.items.length

/-- Whether the select orders its rows or takes a part of them. -/
def isOrdered (s : Select) : Bool :=
  !s.orderBy.isEmpty || s.limit.isSome || s.offset.isSome

end Select

end SqlScribe
