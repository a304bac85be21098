import SqlScribe.Draft.Change

/-!
# Arguments

What a caller hands over to an operation, and what it gets back: data, sequences and mappings of
arguments, the parts of statements, and drafts.

An argument is not checked before it is used. Every kind of place has a reading here: as an
expression, as a source, as what a list is made of, and so on. A reading keeps what it cannot use as
a thing that is no expression, no query or no source, which is refused when it has to be written. It
fails only where such a thing could not even be kept, as when something that is no sequence should
be gone through.
-/

namespace SqlScribe

/-- What a caller hands over or gets back. -/
inductive Argument where
  | data (d : Data)
  | list (items : List Argument)
  | tuple (items : List Argument)
  | dict (entries : List (Argument × Argument))
  | expr (e : Expr)
  | source (s : Source)
  | item (i : SelectItem)
  | join (j : Join)
  | statement (s : Statement)
  | assignment (a : Assignment)
  | conflict (c : Conflict)
  | select (x : SelectDraft)
  | insert (x : InsertDraft)
  | update (x : UpdateDraft)
  | delete (x : DeleteDraft)

instance : Inhabited Argument := ⟨.data .null⟩

namespace Argument

/-! ## As data -/

mutual

/-- The view of an argument. -/
def view : Argument → Data
  | .data d => d
  | .list items => .list (views items)
  | .tuple items => .tuple (views items)
  | .dict entries => .dict (viewEntries entries)
  | .expr e => e.view
  | .source s => s.view
  | .item i => i.view
  | .join j => j.view
  | .statement s => s.view
  | .assignment a => a.view
  | .conflict c => c.view
  | .select x => x.view
  | .insert x => x.view
  | .update x => x.view
  | .delete x => x.view

/-- The views of a list of arguments. -/
def views : List Argument → List Data
  | [] => []
  | a :: rest => a.view :: views rest

/-- The views of the entries of a mapping. -/
def viewEntries : List (Argument × Argument) → List (Data × Data)
  | [] => []
  | entry :: rest => viewEntry entry :: viewEntries rest

/-- The view of an entry of a mapping. -/
def viewEntry : Argument × Argument → Data × Data
  | (k, v) => (k.view, v.view)

end

/-- Whether there is no argument at all. -/
def isNull : Argument → Bool
  | .data d => d.isNull
  | _ => false

/-- Whether two arguments are one as keys of a mapping. -/
def sameKey (a b : Argument) : Bool := a.view.sameKey b.view

/-- What goes wrong when an argument is asked for a part that it can be asked for. A field of that
name is there, but it does nothing. -/
def lacking (a : Argument) (part : String) : BuildError :=
  match a.view with
  | .record _ fields =>
    if fields.any fun field => field.1 == part then .wrongArgument else .missingPart
  | .value (.array _) => if part = "items" then .wrongArgument else .missingPart
  | _ => .missingPart

/-! ## As part of a tree -/

mutual

/-- The argument in the place of an expression. -/
def toExpr : Argument → Expr
  | .expr e => e
  | .tuple items => .tuple (toExprs items)
  | a => .foreign a.view

/-- The arguments in the places of expressions. -/
def toExprs : List Argument → List Expr
  | [] => []
  | a :: rest => a.toExpr :: toExprs rest

end

/-- The argument in the place of an expression that may be missing. -/
def toOptional (a : Argument) : Option Expr := a.toExpr.optional

/-- The argument in the place of a query. -/
def toQuery : Argument → Query
  | .statement (.select s) => .select s
  | .statement (.union u) => .union u
  | .select x => .draft x.soFar
  | a => .other a.toExpr

/-- The argument in the place of a source. -/
def toSource : Argument → Source
  | .source s => s
  | a => .other a.toExpr

/-- The argument in the place of a join. -/
def toJoin : Argument → Join
  | .join j => j
  | a => .other a.toExpr

/-- The argument in the place of a conflict clause. -/
def toConflict : Argument → ConflictClause
  | .conflict c => .conflict c
  | a => .other a.toExpr

/-- The argument, unless it is null. -/
def given? {α : Type} (read : Argument → α) (a : Argument) : Option α :=
  if a.isNull then none else some (read a)

/-! ## As something to be settled -/

/-- The argument as what rows are taken from. -/
def toOrigin : Argument → Origin
  | .source (.table t) => .table t
  | .source (.derived query aliasName) => .derived query aliasName
  | .statement (.select s) => .select s
  | .statement (.union u) => .union u
  | .select x => .draft x
  | a => if a.view.asText?.isSome then .named a.toExpr else .other a.view.typeName

/-- The argument in a projection. -/
def toProjection : Argument → Projection
  | .item i => .item i
  | a => .operand a.toExpr

/-- The argument as a member of a union. A member is asked for its order first, and a draft answers
that with an order of its own. -/
def toMember : Argument → UnionMember
  | .statement (.select s) => .select s
  | .select _ => .ordered
  | .expr (.window _ (_ :: _)) => .ordered
  | _ => .other

/-- The argument in a list of assignments. -/
def toEntry : Argument → AssignmentEntry
  | .assignment a => .done a
  | a => .other a.view.typeName

/-! ## As a sequence or a mapping -/

/-- The members of an argument that can be gone through. -/
def members : Argument → Build (List Argument)
  | .list items | .tuple items => .ok items
  | .dict entries => .ok (entries.map (·.1))
  | a =>
    match a.view.members? with
    | some members => .ok (members.map .data)
    | none => .error .wrongArgument

/-- The members of an argument, each read in the same way. -/
def each {α : Type} (read : Argument → α) (a : Argument) : Build (List α) :=
  a.members.map fun items => items.map read

/-- The members of an argument, or none if the argument is false. -/
def membersOrNone (a : Argument) : Build (List Argument) :=
  if a.view.isTrue then a.members else .ok []

/-- The key of a table: a text is a key of one column. -/
def toPrimaryKey (a : Argument) : Build (List Name) :=
  if a.view.asText?.isSome then .ok [a.toExpr] else a.each toExpr

/-- A pair. -/
def pair (a : Argument) : Build (Argument × Argument) := do
  match ← a.members with
  | [first, second] => return (first, second)
  | items => .error (.notPair items.length)

/-- A name and an expression. -/
def binding (a : Argument) : Build (Name × Expr) :=
  a.pair.map fun (name, e) => (name.toExpr, e.toExpr)

/-- The named expressions of a mapping or of a sequence of pairs. Whether a member is a pair shows
when it is its turn. -/
def bindings : Argument → Build (List (Build (Name × Expr)))
  | .dict entries => .ok (entries.map fun (name, e) => .ok (name.toExpr, e.toExpr))
  | a => a.each binding

/-- The assignments of a mapping or of a sequence of assignments. -/
def assignments : Argument → Build (List AssignmentEntry)
  | .dict entries => .ok (entries.map fun (column, value) => .pair column.toExpr value.toExpr)
  | a => a.each toEntry

/-- The columns of a mapping and their operands. `part` is what a mapping is asked for first. -/
def mapping (part : String) : Argument → Build (List (Name × Expr))
  | .dict entries => .ok (entries.map fun (column, value) => (column.toExpr, value.toExpr))
  | a => .error (a.lacking part)

/-- The columns of one row and their operands; an argument that is false has none. -/
def rowMapping (a : Argument) : Build (List (Name × Expr)) :=
  if a.view.isTrue then a.mapping "keys" else .ok []

end Argument

end SqlScribe
