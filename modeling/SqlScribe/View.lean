import SqlScribe.Dialect.Identifier
import SqlScribe.Query

/-!
# Trees seen from outside

Every part of a statement has a view as data: a record with the name of its type and its fields. The
view shows a tree as answers give it, tells its type in messages, and decides equality: two trees
are equal if their views are the same data.
-/

namespace SqlScribe

/-- The view of an optional number. -/
def viewNat? : Option Nat → Data
  | some n => .int n
  | none => .null

/-- The view of a path. -/
def JsonPath.view : JsonPath → Data
  | .text s => .text s
  | .keys first rest => .tuple ((first :: rest).map .text)

/-- A column of an image, or all of them, as a raw fragment of SQL Server. -/
def RowImage.columnText (row : RowImage) (column : Option String) : String :=
  row.text ++ "." ++ (column.map (Style.plain .mssql).identifier).getD "*"

/-- The type name of the root of a tree. -/
def Expr.typeName : Expr → String
  | .column .. => "ColumnRef" | .star .. => "Star" | .literal .. => "Literal"
  | .truth .. => "BoolConst" | .not .. => "Not" | .isNull .. => "IsNull"
  | .binary .. => "BinaryOp" | .logical .. => "BoolOp" | .inList .. => "InList"
  | .inQuery .. => "InSubquery" | .between .. => "Between" | .exists .. => "Exists"
  | .scalar .. => "Subquery" | .row .. => "Row" | .call .. => "FuncCall" | .cast .. => "Cast"
  | .coalesce .. => "Coalesce" | .concat .. => "Concat" | .aggregateText .. => "AggregateToString"
  | .sorted .. => "OrderByExpr" | .window .. => "WindowSpec" | .over .. => "WindowFunction"
  | .jsonExtract .. => "JsonExtract" | .jsonContains .. => "JsonArrayContains"
  | .jsonEdge .. => "JsonArrayEdge" | .jsonType .. => "JsonTypeEquals"
  | .textSearch .. => "TextSearch" | .matches .. => "Matches" | .rowToJson .. => "RowToJson"
  | .excluded .. => "Excluded" | .raw .. | .image .. => "RawSql"
  | .tuple .. => "tuple"
  | .foreign object => object.typeName

mutual

/-- The view of an expression. -/
def Expr.view : Expr → Data
  | .column table name =>
    .record "ColumnRef" [("table_alias", table.view), ("column_name", name.view)]
  | .star table => .record "Star" [("table_alias", table.view)]
  | .literal value => .record "Literal" [("value", .value value)]
  | .truth value => .record "BoolConst" [("value", value.view)]
  | .not operand => .record "Not" [("expr", operand.view)]
  | .isNull operand negated =>
    .record "IsNull" [("expr", operand.view), ("negated", negated.view)]
  | .binary op left right =>
    .record "BinaryOp" [("op", .text op.text), ("left", left.view), ("right", right.view)]
  | .logical op first rest =>
    .record "BoolOp" [("op", .text op.text), ("operands", .tuple (first.view :: viewAll rest))]
  | .inList operand items negated =>
    .record "InList" [("expr", operand.view), ("items", .tuple (viewAll items)),
      ("negated", negated.view)]
  | .inQuery operand query negated =>
    .record "InSubquery" [("expr", operand.view), ("select", query.view),
      ("negated", negated.view)]
  | .between operand low high negated =>
    .record "Between" [("expr", operand.view), ("low", low.view), ("high", high.view),
      ("negated", negated.view)]
  | .exists query negated =>
    .record "Exists" [("select", query.view), ("negated", negated.view)]
  | .scalar query => .record "Subquery" [("select", query.view)]
  | .row first rest => .record "Row" [("items", .tuple (first.view :: viewAll rest))]
  | .call name args distinct =>
    .record "FuncCall" [("name", .text name.text), ("args", .tuple (viewAll args)),
      ("distinct", distinct.view)]
  | .cast operand target =>
    .record "Cast" [("expr", operand.view), ("target_type", .text target.name)]
  | .coalesce parts => .record "Coalesce" [("parts", .tuple (viewAll parts))]
  | .concat parts => .record "Concat" [("parts", .tuple (viewAll parts))]
  | .aggregateText operand => .record "AggregateToString" [("expr", operand.view)]
  | .sorted operand direction =>
    .record "OrderByExpr" [("expr", operand.view), ("direction", .text direction.text)]
  | .window partition order =>
    .record "WindowSpec" [("partition_by", .tuple (viewAll partition)),
      ("order_by", .tuple (viewAll order))]
  | .over name args window =>
    .record "WindowFunction" [("name", .text name.text), ("args", .tuple (viewAll args)),
      ("window", window.view)]
  | .jsonExtract document path asText =>
    .record "JsonExtract" [("expr", document.view), ("path", path.view),
      ("as_text", asText.view)]
  | .jsonContains document value negated =>
    .record "JsonArrayContains" [("expr", document.view), ("value", value.view),
      ("negated", negated.view)]
  | .jsonEdge document value edge negated =>
    .record "JsonArrayEdge" [("expr", document.view), ("value", value.view),
      ("edge", .text edge.text), ("negated", negated.view)]
  | .jsonType document type =>
    .record "JsonTypeEquals" [("expr", document.view), ("json_type", .text type.text)]
  | .textSearch first rest =>
    .record "TextSearch" [("columns", .tuple (first.view :: viewAll rest))]
  | .matches search query negated =>
    .record "Matches" [("search", search.view), ("query", query.view),
      ("negated", negated.view)]
  | .rowToJson table pretty =>
    .record "RowToJson" [("table_alias", table.view), ("pretty", pretty.view)]
  | .excluded column => .record "Excluded" [("column_name", column.view)]
  | .raw sql aliasName template bindings =>
    .record "RawSql" [("sql", sql.view), ("default_table_alias", aliasName.view),
      ("is_template", template.view), ("expr_bindings", .tuple (viewBindings bindings))]
  | .image row column =>
    .record "RawSql" [("sql", .text (row.columnText column)), ("default_table_alias", .null),
      ("is_template", .bool false), ("expr_bindings", .tuple [])]
  | .tuple items => .tuple (viewAll items)
  | .foreign object => object

/-- The views of a list of expressions. -/
def viewAll : List Expr → List Data
  | [] => []
  | e :: rest => e.view :: viewAll rest

/-- The views of named expressions. -/
def viewBindings : List (Expr × Expr) → List Data
  | [] => []
  | b :: rest => viewBinding b :: viewBindings rest

/-- The view of a named expression. -/
def viewBinding : Expr × Expr → Data
  | (name, e) => .tuple [name.view, e.view]

/-- The view of an optional expression. -/
def viewOptional : Option Expr → Data
  | none => .null
  | some e => e.view

/-- The view of a query. -/
def Query.view : Query → Data
  | .select s => s.view
  | .union u => u.view
  | .draft s => s.draftView
  | .other object => object.view

/-- The view of a union. -/
def Union.view : Union → Data
  | ⟨members, kind⟩ =>
    .record "LogicalUnion" [("selects", .tuple (viewSelects members)),
      ("union_type", .text kind.text)]

/-- The views of selects. -/
def viewSelects : List Select → List Data
  | [] => []
  | s :: rest => s.view :: viewSelects rest

/-- The view of a select. -/
def Select.view : Select → Data
  | ⟨items, source, joins, filter, groupBy, having, orderBy, limit, offset, distinct⟩ =>
    .record "LogicalSelect" [("select_list", .tuple (viewItems items)),
      ("from_", viewSource source), ("joins", .tuple (viewJoins joins)),
      ("where", viewOptional filter), ("group_by", .tuple (viewAll groupBy)),
      ("having", viewOptional having), ("order_by", .tuple (viewAll orderBy)),
      ("limit", viewNat? limit), ("offset", viewNat? offset), ("distinct", distinct.view)]

/-- The view of a select that was never finished. -/
def Select.draftView : Select → Data
  | ⟨items, source, joins, filter, groupBy, having, orderBy, limit, offset, distinct⟩ =>
    .record "SelectBuilder" [("select_list", .tuple (viewItems items)),
      ("from_", viewSource source), ("joins", .tuple (viewJoins joins)),
      ("where_", viewOptional filter), ("group_by_", .tuple (viewAll groupBy)),
      ("having_", viewOptional having), ("order_by_", .tuple (viewAll orderBy)),
      ("limit_", viewNat? limit), ("offset_", viewNat? offset),
      ("distinct_", distinct.view)]

/-- The view of an optional source. -/
def viewSource : Option Source → Data
  | none => .null
  | some s => s.view

/-- The view of a table. -/
def Table.view : Table → Data
  | ⟨name, schema, aliasName, primaryKey⟩ =>
    .record "SourceTable" [("name", name.view), ("schema", schema.view),
      ("alias", aliasName.view), ("primary_key", .tuple (viewAll primaryKey))]

/-- The view of a source. -/
def Source.view : Source → Data
  | .table t => t.view
  | .derived query aliasName =>
    .record "SubquerySource" [("select", query.view), ("alias", aliasName.view)]
  | .other object => object.view

/-- The views of the items of a projection. -/
def viewItems : List SelectItem → List Data
  | [] => []
  | i :: rest => i.view :: viewItems rest

/-- The view of an item of a projection. -/
def SelectItem.view : SelectItem → Data
  | ⟨expr, aliasName⟩ =>
    .record "SelectItem" [("expr", expr.view), ("alias", aliasName.view)]

/-- The views of joins. -/
def viewJoins : List Join → List Data
  | [] => []
  | j :: rest => j.view :: viewJoins rest

/-- The view of a join. -/
def Join.view : Join → Data
  | .join right on kind =>
    .record "Join" [("right", right.view), ("on", viewOptional on),
      ("join_type", .text kind.text)]
  | .other object => object.view

end

namespace Expr

/-- Whether the tree is made of records at its root, so that its fields can be gone through. -/
def isRecord : Expr → Bool
  | .tuple _ => false
  | .foreign (.record ..) | .foreign (.value _) => true
  | .foreign _ => false
  | _ => true

/-- Structural equality of expressions. -/
def same (a b : Expr) : Bool := a.view.same b.view

/-! ## Names and switches -/

/-- Whether a condition on a name or a switch holds. An expression is true, whatever it says. -/
def isTrue (e : Expr) : Bool := e.view.isTrue

/-- A name, or another where the name is false. -/
def orElse (name other : Name) : Name := if name.isTrue then name else other

/-- The text that a name is. -/
def asText? (name : Name) : Option String := name.view.asText?

/-- Whether a name is left out. -/
def isAbsent (name : Name) : Bool := name.view.isNull

/-- Whether two names are one as keys of a mapping. -/
def sameKey (a b : Name) : Bool := a.view.sameKey b.view

theorem asText?_word (s : String) : (word s).asText? = some s := rfl

theorem isTrue_switch (on : Bool) : (switch on).isTrue = on := rfl

end Expr

end SqlScribe
