import SqlScribe.Render.Layout

/-!
# Expressions and queries as fragments

`Expr.render` and `Select.render` walk over the nested trees and lay them out for a dialect. The
walk goes through the parts of a node in the order of its text, so the first thing that cannot be
written is the one that is reported.

The clauses of a select stand in a fixed order: projection, source and joins, condition, grouping,
condition on groups, order, and the part of the rows that is asked for. SQL Server counts rows only
in an order; where none is given, the primary key of the source gives one.
-/

namespace SqlScribe

/-! ## Order and number of rows -/

/-- Whether an optional name is left out or is a given one. -/
def isOpenOr (given n : Name) : Bool := n.same .absent || n.same given

/-- Whether a projection shows a column of a table: by a star, or under its own name. -/
def SelectItem.shows (qualifier column : Name) (i : SelectItem) : Bool :=
  match i.expr with
  | .star table => isOpenOr qualifier table
  | .column table name =>
    name.same column && isOpenOr qualifier table && isOpenOr column i.aliasName
  | _ => false

/-- The name by which columns of a table are qualified. -/
def Table.qualifier (t : Table) : Name := t.aliasName.orElse t.name

/-- The columns of a primary key that an order by it would not find in the projection. -/
def hiddenKeys (t : Table) (items : List SelectItem) : List Name :=
  t.primaryKey.filter fun k => !items.any (SelectItem.shows t.qualifier k)

/-- The order by primary key that SQL Server needs where no other is given. Distinct rows can only
be ordered by columns that they show. -/
def orderByKey (source : Option Source) (items : List SelectItem) (distinct : Bool) :
    Rendered Fragment :=
  match source with
  | some (.table t) =>
    if t.primaryKey.isEmpty then .error (.unordered .mssql [])
    else if distinct && !(hiddenKeys t items).isEmpty then
      match (hiddenKeys t items).mapM Expr.asText? with
      | some hidden => .error (.unordered .mssql hidden)
      | none => unusable
    else do
      let keys ← allOk (t.primaryKey.map (nameIn t.qualifier))
      return "ORDER BY " ++ Fragment.join ", " keys
  | _ => .error (.unordered .mssql [])

/-- A clause with a number. -/
def numberClause (before : String) (n : Nat) (after : String) : Fragment :=
  Fragment.ofText (before ++ Text.natText n ++ after)

/-- The clauses that take a part of the rows, as all dialects but one have them. -/
def limitClauses (d : Dialect) (limit offset : Option Nat) : List Fragment :=
  let limits :=
    match limit, offset with
    | some n, _ => [numberClause "LIMIT " n ""]
    | none, some _ => d.endlessLimit?.toList.map fun n => Fragment.ofText ("LIMIT " ++ n)
    | none, none => []
  limits ++ offset.toList.map fun n => numberClause "OFFSET " n ""

/-- The clauses for the order of the rows and the part of them that is asked for. -/
def rowClauses (d : Dialect) (source : Option Source) (items : List SelectItem) (distinct : Bool)
    (order : List Fragment) (limit offset : Option Nat) : Rendered (List Fragment) := do
  let order := listClause "ORDER BY" order
  if d = .mssql && (limit.isSome || offset.isSome) then
    let order ← if order.isEmpty then do pure [← orderByKey source items distinct] else pure order
    let skipped := numberClause "OFFSET " (offset.getD 0) " ROWS"
    let taken := limit.toList.map fun n => numberClause "FETCH NEXT " n " ROWS ONLY"
    return order ++ skipped :: taken
  else return order ++ limitClauses d limit offset

/-! ## The walk -/

/-- The projection of a select; an empty one shows all columns. -/
def projectionOf (distinct : Bool) (items : List Fragment) : List Fragment :=
  [if distinct then "SELECT DISTINCT" else "SELECT",
    if items.isEmpty then "*" else Fragment.join ", " items]

/-- The keyword of a join. -/
def joinKeyword (d : Dialect) (kind : JoinKind) : Rendered Fragment :=
  if d = .mysql && kind = .full then lacks d .fullJoin else .ok (kind.capitals ++ " JOIN")

/-- The word between the selects of a union. -/
def UnionKind.separator : UnionKind → String
  | .all => " UNION ALL "
  | .distinct => " UNION "

/-- The expressions of a projection that have no alias. -/
def unnamed (items : List SelectItem) : List Expr :=
  (items.filter fun i => !i.aliasName.isTrue).map (·.expr)

/-- All columns, possibly of one table. -/
def starOf (table : Name) : Rendered Fragment :=
  if table.isTrue then (nameOf table).map fun name => name ++ ".*" else .ok "*"

mutual

/-- An expression as a fragment. -/
def Expr.render (d : Dialect) : Expr → Rendered Fragment
  | .column table name => qualified table name
  | .star table => starOf table
  | .literal value => .ok (Fragment.bound value)
  | .truth value => .ok (d.truthWord value.isTrue)
  | .not operand => do
    return "NOT " ++ (← operandOf operand (predicateOf d operand (operand.render d)))
  | .isNull operand negated => do
    return (← operandOf operand (operand.render d)) ++
      (if negated.isTrue then " IS NOT NULL" else " IS NULL")
  | .binary op left right => do
    let l ← operandOf left (left.render d)
    let r ← operandOf right (right.render d)
    return l ++ " " ++ op.text ++ " " ++ r
  | .logical op first rest =>
    conditionsOf d op (first :: rest) (first.render d :: renderEach d rest)
  | .inList operand items negated =>
    if items.isEmpty then .ok (emptyMembership negated.isTrue)
    else if operand.isRow then
      if d = .mssql then
        rowAlternativesOf (operand.parts.zip (operand.renderParts d))
          (List.zipWith List.zip (items.map Expr.parts) (renderPartsEach d items)) negated.isTrue
      else rowMembershipOf d (operand.render d) (renderEach d items) negated.isTrue
    else
      membershipOf operand (operand.render d) items (renderEach d items) negated.isTrue
  | .inQuery operand query negated => do
    let left ← operandOf operand (operand.render d)
    return left ++ " " ++ keyword negated.isTrue "IN" ++ " " ++ (← query.render d).parens
  | .between operand low high negated => do
    let e ← operandOf operand (operand.render d)
    let l ← operandOf low (low.render d)
    let h ← operandOf high (high.render d)
    return e ++ " " ++ keyword negated.isTrue "BETWEEN" ++ " " ++ l ++ " AND " ++ h
  | .exists query negated => do
    return keyword negated.isTrue "EXISTS" ++ " " ++ (← query.render d).parens
  | .scalar query => (query.render d).map Fragment.parens
  | .row first rest =>
    (textsOf (first :: rest) (first.render d :: renderEach d rest)).map Fragment.tuple
  | .call name args distinct => do
    let args := Fragment.join ", " (← textsOf args (renderEach d args))
    return name.capitals ++ (if distinct.isTrue then "DISTINCT " ++ args else args).parens
  | .cast operand target => do
    return Dialect.castTo (← operand.render d) (d.castTarget target)
  | .coalesce parts => (textsOf parts (renderEach d parts)).map (callText "COALESCE")
  | .concat parts => (textsOf parts (renderEach d parts)).map d.concatenated
  | .aggregateText operand => (operand.render d).map d.aggregated
  | .sorted operand direction => do return (← operand.render d) ++ " " ++ direction.text
  | .window partition order =>
    .error (.notExpression d (Expr.window partition order).typeName)
  | .over name args spec => do
    let args ← textsOf args (renderEach d args)
    return callText name.capitals args ++ " OVER " ++ (← spec.renderWindow d).parens
  | .jsonExtract document path asText =>
    jsonPartOf d document (document.render d) path asText.isTrue
  | .jsonContains document value negated =>
    jsonContainsSql d document (document.render d) (value.render d) negated.isTrue
  | .jsonEdge document value edge negated =>
    jsonEdgeSql d document (document.render d) (value.render d) edge negated.isTrue
  | .jsonType document type => jsonTypeSql d (document.render d) type
  | .textSearch first rest =>
    searchedColumns d (first :: rest) (first.render d :: renderEach d rest)
  | .matches search query negated =>
    matchSql d search (search.render d) (search.renderParts d) (query.render d) negated.isTrue
  | .rowToJson table pretty => rowToJsonSql d table pretty.isTrue
  | .excluded column => .error (.strayExcluded column.view)
  | .raw sql aliasName template bindings =>
    rawText sql.view aliasName template.isTrue (renderBindings d bindings)
  | .image side column =>
    match column with
    | some name => .ok (side.text ++ "." ++ Fragment.ofName name)
    | none => .ok (side.text ++ ".*")
  | .tuple _ => .error (.notExpression d "tuple")
  | .foreign object => .error (.notExpression d object.typeName)

/-- The fragments of a list of expressions, each with its own outcome. -/
def renderEach (d : Dialect) : List Expr → List (Rendered Fragment)
  | [] => []
  | e :: rest => e.render d :: renderEach d rest

/-- The fragments of the items that a row or a full-text search lists. -/
def Expr.renderParts (d : Dialect) : Expr → List (Rendered Fragment)
  | .row first rest => first.render d :: renderEach d rest
  | .textSearch first rest => first.render d :: renderEach d rest
  | _ => []

/-- The fragments of the items of each row. -/
def renderPartsEach (d : Dialect) : List Expr → List (List (Rendered Fragment))
  | [] => []
  | e :: rest => e.renderParts d :: renderPartsEach d rest

/-- The inside of a window. -/
def Expr.renderWindow (d : Dialect) : Expr → Rendered Fragment
  | .window partition order => do
    let partition ← textsOf partition (renderEach d partition)
    let order ← textsOf order (renderEach d order)
    return windowText partition order
  | e => missingWindow e

/-- The fragments of named expressions. -/
def renderBindings (d : Dialect) : List (Name × Expr) → List (Name × Expr × Rendered Fragment)
  | [] => []
  | b :: rest => renderBinding d b :: renderBindings d rest

/-- The fragment of a named expression. -/
def renderBinding (d : Dialect) : Name × Expr → Name × Expr × Rendered Fragment
  | (name, e) => (name, e, e.render d)

/-- A clause that holds a condition, if there is one. -/
def renderFilter (d : Dialect) (word : String) : Option Expr → Rendered (List Fragment)
  | none => .ok []
  | some e => do return [word ++ " " ++ (← predicateOf d e (e.render d))]

/-- A nested query as a fragment. -/
def Query.render (d : Dialect) : Query → Rendered Fragment
  | .select s => s.render d
  | .union u => u.render d
  | .draft s => .error (.notQuery s.draftView.typeName)
  | .other object => .error (.notQuery object.typeName)

/-- A union as a fragment. -/
def Union.render (d : Dialect) : Union → Rendered Fragment
  | ⟨members, kind⟩ => (allOk (renderSelects d members)).map (Fragment.join kind.separator)

/-- The fragments of selects. -/
def renderSelects (d : Dialect) : List Select → List (Rendered Fragment)
  | [] => []
  | s :: rest => s.render d :: renderSelects d rest

/-- A select as a fragment. -/
def Select.render (d : Dialect) : Select → Rendered Fragment
  | ⟨items, source, joins, filter, groupBy, having, orderBy, limit, offset, distinct⟩ => do
    let projection ← allOk (renderItems d items)
    requireTexts (unnamed items)
    let origin ← renderOrigin d source
    let joined ← allOk (renderJoins d joins)
    let filtered ← renderFilter d "WHERE" filter
    let groups ← textsOf groupBy (renderEach d groupBy)
    let chosen ← renderFilter d "HAVING" having
    let order ← textsOf orderBy (renderEach d orderBy)
    let rows ← rowClauses d source items distinct.isTrue order limit offset
    requireTexts (filter.toList ++ having.toList)
    return Fragment.join " " (projectionOf distinct.isTrue projection ++ origin ++ joined ++
      filtered ++ listClause "GROUP BY" groups ++ chosen ++ rows)

/-- The clause that names the source, if there is one. -/
def renderOrigin (d : Dialect) : Option Source → Rendered (List Fragment)
  | none => .ok []
  | some s => do return ["FROM " ++ (← s.render d)]

/-- A source as a fragment. -/
def Source.render (d : Dialect) : Source → Rendered Fragment
  | .table t => do aliased (← tableName t.schema t.name) t.aliasName
  | .derived query aliasName => do
    let f ← query.render d
    return f.parens ++ " AS " ++ (← nameOf aliasName)
  | .other object => .error (.notSource object.typeName)

/-- The fragments of the items of a projection. -/
def renderItems (d : Dialect) : List SelectItem → List (Rendered Fragment)
  | [] => []
  | i :: rest => i.render d :: renderItems d rest

/-- An item of a projection as a fragment. -/
def SelectItem.render (d : Dialect) : SelectItem → Rendered Fragment
  | ⟨expr, aliasName⟩ => do aliased (← expr.render d) aliasName

/-- The fragments of joins. -/
def renderJoins (d : Dialect) : List Join → List (Rendered Fragment)
  | [] => []
  | j :: rest => j.render d :: renderJoins d rest

/-- A join as a fragment. -/
def Join.render (d : Dialect) : Join → Rendered Fragment
  | .join right on kind => do
    let word ← joinKeyword d kind
    let source ← right.render d
    let condition ← renderFilter d "ON" on
    return Fragment.join " " (word :: source :: condition)
  | .other _ => lacksPart

end

theorem renderEach_eq_map (d : Dialect) (es : List Expr) :
    renderEach d es = es.map fun e => e.render d := by
  induction es with
  | nil => rfl
  | cons e rest ih => simp [renderEach, ih]

theorem renderParts_eq_map (d : Dialect) (e : Expr) :
    e.renderParts d = e.parts.map fun e => e.render d := by
  cases e <;> simp [Expr.renderParts, Expr.parts, renderEach_eq_map]

theorem renderBindings_eq_map (d : Dialect) (bindings : List (Name × Expr)) :
    renderBindings d bindings = bindings.map fun b => (b.1, b.2, b.2.render d) := by
  induction bindings with
  | nil => rfl
  | cons b rest ih =>
    obtain ⟨name, e⟩ := b
    simp [renderBindings, renderBinding, ih]

theorem renderSelects_eq_map (d : Dialect) (ss : List Select) :
    renderSelects d ss = ss.map fun s => s.render d := by
  induction ss with
  | nil => rfl
  | cons s rest ih => simp [renderSelects, ih]

theorem renderItems_eq_map (d : Dialect) (items : List SelectItem) :
    renderItems d items = items.map fun i => i.render d := by
  induction items with
  | nil => rfl
  | cons i rest ih => simp [renderItems, ih]

theorem renderJoins_eq_map (d : Dialect) (joins : List Join) :
    renderJoins d joins = joins.map fun j => j.render d := by
  induction joins with
  | nil => rfl
  | cons j rest ih => simp [renderJoins, ih]

end SqlScribe
