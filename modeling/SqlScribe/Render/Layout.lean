import SqlScribe.Render.Name
import SqlScribe.Template
import SqlScribe.View

/-!
# Layout of expressions

How an expression is laid out once its parts are written: where parentheses stand, and how each
dialect spells joined texts, JSON, full-text search, memberships of rows, and windows. Nothing here
goes into an expression; the walk is the business of `Expr.render`.

An operand is put between parentheses if its root is a condition or an operation. Under a connective
only another connective is, and SQL Server writes a constant as a comparison where a condition
stands.
-/

namespace SqlScribe

/-! ## Raw data -/

/-- The data of a raw fragment that are no text, where neither an alias nor a template asks them to
be one. They are handed on as they are: put between other texts they are shown, and where texts are
joined they are refused. -/
def Expr.bare? : Expr → Option Data
  | .raw sql aliasName template _ =>
    if aliasName.isTrue || template.isTrue || sql.asText?.isSome then none else some sql.view
  | _ => none

/-- Whether a raw fragment hands on the null, which leaves nothing in a template. -/
def Expr.isBlank (e : Expr) : Bool := (e.bare?.map Data.isNull).getD false

/-- Refuses fragments that are no texts. -/
def requireTexts (es : List Expr) : Rendered Unit :=
  if es.any fun e => e.bare?.isSome then unusable else .ok ()

/-- The fragments of expressions that are to be joined. All are written before one is refused. -/
def textsOf (es : List Expr) (written : List (Rendered Fragment)) : Rendered (List Fragment) := do
  let fragments ← allOk written
  requireTexts es
  return fragments

/-- The items that a row or a full-text search lists. -/
def Expr.parts : Expr → List Expr
  | .row first rest | .textSearch first rest => first :: rest
  | _ => []

/-! ## Parentheses -/

/-- Whether an expression needs parentheses as an operand. -/
def Expr.isCompound : Expr → Bool
  | .binary .. | .logical .. | .not _ | .isNull .. | .inList .. | .inQuery .. | .between ..
  | .exists .. | .jsonContains .. | .jsonEdge .. | .jsonType .. | .matches .. => true
  | _ => false

/-- Whether an expression is a list of columns to search. -/
def Expr.isTextSearch : Expr → Bool
  | .textSearch .. => true
  | _ => false

/-- Whether an expression is joined by a connective at its root. -/
def Expr.isLogical : Expr → Bool
  | .logical .. => true
  | _ => false

/-- An expression as an operand. -/
def operandOf (e : Expr) (written : Rendered Fragment) : Rendered Fragment :=
  if e.isCompound then written.map Fragment.parens else written

/-- An expression where a condition is expected. -/
def predicateOf (d : Dialect) (e : Expr) (written : Rendered Fragment) : Rendered Fragment :=
  match d, e with
  | .mssql, .truth value => .ok (if value.isTrue then "1=1" else "1=0")
  | _, _ => written

/-- A condition under a connective. -/
def conditionOf (d : Dialect) (e : Expr) (written : Rendered Fragment) : Rendered Fragment :=
  let sql := predicateOf d e written
  if e.isLogical then sql.map Fragment.parens else sql

/-- Conditions joined by a connective. -/
def conditionsOf (d : Dialect) (op : Connective) (es : List Expr)
    (written : List (Rendered Fragment)) : Rendered Fragment :=
  (textsOf es (es.zipWith (conditionOf d) written)).map (Fragment.join (" " ++ op.text ++ " "))

/-- A fragment, negated if asked for. -/
def negatedIf (negated : Bool) (f : Fragment) : Fragment :=
  if negated then "NOT " ++ f.parens else f

/-- A keyword, negated if asked for. -/
def keyword (negated : Bool) (word : String) : String := if negated then "NOT " ++ word else word

/-! ## Memberships -/

/-- What a membership in an empty list comes to. -/
def emptyMembership (negated : Bool) : Fragment := if negated then "1=1" else "1=0"

/-- A membership of a scalar in a list. -/
def membershipOf (e : Expr) (written : Rendered Fragment) (es : List Expr)
    (items : List (Rendered Fragment)) (negated : Bool) : Rendered Fragment := do
  let left ← operandOf e written
  let items ← textsOf es items
  return left ++ " " ++ keyword negated "IN" ++ " " ++ Fragment.tuple items

/-- A membership of a row in a list of rows. SQLite has a table of values on the right. -/
def rowMembershipOf (d : Dialect) (written : Rendered Fragment) (rows : List (Rendered Fragment))
    (negated : Bool) : Rendered Fragment := do
  let left ← written
  let rows ← allOk rows
  let list := Fragment.join ", " rows
  let list := if d = .sqlite then "VALUES " ++ list else list
  return left ++ " " ++ keyword negated "IN" ++ " " ++ list.parens

/-- Equality of two operands. -/
def equalityOf (left right : Expr × Rendered Fragment) : Rendered Fragment := do
  let l ← operandOf left.1 left.2
  let r ← operandOf right.1 right.2
  return l ++ " = " ++ r

/-- A membership of a row where rows cannot be compared: some row is equal item by item. -/
def rowAlternativesOf (left : List (Expr × Rendered Fragment))
    (rows : List (List (Expr × Rendered Fragment))) (negated : Bool) : Rendered Fragment := do
  let alternatives ← allOk (rows.map fun row =>
    (allOk (left.zipWith equalityOf row)).map fun pairs =>
      Fragment.parens (Fragment.join " AND " pairs))
  return (if negated then "NOT " else "") ++ Fragment.parens (Fragment.join " OR " alternatives)

/-! ## Calls and texts -/

/-- A call of a function. -/
def callText (name : String) (args : List Fragment) : Fragment := name ++ Fragment.tuple args

namespace Dialect

/-- Texts joined to one. -/
def concatenated (d : Dialect) : List Fragment → Fragment
  | [] => "''"
  | parts =>
    match d with
    | .mysql => callText "CONCAT" parts
    | .mssql => Fragment.parens (Fragment.join " + " parts)
    | .sqlite | .postgres => Fragment.parens (Fragment.join " || " parts)

/-- A cast to a type of the dialect. -/
def castTo (f : Fragment) (type : String) : Fragment := "CAST(" ++ f ++ " AS " ++ type ++ ")"

/-- The values of a group joined with commas. -/
def aggregated (d : Dialect) (f : Fragment) : Fragment :=
  match d with
  | .sqlite | .mysql => callText "GROUP_CONCAT" [f]
  | .postgres => callText "STRING_AGG" [castTo f "TEXT", "','"]
  | .mssql => callText "STRING_AGG" [f, "','"]

end Dialect

/-! ## JSON -/

/-- A bound text. -/
def boundText (s : String) : Fragment := Fragment.bound (.text s)

/-- The bound keys of a path, as PostgreSQL takes them. -/
def keyArray (keys : List String) : Fragment :=
  "ARRAY[" ++ Fragment.join ", " (keys.map boundText) ++ "]::text[]"

/-- A part of a JSON document. PostgreSQL binds the keys before the document, though it writes them
after it. -/
def jsonPartOf (d : Dialect) (e : Expr) (written : Rendered Fragment) (path : JsonPath)
    (asText : Bool) : Rendered Fragment :=
  match d with
  | .sqlite => do return callText "json_extract" [← written, boundText path.written]
  | .mysql => do
    let part := callText "JSON_EXTRACT" [← written, boundText path.written]
    return if asText then callText "JSON_UNQUOTE" [part] else part
  | .mssql => do
    let name := if asText then "JSON_VALUE" else "JSON_QUERY"
    return callText name [← written, boundText path.written]
  | .postgres =>
    match path with
    | .text _ => lacks d .jsonPathText
    | .keys first rest => do
      let document ← operandOf e written
      let keys := keyArray (first :: rest)
      let operator := if asText then "#>>" else "#>"
      return Fragment.parens (Fragment.cross (document ++ operator) keys)

/-- Whether a JSON array contains the elements of another. -/
def jsonContainsSql (d : Dialect) (e : Expr) (document value : Rendered Fragment)
    (negated : Bool) : Rendered Fragment :=
  match d with
  | .mysql => do
    let document ← document
    let value ← value
    return negatedIf negated (callText "JSON_CONTAINS" [document, value])
  | .postgres => do
    let document ← operandOf e document
    let value ← value
    return negatedIf negated (document ++ " @> " ++ value)
  | .sqlite | .mssql => lacks d .jsonContainment

/-- Whether a JSON array has a value at one of its ends. -/
def jsonEdgeSql (d : Dialect) (e : Expr) (document value : Rendered Fragment) (edge : ArrayEdge)
    (negated : Bool) : Rendered Fragment :=
  match d with
  | .sqlite => do
    let path := match edge with | .first => "'$[0]'" | .last => "'$[#-1]'"
    let document ← operandOf e document
    let value ← value
    return negatedIf negated (document ++ " -> " ++ path ++ " = " ++ callText "json" [value])
  | .mysql => do
    let path := match edge with | .first => "'$[0]'" | .last => "'$[last]'"
    let document ← document
    let value ← value
    return negatedIf negated
      (callText "JSON_EXTRACT" [document, path] ++ " = " ++ Dialect.castTo value "JSON")
  | .postgres => do
    let index := match edge with | .first => "0" | .last => "-1"
    let document ← operandOf e document
    let value ← value
    return negatedIf negated (document ++ "->" ++ index ++ " = " ++ value)
  | .mssql => lacks d (.jsonEdge edge)

/-- Whether a JSON value is of a type. -/
def jsonTypeSql (d : Dialect) (document : Rendered Fragment) (type : JsonType) :
    Rendered Fragment :=
  match d.jsonTypeFunction? with
  | none => lacks d .jsonTypeTest
  | some function => do
    let call := callText function [← document]
    match d.jsonTypeNames type with
    | [name] => return call ++ " = " ++ boundText name
    | names => return call ++ " IN " ++ Fragment.tuple (names.map boundText)

/-! ## Full-text search -/

/-- The columns of a full-text search. -/
def searchedColumns (d : Dialect) (es : List Expr) (columns : List (Rendered Fragment)) :
    Rendered Fragment :=
  match d with
  | .postgres => do
    match ← allOk columns with
    | [column] => return callText "to_tsvector" [column]
    | columns => do
      requireTexts es
      return callText "to_tsvector" [callText "concat_ws" ("' '" :: columns)]
  | _ => lacks d .fullText

/-- Whether searched columns match a query. The columns are those of `e` if it is a search, and `e`
itself otherwise. -/
def matchSql (d : Dialect) (e : Expr) (search : Rendered Fragment)
    (parts : List (Rendered Fragment)) (query : Rendered Fragment) (negated : Bool) :
    Rendered Fragment :=
  let es := if e.isTextSearch then e.parts else [e]
  let columns := if e.isTextSearch then parts else [search]
  match d with
  | .sqlite => lacks d .fullText
  | .mysql => do
    let columns ← textsOf es columns
    let query ← query
    return negatedIf negated
      ("MATCH " ++ Fragment.tuple columns ++ " AGAINST (" ++ query ++ " IN BOOLEAN MODE)")
  | .postgres => do
    let search ← search
    let query ← query
    return negatedIf negated (search ++ " @@ " ++ callText "to_tsquery" [query])
  | .mssql => do
    let columns ← textsOf es columns
    let query ← query
    let columns :=
      match columns with
      | [column] => column
      | columns => Fragment.tuple columns
    return negatedIf negated (callText "CONTAINS" [columns, query])

/-- The row of a table as a JSON object. -/
def rowToJsonSql (d : Dialect) (table : Name) (pretty : Bool) : Rendered Fragment :=
  match d with
  | .postgres =>
    (nameOf table).map fun name =>
      callText "ROW_TO_JSON" (name :: if pretty then ["true"] else [])
  | _ => lacks d .rowToJson

/-! ## Windows and raw fragments -/

/-- A clause that lists expressions, left out if there are none. -/
def listClause (word : String) (items : List Fragment) : List Fragment :=
  if items.isEmpty then [] else [word ++ " " ++ Fragment.join ", " items]

/-- The inside of a window. -/
def windowText (partition order : List Fragment) : Fragment :=
  Fragment.join " " (listClause "PARTITION BY" partition ++ listClause "ORDER BY" order)

/-- What a window is where none is given. -/
def missingWindow (given : Expr) : Rendered Fragment :=
  match given with
  | .tuple [] => .ok Fragment.empty
  | .foreign object => if object.isTrue then lacksPart else .ok Fragment.empty
  | _ => lacksPart

/-- The expression that replaces a mark: the first of its name. -/
def boundTo (name : List Char) (bindings : List (Name × Expr × Rendered Fragment)) :
    Option (Expr × Rendered Fragment) :=
  (bindings.find? fun b => b.1.same (.word (String.ofList name))).map (·.2)

/-- The parts of a template in order, with expressions in place of the marks. -/
def fillTemplate (template : String) (bindings : List (Name × Expr × Rendered Fragment)) :
    List Template.Part → Rendered Fragment
  | [] => .ok Fragment.empty
  | .text cs :: rest => do
    return Fragment.ofText (String.ofList cs) ++ (← fillTemplate template bindings rest)
  | .mark name :: rest =>
    match boundTo name bindings with
    | none => .error (.unboundMark (String.ofList name) template)
    | some (e, written) => do
      let f ← written
      return (if e.isBlank then Fragment.empty else f) ++ (← fillTemplate template bindings rest)

/-- The expressions that replace the marks of a template, but for the nulls. -/
def fillings (bindings : List (Name × Expr × Rendered Fragment)) :
    List Template.Part → List Expr
  | [] => []
  | .text _ :: rest => fillings bindings rest
  | .mark name :: rest =>
    ((boundTo name bindings).toList.map (·.1)).filter (fun e => !e.isBlank) ++
      fillings bindings rest

/-- The text of a raw fragment with its alias in place of the marks for it. -/
def rawChars (sql : Data) (aliasName : Name) : Rendered (List Char) :=
  match sql.asText? with
  | some s =>
    if aliasName.isTrue && aliasName.asText?.isNone then unusable
    else .ok (Template.withAlias aliasName.asText? s)
  | none => if aliasName.isTrue && !sql.hasReplacements then lacksPart else unusable

/-- A raw fragment with its alias and its named expressions in place. -/
def rawText (sql : Data) (aliasName : Name) (template : Bool)
    (bindings : List (Name × Expr × Rendered Fragment)) : Rendered Fragment := do
  if !aliasName.isTrue && !template then return Fragment.ofText sql.plain
  let cs ← rawChars sql aliasName
  if template then do
    let parts := Template.parts cs
    let filled ← fillTemplate sql.plain bindings parts
    requireTexts (fillings bindings parts)
    return filled
  else return String.ofList cs

end SqlScribe
