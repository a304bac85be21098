import SqlScribe.Dialect.Encoding
import SqlScribe.Log
import SqlScribe.Render.Change

/-!
# Finished queries

A statement becomes the text of a query, the values that it binds in the order of their places, and
the same values as a driver takes them. The values are encoded after the text is complete, so a
statement that cannot be written is reported as such even if a value could not be bound either.
-/

namespace SqlScribe

/-- A query that is ready for a driver. -/
structure PreparedQuery where
  dialect : Dialect
  sql : String
  bindings : List Value
  params : List Data

/-- A fragment as a query for a driver. -/
def Fragment.toQuery (style : Style) (f : Fragment) : Rendered PreparedQuery :=
  (Dialect.encodeAll style.dialect f.values).map fun params =>
    ⟨style.dialect, f.spell style, f.values, params⟩

/-- A statement in a style. -/
def Statement.toQuery (style : Style) (s : Statement) : Rendered PreparedQuery :=
  (s.render style.dialect >>= Fragment.toQuery style).mapError (RenderError.inStyle style)

/-- The text of a fragment in a style, with the values that it binds. -/
def spelledIn (style : Style) (written : Rendered Fragment) : Rendered (String × List Value) :=
  (written.map fun f => (f.spell style, f.values)).mapError (RenderError.inStyle style)

/-- An expression in a style, by itself or where a condition is expected. The data of a raw fragment
are handed on if they are no text. -/
def Expr.toText (style : Style) (condition : Bool) (e : Expr) : Rendered (Data × List Value) :=
  let written := e.render style.dialect
  let written := if condition then predicateOf style.dialect e written else written
  (spelledIn style written).map fun (sql, values) => (e.bare?.getD (.text sql), values)

/-- What a caller may ask to be rendered. -/
inductive Request where
  | statement (s : Statement)
  | other (typeName : String)

/-- The query for a request that is put to a dialect itself. -/
def Request.toQuery (style : Style) : Request → Rendered PreparedQuery
  | .statement s => s.toQuery style
  | .other typeName => .error (.notStatementOf style.dialect typeName)

/-- The statement of a request. -/
def Request.statement? : Request → Rendered Statement
  | .statement s => .ok s
  | .other typeName => .error (.notStatement typeName)

/-! ## Records -/

/-- The word for a kind of statement. -/
def Statement.word : Statement → String
  | .select _ => "SELECT"
  | .union _ => "UNION"
  | .insert _ => "INSERT"
  | .update _ => "UPDATE"
  | .delete _ => "DELETE"

/-- What is told about an insert on the way: MySQL has no form for keeping a row that is already
there, and assigns a column to itself instead. -/
def Insert.remarks (d : Dialect) (i : Insert) : List LogRecord :=
  match d, i.target, i.conflict with
  | .mysql, .table t, some (.conflict ⟨target, .nothing⟩) =>
    let column := (Conflict.mk target .nothing).idleColumn i.columns
    match i.head, i.rowSource d, nameOf column with
    | .ok _, .ok _, .ok _ =>
      [⟨.debug, "Emulating DO NOTHING on " ++ t.name.view.plain ++ " with a no-op assignment to " ++
        column.view.plain⟩]
    | _, _, _ => []
  | _, _, _ => []

/-- What is told about a statement on the way. -/
def Statement.remarks (d : Dialect) : Statement → List LogRecord
  | .insert i => i.remarks d
  | _ => []

/-- What is told about a finished query: its shape, and nothing of its values. -/
def PreparedQuery.remark (word : String) (q : PreparedQuery) : LogRecord :=
  ⟨.debug, "Rendered " ++ word ++ " for " ++ q.dialect.name ++ ": " ++
    Text.natText q.sql.length ++ " chars, " ++ Text.natText q.bindings.length ++ " bindings"⟩

/-- A statement in a style, with what is told on the way. -/
def Statement.toQueryLogged (style : Style) (s : Statement) : Logged (Rendered PreparedQuery) :=
  let result := s.toQuery style
  let remarks := s.remarks style.dialect
  match result with
  | .ok q => ⟨result, remarks ++ [q.remark s.word]⟩
  | .error _ => ⟨result, remarks⟩

end SqlScribe
