import SqlScribe.Dialect
import SqlScribe.Malformed

/-!
# What can go wrong while a statement is written

A dialect may lack a feature, a page of rows may lack an order, and things may stand where an
expression, a query or a source is expected. The causes of building show up here again where an
expression is rebuilt before it is written.
-/

namespace SqlScribe

/-- A feature that some dialect lacks. -/
inductive Feature where
  | jsonExtraction | jsonContainment
  | jsonEdge (edge : ArrayEdge)
  | jsonTypeTest | fullText | rowToJson | fullJoin | returning
  /-- A JSON path that is given as a text. -/
  | jsonPathText
  | conditionalUpsert | untargetedUpsert
  /-- An upsert whose target has columns that are not inserted. -/
  | upsertBeyondInsert (missing : List String)
  | arrayValue
deriving DecidableEq, Repr

namespace Feature

/-- The name of a feature. -/
def text : Feature → String
  | .jsonExtraction => "JSON extraction"
  | .jsonContainment => "JSON array containment"
  | .jsonEdge edge => "JSON array " ++ edge.text ++ " element comparison"
  | .jsonTypeTest => "JSON type comparison"
  | .fullText => "full-text search"
  | .rowToJson => "ROW_TO_JSON"
  | .fullJoin => "FULL JOIN"
  | .returning => "RETURNING"
  | .jsonPathText => "JSON path string"
  | .conditionalUpsert => "conditional upsert"
  | .untargetedUpsert => "upsert without conflict target"
  | .upsertBeyondInsert _ => "upsert"
  | .arrayValue => "array value"

/-- What a message adds to the name. -/
def detail? : Feature → Option String
  | .jsonPathText => some "pass the path as a sequence of keys"
  | .conditionalUpsert => some "ON DUPLICATE KEY UPDATE has no WHERE clause"
  | .untargetedUpsert => some "MERGE needs the conflict target columns to match rows"
  | .upsertBeyondInsert missing =>
    some ("conflict target columns " ++ ", ".intercalate missing ++ " are not inserted")
  | _ => none

end Feature

/-- Why a statement cannot be written. -/
inductive RenderError where
  | unsupported (d : Dialect) (feature : Feature)
  /-- Rows are counted without an order. The columns are those of the primary key that a select of
  distinct rows does not show. -/
  | unordered (d : Dialect) (missing : List String)
  | notExpression (d : Dialect) (typeName : String)
  | notQuery (typeName : String)
  | notSource (typeName : String)
  | strayExcluded (column : Data)
  | unboundMark (name template : String)
  | unknownCastTarget (d : Dialect) (name : Data)
  | notStatement (typeName : String)
  /-- The thing that a certain dialect was asked to write is no statement. -/
  | notStatementOf (d : Dialect) (typeName : String)
  | building (cause : BuildError)

namespace RenderError

/-- The wording of an error, where it has one. -/
def message? : RenderError → Option String
  | .unsupported d feature =>
    some (feature.text ++ " is not supported by the " ++ d.name ++ " dialect" ++
      match feature.detail? with
      | some detail => ": " ++ detail
      | none => "")
  | .unordered d missing =>
    some (d.name ++ " pagination requires an ORDER BY clause; " ++
      "add an explicit ordering or declare a primary key on the source table" ++
      if missing.isEmpty then ""
      else " (primary key column(s) " ++ ", ".intercalate missing ++
        " not in the DISTINCT select list)")
  | .notExpression d typeName =>
    some ("Unsupported expression type for " ++ d.typeName ++ ": " ++ typeName)
  | .notQuery typeName => some ("Unsupported subquery type: " ++ typeName)
  | .notSource typeName => some ("Unsupported FROM item: " ++ typeName)
  | .strayExcluded column =>
    some ("excluded(" ++ column.display ++ ") is only valid inside an upsert update")
  | .unboundMark name template =>
    some ("Missing expr_binding for " ++ name ++ " in RawSql template: " ++ template)
  | .unknownCastTarget d name =>
    some ("Unsupported logical type for " ++ d.name ++ ": " ++ name.display)
  | .notStatement typeName =>
    some ("Unsupported statement type: " ++ typeName ++ ". " ++
      "Expected LogicalSelect, LogicalUnion, LogicalInsert, LogicalUpdate or LogicalDelete.")
  | .notStatementOf d typeName =>
    some ("Unsupported statement type for " ++ d.typeName ++ ": " ++ typeName)
  | .building cause => cause.message?

end RenderError

/-- The outcome of writing something. -/
abbrev Rendered (α : Type) := Except RenderError α

/-- What a list of outcomes gives: the first error, or all results. -/
def allOk {α : Type} : List (Rendered α) → Rendered (List α)
  | [] => .ok []
  | r :: rest => do
    let a ← r
    return a :: (← allOk rest)

/-- The outcome of building something, as a step of writing. -/
def rebuilt {α : Type} : Build α → Rendered α
  | .ok a => .ok a
  | .error e => .error (.building e)

/-- Refuses a feature that a dialect lacks. -/
def lacks {α : Type} (d : Dialect) (feature : Feature) : Rendered α :=
  .error (.unsupported d feature)

/-- Refuses something that is of no use where it stands. -/
def unusable {α : Type} : Rendered α := .error (.building .wrongArgument)

/-- Refuses something that lacks a part that it is asked for. -/
def lacksPart {α : Type} : Rendered α := .error (.building .missingPart)

/-- The type that a cast names, for the canonical name of a logical type. -/
def Dialect.castTargetNamed (d : Dialect) (name : Data) : Rendered String :=
  match name.asText?.bind LogicalType.ofName? with
  | some t => .ok (d.castTarget t)
  | none => if name.isKey then .error (.unknownCastTarget d name) else unusable

end SqlScribe
