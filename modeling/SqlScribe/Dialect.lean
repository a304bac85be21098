import SqlScribe.LogicalType
import SqlScribe.Operator
import SqlScribe.Text.Digits

/-!
# Dialects

The four dialects of SQL that statements are written in, with what is fixed for each: its names, how
it writes places for bound values, which features it has, and the words that it uses for things that
all dialects have. How whole expressions and statements are laid out is told elsewhere.
-/

namespace SqlScribe

/-- A dialect of SQL. -/
inductive Dialect where
  | sqlite | mysql | postgres | mssql
deriving DecidableEq, Repr

namespace Dialect

/-- All dialects, in the order of their names. -/
def all : List Dialect := [.mssql, .mysql, .postgres, .sqlite]

/-- The name of a dialect. -/
def name : Dialect → String
  | .sqlite => "sqlite"
  | .mysql => "mysql"
  | .postgres => "postgres"
  | .mssql => "mssql"

/-- The type name of a dialect, as messages give it. -/
def typeName : Dialect → String
  | .sqlite => "SqliteDialect"
  | .mysql => "MySqlDialect"
  | .postgres => "PostgresDialect"
  | .mssql => "MssqlDialect"

/-- The dialect with exactly this name. -/
def ofName? (s : String) : Option Dialect := all.find? fun d => d.name == s

/-! ## Places for bound values -/

/-- The style in which places are written. -/
def placeholderStyle : Dialect → String
  | .sqlite | .mysql => "qmark"
  | .postgres => "numeric_dollar"
  | .mssql => "named_at"

/-- The place for the value with a number, counted from one. -/
def placeholder (d : Dialect) (index : Int) : String :=
  match d with
  | .sqlite | .mysql => "?"
  | .postgres => "$" ++ Text.intText index
  | .mssql => "@p" ++ Text.intText index

/-! ## Features -/

/-- Whether changes of a table can return rows. -/
def hasReturning : Dialect → Bool
  | .mysql => false
  | _ => true

/-- Whether an insert can change a row that is already there: all dialects have a way. -/
def hasUpsert (_ : Dialect) : Bool := true

/-- Whether there is a form of its own for keeping a row that is already there. -/
def hasDoNothing : Dialect → Bool
  | .mysql => false
  | _ => true

/-- Whether arrays can be bound. -/
def hasArrays : Dialect → Bool
  | .postgres => true
  | _ => false

/-! ## Words -/

/-- A constant truth value. -/
def truthWord (d : Dialect) (value : Bool) : String :=
  match d with
  | .sqlite | .postgres => if value then "TRUE" else "FALSE"
  | .mysql | .mssql => if value then "1" else "0"

/-- The type that a cast to a logical type names. -/
def castTarget : Dialect → LogicalType → String
  | .sqlite, .string => "TEXT"
  | .sqlite, .integer => "INTEGER"
  | .sqlite, .bigint => "INTEGER"
  | .sqlite, .decimal => "NUMERIC"
  | .sqlite, .float => "REAL"
  | .sqlite, .boolean => "INTEGER"
  | .sqlite, .date => "TEXT"
  | .sqlite, .time => "TEXT"
  | .sqlite, .timestamp => "TEXT"
  | .sqlite, .binary => "BLOB"
  | .sqlite, .uuid => "TEXT"
  | .sqlite, .json => "TEXT"
  | .mysql, .string => "CHAR"
  | .mysql, .integer => "SIGNED"
  | .mysql, .bigint => "SIGNED"
  | .mysql, .decimal => "DECIMAL(38, 10)"
  | .mysql, .float => "DOUBLE"
  | .mysql, .boolean => "SIGNED"
  | .mysql, .date => "DATE"
  | .mysql, .time => "TIME"
  | .mysql, .timestamp => "DATETIME"
  | .mysql, .binary => "BINARY"
  | .mysql, .uuid => "CHAR(36)"
  | .mysql, .json => "JSON"
  | .postgres, .string => "TEXT"
  | .postgres, .integer => "INTEGER"
  | .postgres, .bigint => "BIGINT"
  | .postgres, .decimal => "NUMERIC"
  | .postgres, .float => "DOUBLE PRECISION"
  | .postgres, .boolean => "BOOLEAN"
  | .postgres, .date => "DATE"
  | .postgres, .time => "TIME"
  | .postgres, .timestamp => "TIMESTAMP"
  | .postgres, .binary => "BYTEA"
  | .postgres, .uuid => "UUID"
  | .postgres, .json => "JSONB"
  | .mssql, .string => "NVARCHAR(MAX)"
  | .mssql, .integer => "INT"
  | .mssql, .bigint => "BIGINT"
  | .mssql, .decimal => "DECIMAL(38, 10)"
  | .mssql, .float => "FLOAT"
  | .mssql, .boolean => "BIT"
  | .mssql, .date => "DATE"
  | .mssql, .time => "TIME"
  | .mssql, .timestamp => "DATETIME2"
  | .mssql, .binary => "VARBINARY(MAX)"
  | .mssql, .uuid => "UNIQUEIDENTIFIER"
  | .mssql, .json => "NVARCHAR(MAX)"

/-- The limit that is written where only rows to skip are asked for; none if it can be left out. -/
def endlessLimit? : Dialect → Option String
  | .sqlite => some "-1"
  | .mysql => some "18446744073709551615"
  | _ => none

/-- The function that tells the type of a JSON value. -/
def jsonTypeFunction? : Dialect → Option String
  | .sqlite => some "json_type"
  | .mysql => some "JSON_TYPE"
  | .postgres => some "JSONB_TYPEOF"
  | .mssql => none

/-- The names that this function has for a type. -/
def jsonTypeNames : Dialect → JsonType → List String
  | .sqlite, .boolean => ["true", "false"]
  | .sqlite, .number => ["integer", "real"]
  | .sqlite, .string => ["text"]
  | .mysql, .array => ["ARRAY"]
  | .mysql, .boolean => ["BOOLEAN"]
  | .mysql, .number => ["INTEGER", "UNSIGNED INTEGER", "DOUBLE", "DECIMAL"]
  | .mysql, .object => ["OBJECT"]
  | .mysql, .string => ["STRING"]
  | .mysql, .null => ["NULL"]
  | _, type => [type.text]

theorem mem_all (d : Dialect) : d ∈ all := by cases d <;> decide

theorem ofName?_name (d : Dialect) : ofName? d.name = some d := by cases d <;> decide

end Dialect

end SqlScribe
