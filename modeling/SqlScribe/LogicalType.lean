import SqlScribe.Data
import SqlScribe.Text.UpperCase
import SqlScribe.Text.Blank

/-!
# Logical types

The types that a cast can name. They belong to no dialect; each dialect has a type of its own for
every one of them. A logical type has several spellings, in any case and with blanks around them.
-/

namespace SqlScribe

/-- A type that every dialect has a counterpart for. -/
inductive LogicalType where
  | string | integer | bigint | decimal | float | boolean | date | time | timestamp | binary
  | uuid | json
deriving DecidableEq, Repr

namespace LogicalType

/-- All logical types. -/
def all : List LogicalType :=
  [.string, .integer, .bigint, .decimal, .float, .boolean, .date, .time, .timestamp, .binary,
    .uuid, .json]

/-- The canonical name. -/
def name : LogicalType → String
  | .string => "STRING" | .integer => "INTEGER" | .bigint => "BIGINT" | .decimal => "DECIMAL"
  | .float => "FLOAT" | .boolean => "BOOLEAN" | .date => "DATE" | .time => "TIME"
  | .timestamp => "TIMESTAMP" | .binary => "BINARY" | .uuid => "UUID" | .json => "JSON"

/-- The type with exactly this canonical name. -/
def ofName? (s : String) : Option LogicalType := all.find? fun t => t.name == s

/-- Every spelling in capitals, with its type. -/
def spellings : List (String × LogicalType) :=
  [("TEXT", .string), ("VARCHAR", .string), ("CHAR", .string), ("STRING", .string),
    ("INT", .integer), ("INTEGER", .integer), ("INT32", .integer),
    ("BIGINT", .bigint), ("INT64", .bigint), ("LONG", .bigint),
    ("DECIMAL", .decimal), ("NUMERIC", .decimal),
    ("FLOAT", .float), ("DOUBLE", .float), ("FLOAT64", .float),
    ("BOOL", .boolean), ("BOOLEAN", .boolean),
    ("DATE", .date), ("TIME", .time), ("TIMESTAMP", .timestamp), ("DATETIME", .timestamp),
    ("BINARY", .binary), ("BYTES", .binary), ("BLOB", .binary),
    ("UUID", .uuid), ("JSON", .json)]

/-- The type that a text spells. -/
def ofText? (s : String) : Option LogicalType :=
  spellings.lookup (Text.upper (Text.strip s))

/-- The type that data spell; data that are no text spell none. -/
def ofData? : Data → Option LogicalType
  | .text s => ofText? s
  | _ => none

theorem mem_all (t : LogicalType) : t ∈ all := by cases t <;> decide

/-- The canonical name of a type is one of its spellings. -/
theorem lookup_name (t : LogicalType) : spellings.lookup t.name = some t := by
  cases t <;> decide

end LogicalType

end SqlScribe
