import SqlScribe.Calendar
import SqlScribe.Number.Decimal
import SqlScribe.Number.Double
import SqlScribe.Uuid

/-!
# Values

A `Value` is what a statement binds: every operand that is not part of the text of the query ends
up as one. Values of different kinds are never equal, and only values of one kind can be ordered.
JSON documents and arrays are not ordered at all.

`Value.same` is the equality of a kind: numbers and decimals by what they denote, aware date-times
of different zones by the instant, and a NaN differs from itself.
-/

namespace SqlScribe

/-- The kinds of values. -/
inductive Kind where
  | null | int64 | float64 | text | bytes | bool | dateTime | date | time | uuid | json | decimal
  | enum | xml | array
deriving DecidableEq, Repr

namespace Kind

/-- All kinds. -/
def all : List Kind :=
  [.null, .int64, .float64, .text, .bytes, .bool, .dateTime, .date, .time, .uuid, .json, .decimal,
    .enum, .xml, .array]

/-- The word for a kind in messages and answers. -/
def name : Kind → String
  | .null => "null" | .int64 => "int64" | .float64 => "float64" | .text => "text"
  | .bytes => "bytes" | .bool => "bool" | .dateTime => "datetime" | .date => "date"
  | .time => "time" | .uuid => "uuid" | .json => "json" | .decimal => "decimal"
  | .enum => "enum" | .xml => "xml" | .array => "array"

/-- The name of the variant that holds values of a kind. -/
def variant : Kind → String
  | .null => "Null" | .int64 => "Int64" | .float64 => "Float64" | .text => "Text"
  | .bytes => "Bytes" | .bool => "Bool" | .dateTime => "DateTime" | .date => "Date"
  | .time => "Time" | .uuid => "Uuid" | .json => "Json" | .decimal => "Decimal"
  | .enum => "Enum" | .xml => "Xml" | .array => "Array"

/-- The kind whose variant has this name. -/
def ofVariant? (s : String) : Option Kind := all.find? fun k => k.variant == s

end Kind

/-- A value that a statement can bind. JSON is held as its text. -/
inductive Value where
  | null
  | int64 (n : Int64)
  | float64 (x : Double)
  | text (s : String)
  | bytes (octets : List UInt8)
  | bool (b : Bool)
  | dateTime (t : DateTime)
  | date (d : Date)
  | time (t : Time)
  | uuid (u : Uuid)
  | json (document : String)
  | decimal (d : Decimal)
  | enum (label : String)
  | xml (document : String)
  | array (items : List Value)
deriving Inhabited

namespace Value

/-- The kind of a value. -/
def kind : Value → Kind
  | .null => .null | .int64 _ => .int64 | .float64 _ => .float64 | .text _ => .text
  | .bytes _ => .bytes | .bool _ => .bool | .dateTime _ => .dateTime | .date _ => .date
  | .time _ => .time | .uuid _ => .uuid | .json _ => .json | .decimal _ => .decimal
  | .enum _ => .enum | .xml _ => .xml | .array _ => .array

/-- Whether a value is the null. -/
def isNull (v : Value) : Bool := v.kind == .null

mutual

/-- Equality of values of one kind; values of different kinds differ. -/
def same : Value → Value → Bool
  | .null, .null => true
  | .int64 a, .int64 b => a == b
  | .float64 a, .float64 b => a.same b
  | .text a, .text b => a == b
  | .bytes a, .bytes b => a == b
  | .bool a, .bool b => a == b
  | .dateTime a, .dateTime b => a.same b
  | .date a, .date b => a == b
  | .time a, .time b => a.same b
  | .uuid a, .uuid b => a == b
  | .json a, .json b => a == b
  | .decimal a, .decimal b => a.same b
  | .enum a, .enum b => a == b
  | .xml a, .xml b => a == b
  | .array a, .array b => sameAll a b
  | _, _ => false

/-- Equality of lists of values, place by place. -/
def sameAll : List Value → List Value → Bool
  | [], [] => true
  | a :: as, b :: bs => same a b && sameAll as bs
  | _, _ => false

end

end Value

end SqlScribe
