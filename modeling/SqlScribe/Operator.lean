import SqlScribe.Text.UpperCase
import SqlScribe.Text.LowerCase

/-!
# Operators and other choices

The fixed choices inside statements: operators, connectives, directions of order, kinds of join and
so on. Each has the word that is written and a reader for the spelling of a caller, which goes by
the upper or the lower case of all of Unicode.
-/

namespace SqlScribe

/-- The comparisons and the arithmetic operators between two operands. -/
inductive Operator where
  | eq | ne | lt | le | gt | ge | like | notLike | add | sub | mul | div | mod
deriving DecidableEq, Repr

namespace Operator

/-- All operators. -/
def all : List Operator :=
  [.eq, .ne, .lt, .le, .gt, .ge, .like, .notLike, .add, .sub, .mul, .div, .mod]

/-- The operator as it is written. -/
def text : Operator → String
  | .eq => "=" | .ne => "<>" | .lt => "<" | .le => "<=" | .gt => ">" | .ge => ">="
  | .like => "LIKE" | .notLike => "NOT LIKE"
  | .add => "+" | .sub => "-" | .mul => "*" | .div => "/" | .mod => "%"

/-- The operator that a spelling names, in any case. -/
def ofText? (s : String) : Option Operator := all.find? fun op => op.text == Text.upper s

end Operator

/-- The two connectives of conditions. -/
inductive Connective where
  | and | or
deriving DecidableEq, Repr

namespace Connective

/-- The connective as it is written. -/
def text : Connective → String
  | .and => "AND"
  | .or => "OR"

/-- The connective that a spelling names, in any case. -/
def ofText? (s : String) : Option Connective :=
  [Connective.and, .or].find? fun c => c.text == Text.upper s

end Connective

/-- The direction of an ordering. -/
inductive Direction where
  | asc | desc
deriving DecidableEq, Repr

namespace Direction

/-- The direction as it is written. -/
def text : Direction → String
  | .asc => "ASC"
  | .desc => "DESC"

/-- The direction that a spelling names, in any case. -/
def ofText? (s : String) : Option Direction :=
  [Direction.asc, .desc].find? fun d => d.text == Text.upper s

end Direction

/-- The types of JSON values. -/
inductive JsonType where
  | array | boolean | number | object | string | null
deriving DecidableEq, Repr

namespace JsonType

/-- All types. -/
def all : List JsonType := [.array, .boolean, .number, .object, .string, .null]

/-- The name of a type. -/
def text : JsonType → String
  | .array => "array" | .boolean => "boolean" | .number => "number" | .object => "object"
  | .string => "string" | .null => "null"

/-- The type that a spelling names, in any case. -/
def ofText? (s : String) : Option JsonType := all.find? fun t => t.text == Text.lower s

end JsonType

/-- The two ends of a JSON array. -/
inductive ArrayEdge where
  | first | last
deriving DecidableEq, Repr

namespace ArrayEdge

/-- The name of an end. -/
def text : ArrayEdge → String
  | .first => "first"
  | .last => "last"

/-- The end with exactly this name. -/
def ofText? (s : String) : Option ArrayEdge := [ArrayEdge.first, .last].find? fun e => e.text == s

end ArrayEdge

/-- The kinds of join. -/
inductive JoinKind where
  | inner | left | right | full | cross
deriving DecidableEq, Repr

namespace JoinKind

/-- All kinds. -/
def all : List JoinKind := [.inner, .left, .right, .full, .cross]

/-- The name of a kind. -/
def text : JoinKind → String
  | .inner => "inner" | .left => "left" | .right => "right" | .full => "full" | .cross => "cross"

/-- The name of a kind as it is written. -/
def capitals : JoinKind → String
  | .inner => "INNER" | .left => "LEFT" | .right => "RIGHT" | .full => "FULL" | .cross => "CROSS"

/-- The kind that a spelling names, in any case. -/
def ofText? (s : String) : Option JoinKind := all.find? fun k => k.text == Text.lower s

end JoinKind

/-- Whether a union keeps repeated rows. -/
inductive UnionKind where
  | all | distinct
deriving DecidableEq, Repr

namespace UnionKind

/-- The name of a kind of union. -/
def text : UnionKind → String
  | .all => "ALL"
  | .distinct => "DISTINCT"

/-- The kind that a spelling names, in any case. -/
def ofText? (s : String) : Option UnionKind :=
  [UnionKind.all, .distinct].find? fun k => k.text == Text.upper s

end UnionKind

/-- The two images of a row that a changing statement can return. -/
inductive RowImage where
  | inserted | deleted
deriving DecidableEq, Repr

/-- The name of the pseudo-table that holds an image. -/
def RowImage.text : RowImage → String
  | .inserted => "INSERTED"
  | .deleted => "DELETED"

end SqlScribe
