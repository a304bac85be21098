import SqlScribe.Expr.Make
import SqlScribe.LikePattern

/-!
# Combining expressions

The vocabulary in which expressions are written. Every function takes operands, so that plain data
may stand for values to bind, and returns a new expression.

`combine` joins conditions: an operand that is itself joined by the same connective gives its own
conditions, one level deep, and a single condition is returned bare.
-/

namespace SqlScribe.Expr

/-! ## Conditions -/

/-- The conditions that an operand adds to those joined by `op`. -/
def conditions (op : Connective) : Expr → List Expr
  | .logical op' first rest =>
    if op' = op then first :: rest else [.logical op' first rest]
  | e => [e]

/-- The conditions of a list of operands, in order. -/
def allConditions (op : Connective) : List Expr → Build (List Expr)
  | [] => .ok []
  | e :: rest => do
    let e ← e.operand
    return e.conditions op ++ (← allConditions op rest)

/-- The operands joined by a connective. -/
def combine (op : Connective) (es : List Expr) : Build Expr := do
  match ← allConditions op es with
  | [] => refuse (.noOperands op)
  | [e] => return e
  | first :: rest => return .logical op first rest

/-- The negation of an operand. -/
def negation (e : Expr) : Build Expr := e.operand.map .not

/-! ## Comparisons -/

/-- Two operands under an operator. -/
def comparison (op : Operator) (left right : Expr) : Build Expr := do
  let left ← left.operand
  let right ← right.operand
  return .binary op left right

/-- One item of a list: a sequence is a row of operands. -/
def listItem : Expr → Build Expr
  | .tuple items => do makeRow (← operands items)
  | e => e.operand

/-- The items of a list, in order. -/
def listItems : List Expr → Build (List Expr)
  | [] => .ok []
  | e :: rest => do
    let e ← e.listItem
    return e :: (← listItems rest)

/-- Whether an operand is, or is not, among the items. -/
def membership (e : Expr) (items : List Expr) (negated : Flag) : Build Expr := do
  let e ← e.operand
  makeInList e (← listItems items) negated

/-- Whether an operand is, or is not, among the rows of a query. -/
def queryMembership (e : Expr) (query : Query) (negated : Flag) : Build Expr :=
  e.operand.map fun e => .inQuery e query negated

/-- Whether an operand lies between two others. -/
def range (e low high : Expr) (negated : Flag) : Build Expr := do
  let e ← e.operand
  let low ← low.operand
  let high ← high.operand
  return .between e low high negated

/-- Whether an operand matches a pattern that is bound as a text. -/
def matchesPattern (e : Expr) (pattern : String) : Build Expr :=
  comparison .like e (.foreign (.text pattern))

/-- Whether an operand is, or is not, null. -/
def nullTest (e : Expr) (negated : Flag) : Build Expr := e.operand.map fun e => .isNull e negated

/-! ## Functions -/

/-- A call with operands. -/
def callOn (name : Data) (args : List Expr) (distinct : Flag) : Build Expr := do
  makeCall name (.ok (← operands args)) distinct

/-- The number of rows, or of the values of an operand that are not null. -/
def count (e : Expr) (distinct : Flag) : Build Expr :=
  match e.optional with
  | none => makeCall (.text "COUNT") (.ok [.star .absent]) (.switch false)
  | some e => callOn (.text "COUNT") [e] distinct

/-- A cast of an operand. -/
def castOf (e : Expr) (target : Data) : Build Expr := do
  makeCast (← e.operand) target

/-- The first operand that is not null. -/
def coalesceOf (es : List Expr) : Build Expr := (operands es).map .coalesce

/-- The operands joined to one text. -/
def concatOf (es : List Expr) : Build Expr := (operands es).map .concat

/-- The values of an operand joined to one text. -/
def aggregateTextOf (e : Expr) : Build Expr := e.operand.map .aggregateText

/-! ## Order and rows -/

/-- An operand with a direction of order. -/
def ordered (e : Expr) (direction : Direction) : Build Expr :=
  e.operand.map fun e => .sorted e direction

/-- An item of an order: ascending, unless it says otherwise. -/
def directed : Expr → Build Expr
  | .sorted e direction => .ok (.sorted e direction)
  | e => e.ordered .asc

/-- The items of an order. -/
def directedAll : List Expr → Build (List Expr)
  | [] => .ok []
  | e :: rest => do
    let e ← e.directed
    return e :: (← directedAll rest)

/-- The number of the row within its partition. The parts of the partition are taken as they are. -/
def rowNumber (partition order : List Expr) : Build Expr := do
  makeOver (.text "ROW_NUMBER") (.ok []) (.window partition (← directedAll order))

/-- A row of operands. -/
def rowOf (es : List Expr) : Build Expr := do makeRow (← operands es)

/-! ## JSON and full-text search -/

/-- An operand that is compared as a JSON document: plain data become one. -/
def documentOperand : Expr → Build Expr
  | .foreign (.value v) => .ok (.literal v)
  | .foreign object => (encoded (Value.ofJson object)).map .literal
  | .tuple items => (encoded (Value.ofJson (.tuple (viewAll items)))).map .literal
  | e => .ok e

/-- A part of a JSON document. -/
def jsonExtractOf (document : Expr) (path : Data) (asText : Flag) : Build Expr := do
  if path.asText?.isNone && path.members?.isNone then .error .wrongArgument
  else makeJsonExtract (← document.operand) path asText

/-- Whether a JSON array contains, or does not contain, the elements of another. -/
def jsonContainsOf (document value : Expr) (negated : Flag) : Build Expr := do
  let document ← document.operand
  let value ← value.documentOperand
  return .jsonContains document value negated

/-- Whether a JSON array has a value at one of its ends. -/
def jsonEdgeOf (document value : Expr) (edge : ArrayEdge) (negated : Flag) : Build Expr := do
  let document ← document.operand
  let value ← value.documentOperand
  return .jsonEdge document value edge negated

/-- Whether a JSON value is of a type. -/
def jsonTypeOf (document : Expr) (type : Data) : Build Expr := do
  makeJsonType (← document.operand) type

/-- A column to search: a text names one. -/
def searchColumn : Expr → Build Expr
  | .foreign (.text s) => .ok (.column .absent (.word s))
  | .foreign (.textLabel s) => .ok (.column .absent (.foreign (.textLabel s)))
  | e => e.operand

/-- The columns to search, in order. -/
def searchColumns : List Expr → Build (List Expr)
  | [] => .ok []
  | e :: rest => do
    let e ← e.searchColumn
    return e :: (← searchColumns rest)

/-- The columns that a full-text search runs over. -/
def textSearchOf (es : List Expr) : Build Expr := do makeTextSearch (← searchColumns es)

/-- What a full-text match searches: a text names a single column. -/
def searched : Expr → Build Expr
  | .foreign (.text s) => textSearchOf [.foreign (.text s)]
  | .foreign (.textLabel s) => textSearchOf [.foreign (.textLabel s)]
  | e => e.operand

/-- Whether the searched columns match, or do not match, a query. -/
def fullTextMatch (search query : Expr) (negated : Flag) : Build Expr := do
  let search ← search.searched
  let query ← query.operand
  return .matches search query negated

/-! ## Raw fragments -/

/-- A raw fragment, which is a template if it has named operands. -/
def rawOf (sql : Expr) (bindings : List (Name × Expr)) : Build Expr :=
  makeRaw sql .absent (.switch (!bindings.isEmpty)) (.ok (bindings.map .ok))

theorem conditions_same (op : Connective) (first : Expr) (rest : List Expr) :
    (logical op first rest).conditions op = first :: rest := by
  simp [conditions]

end SqlScribe.Expr
