import SqlScribe.Malformed
import SqlScribe.View

/-!
# Checked nodes

The functions here build one node each and check what is known about the node itself: operators and
other spellings are read, lists that must not be empty are not, and the rows of a list of rows have
the width of the row that they are compared with. The parts of a node are taken as they are.

Lists of parts are taken as outcomes. What should be a list and is none fails in its turn, behind
the checks that come before it.

`Expr.operand` is the other way in: it turns what a caller hands over into an expression, by binding
whatever is none.
-/

namespace SqlScribe

/-! ## Spellings -/

/-- The letters of a spelling. Bytes have letters too, though they spell nothing; whatever has no
letters cannot be asked for them. -/
def lettersOf (given : Data) : Build (Option String) :=
  if given.hasLetters then .ok given.asText? else .error .missingPart

/-- Refuses data that cannot be looked up in a set. -/
def requireKey (d : Data) : Build Unit := if d.isKey then .ok () else .error .wrongArgument

/-- What the letters stand for; `given` is shown if they stand for nothing. -/
def readLetters {α : Type} (read : String → Option α) (cause : Data → Malformed) (given : Data)
    (letters : Option String) : Build α :=
  match letters.bind read with
  | some a => .ok a
  | none => refuse (cause given)

/-- The choice that data spell, out of a list; data that are false spell the fallback. -/
def choose {α : Type} (read : String → Option α) (cause : Data → Malformed) (fallback : String)
    (given : Data) : Build α := do
  readLetters read cause given (← lettersOf (given.orElse (.text fallback)))

/-- The choice that data spell, out of a set. -/
def chooseFromSet {α : Type} (read : String → Option α) (cause : Data → Malformed)
    (given : Data) : Build α := do
  let letters ← lettersOf given
  requireKey given
  readLetters read cause given letters

namespace Expr

/-! ## Operands -/

/-- The expression that an operand stands for: itself, or the value of the data, bound. -/
def operand : Expr → Build Expr
  | .foreign object => (encoded (Value.ofData object)).map .literal
  | .tuple items => (encoded (Value.ofData (.tuple (viewAll items)))).map .literal
  | e => .ok e

/-- The operands of a list, in order. -/
def operands : List Expr → Build (List Expr)
  | [] => .ok []
  | e :: rest => do
    let e ← e.operand
    return e :: (← operands rest)

/-! ## Nodes -/

/-- A comparison or an arithmetic operation. -/
def makeBinary (op : Data) (left right : Expr) : Build Expr := do
  let op ← chooseFromSet Operator.ofText? .unknownOperator op
  return .binary op left right

/-- Conditions joined by a connective. -/
def makeLogical (op : Data) (conditions : Build (List Expr)) : Build Expr := do
  let op ← chooseFromSet Connective.ofText? .unknownConnective op
  match ← conditions with
  | [] => refuse (.emptyConnective op)
  | first :: rest => return .logical op first rest

/-- A membership in a list. Rows are compared with rows of their width and with nothing else. -/
def makeInList (e : Expr) (items : List Expr) (negated : Flag) : Build Expr :=
  match e.rowItems? with
  | some left =>
    if items.all fun i => i.rowItems?.map List.length == some left.length then
      .ok (.inList e items negated)
    else refuse (.rowWidth left.length)
  | none =>
    if items.any isRow then refuse .strayRow else .ok (.inList e items negated)

/-- A row. -/
def makeRow : List Expr → Build Expr
  | [] => refuse .emptyRow
  | first :: rest => .ok (.row first rest)

/-- The name of a function. Data that are false name none, and other data that are no text cannot be
matched with the form of a name. -/
def functionName (given : Data) (cause : Data → Malformed) : Build FunctionName :=
  match (given.orElse (.text "")).asText? with
  | none => .error .wrongArgument
  | some s =>
    match FunctionName.ofText? s with
    | some f => .ok f
    | none => refuse (cause given)

/-- A call of a function. -/
def makeCall (name : Data) (args : Build (List Expr)) (distinct : Flag) : Build Expr := do
  let name ← functionName name .functionName
  return .call name (← args) distinct

/-- A call of a function over a window. -/
def makeOver (name : Data) (args : Build (List Expr)) (window : Expr) : Build Expr := do
  let name ← functionName name .windowFunctionName
  return .over name (← args) window

/-- A cast to the logical type that data spell. -/
def makeCast (e : Expr) (target : Data) : Build Expr :=
  match LogicalType.ofData? target with
  | some type => .ok (.cast e type)
  | none => refuse (.unknownCastType target)

/-- An expression with a direction of order. -/
def makeSorted (e : Expr) (direction : Data) : Build Expr :=
  (choose Direction.ofText? .unknownDirection "ASC" direction).map fun d => .sorted e d

/-- A path from data: a text that begins with `$`, or texts as keys. -/
def makePath (path : Data) : Build JsonPath :=
  match path.asText? with
  | some s =>
    if s.toList.head? = some '$' then .ok (.text s) else refuse (.pathWithoutRoot s)
  | none =>
    match path.members? with
    | none => .error .wrongArgument
    | some keys =>
      match keys.mapM Data.asText? with
      | some (first :: rest) => .ok (.keys first rest)
      | _ => refuse .emptyKeyPath

/-- A part of a JSON document. -/
def makeJsonExtract (document : Expr) (path : Data) (asText : Flag) : Build Expr :=
  (makePath path).map fun p => .jsonExtract document p asText

/-- A test of one end of a JSON array. -/
def makeJsonEdge (document value : Expr) (edge : Data) (negated : Flag) : Build Expr := do
  requireKey edge
  let edge ← readLetters ArrayEdge.ofText? .unknownEdge edge edge.asText?
  return .jsonEdge document value edge negated

/-- A test of a JSON type. -/
def makeJsonType (document : Expr) (type : Data) : Build Expr := do
  let letters ← lettersOf (type.orElse (.text ""))
  requireKey (type.orElse (.text ""))
  return .jsonType document (← readLetters JsonType.ofText? .unknownJsonType type letters)

/-- The columns of a full-text search. -/
def makeTextSearch : List Expr → Build Expr
  | [] => refuse .emptyTextSearch
  | first :: rest => .ok (.textSearch first rest)

/-- Named operands, in order. -/
def namedOperands : List (Build (Name × Expr)) → Build (List (Name × Expr))
  | [] => .ok []
  | binding :: rest => do
    let (name, e) ← binding
    let e ← e.operand
    return (name, e) :: (← namedOperands rest)

/-- A raw fragment with named expressions. -/
def makeRaw (sql : Expr) (aliasName : Name) (template : Flag)
    (bindings : Build (List (Build (Name × Expr)))) : Build Expr := do
  return .raw sql aliasName template (← namedOperands (← bindings))

/-- An expression is its own operand. -/
theorem operand_of_isExpr {e : Expr} (h : e.isExpr = true) : e.operand = .ok e := by
  cases e with
  | tuple items => exact absurd h Bool.false_ne_true
  | foreign object => exact absurd h Bool.false_ne_true
  | _ => rfl

/-- What plain data become is an expression as well. -/
theorem isExpr_of_operand {e operand : Expr} (h : e.operand = .ok operand) :
    operand.isExpr = true := by
  have value {x : Except EncodingError Value} (h : (encoded x).map literal = .ok operand) :
      operand.isExpr = true := by
    cases x with
    | ok v =>
      cases h
      rfl
    | error _ => cases h
  cases e with
  | tuple items | foreign object => exact value h
  | _ =>
    cases h
    rfl

end Expr

end SqlScribe
