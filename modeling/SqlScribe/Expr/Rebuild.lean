import SqlScribe.Expr.Make

/-!
# Rebuilding expressions

`Expr.rebuild` goes through an expression from the leaves up: every node is rebuilt from its new
parts, checked again, and handed to a function. Names and switches are parts like the others.
Nested queries are scopes of their own and are not entered, and things that are no expressions are
left alone.

The function may run in any monad that can fail, so that one traversal serves both to change an
expression and to record what was seen.
-/

namespace SqlScribe.Expr

section

variable {m : Type → Type} [Monad m] [MonadExceptOf BuildError m]

/-- The outcome of building something, inside the monad of a traversal. -/
def built {α : Type} : Build α → m α
  | .ok a => pure a
  | .error e => throw e

mutual

/-- The expression with every node rebuilt and handed to `f`, from the leaves up. -/
def rebuild (f : Expr → m Expr) : Expr → m Expr
  | .column table name => do
    let table ← rebuild f table
    let name ← rebuild f name
    f (.column table name)
  | .star table => do f (.star (← rebuild f table))
  | .literal value => f (.literal value)
  | .truth value => do f (.truth (← rebuild f value))
  | .not operand => do f (.not (← rebuild f operand))
  | .isNull operand negated => do
    let operand ← rebuild f operand
    let negated ← rebuild f negated
    f (.isNull operand negated)
  | .binary op left right => do
    let left ← rebuild f left
    let right ← rebuild f right
    f (.binary op left right)
  | .logical op first rest => do
    let first ← rebuild f first
    let rest ← rebuildAll f rest
    f (.logical op first rest)
  | .inList operand items negated => do
    let operand ← rebuild f operand
    let items ← rebuildAll f items
    let negated ← rebuild f negated
    f (← built (makeInList operand items negated))
  | .inQuery operand query negated => do
    let operand ← rebuild f operand
    let query ← rebuildQuery f query
    let negated ← rebuild f negated
    f (.inQuery operand query negated)
  | .between operand low high negated => do
    let operand ← rebuild f operand
    let low ← rebuild f low
    let high ← rebuild f high
    let negated ← rebuild f negated
    f (.between operand low high negated)
  | .exists query negated => do
    let query ← rebuildQuery f query
    let negated ← rebuild f negated
    f (.exists query negated)
  | .scalar query => do f (.scalar (← rebuildQuery f query))
  | .row first rest => do
    let first ← rebuild f first
    let rest ← rebuildAll f rest
    f (.row first rest)
  | .call name args distinct => do
    let args ← rebuildAll f args
    let distinct ← rebuild f distinct
    f (.call name args distinct)
  | .cast operand target => do f (.cast (← rebuild f operand) target)
  | .coalesce parts => do f (.coalesce (← rebuildAll f parts))
  | .concat parts => do f (.concat (← rebuildAll f parts))
  | .aggregateText operand => do f (.aggregateText (← rebuild f operand))
  | .sorted operand direction => do f (.sorted (← rebuild f operand) direction)
  | .window partition order => do
    let partition ← rebuildAll f partition
    let order ← rebuildAll f order
    f (.window partition order)
  | .over name args spec => do
    let args ← rebuildAll f args
    let spec ← rebuild f spec
    f (.over name args spec)
  | .jsonExtract document path asText => do
    let document ← rebuild f document
    let asText ← rebuild f asText
    f (.jsonExtract document path asText)
  | .jsonContains document value negated => do
    let document ← rebuild f document
    let value ← rebuild f value
    let negated ← rebuild f negated
    f (.jsonContains document value negated)
  | .jsonEdge document value edge negated => do
    let document ← rebuild f document
    let value ← rebuild f value
    let negated ← rebuild f negated
    f (.jsonEdge document value edge negated)
  | .jsonType document type => do f (.jsonType (← rebuild f document) type)
  | .textSearch first rest => do
    let first ← rebuild f first
    let rest ← rebuildAll f rest
    f (.textSearch first rest)
  | .matches search query negated => do
    let search ← rebuild f search
    let query ← rebuild f query
    let negated ← rebuild f negated
    f (.matches search query negated)
  | .rowToJson table pretty => do
    let table ← rebuild f table
    let pretty ← rebuild f pretty
    f (.rowToJson table pretty)
  | .excluded name => do f (.excluded (← rebuild f name))
  | .raw sql aliasName template bindings => do
    let sql ← rebuild f sql
    let aliasName ← rebuild f aliasName
    let template ← rebuild f template
    let bindings ← rebuildBindings f bindings
    f (.raw sql aliasName template bindings)
  | .image side part => f (.image side part)
  | .tuple items => do return .tuple (← rebuildAll f items)
  | .foreign object => pure (.foreign object)

/-- A query is left alone; what stands in its place and is none is rebuilt. -/
def rebuildQuery (f : Expr → m Expr) : Query → m Query
  | .select s => pure (.select s)
  | .union u => pure (.union u)
  | .draft s => pure (.draft s)
  | .other object => do return .other (← rebuild f object)

/-- The expressions of a list, rebuilt in order. -/
def rebuildAll (f : Expr → m Expr) : List Expr → m (List Expr)
  | [] => pure []
  | e :: rest => do
    let e ← rebuild f e
    return e :: (← rebuildAll f rest)

/-- Named expressions, rebuilt in order. -/
def rebuildBindings (f : Expr → m Expr) : List (Name × Expr) → m (List (Name × Expr))
  | [] => pure []
  | b :: rest => do
    let b ← rebuildBinding f b
    return b :: (← rebuildBindings f rest)

/-- A named expression, rebuilt. -/
def rebuildBinding (f : Expr → m Expr) : Name × Expr → m (Name × Expr)
  | (name, e) => do
    let name ← rebuild f name
    let e ← rebuild f e
    return (name, e)

end

/-- Rebuilds what ought to be an expression. A record that is none is handed to `f` as it is, and
anything without fields is refused. -/
def mapNodesM (f : Expr → m Expr) (e : Expr) : m Expr :=
  if e.isExpr then rebuild f e
  else if e.isRecord then f e
  else throw .wrongArgument

end

/-- The expression with every node changed by a function without effects. -/
def mapNodes (f : Expr → Expr) (e : Expr) : Build Expr :=
  mapNodesM (fun e => .ok (f e)) e

/-- A traversal that records the type names of the nodes, the latest first. -/
abbrev Traced := StateT (List String) Build

/-- Adds a type name to the record of a traversal. -/
def noted (name : String) : Traced Unit := modify fun seen => name :: seen

/-- A function on nodes that records the nodes it is given. -/
def tracing (f : Expr → Build Expr) (node : Expr) : Traced Expr := do
  let changed ← built (f node)
  noted node.typeName
  return changed

/-- The outcome of a traversal beside the type names that it met, in their order. -/
def runTraced {α : Type} (x : Traced α) : Build (α × List String) :=
  (x.run []).map fun (result, seen) => (result, seen.reverse)

/-- The changed expression beside the type names of the nodes that were handed to the function, in
their order. -/
def traceNodes (f : Expr → Build Expr) (e : Expr) : Build (Expr × List String) :=
  runTraced (mapNodesM (tracing f) e)

end SqlScribe.Expr
