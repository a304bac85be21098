import SqlScribe.Data.Display
import SqlScribe.Operator
import SqlScribe.Value.Conversion

/-!
# What can be wrong with a statement

The causes for which a part of a statement is refused while it is put together, each with its
wording. `BuildError` joins them with the causes for which an operand has no value.
-/

namespace SqlScribe

/-- The clauses that take a number of rows. -/
inductive CountClause where
  | limit | offset
deriving DecidableEq, Repr

/-- The keyword of a clause. -/
def CountClause.text : CountClause → String
  | .limit => "LIMIT"
  | .offset => "OFFSET"

/-- The lists of columns that must not repeat one. -/
inductive ColumnList where
  | conflictTarget | conflictUpdate | insert | update
deriving DecidableEq, Repr

/-- The name of a list of columns. -/
def ColumnList.text : ColumnList → String
  | .conflictTarget => "conflict target"
  | .conflictUpdate => "conflict update"
  | .insert => "INSERT"
  | .update => "UPDATE"

/-- Why a part of a statement is refused. -/
inductive Malformed where
  | unknownOperator (given : Data)
  | unknownConnective (given : Data)
  | emptyConnective (c : Connective)
  /-- A conjunction or disjunction was asked for without operands. -/
  | noOperands (c : Connective)
  | rowWidth (width : Nat)
  | strayRow
  | emptyRow
  | functionName (given : Data)
  | windowFunctionName (given : Data)
  | unknownCastType (given : Data)
  | unknownDirection (given : Data)
  | pathWithoutRoot (path : String)
  | emptyKeyPath
  | unknownEdge (given : Data)
  | unknownJsonType (given : Data)
  | emptyTextSearch
  | countNotInteger (clause : CountClause) (given : Data)
  | countNegative (clause : CountClause) (n : Int)
  | duplicateColumn (name : Data) (list : ColumnList)
  | orderNotExpression (typeName : String)
  | namelessTable
  | namelessSubquery
  | unknownJoin (given : Data)
  | crossJoinPredicate
  | joinWithoutPredicate (kind : JoinKind)
  | emptySelect
  | joinWithoutSource
  | havingWithoutSource
  | starWithoutSource
  | unknownUnion (given : Data)
  | unionTooShort
  | orderedUnionMember
  | unionWidths
  | namelessAssignment
  | notAnAssignment (typeName : String)
  | unknownConflictAction (given : Data)
  | updateWithoutTarget
  | updateWithoutAssignments
  | nothingWithDetails
  | insertWithoutColumns
  | insertBothSources
  | insertNoSource
  /-- Row number `index` has the wrong width. -/
  | insertRowAt (index values columns : Nat)
  | insertRow (values columns : Nat)
  | insertSourceWidth (items columns : Nat)
  | columnsAfterRows
  | emptyUpdate
  | notATable (typeName : String)
deriving Inhabited

namespace Malformed

/-- The wording of a cause. -/
def message : Malformed → String
  | .unknownOperator d => "Unknown binary operator: " ++ d.display
  | .unknownConnective d => "Unknown boolean operator: " ++ d.display
  | .emptyConnective c => c.text ++ " needs at least one operand"
  | .noOperands .and => "and_() needs at least one operand"
  | .noOperands .or => "or_() needs at least one operand"
  | .rowWidth n => "Row value IN expects rows of " ++ Text.natText n ++ " items"
  | .strayRow => "Row values in an IN list need a row on the left side"
  | .emptyRow => "A row value needs at least one item"
  | .functionName d => "Invalid function name: " ++ d.display
  | .windowFunctionName d => "Invalid window function name: " ++ d.display
  | .unknownCastType d => "Unsupported logical type for CAST: " ++ d.display
  | .unknownDirection d => "Invalid sort direction: " ++ d.display
  | .pathWithoutRoot s => "JSON path must start with '$': " ++ Text.quoted s
  | .emptyKeyPath => "JSON key path needs at least one string key"
  | .unknownEdge d => "Unknown array edge: " ++ d.display
  | .unknownJsonType d => "Unknown JSON type: " ++ d.display
  | .emptyTextSearch => "Full-text search needs at least one column"
  | .countNotInteger clause d => clause.text ++ " must be an integer, got " ++ d.display
  | .countNegative clause n => clause.text ++ " must not be negative, got " ++ Text.intText n
  | .duplicateColumn name list =>
    "Duplicate column " ++ name.display ++ " in " ++ list.text
  | .orderNotExpression name => "ORDER BY expects expressions, got " ++ name
  | .namelessTable => "A table needs a name"
  | .namelessSubquery => "A subquery in FROM / JOIN needs an alias"
  | .unknownJoin d => "Unknown join type: " ++ d.display
  | .crossJoinPredicate => "CROSS JOIN does not take an ON predicate"
  | .joinWithoutPredicate kind => kind.capitals ++ " JOIN needs an ON predicate"
  | .emptySelect => "SELECT needs a projection or a source"
  | .joinWithoutSource => "JOIN needs a FROM source"
  | .havingWithoutSource => "HAVING needs a FROM source"
  | .starWithoutSource => "SELECT * needs a FROM source"
  | .unknownUnion d => "Unknown union type: " ++ d.display
  | .unionTooShort => "UNION needs at least two selects"
  | .orderedUnionMember => "UNION members cannot carry ORDER BY, LIMIT or OFFSET"
  | .unionWidths => "All selects of a UNION need the same number of columns"
  | .namelessAssignment => "An assignment needs a column name"
  | .notAnAssignment name => "Expected Assignment, got " ++ name
  | .unknownConflictAction d => "Unknown conflict action: " ++ d.display
  | .updateWithoutTarget => "DO UPDATE needs conflict target columns"
  | .updateWithoutAssignments => "DO UPDATE needs at least one assignment"
  | .nothingWithDetails => "DO NOTHING takes no assignments or condition"
  | .insertWithoutColumns => "INSERT needs at least one column"
  | .insertBothSources => "INSERT takes either VALUES rows or a source SELECT, not both"
  | .insertNoSource => "INSERT needs at least one VALUES row or a source SELECT"
  | .insertRowAt index n m =>
    "INSERT row " ++ Text.natText index ++ " has " ++ Text.natText n ++ " values for " ++
      Text.natText m ++ " columns"
  | .insertRow n m =>
    "INSERT row has " ++ Text.natText n ++ " values for " ++ Text.natText m ++ " columns"
  | .insertSourceWidth n m =>
    "INSERT source selects " ++ Text.natText n ++ " columns for " ++ Text.natText m ++
      " target columns"
  | .columnsAfterRows => "INSERT columns must be set before VALUES rows"
  | .emptyUpdate => "UPDATE needs at least one assignment"
  | .notATable name => "Expected a table name or SourceTable, got " ++ name

end Malformed

/-- Why a part of a statement cannot be built. -/
inductive BuildError where
  | malformed (cause : Malformed)
  | encoding (cause : EncodingError)
  /-- An argument is not of a type that the operation can use at all. -/
  | wrongArgument
  /-- An object lacks the part that the operation asks it for. -/
  | missingPart
  /-- What should be a pair has another number of members. -/
  | notPair (members : Nat)
  /-- Something that is no text stands where a name has to be written. -/
  | unwritable (name : Data)
deriving Inhabited

/-- The wording of an error, where it has one. -/
def BuildError.message? : BuildError → Option String
  | .malformed cause => some cause.message
  | .encoding (.noMembers _) => none
  | .encoding cause => some cause.message
  | .notPair n =>
    some (if n < 2 then "not enough values to unpack (expected 2, got " ++ Text.natText n ++ ")"
      else "too many values to unpack (expected 2)")
  | .wrongArgument | .missingPart | .unwritable _ => none

/-- The outcome of building something. -/
abbrev Build (α : Type) := Except BuildError α

/-- Refuses a part for a cause. -/
def refuse {α : Type} (cause : Malformed) : Build α := .error (.malformed cause)

/-- The outcome of making a value, as a step of building. -/
def encoded {α : Type} : Except EncodingError α → Build α
  | .ok a => .ok a
  | .error e => .error (.encoding e)

end SqlScribe
