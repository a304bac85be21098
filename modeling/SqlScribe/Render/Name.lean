import SqlScribe.Fragment
import SqlScribe.RenderError
import SqlScribe.View

/-!
# Names as fragments

A name is written if it is a text. Whatever else stands in its place is refused, and how it is
refused depends on the style, because the style decides what a name is asked for first: its small
letters, its form, or its quoted form. `RenderError.inStyle` settles that once a style is known.

A qualifier, a schema or an alias is left out if it is false, like the null and the empty text.
-/

namespace SqlScribe

/-- A name. -/
def nameOf (n : Name) : Rendered Fragment :=
  match n.asText? with
  | some s => .ok (Fragment.ofName s)
  | none => .error (.building (.unwritable n.view))

/-- Names with commas between them. -/
def namesOf (names : List Name) : Rendered Fragment :=
  (allOk (names.map nameOf)).map (Fragment.join ", ")

/-- A name behind another and a point. -/
def nameIn (qualifier name : Name) : Rendered Fragment := do
  let q ← nameOf qualifier
  let n ← nameOf name
  return q ++ "." ++ n

/-- A name that may be qualified by another. -/
def qualified (qualifier name : Name) : Rendered Fragment :=
  if qualifier.isTrue then nameIn qualifier name else nameOf name

/-- The name of a table, which may be in a schema. -/
def tableName (schema name : Name) : Rendered Fragment := do
  let n ← nameOf name
  if schema.isTrue then return (← nameOf schema) ++ "." ++ n else return n

/-- A fragment under an alias. -/
def aliased (f : Fragment) (aliasName : Name) : Rendered Fragment := do
  if aliasName.isTrue then return f ++ " AS " ++ (← nameOf aliasName) else return f

/-- A name in quotes. -/
def Dialect.quoteName (d : Dialect) (n : Data) : Build String :=
  match n.asText? with
  | some s => .ok (d.quote s)
  | none => .error (if n.hasReplacements then .wrongArgument else .missingPart)

/-- Whether a style quotes a name. PostgreSQL asks for its small letters first, and the form of a
name is looked at only if nothing before it decides. -/
def Style.quotesName (style : Style) (n : Data) : Build Bool :=
  match n.asText? with
  | some s => .ok (style.quotes s)
  | none =>
    if style.dialect = .postgres && n.isTrue && !n.hasLetters then .error .missingPart
    else if style.quoteAll || !n.isTrue then .ok true
    else .error .wrongArgument

/-- A name as a style writes it. -/
def Style.writeName (style : Style) (n : Data) : Build String := do
  if ← style.quotesName n then style.dialect.quoteName n else return n.plain

/-- What goes wrong when something that is no text is written as a name. -/
def Style.nameFault (style : Style) (n : Data) : BuildError :=
  match style.writeName n with
  | .error e => e
  | .ok _ => .wrongArgument

/-- An error as a style reports it. -/
def RenderError.inStyle (style : Style) : RenderError → RenderError
  | .building (.unwritable n) => .building (style.nameFault n)
  | e => e

/-- A text is written as the identifier that it spells. -/
theorem Style.writeName_text (style : Style) (s : String) :
    style.writeName (.text s) = .ok (style.identifier s) := by
  unfold writeName identifier
  cases h : style.quotes s <;>
    simp [quotesName, Dialect.quoteName, Data.asText?, Data.plain, h, pure, Except.pure, bind,
      Except.bind]

theorem qualified_null (name : Name) : qualified .absent name = nameOf name := rfl

end SqlScribe
