import SqlScribe.Dialect.Reserved
import SqlScribe.JsonPath

/-!
# Names in a dialect

A name is written as it is if it is an identifier that no dialect rule touches, and between quotes
otherwise. Inside quotes the closing quote is written twice, so every name has a written form.

PostgreSQL folds a name without quotes to lower case, so there a name with a capital is quoted too.
-/

namespace SqlScribe

/-- How statements are written: a dialect, and whether names are quoted without need. -/
structure Style where
  dialect : Dialect
  quoteAll : Bool
deriving DecidableEq, Repr

namespace Dialect

/-- The quote that opens a name. -/
def openQuote : Dialect → Char
  | .sqlite | .postgres => '"'
  | .mysql => '\x60'
  | .mssql => '['

/-- The quote that closes a name. -/
def closeQuote : Dialect → Char
  | .sqlite | .postgres => '"'
  | .mysql => '\x60'
  | .mssql => ']'

/-- A name between quotes. -/
def quote (d : Dialect) (name : String) : String :=
  String.ofList (d.openQuote ::
    (name.toList.flatMap fun c => if c = d.closeQuote then [c, c] else [c]) ++ [d.closeQuote])

/-- Whether a name would lose its spelling without quotes. -/
def folds (d : Dialect) (name : String) : Bool := d = .postgres && name.toList.any Char.isUpper

/-- Whether a name needs no quotes. -/
def isBare (d : Dialect) (name : String) : Bool :=
  isPlainWord name.toList && !d.isReserved (String.ofList (name.toList.map Char.toUpper)) &&
    !d.folds name

end Dialect

namespace Style

/-- The plain style of a dialect. -/
def plain (d : Dialect) : Style := ⟨d, false⟩

/-- Whether a name is written between quotes. -/
def quotes (s : Style) (name : String) : Bool := s.quoteAll || !s.dialect.isBare name

/-- The written form of a name. -/
def identifier (s : Style) (name : String) : String :=
  if s.quotes name then s.dialect.quote name else name

/-- The style with its settings, as it describes itself. -/
def describe (s : Style) : String :=
  s.dialect.typeName ++ "(quote_all_identifiers=" ++ (if s.quoteAll then "True" else "False") ++ ")"

end Style

example : (Style.plain .mysql).identifier "order" = "\x60order\x60" := by decide +kernel
example : (Style.plain .mssql).identifier "a]b" = "[a]]b]" := by decide +kernel
example : (Style.plain .postgres).identifier "Id" = "\"Id\"" := by decide +kernel

end SqlScribe
