/-!
# Log records

What the library has to tell besides its results. A record never holds a bound value.
-/

namespace SqlScribe

/-- How much a record matters. -/
inductive LogLevel where
  | debug | warning
deriving DecidableEq, Repr

/-- The name of a level. -/
def LogLevel.name : LogLevel → String
  | .debug => "DEBUG"
  | .warning => "WARNING"

/-- One record. -/
structure LogRecord where
  level : LogLevel
  message : String
deriving DecidableEq, Repr

/-- A result together with what was told on the way. -/
structure Logged (α : Type) where
  result : α
  records : List LogRecord

end SqlScribe
