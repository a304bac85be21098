import SqlScribe.Text.Blank
import SqlScribe.Text.LowerCase

/-!
# Settings from the environment

An environment gives texts to variables. A variable that is set to the empty text counts as not set;
a switch that is set to blanks alone does, too.
-/

namespace SqlScribe

/-- The variables that are set. -/
structure Environment where
  entries : List (String × String)

namespace Environment

/-- Nothing is set. -/
def empty : Environment := ⟨[]⟩

/-- The text of a variable. -/
def text? (env : Environment) (key : String) : Option String :=
  match env.entries.lookup key with
  | some "" => none
  | value => value

/-- The words that turn a switch on. -/
def onWords : List String := ["1", "true", "yes", "on"]

/-- The position of a switch, where it has one: any text but the words for on turns it off. -/
def switch? (env : Environment) (key : String) : Option Bool :=
  match env.entries.lookup key with
  | none => none
  | some value =>
    let word := Text.strip value
    if word.isEmpty then none else some (onWords.contains (Text.lower word))

end Environment

end SqlScribe
