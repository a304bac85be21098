import SqlScribe.JsonPath

/-!
# Names of functions

A function is named by identifiers of ASCII with points between them. The name is the only text of a
caller, besides raw fragments, that is written without quotes, so its form is part of its type.
-/

namespace SqlScribe

/-- Splits characters at the points. -/
def splitPoints : List Char → List (List Char)
  | [] => [[]]
  | '.' :: rest => [] :: splitPoints rest
  | c :: rest =>
    match splitPoints rest with
    | [] => [[c]]
    | part :: parts => (c :: part) :: parts

/-- Whether characters are an identifier. -/
def isWord : List Char → Bool
  | [] => false
  | c :: rest => isWordStart c && rest.all isWordChar

/-- Whether a text names a function; one line break at the end passes. -/
def isFunctionName (s : String) : Bool :=
  (splitPoints (dropFinalBreak s.toList)).all isWord

/-- The name of a function. -/
structure FunctionName where
  text : String
  valid : isFunctionName text = true
deriving DecidableEq

namespace FunctionName

/-- The name with this text, if it is one. -/
def ofText? (s : String) : Option FunctionName :=
  if h : isFunctionName s = true then some ⟨s, h⟩ else none

/-- The name in capitals, as it is written. -/
def capitals (f : FunctionName) : String := String.ofList (f.text.toList.map Char.toUpper)

theorem ofText?_eq_some_iff {s : String} {f : FunctionName} : ofText? s = some f ↔ f.text = s := by
  constructor
  · intro h
    unfold ofText? at h
    split at h
    · cases h; rfl
    · cases h
  · rintro rfl
    simp [ofText?, f.valid]

end FunctionName

end SqlScribe
