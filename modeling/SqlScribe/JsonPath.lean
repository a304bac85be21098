import SqlScribe.Text.Digits

/-!
# Paths into JSON documents

A path is given as a text that begins with `$`, or as a sequence of keys. A key path has a written
form: digits become an index step, an identifier a member step, and every other key a quoted step in
which backslashes and double quotes are escaped.
-/

namespace SqlScribe

/-- A path into a JSON document. -/
inductive JsonPath where
  /-- A path text, used as it is. -/
  | text (s : String)
  /-- At least one key. -/
  | keys (first : String) (rest : List String)
deriving DecidableEq, Repr

/-- The letters and the underscore, which may begin an identifier. -/
def isWordStart (c : Char) : Bool := c.isAlpha || c = '_'

/-- The characters of identifiers: letters, digits and the underscore. -/
def isWordChar (c : Char) : Bool := c.isAlphanum || c = '_'

/-- Drops one line break on the right end, which an end-of-text test lets pass. -/
def dropFinalBreak (cs : List Char) : List Char :=
  if cs.getLast? = some '\n' then cs.dropLast else cs

/-- Whether characters are an identifier of ASCII, up to one line break at the end. -/
def isPlainWord (cs : List Char) : Bool :=
  match dropFinalBreak cs with
  | [] => false
  | c :: rest => isWordStart c && rest.all isWordChar

/-- Whether characters are digits, up to one line break at the end. -/
def isIndex (cs : List Char) : Bool :=
  match dropFinalBreak cs with
  | [] => false
  | cs => cs.all Text.isDigit

namespace JsonPath

/-- How a character is written inside a quoted step. -/
def escapeChar (c : Char) : List Char :=
  if c = '\\' || c = '"' then ['\\', c] else [c]

/-- One step of a written path. -/
def step (key : String) : List Char :=
  let cs := key.toList
  if isIndex cs then '[' :: cs ++ [']']
  else if isPlainWord cs then '.' :: cs
  else '.' :: '"' :: cs.flatMap escapeChar ++ ['"']

/-- The written form of a sequence of keys. -/
def ofKeys (keys : List String) : String := String.ofList ('$' :: keys.flatMap step)

/-- The keys of a key path. -/
def keyList : JsonPath → List String
  | .text _ => []
  | .keys first rest => first :: rest

/-- The written form of a path. -/
def written : JsonPath → String
  | .text s => s
  | .keys first rest => ofKeys (first :: rest)

example : ofKeys ["a", "0", "odd key"] = "$.a[0].\"odd key\"" := by decide +kernel

end JsonPath

end SqlScribe
