import SqlScribe.Data.Order
import SqlScribe.Number.Shortest
import SqlScribe.Sorting

/-!
# JSON texts

The canonical text of a JSON document: no blanks, the members of an object in ascending order of
their keys, characters beyond ASCII as they are. A key that is no text is ordered as what it is and
written as its text. Doubles are written with their shortest text, and `NaN`, `Infinity` and
`-Infinity` are allowed, so every double has a text.

Data that no JSON document can hold are refused with the reason. Nothing is refused for its size:
neither for the digits of an integer nor for the depth at which data are nested.
-/

namespace SqlScribe.Json

/-- Why data have no JSON text. -/
inductive Fault where
  /-- Data of this type have no JSON form. -/
  | unsuited (typeName : String)
  /-- Data of this type cannot be a key. -/
  | unsuitedKey (typeName : String)
  /-- Two keys have no order. -/
  | unordered (e : OrderError)
deriving DecidableEq, Repr

/-- The wording of a fault. -/
def Fault.message : Fault → String
  | .unsuited name => "Object of type " ++ name ++ " is not JSON serializable"
  | .unsuitedKey name => "keys must be str, int, float, bool or None, not " ++ name
  | .unordered e => e.text

/-- How one character is written inside a JSON string. -/
def escapeChar (c : Char) : List Char :=
  if c = '"' then ['\\', '"']
  else if c = '\\' then ['\\', '\\']
  else if c = '\n' then ['\\', 'n']
  else if c = '\r' then ['\\', 'r']
  else if c = '\t' then ['\\', 't']
  else if c.toNat = 8 then ['\\', 'b']
  else if c.toNat = 12 then ['\\', 'f']
  else if c.toNat < 32 then '\\' :: 'u' :: Text.padded 16 4 c.toNat
  else [c]

/-- A JSON string. -/
def stringText (s : String) : String :=
  String.ofList ('"' :: s.toList.flatMap escapeChar ++ ['"'])

/-- A JSON number, or the word for a double that is none. -/
def doubleText : Double → String
  | .nan => "NaN"
  | .infinity negative => if negative then "-Infinity" else "Infinity"
  | x => x.text

/-- A member of an object: its key, its value, and the outcome of writing the value. -/
structure Member where
  key : Data
  value : Data
  written : Except Fault String

/-- The strict order of the members of an object. -/
def Member.less (a b : Member) : Except Fault Bool :=
  match Data.entryLess (a.key, a.value) (b.key, b.value) with
  | .ok lower => .ok lower
  | .error e => .error (.unordered e)

/-- The text of a key inside a JSON string. -/
def keyText : Data → Except Fault String
  | .text s | .textLabel s => .ok s
  | .null => .ok "null"
  | .bool b => .ok (if b then "true" else "false")
  | .int n | .intLabel n => .ok (Text.intText n)
  | .float x => .ok (doubleText x)
  | d => .error (.unsuitedKey d.fullTypeName)

/-- The members of an object as texts, in the given order. -/
def membersText : List Member → Except Fault (List String)
  | [] => .ok []
  | m :: rest => do
    let name ← keyText m.key
    let text ← m.written
    return (stringText name ++ ":" ++ text) :: (← membersText rest)

/-- The outcome of writing each element, in order. -/
def itemsText : List (Except Fault String) → Except Fault (List String)
  | [] => .ok []
  | item :: rest => do
    let text ← item
    return text :: (← itemsText rest)

mutual

/-- The canonical text of a document. -/
def write : Data → Except Fault String
  | .null => .ok "null"
  | .bool b => .ok (if b then "true" else "false")
  | .int n | .intLabel n => .ok (Text.intText n)
  | .float x => .ok (doubleText x)
  | .text s | .textLabel s => .ok (stringText s)
  | .list items | .tuple items => do
    return "[" ++ ",".intercalate (← itemsText (writeEach items)) ++ "]"
  | .dict entries => do
    let members ← sorted Member.less (writeEntries entries)
    return "\x7b" ++ ",".intercalate (← membersText members) ++ "\x7d"
  | d => .error (.unsuited d.typeName)

/-- The outcome of writing each of a list of documents. -/
def writeEach : List Data → List (Except Fault String)
  | [] => []
  | d :: rest => write d :: writeEach rest

/-- The members that the entries of a mapping become. -/
def writeEntries : List (Data × Data) → List Member
  | [] => []
  | entry :: rest => writeEntry entry :: writeEntries rest

/-- The member that an entry of a mapping becomes. -/
def writeEntry : Data × Data → Member
  | (key, value) => ⟨key, value, write value⟩

end

end SqlScribe.Json
