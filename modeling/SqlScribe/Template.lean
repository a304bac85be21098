/-!
# Templates

A raw fragment may hold marks of the form `\x7bexpr:name\x7d`, with letters, digits and underscores
in the name. `Template.parts` splits a text at its marks in one pass from the left, so whatever
replaces a mark is never looked at again. An unfinished mark is plain text.

Both passes here walk over the characters one by one. Where a mark has been read, the number of its
characters still to be passed is carried along; `partsBehind_eq_drop` says that this amounts to
dropping them.
-/

namespace SqlScribe.Template

/-- A part of a template. -/
inductive Part where
  | text (cs : List Char)
  | mark (name : List Char)
deriving DecidableEq, Repr

/-- The characters of names. -/
def isNameChar (c : Char) : Bool := c.isAlphanum || c = '_'

/-- How a mark begins. -/
def opening : List Char := ['\x7b', 'e', 'x', 'p', 'r', ':']

/-- A mark with a name. -/
def mark (name : List Char) : List Char := opening ++ name ++ ['\x7d']

/-- The name of the mark that a text begins with. -/
def mark? (cs : List Char) : Option (List Char) :=
  let name := (cs.drop opening.length).takeWhile isNameChar
  if !name.isEmpty && (mark name).isPrefixOf cs then some name else none

/-- Puts a character in front of the parts. -/
def consChar (c : Char) : List Part → List Part
  | .text cs :: rest => .text (c :: cs) :: rest
  | parts => .text [c] :: parts

/-- The parts behind the next `skip` characters. -/
def partsBehind (skip : Nat) : List Char → List Part
  | [] => []
  | c :: rest =>
    match skip with
    | skip + 1 => partsBehind skip rest
    | 0 =>
      match mark? (c :: rest) with
      | some name => .mark name :: partsBehind ((mark name).length - 1) rest
      | none => consChar c (partsBehind 0 rest)

/-- The parts of a template. -/
def parts (cs : List Char) : List Part := partsBehind 0 cs

/-- The text behind the next `skip` characters, with every occurrence of a word replaced. -/
def replaceBehind (word new : List Char) (skip : Nat) : List Char → List Char
  | [] => []
  | c :: rest =>
    match skip with
    | skip + 1 => replaceBehind word new skip rest
    | 0 =>
      if word.isPrefixOf (c :: rest) then new ++ replaceBehind word new (word.length - 1) rest
      else c :: replaceBehind word new 0 rest

/-- The mark for the alias of the table that a fragment belongs to. -/
def aliasMark : List Char := ['\x7b', 'a', 'l', 'i', 'a', 's', '\x7d']

/-- The text with the alias in place of its marks. An empty alias is none. -/
def withAlias (aliasName : Option String) (sql : String) : List Char :=
  match aliasName with
  | none | some "" => sql.toList
  | some a => replaceBehind aliasMark a.toList 0 sql.toList

theorem partsBehind_eq_drop (n : Nat) (cs : List Char) : partsBehind n cs = parts (cs.drop n) := by
  induction cs generalizing n with
  | nil => cases n <;> rfl
  | cons c rest ih =>
    cases n with
    | zero => rfl
    | succ n => exact ih n

example : parts "a\x7bexpr:x\x7db".toList = [.text ['a'], .mark ['x'], .text ['b']] := by decide
example : parts "\x7bexpr:\x7d".toList = [.text "\x7bexpr:\x7d".toList] := by decide

end SqlScribe.Template
