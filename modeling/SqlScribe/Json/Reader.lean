import SqlScribe.Data
import SqlScribe.Number.Double
import SqlScribe.Number.Numeral

/-!
# Reading JSON

`Json.read?` reads a whole text as one JSON document. Blanks are allowed between the parts, an
integer is read at any size, a number with a point or an exponent is read as the nearest double, and
the words `NaN`, `Infinity` and `-Infinity` are read too. In an object a repeated key keeps its
first place and gets the last value.

The reader is bounded by the length of the text: every part that it reads takes a character.
-/

namespace SqlScribe.Json

/-- The four blanks of JSON. -/
def isSpace (c : Char) : Bool := c = ' ' || c = '\t' || c = '\n' || c = '\r'

/-- Drops the blanks on the left. -/
def skipSpace (cs : List Char) : List Char := cs.dropWhile isSpace

/-- The number that four hexadecimal digits denote, and the rest. -/
def readCode? : List Char → Option (Nat × List Char)
  | a :: b :: c :: d :: rest =>
    (Text.readNat? 16 [a, b, c, d]).map fun n => (n, rest)
  | _ => none

/-- The character behind `\u`: one code, or a high and a low surrogate. -/
def readEscaped? (cs : List Char) : Option (Char × List Char) := do
  let (high, rest) ← readCode? cs
  if 0xD800 ≤ high && high ≤ 0xDBFF then
    match rest with
    | '\\' :: 'u' :: more => do
      let (low, rest) ← readCode? more
      if 0xDC00 ≤ low && low ≤ 0xDFFF then
        return (Char.ofNat (0x10000 + (high - 0xD800) * 0x400 + (low - 0xDC00)), rest)
      else none
    | _ => none
  else return (Char.ofNat high, rest)

/-- The character that a letter behind a backslash stands for. -/
def escapedLetter? : Char → Option Char
  | '"' => some '"' | '\\' => some '\\' | '/' => some '/' | 'b' => some (Char.ofNat 8)
  | 'f' => some (Char.ofNat 12) | 'n' => some '\n' | 'r' => some '\r' | 't' => some '\t'
  | _ => none

/-- The characters of a string up to its closing quote, and the rest. `fuel` bounds the number of
characters. -/
def readString? : Nat → List Char → Option (List Char × List Char)
  | 0, _ => none
  | fuel + 1, cs =>
    match cs with
    | '"' :: rest => some ([], rest)
    | '\\' :: 'u' :: rest => do
      let (c, rest) ← readEscaped? rest
      let (more, rest) ← readString? fuel rest
      return (c :: more, rest)
    | '\\' :: letter :: rest => do
      let c ← escapedLetter? letter
      let (more, rest) ← readString? fuel rest
      return (c :: more, rest)
    | c :: rest =>
      if c = '\\' || c.toNat < 32 then none
      else do
        let (more, rest) ← readString? fuel rest
        return (c :: more, rest)
    | [] => none

/-- The integer part of a number: a zero alone, or digits that begin with another one. -/
def takeWhole? : List Char → Option (List Char × List Char)
  | '0' :: rest => some (['0'], rest)
  | c :: rest =>
    if Text.isDigit c then some (c :: rest.takeWhile Text.isDigit, rest.dropWhile Text.isDigit)
    else none
  | [] => none

/-- A point with at least one digit behind it, if there is one. -/
def takeFraction (cs : List Char) : List Char × List Char :=
  match cs with
  | '.' :: rest =>
    let digits := rest.takeWhile Text.isDigit
    if digits.isEmpty then ([], cs) else ('.' :: digits, rest.dropWhile Text.isDigit)
  | cs => ([], cs)

/-- An exponent with at least one digit, if there is one. -/
def takeExponent (cs : List Char) : List Char × List Char :=
  match cs with
  | e :: rest =>
    if e = 'e' || e = 'E' then
      let (sign, rest') :=
        match rest with
        | '+' :: r => (['+'], r)
        | '-' :: r => (['-'], r)
        | r => ([], r)
      let digits := rest'.takeWhile Text.isDigit
      if digits.isEmpty then ([], cs) else (e :: sign ++ digits, rest'.dropWhile Text.isDigit)
    else ([], cs)
  | [] => ([], cs)

/-- A number without its sign: an integer, or a double where there is a point or an exponent. -/
def readNumber? (negative : Bool) (cs : List Char) : Option (Data × List Char) := do
  let (whole, rest) ← takeWhole? cs
  let (fraction, rest) := takeFraction rest
  let (exponent, rest) := takeExponent rest
  if fraction.isEmpty && exponent.isEmpty then
    let n ← Text.readNat? 10 whole
    return (.int (if negative then -(n : Int) else n), rest)
  else
    let numeral ← Numeral.read? (whole ++ fraction ++ exponent)
    return (.float (Double.ofDecimal negative numeral.digits numeral.exponent), rest)

/-- A word of JSON on the front of a text. -/
def readWord? (cs : List Char) : Option (Data × List Char) :=
  let words : List (String × Data) :=
    [("null", .null), ("true", .bool true), ("false", .bool false), ("NaN", .float .nan),
      ("Infinity", .float (.infinity false)), ("-Infinity", .float (.infinity true))]
  words.findSome? fun (word, d) =>
    if word.toList.isPrefixOf cs then some (d, cs.drop word.length) else none

/-- A word or a number on the front of a text. -/
def readScalar? (cs : List Char) : Option (Data × List Char) :=
  match readWord? cs with
  | some found => some found
  | none =>
    match cs with
    | '-' :: rest => readNumber? true rest
    | cs => readNumber? false cs

mutual

/-- A document on the front of a text, without blanks before it. -/
def readValue? : Nat → List Char → Option (Data × List Char)
  | 0, _ => none
  | fuel + 1, cs =>
    match cs with
    | '"' :: rest => do
      let (s, rest) ← readString? rest.length rest
      return (.text (String.ofList s), rest)
    | '[' :: rest =>
      match skipSpace rest with
      | ']' :: rest => some (.list [], rest)
      | rest => do
        let (items, rest) ← readItems? fuel rest
        return (.list items, rest)
    | '\x7b' :: rest =>
      match skipSpace rest with
      | '\x7d' :: rest => some (.dict [], rest)
      | rest => do
        let (entries, rest) ← readMembers? fuel rest
        return (Data.dictOf entries, rest)
    | cs => readScalar? cs

/-- The elements of an array up to its bracket. -/
def readItems? : Nat → List Char → Option (List Data × List Char)
  | 0, _ => none
  | fuel + 1, cs => do
    let (item, rest) ← readValue? fuel (skipSpace cs)
    match skipSpace rest with
    | ']' :: rest => return ([item], rest)
    | ',' :: rest => do
      let (items, rest) ← readItems? fuel rest
      return (item :: items, rest)
    | _ => none

/-- The members of an object up to its brace. -/
def readMembers? : Nat → List Char → Option (List (Data × Data) × List Char)
  | 0, _ => none
  | fuel + 1, cs => do
    let (key, rest) ←
      match skipSpace cs with
      | '"' :: rest => readString? rest.length rest
      | _ => none
    match skipSpace rest with
    | ':' :: rest => do
      let (value, rest) ← readValue? fuel (skipSpace rest)
      let entry := (Data.text (String.ofList key), value)
      match skipSpace rest with
      | '\x7d' :: rest => return ([entry], rest)
      | ',' :: rest => do
        let (entries, rest) ← readMembers? fuel rest
        return (entry :: entries, rest)
      | _ => none
    | _ => none

end

/-- Reads a whole text as one document. -/
def read? (s : String) : Option Data :=
  let cs := s.toList
  match readValue? (cs.length + 1) (skipSpace cs) with
  | some (d, rest) => if (skipSpace rest).isEmpty then some d else none
  | none => none

end SqlScribe.Json
