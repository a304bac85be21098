import SqlScribe.Text.Digits
import SqlScribe.Text.Printable

/-!
# Quoted texts in messages

A message that names a text shows it between quotes. The quote is a single one, or a double one
where the text holds a single quote and no double quote. The backslash, the chosen quote and the
line breaks are escaped by a backslash; any other character that is not printable is shown by its
code, in two, four or eight hexadecimal digits.
-/

namespace SqlScribe.Text

/-- The quote around a text: single, unless only a double one avoids an escape. -/
def quoteMark (cs : List Char) : Char :=
  if cs.contains '\'' && !cs.contains '"' then '"' else '\''

/-- A code point in hexadecimal, by the shortest of the three widths. -/
def codeEscape (n : Nat) : List Char :=
  if n < 0x100 then '\\' :: 'x' :: padded 16 2 n
  else if n < 0x10000 then '\\' :: 'u' :: padded 16 4 n
  else '\\' :: 'U' :: padded 16 8 n

/-- How one character is shown between the given quotes. -/
def shownChar (mark c : Char) : List Char :=
  if c = mark || c = '\\' then ['\\', c]
  else if c = '\n' then ['\\', 'n']
  else if c = '\r' then ['\\', 'r']
  else if c = '\t' then ['\\', 't']
  else if isPrintable c then [c]
  else codeEscape c.toNat

/-- A text as messages show it. -/
def quoted (s : String) : String :=
  let cs := s.toList
  let mark := quoteMark cs
  String.ofList (mark :: cs.flatMap (shownChar mark) ++ [mark])

/-- How one byte is shown: as the ASCII character it is, or by its code. -/
def shownByte (mark : Char) (b : UInt8) : List Char :=
  if b < 128 then shownChar mark (Char.ofNat b.toNat) else '\\' :: 'x' :: padded 16 2 b.toNat

/-- A byte string as messages show it, with its mark `b`. -/
def quotedBytes (bytes : List UInt8) : String :=
  let mark := quoteMark (bytes.map fun b => Char.ofNat b.toNat)
  String.ofList ('b' :: mark :: bytes.flatMap (shownByte mark) ++ [mark])

example : quoted "it's" = "\"it's\"" := by decide +kernel
example : quoted "a\"b'\n" = "'a\"b\\'\\n'" := by decide +kernel

end SqlScribe.Text
