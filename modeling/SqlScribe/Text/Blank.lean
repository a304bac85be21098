/-!
# Blanks

White space in the sense of Unicode, with the four separators U+001C to U+001F. The zero-width
space U+200B is no blank.

Numerals have a margin of blanks around them, in which the four separators have no place.
-/

namespace SqlScribe.Text

/-- Whether a character is white space. -/
def isBlank (c : Char) : Bool :=
  let n := c.toNat
  (9 ≤ n && n ≤ 13) || (28 ≤ n && n ≤ 32) || n == 0x85 || n == 0xA0 || n == 0x1680 ||
    (0x2000 ≤ n && n ≤ 0x200A) || n == 0x2028 || n == 0x2029 || n == 0x202F || n == 0x205F ||
    n == 0x3000

/-- Drops the blanks on the right end. -/
def stripRight (cs : List Char) : List Char :=
  (cs.reverse.dropWhile isBlank).reverse

/-- The text without the blanks on its two ends. -/
def strip (s : String) : String :=
  String.ofList (stripRight (s.toList.dropWhile isBlank))

/-- Whether a character can stand in the margin of a numeral. -/
def isMargin (c : Char) : Bool := isBlank c && !(28 ≤ c.toNat && c.toNat ≤ 31)

/-- A numeral without its margins. -/
def withoutMargins (cs : List Char) : List Char :=
  ((cs.dropWhile isMargin).reverse.dropWhile isMargin).reverse

end SqlScribe.Text
