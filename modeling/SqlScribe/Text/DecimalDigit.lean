/-!
# Decimal digits

Every script with decimal digits of its own has ten of them in a row, from zero to nine. A numeral
may be given in the digits of any script, and of several at once; `plainDigits` puts it into the
digits of ASCII and leaves everything else alone.
-/

namespace SqlScribe.Text

/-- The code points of the zeros of all scripts. -/
def zeros : List Nat :=
  [48, 1632, 1776, 1984, 2406, 2534, 2662, 2790, 2918, 3046, 3174, 3302, 3430, 3558, 3664, 3792,
    3872, 4160, 4240, 6112, 6160, 6470, 6608, 6784, 6800, 6992, 7088, 7232, 7248, 42528, 43216,
    43264, 43472, 43504, 43600, 44016, 65296, 66720, 68912, 69734, 69872, 69942, 70096, 70384,
    70736, 70864, 71248, 71360, 71472, 71904, 72016, 72784, 73040, 73120, 92768, 92864, 93008,
    120782, 120792, 120802, 120812, 120822, 123200, 123632, 125264, 130032]

/-- The value of a decimal digit of any script. -/
def decimalDigit? (c : Char) : Option Nat :=
  (zeros.find? fun start => start ≤ c.toNat && c.toNat ≤ start + 9).map fun start => c.toNat - start

/-- A decimal digit as a digit of ASCII, and any other character as it is. -/
def plainDigit (c : Char) : Char :=
  match decimalDigit? c with
  | some d => Nat.digitChar d
  | none => c

/-- A text with its decimal digits in ASCII. -/
def plainDigits (cs : List Char) : List Char := cs.map plainDigit

example : decimalDigit? '٣' = some 3 := by decide
example : decimalDigit? '１' = some 1 := by decide
example : decimalDigit? 'ａ' = none := by decide

end SqlScribe.Text
