import SqlScribe.Text.Digits

/-!
# Decimal numerals

The grammar that texts of doubles and of decimals share: digits with an optional point, then an
optional exponent. `Numeral.read?` splits a text into those parts without looking at their size.
-/

namespace SqlScribe

/-- An unsigned numeral `digits * 10^exponent`. -/
structure Numeral where
  digits : Nat
  exponent : Int
deriving DecidableEq

namespace Numeral

/-- Takes a sign off the front. The first component says whether it is a minus. -/
def splitSign : List Char → Bool × List Char
  | '-' :: rest => (true, rest)
  | '+' :: rest => (false, rest)
  | cs => (false, cs)

/-- An exponent: nothing, or the letter `e` of either case with a signed run of digits. -/
def readExponent? : List Char → Option Int
  | [] => some 0
  | c :: rest =>
    if c = 'e' || c = 'E' then
      let (negative, digits) := splitSign rest
      (Text.readNat? 10 digits).map fun n => if negative then -(n : Int) else n
    else none

/-- Reads a whole text as a numeral: at least one digit before or after the point. -/
def read? (cs : List Char) : Option Numeral :=
  let whole := cs.takeWhile Text.isDigit
  let afterWhole := cs.dropWhile Text.isDigit
  let (fraction, tail) :=
    match afterWhole with
    | '.' :: rest => (rest.takeWhile Text.isDigit, rest.dropWhile Text.isDigit)
    | rest => ([], rest)
  match Text.readNat? 10 (whole ++ fraction), readExponent? tail with
  | some digits, some exponent => some ⟨digits, exponent - fraction.length⟩
  | _, _ => none

end Numeral

end SqlScribe
