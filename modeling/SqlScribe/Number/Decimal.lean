import SqlScribe.Number.Double
import SqlScribe.Number.Numeral
import SqlScribe.Text.Blank
import SqlScribe.Text.DecimalDigit

/-!
# Decimals

A decimal is a sign, a coefficient and an exponent of ten. The written form keeps all three apart:
`1.0` and `1.00` are different decimals of the same value. `Decimal.compare` compares values, and
`Decimal.text` writes the scientific form: positional while the exponent is not positive and the
number is not smaller than `1e-6`, with an exponent otherwise.

Beside the decimals stand the words for infinities and NaNs, which can be read and shown but never
bound. Every number has an exact form among the decimals and these words, so numbers of different
types are compared there.
-/

namespace SqlScribe

/-- `coefficient * 10^exponent`, with a sign of its own so that zero has one too. -/
structure Decimal where
  negative : Bool
  coefficient : Nat
  exponent : Int
deriving DecidableEq

namespace Decimal

/-- An integer as a decimal. -/
def ofInt (n : Int) : Decimal := ⟨decide (n < 0), n.natAbs, 0⟩

/-- The exact value of a finite double. Its denominator is a power of two, and `m / 2^k` is
`m * 5^k / 10^k`. -/
def ofFinite (negative : Bool) (rank : Nat) : Decimal :=
  let places := 1075 - Double.place rank
  ⟨negative, (Double.ratio rank).1 * Nat.pow 5 places, -places⟩

/-- How many digits stand before the point, which may be negative. -/
def magnitude (d : Decimal) : Int := (Nat.toDigits 10 d.coefficient).length + d.exponent

/-- Compares two positive values. Numbers of different size are told apart by it, and those of one
size by their coefficients on a common exponent. -/
def compareMagnitude (a b : Decimal) : Ordering :=
  if a.magnitude = b.magnitude then
    compare (a.coefficient * Nat.pow 10 (a.exponent - b.exponent).toNat)
      (b.coefficient * Nat.pow 10 (b.exponent - a.exponent).toNat)
  else compare a.magnitude b.magnitude

/-- The order of the values that two decimals denote. -/
def compare (a b : Decimal) : Ordering :=
  match a.coefficient == 0, b.coefficient == 0 with
  | true, true => .eq
  | true, false => if b.negative then .gt else .lt
  | false, true => if a.negative then .lt else .gt
  | false, false =>
    match a.negative, b.negative with
    | true, false => .lt
    | false, true => .gt
    | false, false => compareMagnitude a b
    | true, true => compareMagnitude b a

/-- Whether two decimals denote one value. -/
def same (a b : Decimal) : Bool := compare a b == .eq

/-- The digits with a point after the first `point` of them, zeros filling either side. -/
def pointed (digits : List Char) (point : Int) : List Char :=
  if point ≤ 0 then
    ['0', '.'] ++ List.replicate (-point).toNat '0' ++ digits
  else
    let whole := point.toNat
    let fraction := digits.drop whole
    digits.take whole ++ List.replicate (whole - digits.length) '0' ++
      (if fraction.isEmpty then [] else '.' :: fraction)

/-- An exponent with its letter and its sign. -/
def exponentText (e : Int) : List Char :=
  'E' :: (if e < 0 then '-' else '+') :: Nat.toDigits 10 e.natAbs

/-- The text of the magnitude of a decimal. -/
def magnitudeText (d : Decimal) : List Char :=
  let digits := Nat.toDigits 10 d.coefficient
  let left : Int := digits.length + d.exponent
  if d.exponent ≤ 0 && -6 < left then pointed digits left
  else pointed digits 1 ++ (if left = 1 then [] else exponentText (left - 1))

/-- The text of a decimal. -/
def text (d : Decimal) : String :=
  String.ofList ((if d.negative then ['-'] else []) ++ magnitudeText d)

end Decimal

/-- What a decimal text may denote. -/
inductive DecimalWord where
  | finite (d : Decimal)
  | infinity (negative : Bool)
  | nan (negative signaling : Bool) (payload : Nat)
deriving DecidableEq

namespace DecimalWord

/-- The exact form of a double. -/
def ofDouble : Double → DecimalWord
  | .nan => .nan false false 0
  | .infinity negative => .infinity negative
  | .finite negative rank _ => .finite (.ofFinite negative rank)

/-- The side on which a word lies of all finite numbers; zero for a finite one. -/
def side : DecimalWord → Int
  | .infinity negative => if negative then -1 else 1
  | _ => 0

/-- The order of the numbers that two words denote, `none` where one of them is a NaN. -/
def compare? (a b : DecimalWord) : Option Ordering :=
  match a, b with
  | .nan .., _ | _, .nan .. => none
  | .finite x, .finite y => some (x.compare y)
  | a, b => some (compare a.side b.side)

/-- The text of a decimal or of one of the special words. -/
def text : DecimalWord → String
  | .finite d => d.text
  | .infinity negative => if negative then "-Infinity" else "Infinity"
  | .nan negative signaling payload =>
    (if negative then "-" else "") ++ (if signaling then "sNaN" else "NaN") ++
      (if payload = 0 then "" else Text.natText payload)

/-- The digits after the word `nan`, if they are digits. -/
def readPayload? : List Char → Option Nat
  | [] => some 0
  | cs => Text.readNat? 10 cs

/-- Reads a decimal text. Blanks around it and underscores are skipped, and the digits may be those
of any script. -/
def ofText? (s : String) : Option DecimalWord :=
  let bare := (Text.plainDigits (Text.strip s).toList).filter (· != '_')
  let (negative, cs) := Numeral.splitSign bare
  match cs.map Char.toLower with
  | ['i', 'n', 'f'] | ['i', 'n', 'f', 'i', 'n', 'i', 't', 'y'] => some (.infinity negative)
  | 'n' :: 'a' :: 'n' :: rest => (readPayload? rest).map (.nan negative false)
  | 's' :: 'n' :: 'a' :: 'n' :: rest => (readPayload? rest).map (.nan negative true)
  | _ => (Numeral.read? cs).map fun n => .finite ⟨negative, n.digits, n.exponent⟩

end DecimalWord

end SqlScribe
