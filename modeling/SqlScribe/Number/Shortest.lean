import SqlScribe.Number.Double
import SqlScribe.Text.Digits

/-!
# The text of a double

A double is written with the fewest significant digits that read back as the same double, and among
the numerals of that length with the one nearest to it. `Double.shortest` finds the digits: on the
decimal grids of one digit, two digits and so on it tries the two neighbours of the number.

`Double.text` then places the point: positional from `1e-4` up to, but not including, `1e16`, with
at least one digit on either side of the point, and scientific outside.
-/

namespace SqlScribe.Double

/-- The largest `e` with `10^e ≤ num / den`. -/
def decimalExponent (num den : Nat) : Int :=
  let e : Int := ((Nat.toDigits 10 num).length : Int) - (Nat.toDigits 10 den).length
  if den * Nat.pow 10 e.toNat ≤ num * Nat.pow 10 (-e).toNat then e else e - 1

/-- Whether `digits * 10^exponent` reads back as the magnitude with this rank. -/
def readsBack (rank digits : Nat) (exponent : Int) : Bool :=
  rankOfRatio (digits * Nat.pow 10 exponent.toNat) (Nat.pow 10 (-exponent).toNat) == rank

/-- The nearest of the two neighbours of `num / den` on the grid `10^exponent` that read back. -/
def onGrid (rank num den : Nat) (exponent : Int) : Option Nat :=
  let scaledNum := num * Nat.pow 10 (-exponent).toNat
  let scaledDen := den * Nat.pow 10 exponent.toNat
  let low := scaledNum / scaledDen
  let rest := 2 * (scaledNum % scaledDen)
  match readsBack rank low exponent, readsBack rank (low + 1) exponent with
  | true, true =>
    some (if rest < scaledDen then low else if scaledDen < rest then low + 1 else low + low % 2)
  | true, false => some low
  | false, true => some (low + 1)
  | false, false => none

/-- The first grid with a numeral that reads back, from the grid of `count` digits on. Seventeen
digits always suffice. -/
def shortestFrom (rank num den : Nat) (top : Int) : Nat → Nat → Nat × Int
  | 0, count => (num * Nat.pow 10 ((count : Int) - top).toNat / den, top - count)
  | fuel + 1, count =>
    match onGrid rank num den (top - count) with
    | some digits => (digits, top - count)
    | none => shortestFrom rank num den top fuel (count + 1)

/-- The digits and the exponent of ten of the shortest numeral of a magnitude. -/
def shortest (rank : Nat) : Nat × Int :=
  if rank = 0 then (0, 0)
  else
    let (num, den) := ratio rank
    shortestFrom rank num den (decimalExponent num den) 17 0

/-- Drops the zeros on the right end of a numeral. -/
def trimZeros (digits : List Char) : List Char :=
  (digits.reverse.dropWhile (· == '0')).reverse

/-- An exponent of ten with its sign and at least two digits. -/
def exponentText (e : Int) : List Char :=
  (if e < 0 then '-' else '+') :: Text.padded 10 2 e.natAbs

/-- The numeral `0.d₁d₂… * 10^point`, for digits without zeros at the end. -/
def placed (digits : List Char) (point : Int) : List Char :=
  if point ≤ -4 || 16 < point then
    let fraction := digits.drop 1
    digits.take 1 ++ (if fraction.isEmpty then [] else '.' :: fraction) ++
      'e' :: exponentText (point - 1)
  else if point ≤ 0 then
    ['0', '.'] ++ List.replicate (-point).toNat '0' ++ digits
  else
    let whole := point.toNat
    let fraction := digits.drop whole
    digits.take whole ++ List.replicate (whole - digits.length) '0' ++
      '.' :: (if fraction.isEmpty then ['0'] else fraction)

/-- The text of a magnitude. -/
def magnitudeText (rank : Nat) : List Char :=
  if rank = 0 then ['0', '.', '0']
  else
    let (digits, exponent) := shortest rank
    let all := Nat.toDigits 10 digits
    placed (trimZeros all) (all.length + exponent)

/-- The text of a double. -/
def text : Double → String
  | .nan => "nan"
  | .infinity negative => if negative then "-inf" else "inf"
  | .finite negative rank _ =>
    String.ofList ((if negative then ['-'] else []) ++ magnitudeText rank)

end SqlScribe.Double
