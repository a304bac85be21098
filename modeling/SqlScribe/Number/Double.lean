/-!
# Doubles

Binary floating-point numbers of double precision, in exact arithmetic. A finite number is a sign
and a *rank*: the place of its magnitude in the increasing list of all magnitudes, zero first. The
rank is at the same time the bit pattern without its sign, so every rank below `infinityRank` is a
number, neighbours differ by one, and magnitudes are compared by their ranks.

`ofRatio` rounds a quotient of naturals to the nearest double, a tie to the even rank.
-/

namespace SqlScribe

/-- The number of finite magnitudes: `2^52` for each of 2047 exponents. -/
def infinityRank : Nat := 2047 * Nat.pow 2 52

/-- A double. `finite negative rank` stands for the magnitude with that rank. -/
inductive Double where
  | nan
  | infinity (negative : Bool)
  | finite (negative : Bool) (rank : Nat) (rank_lt : rank < infinityRank)
deriving DecidableEq

namespace Double

/-- The integer `m` of the magnitude `m * 2^(place rank - 1075)` with this rank. -/
def mantissa (rank : Nat) : Nat :=
  if rank / Nat.pow 2 52 = 0 then rank else Nat.pow 2 52 + rank % Nat.pow 2 52

/-- The exponent of two of the magnitude, plus 1075. At least one. -/
def place (rank : Nat) : Nat := max (rank / Nat.pow 2 52) 1

/-- The magnitude with this rank as a numerator and a denominator. -/
def ratio (rank : Nat) : Nat × Nat :=
  if place rank ≤ 1075 then (mantissa rank, Nat.pow 2 (1075 - place rank))
  else (mantissa rank * Nat.pow 2 (place rank - 1075), 1)

/-- Half to even: the quotient rounded to the nearest natural. -/
def roundHalfEven (num den : Nat) : Nat :=
  let q := num / den
  let r := num % den
  if 2 * r < den then q
  else if den < 2 * r then q + 1
  else q + q % 2

/-- The binary exponent of a quotient: the largest `e` with `2^e ≤ num / den`. -/
def binaryExponent (num den : Nat) : Int :=
  let e : Int := (num.log2 : Int) - den.log2
  if den * Nat.pow 2 e.toNat ≤ num * Nat.pow 2 (-e).toNat then e else e - 1

/-- The rank nearest to a positive quotient, which may be `infinityRank` or more. -/
def rankOfRatio (num den : Nat) : Nat :=
  if num = 0 then 0
  else
    let q : Int := max (-1074) (binaryExponent num den - 52)
    let m := roundHalfEven (num * Nat.pow 2 (-q).toNat) (den * Nat.pow 2 q.toNat)
    (q + 1074).toNat * Nat.pow 2 52 + m

/-- The double with this sign and rank; a rank past the last one is an infinity. -/
def ofRank (negative : Bool) (rank : Nat) : Double :=
  if h : rank < infinityRank then .finite negative rank h else .infinity negative

/-- The double nearest to a quotient. -/
def ofRatio (negative : Bool) (num den : Nat) : Double :=
  ofRank negative (rankOfRatio num den)

/-- The double nearest to `digits * 10^exponent`. Exponents far outside the range are not
evaluated: the answer is an infinity or a zero. -/
def ofDecimal (negative : Bool) (digits : Nat) (exponent : Int) : Double :=
  let size : Int := (Nat.toDigits 10 digits).length
  if digits = 0 || exponent + size < -330 then ofRank negative 0
  else if 330 < exponent + size then .infinity negative
  else ofRatio negative (digits * Nat.pow 10 exponent.toNat) (Nat.pow 10 (-exponent).toNat)

/-- The double nearest to an integer, if it is finite. -/
def ofInt? (n : Int) : Option Double :=
  match ofRatio (n < 0) n.natAbs 1 with
  | .infinity _ => none
  | x => some x

/-- Zero, of either sign. -/
def isZero : Double → Bool
  | .finite _ rank _ => rank == 0
  | _ => false

/-- The place of a number on the line from minus infinity to infinity; both zeros share one. -/
def position? : Double → Option Int
  | .nan => none
  | .infinity negative => some (if negative then -infinityRank else infinityRank)
  | .finite negative rank _ => some (if negative then -rank else rank)

/-- Equality of numbers: a NaN differs from itself, and the two zeros are equal. -/
def same (x y : Double) : Bool :=
  match x.position?, y.position? with
  | some a, some b => a == b
  | _, _ => false

/-- Strict order of numbers, which no NaN enters. -/
def less (x y : Double) : Bool :=
  match x.position?, y.position? with
  | some a, some b => a < b
  | _, _ => false

theorem ratio_den_pos (rank : Nat) : 0 < (ratio rank).2 := by
  unfold ratio
  split
  · exact Nat.two_pow_pos _
  · exact Nat.one_pos

end Double

end SqlScribe
