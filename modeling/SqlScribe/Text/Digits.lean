/-!
# Numerals

Writing natural numbers and integers in base ten and sixteen, and reading runs of digits. Only the
ASCII digits count.

Numbers of any size are written and read. An interpreter that stops at some number of digits, by
default or by a setting, refuses larger ones; that limit has no place here.
-/

namespace SqlScribe.Text

/-- A natural number in base ten. -/
def natText (n : Nat) : String := String.ofList (Nat.toDigits 10 n)

/-- An integer in base ten, with a minus sign where it is negative. -/
def intText : Int → String
  | .ofNat n => natText n
  | .negSucc n => "-" ++ natText (n + 1)

/-- A numeral in the given base, filled with zeros on the left up to `width` digits. -/
def padded (base width n : Nat) : List Char :=
  let digits := Nat.toDigits base n
  List.replicate (width - digits.length) '0' ++ digits

/-- A numeral of base ten with at least `width` digits. -/
def padText (width n : Nat) : String := String.ofList (padded 10 width n)

/-- Whether a character is one of `0` to `9`. -/
def isDigit (c : Char) : Bool := '0' ≤ c && c ≤ '9'

/-- The value of a digit of base ten or sixteen, in either case of the letters. -/
def digitValue? (c : Char) : Option Nat :=
  if isDigit c then some (c.toNat - 48)
  else if 'a' ≤ c && c ≤ 'f' then some (c.toNat - 87)
  else if 'A' ≤ c && c ≤ 'F' then some (c.toNat - 55)
  else none

/-- The number that a run of digits denotes, from the number denoted so far. -/
def digitsValue (base : Nat) (soFar : Nat) : List Char → Option Nat
  | [] => some soFar
  | c :: rest =>
    match digitValue? c with
    | some d => if d < base then digitsValue base (soFar * base + d) rest else none
    | none => none

/-- Reads a text that is nothing but digits, and at least one. -/
def readNat? (base : Nat) : List Char → Option Nat
  | [] => none
  | cs => digitsValue base 0 cs

/-- The bytes that pairs of hexadecimal digits denote. -/
def readBytes? : List Char → Option (List UInt8)
  | [] => some []
  | [_] => none
  | a :: b :: rest =>
    match digitValue? a, digitValue? b, readBytes? rest with
    | some x, some y, some bytes => some (UInt8.ofNat (x * 16 + y) :: bytes)
    | _, _, _ => none

/-- Bytes as pairs of lower-case hexadecimal digits. -/
def bytesText (bytes : List UInt8) : String :=
  String.ofList (bytes.flatMap fun b => padded 16 2 b.toNat)

/-- A numeral of base sixteen as a reader of integers takes it after its sign and its base mark:
digits with single underscores between them. -/
def hexRun? (soFar : Nat) : List Char → Option Nat
  | [] => some soFar
  | '_' :: c :: rest =>
    match digitValue? c with
    | some d => hexRun? (soFar * 16 + d) rest
    | none => none
  | c :: rest =>
    match digitValue? c with
    | some d => hexRun? (soFar * 16 + d) rest
    | none => none

/-- A numeral of base sixteen without its sign: an optional `0x`, then at least one digit. -/
def hexMagnitude? : List Char → Option Nat
  | '0' :: 'x' :: rest | '0' :: 'X' :: rest =>
    match rest with
    | [] => none
    | '_' :: rest => if rest.isEmpty then none else startDigit rest
    | rest => startDigit rest
  | cs => startDigit cs
where
  /-- The first character has to be a digit. -/
  startDigit : List Char → Option Nat
    | c :: rest =>
      match digitValue? c with
      | some d => hexRun? d rest
      | none => none
    | [] => none

end SqlScribe.Text
