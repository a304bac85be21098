import SqlScribe.Text.Blank
import SqlScribe.Text.DecimalDigit
import SqlScribe.Text.Digits

/-!
# Universally unique identifiers

An identifier of 128 bits. It is written as 32 lower-case hexadecimal digits in groups of 8, 4, 4, 4
and 12, and read in any of the usual spellings: with or without `urn:uuid:`, braces and hyphens. The
decimal digits among the digits may be those of any script.
-/

namespace SqlScribe

/-- An identifier of 128 bits. -/
structure Uuid where
  bits : BitVec 128
deriving DecidableEq

namespace Uuid

/-- The 32 hexadecimal digits. -/
def digits (u : Uuid) : List Char := Text.padded 16 32 u.bits.toNat

/-- The digits in their five groups. -/
def text (u : Uuid) : String :=
  let ds := u.digits
  String.ofList (ds.take 8 ++ '-' :: (ds.drop 8).take 4 ++ '-' :: (ds.drop 12).take 4 ++
    '-' :: (ds.drop 16).take 4 ++ '-' :: ds.drop 20)

/-- Removes every occurrence of `word`, from left to right. `fuel` bounds the length of the
text. -/
def without (word : List Char) : Nat → List Char → List Char
  | 0, cs => cs
  | fuel + 1, cs =>
    if word.isPrefixOf cs then without word fuel (cs.drop word.length)
    else
      match cs with
      | [] => []
      | c :: rest => c :: without word fuel rest

/-- Whether a character is one of the two braces. -/
def isBrace (c : Char) : Bool := c = '\x7b' || c = '\x7d'

/-- What is left of a spelling when `urn:`, `uuid:`, outer braces and hyphens are gone. -/
def bare (cs : List Char) : List Char :=
  let cs := without ['u', 'r', 'n', ':'] cs.length cs
  let cs := without ['u', 'u', 'i', 'd', ':'] cs.length cs
  let cs := ((cs.dropWhile isBrace).reverse.dropWhile isBrace).reverse
  cs.filter (· != '-')

/-- Reads a spelling whose bare form has 32 characters and is a hexadecimal numeral. -/
def ofText? (s : String) : Option Uuid :=
  let cs := bare s.toList
  if cs.length = 32 then
    let numeral := match Text.withoutMargins (Text.plainDigits cs) with
      | '+' :: rest => rest
      | rest => rest
    (Text.hexMagnitude? numeral).map fun n => ⟨BitVec.ofNat 128 n⟩
  else none

end Uuid

end SqlScribe
