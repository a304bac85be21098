import SqlScribe.Fragment
import SqlScribe.Proofs.QuotedName

/-!
# Reading the places of a text

`scan` reads a written statement as a database does, as far as the places for values are concerned.
A place counts only outside of quoted names and of literals between single quotes; inside quotes the
closing quote stands for itself where it is written twice. A place without a number is counted, and
the others carry their number.

`substitute` puts texts into the places, and `placeNumbers` are the numbers of the places in the
order of the text.
-/

namespace SqlScribe

/-- A piece of a text: a character, or the place of the value with a number, counted from one. -/
inductive Token where
  | char (c : Char)
  | place (number : Nat)
deriving DecidableEq, Repr

/-- Where the reader of a text is. -/
inductive Reader where
  /-- Outside of quotes; the next `skip` characters belong to a place that has been read. -/
  | outside (skip : Nat)
  /-- Between quotes that `close` ends. -/
  | quoted (close : Char)
  /-- Between quotes, before the second of two closing quotes. -/
  | doubled (close : Char)

namespace Dialect

/-- Whether places carry numbers. -/
def hasNumbers : Dialect → Bool
  | .sqlite | .mysql => false
  | .postgres | .mssql => true

/-- Whether a place begins with a character. -/
def marks (d : Dialect) (c : Char) : Bool :=
  match d with
  | .sqlite | .mysql => c = '?'
  | .postgres => c = '$'
  | .mssql => c = '@'

/-- Where the reader is behind a character that is read outside of quotes. -/
def readerAfter (d : Dialect) (c : Char) : Reader :=
  if c = d.openQuote then .quoted d.closeQuote
  else if c = '\'' then .quoted '\''
  else .outside 0

end Dialect

/-- The number that a text begins with, and how many digits it has. -/
def numberAt (cs : List Char) : Option (Nat × Nat) :=
  let digits := cs.takeWhile Char.isDigit
  if digits.isEmpty then none else some (Nat.ofDigitChars 10 digits 0, digits.length)

/-- The place that a text begins with: its number, which is `next` for a place that has none, and
its length. -/
def Dialect.placeAt (d : Dialect) (next : Nat) (cs : List Char) : Option (Nat × Nat) :=
  match d, cs with
  | .sqlite, '?' :: _ | .mysql, '?' :: _ => some (next, 1)
  | .postgres, '$' :: rest => (numberAt rest).map fun (n, length) => (n, length + 1)
  | .mssql, '@' :: 'p' :: rest => (numberAt rest).map fun (n, length) => (n, length + 2)
  | _, _ => none

/-- The tokens of a text from a state of the reader on, with the number of places `seen` so far. -/
def scan (d : Dialect) : Reader → Nat → List Char → List Token
  | _, _, [] => []
  | .outside (skip + 1), seen, _ :: rest => scan d (.outside skip) seen rest
  | .outside 0, seen, c :: rest =>
    match d.placeAt (seen + 1) (c :: rest) with
    | some (number, length) => .place number :: scan d (.outside (length - 1)) (seen + 1) rest
    | none => .char c :: scan d (d.readerAfter c) seen rest
  | .quoted close, seen, c :: rest =>
    .char c :: scan d
      (if c = close then if rest.head? = some close then .doubled close else .outside 0
      else .quoted close) seen rest
  | .doubled close, seen, c :: rest => .char c :: scan d (.quoted close) seen rest

/-- The tokens of a text. -/
def tokensOf (d : Dialect) (sql : String) : List Token := scan d (.outside 0) 0 sql.toList

/-- The text of tokens with the shown values in their places. -/
def fill (shown : List String) : List Token → String
  | [] => ""
  | .char c :: rest => String.singleton c ++ fill shown rest
  | .place 0 :: rest => fill shown rest
  | .place (k + 1) :: rest => shown.getD k "" ++ fill shown rest

/-- A text with the shown values in the places: the first in place one, and so on. -/
def substitute (d : Dialect) (shown : List String) (sql : String) : String :=
  fill shown (tokensOf d sql)

/-- The number of a token that is a place. -/
def Token.number? : Token → Option Nat
  | .char _ => none
  | .place k => some k

/-- The numbers of the places of a text, in the order of the text. -/
def placeNumbers (d : Dialect) (sql : String) : List Nat :=
  (tokensOf d sql).filterMap Token.number?

example : placeNumbers .postgres "\"$1\" = $2 AND '$3' < $12" = [2, 12] := by decide +kernel
example :
    substitute .mysql ["x", "y"] "\x60a?\x60 = ? OR '?' = ?" = "\x60a?\x60 = x OR '?' = y" := by
  decide +kernel

/-! ## Reading on -/

theorem scan_skip (d : Dialect) (seen : Nat) (cs rest : List Char) :
    scan d (.outside cs.length) seen (cs ++ rest) = scan d (.outside 0) seen rest := by
  induction cs with
  | nil => rfl
  | cons c cs ih => simpa [scan] using ih

theorem placeAt_eq_none {d : Dialect} {c : Char} (h : d.marks c = false) (next : Nat)
    (rest : List Char) : d.placeAt next (c :: rest) = none := by
  unfold Dialect.placeAt
  split <;> simp_all [Dialect.marks]

/-- Whether a character is read as itself outside of quotes, and leaves the reader there. -/
def Dialect.isCalm (d : Dialect) (c : Char) : Bool :=
  !d.marks c && c ≠ d.openQuote && c ≠ '\''

theorem scan_calm {d : Dialect} {cs : List Char} (h : cs.all d.isCalm = true) (seen : Nat)
    (rest : List Char) :
    scan d (.outside 0) seen (cs ++ rest) = cs.map .char ++ scan d (.outside 0) seen rest := by
  induction cs with
  | nil => rfl
  | cons c cs ih =>
    simp only [List.all_cons, Bool.and_eq_true] at h
    obtain ⟨hc, hcs⟩ := h
    simp only [Dialect.isCalm, Bool.and_eq_true, Bool.not_eq_true', decide_eq_true_eq] at hc
    obtain ⟨⟨hm, ho⟩, hq⟩ := hc
    have hr : d.readerAfter c = .outside 0 := by
      unfold Dialect.readerAfter
      rw [if_neg (by simpa using ho), if_neg (by simpa using hq)]
    simp [scan, placeAt_eq_none hm, hr, ih hcs]

/-- A text between quotes is read up to its closing quote, if no other closing quote follows. -/
theorem scan_quoted (d : Dialect) (q : Char) (seen : Nat) (body : List Char) {rest : List Char}
    (h : rest.head? ≠ some q) :
    scan d (.quoted q) seen (doubled q body ++ q :: rest) =
      (doubled q body ++ [q]).map .char ++ scan d (.outside 0) seen rest := by
  induction body with
  | nil => simp [scan, h]
  | cons c body ih =>
    -- a closing quote inside is written twice, and the reader goes on behind the second
    by_cases hc : c = q
    · subst hc
      rw [doubled_cons_self]
      simp [scan, ih]
    · rw [doubled_cons_of_ne hc]
      simp [scan, hc, ih]

theorem numberAt_toDigits (n : Nat) {rest : List Char}
    (h : ∀ c, rest.head? = some c → c.isDigit = false) :
    numberAt (Nat.toDigits 10 n ++ rest) =
      some (n, (Nat.toDigits 10 n).length) := by
  have digits : ∀ c ∈ Nat.toDigits 10 n, c.isDigit = true := fun c hc =>
    Nat.isDigit_of_mem_toDigits (by decide) (by decide) hc
  have hrest : rest.takeWhile Char.isDigit = [] := by
    cases rest with
    | nil => rfl
    | cons c rest => simp [h c rfl]
  have taken : (Nat.toDigits 10 n ++ rest).takeWhile Char.isDigit = Nat.toDigits 10 n := by
    rw [List.takeWhile_append_of_pos digits, hrest, List.append_nil]
  simp [numberAt, taken, Nat.toDigits_ne_nil, Nat.ofDigitChars_ten_toDigits]

end SqlScribe
