import SqlScribe.Calendar

/-!
# Reading dates and times

The readers take the texts that the writers of `Calendar` produce, and give what was written, except
that an offset has to be a second at least. Of a zone a text tells no more than the distance on that
day, so what is read stands in a zone that keeps this distance for ever.
-/

namespace SqlScribe

/-- Reads `width` digits off the front of a text. -/
def takeDigits? (width : Nat) (cs : List Char) : Option (Nat × List Char) :=
  if cs.length < width then none
  else (Text.readNat? 10 (cs.take width)).map fun n => (n, cs.drop width)

/-- Takes one given character off the front of a text. -/
def takeChar? (c : Char) : List Char → Option (List Char)
  | d :: rest => if c = d then some rest else none
  | [] => none

namespace Date

/-- Reads a date off the front of a text. -/
def take? (cs : List Char) : Option (Date × List Char) := do
  let (year, cs) ← takeDigits? 4 cs
  let cs ← takeChar? '-' cs
  let (month, cs) ← takeDigits? 2 cs
  let cs ← takeChar? '-' cs
  let (day, cs) ← takeDigits? 2 cs
  return (⟨year, month, day⟩, cs)

/-- Reads a text that is a date. -/
def ofText? (s : String) : Option Date :=
  match take? s.toList with
  | some (d, []) => some d
  | _ => none

end Date

namespace Time

/-- Reads a fraction of six digits, if there is one. -/
def takeFraction? : List Char → Option (Nat × List Char)
  | '.' :: cs => takeDigits? 6 cs
  | cs => some (0, cs)

/-- Reads the seconds and the fraction, if there are any. -/
def takeSeconds? : List Char → Option (Nat × Nat × List Char)
  | ':' :: cs => do
    let (second, cs) ← takeDigits? 2 cs
    let (microsecond, cs) ← takeFraction? cs
    return (second, microsecond, cs)
  | cs => some (0, 0, cs)

/-- Reads hours, minutes and what follows of a time or of an offset, in microseconds. -/
def takeClock? (cs : List Char) : Option (Nat × Nat × Nat × Nat × List Char) := do
  let (hour, cs) ← takeDigits? 2 cs
  let cs ← takeChar? ':' cs
  let (minute, cs) ← takeDigits? 2 cs
  let (second, microsecond, cs) ← takeSeconds? cs
  return (hour, minute, second, microsecond, cs)

/-- Reads the offset that ends a text, if there is one. An offset below a second counts as zero. -/
def readOffset? : List Char → Option (Option Int)
  | [] => some none
  | sign :: cs =>
    if sign = '+' || sign = '-' then
      match takeClock? cs with
      | some (hour, minute, second, microsecond, []) =>
        let seconds := (hour * 60 + minute) * 60 + second
        let us : Int := if seconds = 0 then 0 else seconds * 1000000 + microsecond
        some (some (if sign = '-' then -us else us))
      | _ => none
    else none

/-- Reads a text that is a time. -/
def read? (cs : List Char) : Option Time := do
  let (hour, minute, second, microsecond, cs) ← takeClock? cs
  let offset ← readOffset? cs
  return ⟨⟨hour, minute, second, microsecond⟩, offset.map .fixed, false⟩

/-- Reads a text that is a time. -/
def ofText? (s : String) : Option Time := read? s.toList

end Time

/-- Reads a text that is a date and a time with one character between them. -/
def DateTime.ofText? (s : String) : Option DateTime := do
  let (date, cs) ← Date.take? s.toList
  let time ← Time.read? (cs.drop 1)
  return ⟨date, time⟩

end SqlScribe
