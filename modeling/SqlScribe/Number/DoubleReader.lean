import SqlScribe.Number.Double
import SqlScribe.Number.Numeral
import SqlScribe.Text.Blank
import SqlScribe.Text.DecimalDigit

/-!
# Reading doubles

A text of a double is a numeral with an optional sign, or one of the words for the infinities and
for the NaN, in any case. It reads as the double nearest to what it denotes. Margins and underscores
are skipped, and the digits may be those of any script.
-/

namespace SqlScribe.Double

/-- Reads the text of a double. -/
def ofText? (s : String) : Option Double :=
  let bare := (Text.withoutMargins (Text.plainDigits s.toList)).filter (· != '_')
  let (negative, cs) := Numeral.splitSign bare
  match String.ofList (cs.map Char.toLower) with
  | "inf" | "infinity" => some (.infinity negative)
  | "nan" => some .nan
  | _ => (Numeral.read? cs).map fun n => ofDecimal negative n.digits n.exponent

end SqlScribe.Double
