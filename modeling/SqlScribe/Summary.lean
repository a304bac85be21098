import SqlScribe.PreparedQuery

/-!
# Describing a dialect

A summary of what a dialect can do, with small samples of how it writes things.
-/

namespace SqlScribe

/-- The summary of a style. -/
structure Summary where
  name : String
  typeName : String
  placeholderStyle : String
  hasReturning : Bool
  hasUpsert : Bool
  hasDoNothing : Bool
  hasArrays : Bool
  quotedIdentifier : String
  placeholders : List String
  trueText : String
  falseText : String
  concatenation : String
  pagination : String
deriving DecidableEq, Repr

namespace Summary

/-- The select whose pagination is shown. Its table has a key, since some dialects need an order. -/
def sampleSelect : Select :=
  let table : Table := ⟨.word "sample", .absent, .absent, [.word "id"]⟩
  ⟨[⟨.column .absent (.word "id"), .absent⟩], some (.table table), [], none, [], none, [], some 10,
    some 20, .switch false⟩

/-- A fragment that is known to be written, as text. -/
def sampleText (style : Style) : Rendered Fragment → String
  | .ok f => f.spell style
  | .error _ => ""

/-- The summary of a style. -/
def ofStyle (style : Style) : Summary :=
  let d := style.dialect
  { name := d.name
    typeName := d.typeName
    placeholderStyle := d.placeholderStyle
    hasReturning := d.hasReturning
    hasUpsert := d.hasUpsert
    hasDoNothing := d.hasDoNothing
    hasArrays := d.hasArrays
    quotedIdentifier := style.identifier "order"
    placeholders := [1, 2, 3].map d.placeholder
    trueText := sampleText style ((Expr.truth (.switch true)).render d)
    falseText := sampleText style ((Expr.truth (.switch false)).render d)
    concatenation := (d.concatenated ["'a'", "'b'", "'c'"]).spell style
    pagination := sampleText style (sampleSelect.render d) }

/-- The summary as data, with a name for each entry. -/
def toData (x : Summary) : Data :=
  let texts (entries : List String) : Data := .list (entries.map .text)
  .dict ([("name", .text x.name), ("class_name", .text x.typeName),
    ("paramstyle", .text x.placeholderStyle), ("supports_returning", .bool x.hasReturning),
    ("supports_upsert", .bool x.hasUpsert),
    ("supports_conflict_do_nothing", .bool x.hasDoNothing),
    ("supports_arrays", .bool x.hasArrays), ("quoted_identifier", .text x.quotedIdentifier),
    ("sample_placeholders", texts x.placeholders), ("literal_true", .text x.trueText),
    ("literal_false", .text x.falseText), ("sample_concat", .text x.concatenation),
    ("sample_pagination", .text x.pagination)].map fun (k, d) => (Data.text k, d))

end Summary

end SqlScribe
