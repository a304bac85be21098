import SqlScribe.Data
import SqlScribe.Number.Shortest
import SqlScribe.Text.Quoted

/-!
# How data look in messages

`Data.display` is the form in which a message names data: quotes around texts, the constructor
around scalars that have no literal, and records with all their fields. `Data.plain` is the form in
which data become part of a text: as `display`, but texts, decimals, identifiers, dates and times
stand for themselves.
-/

namespace SqlScribe.Data

/-- Parts with a comma between them. -/
def commas (parts : List String) : String := ", ".intercalate parts

/-- A duration that is a whole number of microseconds, in days, seconds and microseconds. -/
def durationText (us : Int) : String :=
  let days := us / 86400000000
  let seconds := us % 86400000000 / 1000000
  let rest := us % 1000000
  let part (name : String) (n : Int) : List String :=
    if n = 0 then [] else [name ++ "=" ++ Text.intText n]
  let parts := part "days" days ++ part "seconds" seconds ++ part "microseconds" rest
  "datetime.timedelta(" ++ (if parts.isEmpty then "0" else commas parts) ++ ")"

/-- A zone as a message names it. -/
def zoneText : Zone → String
  | .fixed offset =>
    if offset = 0 then "datetime.timezone.utc"
    else "datetime.timezone(" ++ durationText offset ++ ")"
  | .ruled rule => rule.name

/-- The numbers of a time, the last ones left out while they are zero. -/
def clockParts (t : Clock) : List String :=
  [Text.natText t.hour, Text.natText t.minute] ++
    (if t.second = 0 && t.microsecond = 0 then []
      else Text.natText t.second ::
        (if t.microsecond = 0 then [] else [Text.natText t.microsecond]))

/-- The zone of a time, if it has one. -/
def zoneParts (t : Time) : List String := t.zone.toList.map fun z => "tzinfo=" ++ zoneText z

/-- The mark of the second of two equal readings of the clock. -/
def laterParts (t : Time) : List String := if t.later then ["fold=1"] else []

/-- The parts of a time. -/
def timeParts (t : Time) : List String := clockParts t.toClock ++ zoneParts t ++ laterParts t

/-- The numbers of a date. -/
def dayParts (d : Date) : List String :=
  [Text.natText d.year, Text.natText d.month, Text.natText d.day]

/-- The parts of a date-time, with the mark in front of the zone. -/
def momentParts (t : DateTime) : List String :=
  dayParts t.date ++ clockParts t.time.toClock ++ laterParts t.time ++ zoneParts t.time

/-- Bytes with the constructor of their shape. -/
def bytesDisplay (form : ByteForm) (octets : List UInt8) : String :=
  match form with
  | .fixed => Text.quotedBytes octets
  | .growable => "bytearray(" ++ Text.quotedBytes octets ++ ")"
  | .view => "<memory>"

/-- The word for a truth value. -/
def boolWord (b : Bool) : String := if b then "True" else "False"

/-- Parts between parentheses, with a comma behind a single one. -/
def tupleText : List String → String
  | [part] => "(" ++ part ++ ",)"
  | parts => "(" ++ commas parts ++ ")"

/-- A scalar as a message names it. -/
def scalarDisplay : Data → String
  | .null => "None"
  | .bool b => boolWord b
  | .int n | .intLabel n => Text.intText n
  | .float x => x.text
  | .text s | .textLabel s => Text.quoted s
  | .bytes form octets => bytesDisplay form octets
  | .decimal w => "Decimal('" ++ w.text ++ "')"
  | .uuid u => "UUID('" ++ u.text ++ "')"
  | .date d => "datetime.date(" ++ commas (dayParts d) ++ ")"
  | .dateTime t => "datetime.datetime(" ++ commas (momentParts t) ++ ")"
  | .time t => "datetime.time(" ++ commas (timeParts t) ++ ")"
  | d => "<" ++ d.typeName ++ ">"

/-- The scalar that a value holds; an array holds none. -/
def ofScalar : Value → Data
  | .null | .array _ => .null
  | .int64 n => .int n.toInt
  | .float64 x => .float x
  | .text s | .enum s | .xml s | .json s => .text s
  | .bytes octets => .bytes .fixed octets
  | .bool b => .bool b
  | .dateTime t => .dateTime t
  | .date d => .date d
  | .time t => .time t
  | .uuid u => .uuid u
  | .decimal d => .decimal (.finite d)

/-- A record with its fields, as a message names it. -/
def recordText (name : String) (fields : List (String × String)) : String :=
  name ++ "(" ++ commas (fields.map fun (field, shown) => field ++ "=" ++ shown) ++ ")"

mutual

/-- A value as a message names it. -/
def valueDisplay : Value → String
  | .null => recordText "Null" []
  | .array items => recordText "Array" [("items", tupleText (valueDisplays items))]
  | .json s => recordText "Json" [("text", Text.quoted s)]
  | v => recordText v.kind.variant [("value", scalarDisplay (ofScalar v))]

/-- The displays of a list of values. -/
def valueDisplays : List Value → List String
  | [] => []
  | v :: rest => valueDisplay v :: valueDisplays rest

end

mutual

/-- Data as a message names them. -/
def display : Data → String
  | .list items => "[" ++ commas (displayAll items) ++ "]"
  | .tuple items => tupleText (displayAll items)
  | .dict entries => "\x7b" ++ commas (displayEntries entries) ++ "\x7d"
  | .set members =>
    if members.isEmpty then "set()" else "\x7b" ++ commas (displayAll members) ++ "\x7d"
  | .label inner => display inner
  | .value v => valueDisplay v
  | .record name fields => recordText name (displayFields fields)
  | d => scalarDisplay d

/-- The displays of a list of data. -/
def displayAll : List Data → List String
  | [] => []
  | item :: rest => display item :: displayAll rest

/-- The displays of the entries of a mapping. -/
def displayEntries : List (Data × Data) → List String
  | [] => []
  | entry :: rest => displayEntry entry :: displayEntries rest

/-- The display of one entry of a mapping. -/
def displayEntry : Data × Data → String
  | (k, v) => display k ++ ": " ++ display v

/-- The fields of a record with their displays. -/
def displayFields : List (String × Data) → List (String × String)
  | [] => []
  | field :: rest => displayField field :: displayFields rest

/-- A field of a record with its display. -/
def displayField : String × Data → String × String
  | (name, d) => (name, display d)

end

/-- Data as part of a text. -/
def plain : Data → String
  | .text s | .textLabel s => s
  | .decimal w => w.text
  | .uuid u => u.text
  | .date d => d.text
  | .dateTime t => t.textWith " "
  | .time t => t.text
  | d => d.display

example : display (.tuple [.int 1]) = "(1,)" := by decide +kernel
example : display (.record "Star" [("table_alias", .null)]) = "Star(table_alias=None)" := by
  decide +kernel
example : display (.list [.null, .bool true, .text "a"]) = "[None, True, 'a']" := by decide +kernel

end SqlScribe.Data
