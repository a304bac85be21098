import SqlScribe.Json.Reader
import SqlScribe.Json.Writer
import SqlScribe.Text.Quoted

/-!
# Values from data, and back

`Value.ofData` chooses the kind for data: a scalar gets the kind of its type, a mapping or a
sequence becomes a JSON document, and a member of an enumeration is a label if it carries a text.
`Value.make` makes a value of a demanded kind and refuses data of another type.

Integers have to fit into 64 bits with a sign, and decimals have to be finite. The items of an array
share one kind, nulls apart.
-/

namespace SqlScribe

/-- Why data cannot become a value. -/
inductive EncodingError where
  /-- The kind asks for data of another type. -/
  | wrongType (kind : Kind) (typeName : String)
  | outsideRange (n : Int)
  /-- The integer is too large for any double. -/
  | tooLarge
  | notUuid (s : String)
  | notFinite (w : DecimalWord)
  | mixedKinds (kinds : List String)
  | notJson (fault : Json.Fault)
  /-- No kind takes data of this type. -/
  | unsupported (typeName : String)
  /-- An array was asked for from data that have no members. -/
  | noMembers (typeName : String)
deriving DecidableEq

namespace EncodingError

/-- What a kind asks for, with its article. -/
def wanted : Kind → String
  | .null => "None" | .int64 => "an int" | .float64 => "a float" | .text => "a str"
  | .bytes => "bytes" | .bool => "a bool" | .dateTime => "a datetime" | .date => "a date"
  | .time => "a time" | .uuid => "a UUID" | .json => "a document"
  | .decimal => "a decimal.Decimal" | .enum => "a str label" | .xml => "a str"
  | .array => "a sequence"

/-- The wording of an error. -/
def message : EncodingError → String
  | .wrongType kind typeName => kind.variant ++ " expects " ++ wanted kind ++ ", got " ++ typeName
  | .outsideRange n => "Integer " ++ Text.intText n ++ " is outside the signed 64-bit range"
  | .tooLarge => "int too large to convert to float"
  | .notUuid s => "Invalid UUID string: " ++ Text.quoted s
  | .notFinite w => "Non-finite decimal " ++ w.text ++ " cannot be bound"
  | .mixedKinds kinds => "Array items must share one kind, got " ++ ", ".intercalate kinds
  | .notJson fault => "Value is not JSON serializable: " ++ fault.message
  | .unsupported typeName => "Unsupported value type: " ++ typeName
  | .noMembers typeName => "'" ++ typeName ++ "' object is not iterable"

end EncodingError

namespace Value

/-- Whether an integer fits into 64 bits with a sign. -/
def fitsInt64 (n : Int) : Bool := Int64.minValue.toInt ≤ n && n ≤ Int64.maxValue.toInt

/-- An integer of 64 bits with a sign. -/
def ofInt (n : Int) : Except EncodingError Value :=
  if fitsInt64 n then .ok (.int64 (Int64.ofInt n)) else .error (.outsideRange n)

/-- A finite decimal. -/
def ofDecimalWord : DecimalWord → Except EncodingError Value
  | .finite d => .ok (.decimal d)
  | w => .error (.notFinite w)

/-- A JSON document in its canonical text. -/
def ofJson (d : Data) : Except EncodingError Value :=
  match Json.write d with
  | .ok document => .ok (.json document)
  | .error fault => .error (.notJson fault)

/-- The value of the kind that suits the type of the data. -/
def ofData : Data → Except EncodingError Value
  | .value v => .ok v
  | .null => .ok .null
  | .label inner =>
    match inner with
    | .text s => .ok (.enum s)
    | inner => ofData inner
  | .textLabel s => .ok (.enum s)
  | .bool b => .ok (.bool b)
  | .int n | .intLabel n => ofInt n
  | .float x => .ok (.float64 x)
  | .text s => .ok (.text s)
  | .bytes _ octets => .ok (.bytes octets)
  | .decimal w => ofDecimalWord w
  | .uuid u => .ok (.uuid u)
  | .dateTime t => .ok (.dateTime t)
  | .date d => .ok (.date d)
  | .time t => .ok (.time t)
  | .dict entries => ofJson (.dict entries)
  | .list items => ofJson (.list items)
  | .tuple items => ofJson (.tuple items)
  | .set _ => .error (.unsupported "set")
  | .bare name => .error (.unsupported name)
  | .record name _ => .error (.unsupported name)

/-- Values from a list of data, in order. -/
def ofDataAll : List Data → Except EncodingError (List Value)
  | [] => .ok []
  | d :: rest => do
    let v ← ofData d
    return v :: (← ofDataAll rest)

/-- The names of the kinds among the values that are not null, each once and in order. -/
def kindNames (items : List Value) : List String :=
  let names := (items.filter fun v => !v.isNull).map fun v => v.kind.name
  names.eraseDups.mergeSort fun a b => a ≤ b

/-- An array of the values of its items. -/
def makeArray (items : List Data) : Except EncodingError Value := do
  let values ← ofDataAll items
  let kinds := kindNames values
  if kinds.length ≤ 1 then return .array values else .error (.mixedKinds kinds)

/-- A double, from a double or an integer. -/
def makeFloat64 (d : Data) : Except EncodingError Value :=
  match d with
  | .float x => .ok (.float64 x)
  | .int n | .intLabel n =>
    match Double.ofInt? n with
    | some x => .ok (.float64 x)
    | none => .error .tooLarge
  | d => .error (.wrongType .float64 d.typeName)

/-- An identifier, from one or from a spelling of one. -/
def makeUuid (d : Data) : Except EncodingError Value :=
  match d, d.asText? with
  | .uuid u, _ => .ok (.uuid u)
  | _, some s =>
    match Uuid.ofText? s with
    | some u => .ok (.uuid u)
    | none => .error (.notUuid s)
  | d, none => .error (.wrongType .uuid d.typeName)

/-- A value of a kind that holds a text. -/
def makeText (kind : Kind) (wrap : String → Value) (d : Data) : Except EncodingError Value :=
  match d.asText? with
  | some s => .ok (wrap s)
  | none => .error (.wrongType kind d.typeName)

/-- A value of the demanded kind. -/
def make (kind : Kind) (d : Data) : Except EncodingError Value :=
  match kind with
  | .null => .ok .null
  | .int64 =>
    match d with
    | .int n | .intLabel n => ofInt n
    | d => .error (.wrongType .int64 d.typeName)
  | .float64 => makeFloat64 d
  | .text => makeText .text .text d
  | .enum => makeText .enum .enum d
  | .xml => makeText .xml .xml d
  | .bytes =>
    match d with
    | .bytes _ octets => .ok (.bytes octets)
    | d => .error (.wrongType .bytes d.typeName)
  | .bool =>
    match d with
    | .bool b => .ok (.bool b)
    | d => .error (.wrongType .bool d.typeName)
  | .dateTime =>
    match d with
    | .dateTime t => .ok (.dateTime t)
    | d => .error (.wrongType .dateTime d.typeName)
  | .date =>
    match d with
    | .date t => .ok (.date t)
    | d => .error (.wrongType .date d.typeName)
  | .time =>
    match d with
    | .time t => .ok (.time t)
    | d => .error (.wrongType .time d.typeName)
  | .uuid => makeUuid d
  | .json => ofJson d
  | .decimal =>
    match d with
    | .decimal w => ofDecimalWord w
    | d => .error (.wrongType .decimal d.typeName)
  | .array =>
    match d.members? with
    | some items => makeArray items
    | none => .error (.noMembers d.typeName)

mutual

/-- The data that a value carries; `none` for a JSON value whose text is no document. -/
def native? : Value → Option Data
  | .null => some .null
  | .int64 n => some (.int n.toInt)
  | .float64 x => some (.float x)
  | .text s | .enum s | .xml s => some (.text s)
  | .bytes octets => some (.bytes .fixed octets)
  | .bool b => some (.bool b)
  | .dateTime t => some (.dateTime t)
  | .date d => some (.date d)
  | .time t => some (.time t)
  | .uuid u => some (.uuid u)
  | .json document => Json.read? document
  | .decimal d => some (.decimal (.finite d))
  | .array items => (nativeAll? items).map .list

/-- The data that a list of values carries. -/
def nativeAll? : List Value → Option (List Data)
  | [] => some []
  | v :: rest =>
    match native? v, nativeAll? rest with
    | some d, some ds => some (d :: ds)
    | _, _ => none

end

end Value

end SqlScribe
