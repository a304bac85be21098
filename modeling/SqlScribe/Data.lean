import SqlScribe.Value

/-!
# Data

`Data` is what a caller hands over before the library has looked at it: plain scalars, sequences
and mappings, finished values, and records of the library seen from outside as a name with named
fields. Values are made from data, JSON texts are written from data, and whatever stands in a place
where an expression was expected is kept as data.

`Data.same` is the equality of data: numbers of all types by what they denote, sequences of one type
place by place, mappings and sets without regard to order, records of one name field by field.
-/

namespace SqlScribe

/-- The three shapes in which bytes are handed over. -/
inductive ByteForm where
  | fixed | growable | view
deriving DecidableEq, Repr

/-- The type name of a shape. -/
def ByteForm.typeName : ByteForm → String
  | .fixed => "bytes"
  | .growable => "bytearray"
  | .view => "memoryview"

/-- Anything that a caller may hand over. -/
inductive Data where
  | null
  | bool (b : Bool)
  | int (n : Int)
  | float (x : Double)
  | text (s : String)
  | bytes (form : ByteForm) (octets : List UInt8)
  | decimal (w : DecimalWord)
  | uuid (u : Uuid)
  | date (d : Date)
  | dateTime (t : DateTime)
  | time (t : Time)
  | list (items : List Data)
  | tuple (items : List Data)
  | dict (entries : List (Data × Data))
  /-- A set, with its members in the order in which it goes through them. -/
  | set (members : List Data)
  /-- A member of an enumeration. -/
  | label (value : Data)
  /-- A member of an enumeration of texts, which is a text too. -/
  | textLabel (s : String)
  /-- A member of an enumeration of integers, which is an integer too. -/
  | intLabel (n : Int)
  /-- An object of a type that the library knows nothing about. -/
  | bare (typeName : String)
  | value (v : Value)
  /-- A record of the library. -/
  | record (typeName : String) (fields : List (String × Data))
deriving Inhabited

namespace Data

/-- The name of the type, as messages give it. -/
def typeName : Data → String
  | .null => "NoneType" | .bool _ => "bool" | .int _ => "int" | .float _ => "float"
  | .text _ => "str" | .bytes form _ => form.typeName | .decimal _ => "Decimal"
  | .uuid _ => "UUID" | .date _ => "date" | .dateTime _ => "datetime" | .time _ => "time"
  | .list _ => "list" | .tuple _ => "tuple" | .dict _ => "dict" | .set _ => "set"
  | .label _ | .textLabel _ | .intLabel _ => "Enum"
  | .bare name => name
  | .value v => v.kind.variant
  | .record name _ => name

/-- The name of the type with the group of types that it belongs to, as failed comparisons and keys
are reported. -/
def fullTypeName : Data → String
  | .decimal _ => "decimal.Decimal"
  | .date _ => "datetime.date"
  | .dateTime _ => "datetime.datetime"
  | .time _ => "datetime.time"
  | d => d.typeName

/-- The text that data of a text type carry. -/
def asText? : Data → Option String
  | .text s | .textLabel s => some s
  | _ => none

/-- Whether data have letters, so that they can be asked for small ones. -/
def hasLetters : Data → Bool
  | .text _ | .textLabel _ | .bytes .fixed _ | .bytes .growable _ => true
  | _ => false

/-- Whether data can be asked to replace a part of them by another. -/
def hasReplacements : Data → Bool
  | .date _ | .dateTime _ | .time _ => true
  | d => d.hasLetters

/-- The integer that data of an integer type carry; a truth value is one. -/
def asInt? : Data → Option Int
  | .int n | .intLabel n => some n
  | .bool b => some (if b then 1 else 0)
  | _ => none

/-- The number that data of any number type denote, exactly. -/
def number? : Data → Option DecimalWord
  | .float x => some (.ofDouble x)
  | .decimal w => some w
  | d => d.asInt?.map fun n => .finite (.ofInt n)

/-- Whether there is nothing at all. -/
def isNull : Data → Bool
  | .null => true
  | _ => false

/-- Whether a condition on the data holds: zeros, empty texts and empty collections are false. -/
def isTrue : Data → Bool
  | .null => false
  | .bool b => b
  | .int n | .intLabel n => n != 0
  | .float x => !x.isZero
  | .text s | .textLabel s => !s.isEmpty
  | .bytes _ octets => !octets.isEmpty
  | .decimal (.finite d) => d.coefficient != 0
  | .list items | .tuple items => !items.isEmpty
  | .dict entries => !entries.isEmpty
  | .set members => !members.isEmpty
  | _ => true

/-- Data, or others where a condition on them fails. -/
def orElse (d other : Data) : Data := if d.isTrue then d else other

/-- Whether two scalars are equal; `none` where one of them is no scalar. Objects of a type that the
library knows nothing about are different, but complex numbers, which it cannot use either, are
taken as one. -/
def sameScalar? (a b : Data) : Option Bool :=
  match a.number?, b.number? with
  | some x, some y => some (x.compare? y == some .eq)
  | some _, none | none, some _ => none
  | none, none =>
    match a, b with
    | .null, .null => some true
    | .bytes _ x, .bytes _ y => some (x == y)
    | .uuid x, .uuid y => some (x == y)
    | .date x, .date y => some (x == y)
    | .dateTime x, .dateTime y => some (x.same y)
    | .time x, .time y => some (x.same y)
    | .value x, .value y => some (x.same y)
    | .bare x, .bare y => some (x == "complex" && y == "complex")
    | a, b =>
      match a.asText?, b.asText? with
      | some x, some y => some (x == y)
      | _, _ => none

mutual

/-- Equality of data. -/
def same : Data → Data → Bool
  | .list as, .list bs => sameAll as bs
  | .tuple as, .tuple bs => sameAll as bs
  | .dict as, .dict bs => as.length == bs.length && sameEntries as bs
  | .set as, .set bs => as.length == bs.length && sameMembers as bs
  | .label a, .label b => same a b
  | .record a as, .record b bs => a == b && sameFields as bs
  | a, b => (sameScalar? a b).getD false

/-- Equality place by place. -/
def sameAll : List Data → List Data → Bool
  | [], [] => true
  | a :: as, b :: bs => same a b && sameAll as bs
  | _, _ => false

/-- Whether each member of the first set is one of the second. -/
def sameMembers : List Data → List Data → Bool
  | [], _ => true
  | a :: as, bs => bs.any (same a) && sameMembers as bs

/-- Whether each entry of the first mapping is one of the second. -/
def sameEntries : List (Data × Data) → List (Data × Data) → Bool
  | [], _ => true
  | e :: as, bs => bs.any (sameEntry e) && sameEntries as bs

/-- Equality of two entries of mappings. -/
def sameEntry : Data × Data → Data × Data → Bool
  | (k, v), (k', v') => same k k' && same v v'

/-- Equality of fields in order. -/
def sameFields : List (String × Data) → List (String × Data) → Bool
  | [], [] => true
  | a :: as, b :: bs => sameField a b && sameFields as bs
  | _, _ => false

/-- Equality of two fields of records. -/
def sameField : String × Data → String × Data → Bool
  | (n, v), (n', v') => n == n' && same v v'

end

mutual

/-- Whether data can be a key of a mapping: nothing that could change later can, and nothing that
holds such a thing. A signaling NaN cannot either. -/
def isKey : Data → Bool
  | .list _ | .dict _ | .set _ | .bytes .growable _ => false
  | .decimal (.nan _ signaling _) => !signaling
  | .tuple items => areKeys items
  | .record _ fields => fieldsAreKeys fields
  | _ => true

/-- Whether all of a list of data can be keys. -/
def areKeys : List Data → Bool
  | [] => true
  | d :: rest => isKey d && areKeys rest

/-- Whether all fields of a record can be keys. -/
def fieldsAreKeys : List (String × Data) → Bool
  | [] => true
  | f :: rest => fieldIsKey f && fieldsAreKeys rest

/-- Whether a field of a record can be a key. -/
def fieldIsKey : String × Data → Bool
  | (_, d) => isKey d

end

/-- Whether two keys are one. Times are looked up by their instant, so two of them that are equal
for comparisons may still be two keys. -/
def sameKey (a b : Data) : Bool :=
  match a, b with
  | .time x, .time y => a.same b && x.instant == y.instant
  | _, _ => a.same b

/-- Puts an entry into a mapping: a known key keeps its place and gets the new value. -/
def putEntry {α β : Type} (same : α → α → Bool) (entries : List (α × β)) (entry : α × β) :
    List (α × β) :=
  if entries.any (fun e => same e.1 entry.1) then
    entries.map fun e => if same e.1 entry.1 then (e.1, entry.2) else e
  else entries ++ [entry]

/-- The mapping that a list of entries makes, later ones overriding earlier ones. -/
def dictOf (entries : List (Data × Data)) : Data := .dict (entries.foldl (putEntry sameKey) [])

/-- The members of data that can be gone through, in order; a text has its characters. -/
def members? : Data → Option (List Data)
  | .list items | .tuple items | .set items => some items
  | .text s | .textLabel s => some (s.toList.map fun c => .text (String.singleton c))
  | .dict entries => some (entries.map (·.1))
  | .bytes _ octets => some (octets.map fun b => .int b.toNat)
  | _ => none

theorem same_texts {a b : Data} {s t : String} (ha : a.asText? = some s)
    (hb : b.asText? = some t) : a.same b = (s == t) := by
  cases a <;> cases ha <;> cases b <;> cases hb <;>
    simp [same, sameScalar?, number?, asInt?, asText?]

end Data

end SqlScribe
