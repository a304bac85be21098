import SqlScribe.Value

/-!
# The order of values

Values of one ordered kind are compared by what they denote; texts go by code points, bytes by
octets, `false` before `true`. A comparison fails between kinds, for JSON and arrays, and between a
naive and an aware time or date-time.
-/

namespace SqlScribe

/-- The four ordering comparisons. -/
inductive Comparison where
  | less | atMost | greater | atLeast
deriving DecidableEq, Repr

namespace Comparison

/-- The sign of a comparison. -/
def sign : Comparison → String
  | .less => "<" | .atMost => "<=" | .greater => ">" | .atLeast => ">="

/-- What a comparison says about two elements of known order. -/
def holds : Comparison → Ordering → Bool
  | .less, o => o == .lt
  | .atMost, o => o != .gt
  | .greater, o => o == .gt
  | .atLeast, o => o != .lt

/-- What a comparison says about two elements that may have no order; it does not hold then. -/
def holdsOf (c : Comparison) : Option Ordering → Bool
  | some o => c.holds o
  | none => false

end Comparison

/-- Why two things cannot be ordered. -/
inductive OrderError where
  /-- The types on the left and on the right have no common order. -/
  | unlike (comparison : Comparison) (left right : String)
  /-- One time has an offset and the other has none. -/
  | mixedTimes
  /-- One date-time has an offset and the other has none. -/
  | mixedDateTimes
  /-- A day is no moment. -/
  | dayWithMoment
deriving DecidableEq, Repr

namespace OrderError

/-- The wording of an error. -/
def text : OrderError → String
  | .unlike comparison left right =>
    "'" ++ comparison.sign ++ "' not supported between instances of '" ++ left ++ "' and '" ++
      right ++ "'"
  | .mixedTimes => "can't compare offset-naive and offset-aware times"
  | .mixedDateTimes => "can't compare offset-naive and offset-aware datetimes"
  | .dayWithMoment => "can't compare datetime.datetime to datetime.date"

/-- The wording where an error is reported by itself; only unlike types are told apart there. -/
def message? : OrderError → Option String
  | .unlike comparison left right => some (OrderError.unlike comparison left right).text
  | .mixedTimes | .mixedDateTimes | .dayWithMoment => none

end OrderError

/-- The order of two doubles, `none` where one is a NaN. -/
def Double.compare? (a b : Double) : Option Ordering :=
  match a.position?, b.position? with
  | some x, some y => some (Ord.compare x y)
  | _, _ => none

namespace Value

/-- The order of two values of one kind: `.ok none` for a NaN, an error where the kind has no
order. -/
def order (comparison : Comparison) (a b : Value) : Except OrderError (Option Ordering) :=
  match a, b with
  | .null, .null => .ok (some .eq)
  | .int64 x, .int64 y => .ok (some (Ord.compare x.toInt y.toInt))
  | .float64 x, .float64 y => .ok (x.compare? y)
  | .text x, .text y | .enum x, .enum y | .xml x, .xml y => .ok (some (Ord.compare x y))
  | .bytes x, .bytes y => .ok (some (Ord.compare x y))
  | .bool x, .bool y => .ok (some (Ord.compare x y))
  | .dateTime x, .dateTime y =>
    match x.compare? y with
    | some o => .ok (some o)
    | none => .error .mixedDateTimes
  | .date x, .date y => .ok (some (x.compare y))
  | .time x, .time y =>
    match x.compare? y with
    | some o => .ok (some o)
    | none => .error .mixedTimes
  | .uuid x, .uuid y => .ok (some (Ord.compare x.bits.toNat y.bits.toNat))
  | .decimal x, .decimal y => .ok (some (x.compare y))
  | a, b => .error (.unlike comparison a.kind.variant b.kind.variant)

/-- Whether a comparison holds of two values. -/
def compares (comparison : Comparison) (a b : Value) : Except OrderError Bool :=
  (order comparison a b).map comparison.holdsOf

end Value

end SqlScribe
