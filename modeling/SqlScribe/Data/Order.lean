import SqlScribe.Data
import SqlScribe.Value.Order

/-!
# The order of data

Data of one type have an order if the type has one: numbers of all types by what they denote, texts
by code points, bytes by octets, dates and times in the calendar, sets by inclusion, and values
within their kind. Sequences of one type are compared at the first place where they differ, and by
their lengths if there is none. Everything else, and data of different types, cannot be ordered.

`Data.entryLess` is the strict order of the entries of mappings: by their keys, and by what stands
under them where the keys are equal.
-/

namespace SqlScribe

/-- What a comparison says about two sets, by inclusion. -/
def Comparison.holdsOfSets (c : Comparison) (a b : List Data) : Bool :=
  let within := Data.sameMembers a b
  let around := Data.sameMembers b a
  match c with
  | .less => within && !around
  | .atMost => within
  | .greater => around && !within
  | .atLeast => around

namespace Data

/-- Whether data are bytes that can be ordered. A view of bytes has no order of its own, and only
growable bytes can be compared with it. -/
def orderedBytes (a b : ByteForm) : Bool :=
  a == .growable || b == .growable || (a == .fixed && b == .fixed)

/-- Whether a comparison holds of two data that are no sequences. -/
def comparesScalars (c : Comparison) (a b : Data) : Except OrderError Bool :=
  let unlike : Except OrderError Bool := .error (.unlike c a.fullTypeName b.fullTypeName)
  match a.number?, b.number?, a.asText?, b.asText? with
  | some x, some y, _, _ => .ok (c.holdsOf (x.compare? y))
  | _, _, some x, some y => .ok (c.holds (compare x y))
  | _, _, _, _ =>
    match a, b with
    | .bytes form x, .bytes form' y =>
      if orderedBytes form form' then .ok (c.holds (compare x y)) else unlike
    | .uuid x, .uuid y => .ok (c.holds (compare x.bits.toNat y.bits.toNat))
    | .date x, .date y => .ok (c.holds (x.compare y))
    | .date _, .dateTime _ | .dateTime _, .date _ => .error .dayWithMoment
    | .dateTime x, .dateTime y =>
      match x.compare? y with
      | some o => .ok (c.holds o)
      | none => .error .mixedDateTimes
    | .time x, .time y =>
      match x.compare? y with
      | some o => .ok (c.holds o)
      | none => .error .mixedTimes
    | .set x, .set y => .ok (c.holdsOfSets x y)
    | .value x, .value y => x.compares c y
    | _, _ => unlike

mutual

/-- Whether a comparison holds of two data. -/
def compares (c : Comparison) : Data → Data → Except OrderError Bool
  | .list as, .list bs => comparesAll c as bs
  | .tuple as, .tuple bs => comparesAll c as bs
  | a, b => comparesScalars c a b

/-- Whether a comparison holds of two sequences, by the first place where they differ. -/
def comparesAll (c : Comparison) : List Data → List Data → Except OrderError Bool
  | [], bs => .ok (c.holds (compare 0 bs.length))
  | _ :: _, [] => .ok (c.holds .gt)
  | a :: as, b :: bs => if a.same b then comparesAll c as bs else compares c a b

end

/-- The strict order of two entries of mappings. -/
def entryLess (a b : Data × Data) : Except OrderError Bool :=
  if !a.1.same b.1 then a.1.compares .less b.1
  else if !a.2.same b.2 then a.2.compares .less b.2
  else .ok false

end Data

end SqlScribe
