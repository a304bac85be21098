import SqlScribe.Text.Digits

/-!
# Dates, times and date-times

Civil dates of the Gregorian calendar, times of day with microseconds, and date-times. A time or a
date-time may stand in a zone, which knows its distance from universal time. It is *aware* if there
is such a distance, and otherwise *naive*.

A zone may keep one distance for ever, or follow a rule. Clocks that follow a rule are put back at
times and show one hour twice, and they skip an hour when they are put forward. A reading of the
clock therefore does not always make a moment: a mark (`Time.later`) says which of the two is meant,
and the distance may depend on it (`DateTime.wavers`).

Two moments in one zone are compared by their clocks, and in different zones by universal time,
where a moment that depends on the mark is never the same as one in another zone. Times without a
day are compared by whole seconds of universal time first. A naive and an aware one are never the
same and have no order.
-/

namespace SqlScribe

/-- A day of the calendar. -/
structure Date where
  year : Nat
  month : Nat
  day : Nat
deriving DecidableEq, Repr

/-- What a clock shows. -/
structure Clock where
  hour : Nat
  minute : Nat
  second : Nat
  microsecond : Nat
deriving DecidableEq, Repr

/-- A zone whose distance from universal time follows a rule. Distances are microseconds to the
east, and `none` where the zone tells none. -/
structure ZoneRule where
  /-- Tells the zone from all others. -/
  number : Nat
  /-- The zone in messages. -/
  name : String
  /-- The distance at a time without a day. -/
  daily : Option Int
  /-- The distance on a day when the clock shows a time, for the first time or for the second. -/
  offset : Date → Clock → Bool → Option Int

/-- A zone. -/
inductive Zone where
  /-- At one distance from universal time, in microseconds to the east. -/
  | fixed (offset : Int)
  | ruled (rule : ZoneRule)

/-- A time of day. -/
structure Time extends Clock where
  zone : Option Zone
  /-- Whether the second of two equal readings of the clock is meant. -/
  later : Bool

/-- A day and a time of day. -/
structure DateTime where
  date : Date
  time : Time

namespace Zone

/-- Whether two zones are one. Of zones at one distance it does not matter which one is meant. -/
def isSame : Zone → Zone → Bool
  | .fixed x, .fixed y => x == y
  | .ruled r, .ruled r' => r.number == r'.number
  | _, _ => false

/-- The distance from universal time at a time without a day. -/
def daily : Zone → Option Int
  | .fixed offset => some offset
  | .ruled rule => rule.daily

/-- The distance from universal time on a day at a time. -/
def offset (date : Date) (clock : Clock) (later : Bool) : Zone → Option Int
  | .fixed offset => some offset
  | .ruled rule => rule.offset date clock later

end Zone

namespace Date

/-- `YYYY-MM-DD`. -/
def text (d : Date) : String :=
  Text.padText 4 d.year ++ "-" ++ Text.padText 2 d.month ++ "-" ++ Text.padText 2 d.day

/-- Whether a year has 366 days. -/
def isLeap (year : Nat) : Bool := year % 4 == 0 && (year % 100 != 0 || year % 400 == 0)

/-- Days of a common year before the first of a month. -/
def daysBefore : Nat → Nat
  | 1 => 0 | 2 => 31 | 3 => 59 | 4 => 90 | 5 => 120 | 6 => 151
  | 7 => 181 | 8 => 212 | 9 => 243 | 10 => 273 | 11 => 304 | 12 => 334
  | _ => 0

/-- The number of the day, counted from 1 for the first of January of the year 1. -/
def number (d : Date) : Nat :=
  let y := d.year - 1
  365 * y + y / 4 - y / 100 + y / 400 + daysBefore d.month +
    (if 2 < d.month && isLeap d.year then 1 else 0) + d.day

end Date

/-- Lexicographic order: the first difference decides. -/
def compareAll : List Ordering → Ordering
  | [] => .eq
  | .eq :: rest => compareAll rest
  | o :: _ => o

/-- Calendar order of days. -/
def Date.compare (a b : Date) : Ordering :=
  compareAll [Ord.compare a.year b.year, Ord.compare a.month b.month, Ord.compare a.day b.day]

/-- A distance from universal time: `+HH:MM`, with seconds and microseconds where they are not
zero. -/
def offsetText (offset : Int) : String :=
  let us := offset.natAbs
  let seconds := us / 1000000
  (if offset < 0 then "-" else "+") ++ Text.padText 2 (seconds / 3600) ++ ":" ++
    Text.padText 2 (seconds / 60 % 60) ++
    (if seconds % 60 = 0 && us % 1000000 = 0 then ""
      else ":" ++ Text.padText 2 (seconds % 60) ++
        (if us % 1000000 = 0 then "" else "." ++ Text.padText 6 (us % 1000000)))

namespace Clock

/-- `HH:MM:SS`, with six digits of microseconds where they are not zero. -/
def text (t : Clock) : String :=
  Text.padText 2 t.hour ++ ":" ++ Text.padText 2 t.minute ++ ":" ++ Text.padText 2 t.second ++
    (if t.microsecond = 0 then "" else "." ++ Text.padText 6 t.microsecond)

/-- What a clock shows, then the distance from universal time. -/
def textAt (t : Clock) (offset : Option Int) : String :=
  t.text ++
    (match offset with
      | some offset => offsetText offset
      | none => "")

/-- Seconds since midnight. -/
def seconds (t : Clock) : Int := (t.hour * 60 + t.minute) * 60 + t.second

/-- Microseconds since midnight. -/
def microseconds (t : Clock) : Int := t.seconds * 1000000 + t.microsecond

end Clock

/-- Whether there is no zone on either side, or one zone on both. -/
def sameZone : Option Zone → Option Zone → Bool
  | none, none => true
  | some z, some z' => z.isSame z'
  | _, _ => false

namespace Time

/-- The distance from universal time; a naive time has none. -/
def offset (t : Time) : Option Int := t.zone.bind Zone.daily

/-- What the clock shows, then the distance from universal time. -/
def text (t : Time) : String := t.textAt t.offset

/-- Seconds from midnight in universal time, which may lie outside the day. The offset counts in
whole seconds, rounded down. -/
def universalSeconds (t : Time) (offset : Int) : Int := t.seconds - offset / 1000000

/-- The order of two times, `none` between a naive and an aware one. Times in one zone or at one
distance are compared by their clocks. Where the distances differ, the seconds in universal time
decide, and then the microseconds on the clocks; the microseconds of the distances have no say. -/
def compare? (a b : Time) : Option Ordering :=
  if sameZone a.zone b.zone || a.offset == b.offset then
    some (Ord.compare a.microseconds b.microseconds)
  else match a.offset, b.offset with
    | some x, some y =>
      some (compareAll
        [Ord.compare (a.universalSeconds x) (b.universalSeconds y),
          Ord.compare a.microsecond b.microsecond])
    | _, _ => none

/-- Whether two times are the same. -/
def same (a b : Time) : Bool := a.compare? b == some .eq

/-- Microseconds from midnight in universal time, or on the clock of a naive time. -/
def instant (t : Time) : Int := t.microseconds - t.offset.getD 0

end Time

namespace DateTime

/-- The distance from universal time, if of two equal readings of the clock the given one is
meant. -/
def offsetIf (t : DateTime) (later : Bool) : Option Int :=
  t.time.zone.bind (Zone.offset t.date t.time.toClock later)

/-- The distance from universal time; a naive date-time has none. -/
def offset (t : DateTime) : Option Int := t.offsetIf t.time.later

/-- Whether the distance from universal time depends on which reading of the clock is meant: the
clock shows the time twice or skips it. -/
def wavers (t : DateTime) : Bool := t.offsetIf false != t.offsetIf true

/-- Date and time with a separator between them, then the distance from universal time. -/
def textWith (separator : String) (t : DateTime) : String :=
  t.date.text ++ separator ++ t.time.textAt t.offset

/-- Date and time with a `T` between them. -/
def text (t : DateTime) : String := textWith "T" t

/-- Microseconds on the clock since the beginning of the calendar. -/
def clock (t : DateTime) : Int := t.date.number * 86400000000 + t.time.microseconds

/-- The order of two date-times, `none` between a naive and an aware one. Those in one zone or at
one distance are compared by their clocks, all others by universal time. -/
def compare? (a b : DateTime) : Option Ordering :=
  if sameZone a.time.zone b.time.zone || a.offset == b.offset then
    some (Ord.compare a.clock b.clock)
  else match a.offset, b.offset with
    | some x, some y => some (Ord.compare (a.clock - x) (b.clock - y))
    | _, _ => none

/-- Whether two date-times are the same. Where the clock of one of them is not certain, it is the
same as none in another zone. -/
def same (a b : DateTime) : Bool :=
  a.compare? b == some .eq &&
    (sameZone a.time.zone b.time.zone || !(a.wavers || b.wavers))

end DateTime

end SqlScribe
