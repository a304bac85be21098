import SqlScribe.Data.Display
import SqlScribe.Dialect.Encoding
import SqlScribe.Proofs.NumberValue
import SqlScribe.Proofs.WrittenValue

/-!
# Different values travel differently

A driver is handed either the scalar in a value or, where it does not take the kind, a text, and for
a truth value a number (`Dialect.takes`). What is handed over stands for one value of its kind only
(`Dialect.encode_injective`), moments and times apart. That alone would not keep different values
apart, since a driver compares what it is handed by what it denotes: so it has to be shown that
scalars are equal only if the values around them are (`Value.same_of_ofScalar`).

The text of a moment or a time tells its distance from universal time and not its zone. For times
this does no harm. Two moments are told apart by their zones alone if the clock of one of them shows
the time twice or never (`DateTime.IsBlurred`), and of such moments SQLite gets one text.
-/

namespace SqlScribe

open Data (ofScalar)

/-! ## Equality of a value with itself -/

theorem Decimal.compare_self (d : Decimal) : d.compare d = .eq := by
  have magnitudes : compareMagnitude d d = .eq := by
    rw [compareMagnitude, if_pos rfl, Nat.compare_eq_eq]
  unfold compare
  cases d.coefficient == 0
  · cases d.negative <;> exact magnitudes
  · rfl

theorem sameZone_self (z : Option Zone) : sameZone z z = true := by
  rcases z with _ | offset | rule
  · rfl
  · exact beq_self_eq_true offset
  · exact beq_self_eq_true rule.number

/-- Times that show the same at the same distance are the same, in whatever zones. -/
theorem Time.same_of_readings {a b : Time} (hclock : a.toClock = b.toClock)
    (hoffset : a.offset = b.offset) : a.same b = true := by
  unfold same compare?
  rw [hoffset, hclock, if_pos (by simp)]
  exact beq_iff_eq.mpr (congrArg some (Int.compare_eq_eq.mpr rfl))

/-- Moments that show the same at the same distance have no order, in whatever zones. -/
theorem DateTime.compare?_of_readings {a b : DateTime} (hdate : a.date = b.date)
    (hclock : a.time.toClock = b.time.toClock) (hoffset : a.offset = b.offset) :
    a.compare? b = some .eq := by
  unfold compare? clock
  rw [hoffset, hclock, hdate, if_pos (by simp)]
  exact congrArg some (Int.compare_eq_eq.mpr rfl)

theorem DateTime.same_self (t : DateTime) : t.same t = true := by
  unfold same
  rw [compare?_of_readings rfl rfl rfl, sameZone_self]
  rfl

/-- A value is equal to itself, if it is neither a NaN nor an array, which may hold one. -/
theorem Value.same_self {v : Value} (harray : v.kind ≠ .array) (hnan : v ≠ .float64 .nan) :
    v.same v = true := by
  cases v with
  | null => rfl
  | float64 x =>
    refine Double.same_of_position? rfl ?_
    cases x with
    | nan => exact absurd rfl hnan
    | infinity => rfl
    | finite => rfl
  | dateTime t => exact t.same_self
  | time t => exact Time.same_of_readings rfl rfl
  | decimal d => exact beq_iff_eq.mpr d.compare_self
  | array => exact absurd rfl harray
  | int64 | text | bytes | bool | date | uuid | json | enum | xml => exact beq_self_eq_true _

/-! ## Moments with one text -/

/-- Two moments that show the same day and time at the same distance from universal time, but in two
zones, where the clock of one zone shows the time twice or never. -/
structure DateTime.IsBlurred (a b : DateTime) : Prop where
  date : a.date = b.date
  clock : a.time.toClock = b.time.toClock
  offset : a.offset = b.offset
  zones : sameZone a.time.zone b.time.zone = false
  wavers : (a.wavers || b.wavers) = true

/-- Moments of one text are the same, or blurred. -/
theorem DateTime.same_or_isBlurred {a b : DateTime} (h : a.text = b.text) :
    a.same b = true ∨ a.IsBlurred b := by
  obtain ⟨hdate, hclock, hoffset⟩ := readings_of_text h
  by_cases blurred : sameZone a.time.zone b.time.zone = false ∧ (a.wavers || b.wavers) = true
  · exact .inr ⟨hdate, hclock, hoffset, blurred.1, blurred.2⟩
  · refine .inl ?_
    unfold same
    rw [compare?_of_readings hdate hclock hoffset]
    revert blurred
    cases sameZone a.time.zone b.time.zone <;> cases a.wavers || b.wavers <;> simp

theorem DateTime.IsBlurred.text_eq {a b : DateTime} (h : a.IsBlurred b) : a.text = b.text := by
  unfold text textWith
  rw [h.date, h.clock, h.offset]

/-! ## Scalars that are equal -/

theorem Data.same_ofScalar (v : Value) (d : Data) :
    (ofScalar v).same d = ((ofScalar v).sameScalar? d).getD false := by
  cases v <;> simp [ofScalar, Data.same]

theorem Data.eq_of_same_int {m n : ℤ} (h : (Data.int m).same (.int n) = true) : m = n := by
  have scalar : (Data.int m).same (.int n) = ((Data.int m).sameScalar? (.int n)).getD false := by
    simp [Data.same]
  rw [scalar] at h
  have equal := Decimal.value_eq_of_compare (Option.some.inj (beq_iff_eq.mp h))
  rw [Decimal.value_ofInt, Decimal.value_ofInt] at equal
  exact_mod_cast equal

/-- Values of one kind are equal if the scalars in them are. -/
theorem Value.same_of_ofScalar {a b : Value} (hkind : a.kind = b.kind) (harray : a.kind ≠ .array)
    (h : (ofScalar a).same (ofScalar b) = true) : a.same b = true := by
  have scalar : ((ofScalar a).sameScalar? (ofScalar b)).getD false = true := by
    rwa [← Data.same_ofScalar]
  cases a <;> cases b <;> cases hkind
  case null.null => rfl
  case int64.int64 => exact beq_iff_eq.mpr (Int64.toInt_inj.mp (Data.eq_of_same_int h))
  case float64.float64 => exact Double.same_of_compare? (beq_iff_eq.mp scalar)
  case bool.bool p q =>
    cases p <;> cases q
    · rfl
    · exact absurd scalar (by decide)
    · exact absurd scalar (by decide)
    · rfl
  case array.array => exact absurd rfl harray
  -- all others are compared as the scalars are
  all_goals exact scalar

/-! ## Scalars and texts for a driver -/

namespace Dialect

variable {d : Dialect} {a b v : Value}

/-- Whether a driver takes values of a kind as they are. -/
def takes : Dialect → Kind → Bool
  | .postgres, _ => true
  | .mysql, k | .mssql, k => k != .uuid && k != .bool
  | .sqlite, k => !([.dateTime, .date, .time, .uuid, .decimal] : List Kind).contains k

/-- What a driver takes as it is travels as the scalar in it. -/
theorem encode_of_takes (htakes : d.takes v.kind = true) (harray : v.kind ≠ .array) :
    d.encode v = .ok (ofScalar v) := by
  cases v with
  | bool | dateTime | date | time | uuid | decimal => cases d <;> first | rfl | cases htakes
  | array => exact absurd rfl harray
  | null | int64 | float64 | text | bytes | json | enum | xml => rfl

/-- What it does not take travels as a text, truth values apart. -/
theorem encode_of_not_takes (htakes : d.takes v.kind = false) (hbool : v.kind ≠ .bool) :
    ∃ s, d.encode v = .ok (.text s) := by
  cases v with
  | dateTime | date | time | uuid | decimal => cases d <;> first | exact ⟨_, rfl⟩ | cases htakes
  | bool => exact absurd rfl hbool
  | null | int64 | float64 | text | bytes | json | enum | xml | array => cases d <;> cases htakes

theorem exists_encode (d : Dialect) (harray : v.kind ≠ .array) : ∃ x, d.encode v = .ok x := by
  cases v with
  | array => exact absurd rfl harray
  | bool => cases d <;> exact ⟨_, rfl⟩
  | _ => exact ⟨_, rfl⟩

/-- A thing is told apart by a choice between two forms if it is by both. -/
theorem eq_of_form {α : Type} (f g : α → Data) {c : Prop} [Decidable c] {x y : α}
    (h : (if c then f x else g x) = if c then f y else g y) (hf : f x = f y → x = y)
    (hg : g x = g y → x = y) : x = y := by
  split_ifs at h
  · exact hf h
  · exact hg h

/-- **What a driver is handed stands for one value of a kind only**, moments and times apart. -/
theorem encode_injective (hkind : a.kind = b.kind) (harray : a.kind ≠ .array)
    (hmoment : a.kind ≠ .dateTime) (htime : a.kind ≠ .time) (h : d.encode a = d.encode b) :
    a = b := by
  cases a <;> cases b <;> cases hkind
  case null.null => rfl
  case array.array => exact absurd rfl harray
  case dateTime.dateTime => exact absurd rfl hmoment
  case time.time => exact absurd rfl htime
  case bool.bool p q => cases d <;> cases p <;> cases q <;> first | rfl | cases h
  -- what travels as the scalar in it
  case int64.int64 =>
    exact congrArg Value.int64 (Int64.toInt_inj.mp (Data.int.inj (Except.ok.inj h)))
  case float64.float64 => exact congrArg Value.float64 (Data.float.inj (Except.ok.inj h))
  case bytes.bytes => exact congrArg Value.bytes (Data.bytes.inj (Except.ok.inj h)).2
  case text.text => exact congrArg Value.text (Data.text.inj (Except.ok.inj h))
  case json.json => exact congrArg Value.json (Data.text.inj (Except.ok.inj h))
  case enum.enum => exact congrArg Value.enum (Data.text.inj (Except.ok.inj h))
  case xml.xml => exact congrArg Value.xml (Data.text.inj (Except.ok.inj h))
  -- what some drivers get as a text
  case date.date =>
    exact congrArg Value.date (eq_of_form (fun t : Date => .text t.text) .date (Except.ok.inj h)
      (fun h => Date.text_inj (Data.text.inj h)) Data.date.inj)
  case uuid.uuid =>
    exact congrArg Value.uuid (eq_of_form .uuid (fun u : Uuid => .text u.text) (Except.ok.inj h)
      Data.uuid.inj fun h => Uuid.text_inj (Data.text.inj h))
  case decimal.decimal =>
    exact congrArg Value.decimal (eq_of_form (fun x : Decimal => .text x.text)
      (fun x => .decimal (.finite x)) (Except.ok.inj h)
      (fun h => Decimal.text_inj (Data.text.inj h))
      fun h => DecimalWord.finite.inj (Data.decimal.inj h))

/-- Whether a driver gets one text for two values that are blurred moments: SQLite has no other form
for moments. -/
def Confuses (d : Dialect) (a b : Value) : Prop :=
  d = sqlite ∧ ∃ s t, a = .dateTime s ∧ b = .dateTime t ∧ s.IsBlurred t

/-- Values of one kind for which a driver is handed one thing are the same, or blurred. -/
theorem same_or_confuses (hkind : a.kind = b.kind) (harray : a.kind ≠ .array)
    (hnan : a ≠ .float64 .nan) (h : d.encode a = d.encode b) :
    a.same b = true ∨ d.Confuses a b := by
  by_cases hmoment : a.kind = .dateTime
  · cases a <;> cases hmoment
    cases b <;> cases hkind
    by_cases hd : d = sqlite
    · subst hd
      exact (DateTime.same_or_isBlurred (Data.text.inj (Except.ok.inj h))).imp_right fun blurred =>
        ⟨rfl, _, _, rfl, rfl, blurred⟩
    · have equal := Except.ok.inj h
      rw [if_neg hd, if_neg hd] at equal
      cases equal
      exact .inl (DateTime.same_self _)
  by_cases htime : a.kind = .time
  · cases a <;> cases htime
    cases b <;> cases hkind
    refine .inl ?_
    by_cases hd : d = sqlite
    · subst hd
      obtain ⟨hclock, hoffset⟩ := Clock.textAt_inj (Data.text.inj (Except.ok.inj h))
      exact Time.same_of_readings hclock hoffset
    · have equal := Except.ok.inj h
      rw [if_neg hd, if_neg hd] at equal
      cases equal
      exact Time.same_of_readings rfl rfl
  · cases encode_injective hkind harray hmoment htime h
    exact .inl (Value.same_self harray hnan)

/-- Values of one kind for which a driver is handed equal things are the same, or blurred. -/
theorem same_or_confuses_of_same (hkind : a.kind = b.kind) (harray : a.kind ≠ .array) {x y : Data}
    (hx : d.encode a = .ok x) (hy : d.encode b = .ok y) (h : x.same y = true) :
    a.same b = true ∨ d.Confuses a b := by
  cases htakes : d.takes a.kind with
  | true =>
    cases hx.symm.trans (encode_of_takes htakes harray)
    cases hy.symm.trans (encode_of_takes (hkind ▸ htakes) (hkind ▸ harray))
    exact .inl (Value.same_of_ofScalar hkind harray h)
  | false =>
    by_cases hbool : a.kind = .bool
    · cases a <;> cases hbool
      cases b <;> cases hkind
      have number : ∀ p q : Bool, (if p then (1 : ℤ) else 0) = (if q then 1 else 0) → p = q := by
        decide
      cases d with
      | sqlite | postgres => cases htakes
      | mysql | mssql =>
        cases hx
        cases hy
        exact .inl (beq_iff_eq.mpr (number _ _ (Data.eq_of_same_int h)))
    · -- texts that are equal are one text
      obtain ⟨s, hs⟩ := encode_of_not_takes htakes hbool
      obtain ⟨t, ht⟩ := encode_of_not_takes (hkind ▸ htakes) (hkind ▸ hbool)
      cases hx.symm.trans hs
      cases hy.symm.trans ht
      rw [Data.same_texts rfl rfl, beq_iff_eq] at h
      refine same_or_confuses hkind harray ?_ (hs.trans (h ▸ ht.symm))
      rintro rfl
      cases d <;> cases htakes

/-- Blurred moments travel as one text. -/
theorem encode_of_confuses {x y : Data} (h : d.Confuses a b) (hx : d.encode a = .ok x)
    (hy : d.encode b = .ok y) : ∃ s, x = .text s ∧ y = .text s := by
  obtain ⟨rfl, s, t, rfl, rfl, blurred⟩ := h
  cases hx
  cases hy
  exact ⟨s.text, rfl, congrArg Data.text blurred.text_eq.symm⟩

/-- **What a driver is handed tells the values of a kind apart, but for blurred moments.** Values of
one kind that are not equal are handed over as different things, and as things that are not equal
either, except for two moments on SQLite that show the same day and time at the same distance in two
zones, and are different only because the clock of one zone shows the time twice or never: these
have one text. Arrays are left out, and so is the NaN, which is not equal to itself. -/
theorem encode_tells_apart (d : Dialect) {a b : Value} (hkind : a.kind = b.kind)
    (harray : a.kind ≠ .array) (hnan : a ≠ .float64 .nan) (h : a.same b = false) :
    ∃ x y, d.encode a = .ok x ∧ d.encode b = .ok y ∧ (x = y ↔ d.Confuses a b) ∧
      (x.same y = true ↔ d.Confuses a b) := by
  obtain ⟨x, hx⟩ := exists_encode d harray
  obtain ⟨y, hy⟩ := exists_encode d (hkind ▸ harray)
  have different : ¬ a.same b = true := Bool.eq_false_iff.mp h
  refine ⟨x, y, hx, hy, ⟨?_, ?_⟩, ⟨?_, ?_⟩⟩
  · rintro rfl
    exact (same_or_confuses hkind harray hnan (hx.trans hy.symm)).resolve_left different
  · intro confused
    obtain ⟨s, rfl, rfl⟩ := encode_of_confuses confused hx hy
    rfl
  · exact fun hxy => (same_or_confuses_of_same hkind harray hx hy hxy).resolve_left different
  · intro confused
    obtain ⟨s, rfl, rfl⟩ := encode_of_confuses confused hx hy
    rw [Data.same_texts rfl rfl, beq_iff_eq]

/-- Noon on a leap day, at a distance from universal time. -/
def leapNoon (offset : ℤ) : DateTime :=
  ⟨⟨2024, 2, 29⟩, ⟨⟨12, 0, 0, 0⟩, some (.fixed offset), false⟩⟩

/-- Moments a microsecond apart are told apart by the distance in their texts. -/
theorem leapNoon_told_apart :
    (Value.dateTime (leapNoon 3600000000)).same (.dateTime (leapNoon 3600000001)) = false ∧
      ∃ x y, sqlite.encode (.dateTime (leapNoon 3600000000)) = .ok x ∧
        sqlite.encode (.dateTime (leapNoon 3600000001)) = .ok y ∧ x ≠ y ∧ x.same y = false := by
  have apart :
      (Value.dateTime (leapNoon 3600000000)).same (.dateTime (leapNoon 3600000001)) = false := by
    decide +kernel
  obtain ⟨x, y, hx, hy, hidentical, hequal⟩ :=
    encode_tells_apart sqlite (a := .dateTime (leapNoon 3600000000))
      (b := .dateTime (leapNoon 3600000001)) rfl nofun nofun apart
  -- no clock is put back in a zone that keeps its distance
  have clear : ¬ sqlite.Confuses (.dateTime (leapNoon 3600000000))
      (.dateTime (leapNoon 3600000001)) := by
    rintro ⟨-, s, t, hs, ht, blurred⟩
    cases hs
    cases ht
    exact absurd blurred.wavers (by decide)
  exact ⟨apart, x, y, hx, hy, fun h => clear (hidentical.mp h),
    Bool.eq_false_iff.mpr fun h => clear (hequal.mp h)⟩

example : (leapNoon 3600000001).text = "2024-02-29T12:00:00+01:00:00.000001" := by decide +kernel

/-- A zone in the autumn of 2024: two hours to the east until the clock shows three on the 27th of
October, and one hour after it has been put back to two. -/
def autumnZone : ZoneRule where
  number := 0
  name := "zoneinfo.ZoneInfo(key='Europe/Berlin')"
  daily := none
  offset date clock later :=
    let change : Date := ⟨2024, 10, 27⟩
    let isSummer := date.number < change.number ∨
      date = change ∧ (clock.hour < 2 ∨ clock.hour = 2 ∧ later = false)
    some (if isSummer then 7200000000 else 3600000000)

/-- Half past two in the night in which the clock is put back, the first time. -/
def doubledHour : DateTime := ⟨⟨2024, 10, 27⟩, ⟨⟨2, 30, 0, 0⟩, some (.ruled autumnZone), false⟩⟩

/-- The same moment in a zone that is always two hours to the east. -/
def plainHour : DateTime := ⟨⟨2024, 10, 27⟩, ⟨⟨2, 30, 0, 0⟩, some (.fixed 7200000000), false⟩⟩

/-- A moment that the clock shows twice differs from the same moment in another zone, and both have
one text on SQLite. -/
theorem doubledHour_confused :
    (Value.dateTime doubledHour).same (.dateTime plainHour) = false ∧
      sqlite.encode (.dateTime doubledHour) = .ok (.text "2024-10-27T02:30:00+02:00") ∧
      sqlite.encode (.dateTime plainHour) = .ok (.text "2024-10-27T02:30:00+02:00") := by
  have first : doubledHour.text = "2024-10-27T02:30:00+02:00" := by decide +kernel
  have second : plainHour.text = "2024-10-27T02:30:00+02:00" := by decide +kernel
  exact ⟨by decide +kernel, congrArg (Except.ok ∘ Data.text) first,
    congrArg (Except.ok ∘ Data.text) second⟩

end Dialect

end SqlScribe
