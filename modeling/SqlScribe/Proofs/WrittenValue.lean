import SqlScribe.Proofs.WrittenNumber
import SqlScribe.Value

/-!
# Written values are told apart

The texts of days, times, decimals and identifiers belong to one value each. A day or a time is a
row of numerals, and each of them ends where a character stands that is no digit, so the numerals
are found again from left to right. A decimal is read back by its digits, the place of the point
among them and its exponent. An identifier is its digits without the hyphens.

The texts of decimals keep more apart than the values do, and so do those of moments of one instant.
What no text of a moment tells is its zone: only the distance from universal time at that moment.
-/

namespace SqlScribe

open Text

/-! ## Numerals in a row -/

namespace Text

@[simp] theorem toList_padText (width n : Nat) : (padText width n).toList = padded 10 width n :=
  String.toList_ofList

/-- A numeral is found again in front of what is no digit. -/
theorem padded_append_inj {width n n' : Nat} {rest rest' : List Char}
    (h : padded 10 width n ++ rest = padded 10 width n' ++ rest') (hrest : Stops isDigit rest)
    (hrest' : Stops isDigit rest') : n = n' ∧ rest = rest' := by
  obtain ⟨digits, behind⟩ := run_unique (fun _ => isDigit_of_mem_padded)
    (fun _ => isDigit_of_mem_padded) hrest hrest' h
  have value := congrArg (Nat.ofDigitChars 10 · 0) digits
  simp only [ofDigitChars_padded] at value
  exact ⟨value, behind⟩

end Text

/-! ## Days and times -/

namespace Date

theorem toList_text (d : Date) :
    d.text.toList =
      padded 10 4 d.year ++ '-' :: (padded 10 2 d.month ++ '-' :: padded 10 2 d.day) := by
  simp [text]

theorem text_append_inj {a b : Date} {rest rest' : List Char}
    (h : a.text.toList ++ rest = b.text.toList ++ rest') (hrest : Stops isDigit rest)
    (hrest' : Stops isDigit rest') : a = b ∧ rest = rest' := by
  have hyphen (cs : List Char) : Stops isDigit ('-' :: cs) := stops_cons (by decide)
  simp only [toList_text, List.append_assoc, List.cons_append] at h
  obtain ⟨hyear, h⟩ := padded_append_inj h (hyphen _) (hyphen _)
  obtain ⟨hmonth, h⟩ := padded_append_inj (List.cons.inj h).2 (hyphen _) (hyphen _)
  obtain ⟨hday, hrest⟩ := padded_append_inj (List.cons.inj h).2 hrest hrest'
  cases a
  cases b
  cases hyear
  cases hmonth
  cases hday
  exact ⟨rfl, hrest⟩

theorem text_inj {a b : Date} (h : a.text = b.text) : a = b :=
  (text_append_inj (congrArg (String.toList · ++ []) h) (stops_nil _) (stops_nil _)).1

end Date

namespace Clock

/-- A fraction of a second, behind its point; zero is left out. -/
def fractionChars (microsecond : Nat) : List Char :=
  if microsecond = 0 then [] else '.' :: padded 10 6 microsecond

/-- The seconds of a distance from universal time, behind their colon. -/
def secondChars (second microsecond : Nat) : List Char :=
  if second = 0 ∧ microsecond = 0 then []
  else ':' :: (padded 10 2 second ++ fractionChars microsecond)

/-- A distance from universal time; a naive time has none. -/
def offsetChars : Option Int → List Char
  | none => []
  | some offset =>
    let seconds := offset.natAbs / 1000000
    (if offset < 0 then '-' else '+') :: (padded 10 2 (seconds / 3600) ++
      ':' :: (padded 10 2 (seconds / 60 % 60) ++
        secondChars (seconds % 60) (offset.natAbs % 1000000)))

theorem toList_fraction (n : Nat) :
    (if n = 0 then "" else "." ++ padText 6 n).toList = fractionChars n := by
  unfold fractionChars
  split_ifs <;> simp

theorem toList_seconds (second microsecond : Nat) :
    (if second = 0 && microsecond = 0 then ""
      else ":" ++ padText 2 second ++
        (if microsecond = 0 then "" else "." ++ padText 6 microsecond)).toList =
      secondChars second microsecond := by
  unfold secondChars
  by_cases h : second = 0 ∧ microsecond = 0
  · simp [h]
  · simp [h, toList_fraction]

theorem toList_offsetText (offset : Int) :
    (offsetText offset).toList = offsetChars (some offset) := by
  unfold offsetText offsetChars
  by_cases h : offset < 0 <;> simp only [h, String.toList_append, toList_seconds] <;> simp

theorem toList_textAt (t : Clock) (offset : Option Int) :
    (t.textAt offset).toList =
      padded 10 2 t.hour ++ ':' :: (padded 10 2 t.minute ++ ':' :: (padded 10 2 t.second ++
        (fractionChars t.microsecond ++ offsetChars offset))) := by
  unfold textAt text
  cases offset with
  | none => simp only [String.toList_append, toList_fraction]; simp [offsetChars]
  | some offset => simp only [String.toList_append, toList_fraction, toList_offsetText]; simp

/-- Whether a text does not go on with a digit or with a fraction. -/
def EndsSeconds (rest : List Char) : Prop := Stops (fun c => isDigit c || c == '.') rest

theorem EndsSeconds.stops {rest : List Char} (h : EndsSeconds rest) : Stops isDigit rest :=
  fun c hc => (Bool.or_eq_false_iff.mp (h c hc)).1

theorem EndsSeconds.ne_point {rest : List Char} (h : EndsSeconds rest) (tail : List Char) :
    rest ≠ '.' :: tail := by
  rintro rfl
  exact absurd (h '.' rfl) (by decide)

theorem endsSeconds_nil : EndsSeconds [] := stops_nil _

theorem endsSeconds_offsetChars (offset : Option Int) : EndsSeconds (offsetChars offset) := by
  cases offset with
  | none => exact endsSeconds_nil
  | some offset =>
    refine stops_cons ?_
    split_ifs <;> decide

theorem stops_fractionChars (n : Nat) {rest : List Char} (hrest : EndsSeconds rest) :
    Stops isDigit (fractionChars n ++ rest) := by
  unfold fractionChars
  split_ifs
  · exact hrest.stops
  · exact stops_cons (by decide)

theorem fractionChars_append_inj {n n' : Nat} {rest rest' : List Char}
    (h : fractionChars n ++ rest = fractionChars n' ++ rest') (hrest : EndsSeconds rest)
    (hrest' : EndsSeconds rest') : n = n' ∧ rest = rest' := by
  unfold fractionChars at h
  split_ifs at h with hn hn' hn'
  · exact ⟨hn.trans hn'.symm, h⟩
  · exact absurd h (hrest.ne_point _)
  · exact absurd h.symm (hrest'.ne_point _)
  · exact padded_append_inj (List.cons.inj h).2 hrest.stops hrest'.stops

theorem secondChars_inj {second second' microsecond microsecond' : Nat}
    (h : secondChars second microsecond = secondChars second' microsecond') :
    second = second' ∧ microsecond = microsecond' := by
  unfold secondChars at h
  split_ifs at h with hnone hnone' hnone'
  · exact ⟨hnone.1.trans hnone'.1.symm, hnone.2.trans hnone'.2.symm⟩
  · have stops (n : Nat) : Stops isDigit (fractionChars n) := by
      simpa using stops_fractionChars n endsSeconds_nil
    obtain ⟨hsecond, behind⟩ :=
      padded_append_inj (List.cons.inj h).2 (stops microsecond) (stops microsecond')
    exact ⟨hsecond, (fractionChars_append_inj (congrArg (· ++ []) behind) endsSeconds_nil
      endsSeconds_nil).1⟩

/-- A distance is its sign and its hours, minutes, seconds and microseconds. -/
theorem offsetChars_inj {offset offset' : Option Int}
    (h : offsetChars offset = offsetChars offset') : offset = offset' := by
  have colon (cs : List Char) : Stops isDigit (':' :: cs) := stops_cons (by decide)
  have stops (second microsecond : Nat) : Stops isDigit (secondChars second microsecond) := by
    unfold secondChars
    split_ifs
    · exact stops_nil _
    · exact colon _
  cases offset with
  | none =>
    cases offset' with
    | none => rfl
    | some b => cases h
  | some a =>
    cases offset' with
    | none => cases h
    | some b =>
      obtain ⟨sign, h⟩ := List.cons.inj h
      obtain ⟨hours, h⟩ := padded_append_inj h (colon _) (colon _)
      obtain ⟨minutes, h⟩ := padded_append_inj (List.cons.inj h).2 (stops _ _) (stops _ _)
      obtain ⟨seconds, microseconds⟩ := secondChars_inj h
      have side : a < 0 ↔ b < 0 := by
        by_cases ha : a < 0 <;> by_cases hb : b < 0 <;> simp [ha, hb] at sign ⊢
      congr 1
      omega

/-- **What a clock shows and the distance are found again in the text.** -/
theorem textAt_inj {a b : Clock} {offset offset' : Option Int}
    (h : a.textAt offset = b.textAt offset') : a = b ∧ offset = offset' := by
  have colon (cs : List Char) : Stops isDigit (':' :: cs) := stops_cons (by decide)
  have chars := congrArg String.toList h
  rw [toList_textAt, toList_textAt] at chars
  obtain ⟨hhour, chars⟩ := padded_append_inj chars (colon _) (colon _)
  obtain ⟨hminute, chars⟩ := padded_append_inj (List.cons.inj chars).2 (colon _) (colon _)
  obtain ⟨hsecond, chars⟩ := padded_append_inj (List.cons.inj chars).2
    (stops_fractionChars _ (endsSeconds_offsetChars _))
    (stops_fractionChars _ (endsSeconds_offsetChars _))
  obtain ⟨hmicrosecond, distance⟩ := fractionChars_append_inj chars (endsSeconds_offsetChars _)
    (endsSeconds_offsetChars _)
  cases a
  cases b
  cases hhour
  cases hminute
  cases hsecond
  cases hmicrosecond
  exact ⟨rfl, offsetChars_inj distance⟩

end Clock

/-- **Moments of one text show the same day and time at the same distance.** They may still stand in
different zones. -/
theorem DateTime.readings_of_text {a b : DateTime} (h : a.text = b.text) :
    a.date = b.date ∧ a.time.toClock = b.time.toClock ∧ a.offset = b.offset := by
  have chars := congrArg String.toList h
  simp only [text, textWith, String.toList_append, List.append_assoc] at chars
  have mark (cs : List Char) : Stops isDigit ("T".toList ++ cs) := stops_cons (by decide)
  obtain ⟨hdate, chars⟩ := Date.text_append_inj chars (mark _) (mark _)
  exact ⟨hdate, Clock.textAt_inj (String.toList_inj.mp (List.append_cancel_left chars))⟩

/-! ## Decimals -/

namespace Decimal

open Double (fractionPart forall_mem_zeros read?_parts readExponent?_signed)

/-- Wherever the point is placed, the digits are kept, and those behind it are counted by it. -/
theorem exists_pointed {digits : List Char} (hne : digits ≠ [])
    (hdigits : ∀ c ∈ digits, isDigit c = true) (point : ℤ) (hpoint : point ≤ digits.length) :
    ∃ whole fraction, pointed digits point = whole ++ fractionPart fraction ∧ whole ≠ [] ∧
      (∀ c ∈ whole ++ fraction, isDigit c = true) ∧
      Nat.ofDigitChars 10 (whole ++ fraction) 0 = Nat.ofDigitChars 10 digits 0 ∧
      (fraction.length : ℤ) = digits.length - point := by
  unfold pointed
  -- with the point in front of all digits there are zeros between them
  by_cases hsmall : point ≤ 0
  · refine ⟨['0'], List.replicate (-point).toNat '0' ++ digits, ?_, List.cons_ne_nil _ _, ?_, ?_,
      ?_⟩
    · simp [hsmall, fractionPart, hne]
    · exact List.forall_mem_append.mpr
        ⟨forall_mem_zeros 1, List.forall_mem_append.mpr ⟨forall_mem_zeros _, hdigits⟩⟩
    · have zero : Nat.ofDigitChars 10 ['0'] 0 = 0 := rfl
      rw [Nat.ofDigitChars_append, Nat.ofDigitChars_append, Nat.ofDigitChars_replicate_zero, zero,
        Nat.mul_zero]
    · rw [List.length_append, List.length_replicate]
      omega
  · have within : point.toNat - digits.length = 0 := by omega
    refine ⟨digits.take point.toNat, digits.drop point.toNat, ?_, ?_, ?_, ?_, ?_⟩
    · simp [hsmall, fractionPart, within]
    · rw [ne_eq, List.take_eq_nil_iff]
      exact fun h => h.elim (by omega) hne
    · rwa [List.take_append_drop]
    · rw [List.take_append_drop]
    · rw [List.length_drop]
      omega

theorem readExponent?_exponentText (e : ℤ) :
    Numeral.readExponent? (exponentText e) = some e :=
  readExponent?_signed (.inr rfl) Nat.toDigits_ne_nil (fun _ => isDigit_of_mem_toDigits)
    Nat.ofDigitChars_ten_toDigits

/-- **A decimal is read back with its coefficient and its exponent.** -/
theorem read?_magnitudeText (d : Decimal) :
    Numeral.read? d.magnitudeText = some ⟨d.coefficient, d.exponent⟩ := by
  have hne : Nat.toDigits 10 d.coefficient ≠ [] := Nat.toDigits_ne_nil
  have hdigits : ∀ c ∈ Nat.toDigits 10 d.coefficient, isDigit c = true :=
    fun c => isDigit_of_mem_toDigits
  have hlength : 0 < (Nat.toDigits 10 d.coefficient).length := List.length_pos_iff.mpr hne
  have hvalue : Nat.ofDigitChars 10 (Nat.toDigits 10 d.coefficient) 0 = d.coefficient :=
    Nat.ofDigitChars_ten_toDigits
  unfold magnitudeText
  dsimp only
  generalize Nat.toDigits 10 d.coefficient = digits at *
  -- the positional form, and else the scientific one with an exponent unless it is zero
  by_cases hplain : d.exponent ≤ 0 ∧ -6 < digits.length + d.exponent
  · obtain ⟨whole, fraction, htext, hwhole, hall, hsame, hcount⟩ :=
      exists_pointed hne hdigits (digits.length + d.exponent) (by omega)
    rw [if_pos (by simpa using hplain), htext, ← List.append_nil (fractionPart fraction),
      read?_parts hwhole hall rfl, hsame, hvalue]
    congr 2
    omega
  · obtain ⟨whole, fraction, htext, hwhole, hall, hsame, hcount⟩ :=
      exists_pointed hne hdigits 1 (by omega)
    rw [if_neg (by simpa using hplain), htext, List.append_assoc]
    by_cases hone : digits.length + d.exponent = 1
    · rw [if_pos hone, read?_parts hwhole hall rfl, hsame, hvalue]
      congr 2
      omega
    · rw [if_neg hone, read?_parts hwhole hall (readExponent?_exponentText _), hsame, hvalue]
      congr 2
      omega

theorem text_inj {a b : Decimal} (h : a.text = b.text) : a = b := by
  have unsigned (d : Decimal) (cs : List Char) : '-' :: cs ≠ d.magnitudeText := by
    intro hminus
    have read := read?_magnitudeText d
    rw [← hminus] at read
    cases read
  have same (chars : a.magnitudeText = b.magnitudeText) :
      a.coefficient = b.coefficient ∧ a.exponent = b.exponent := by
    have read := read?_magnitudeText a
    rw [chars, read?_magnitudeText, Option.some.injEq, Numeral.mk.injEq] at read
    exact ⟨read.1.symm, read.2.symm⟩
  have chars := String.ofList_injective h
  obtain ⟨negative, coefficient, exponent⟩ := a
  obtain ⟨negative', coefficient', exponent'⟩ := b
  -- the sign shows, because no magnitude begins with one
  cases negative <;> cases negative'
  · obtain ⟨rfl, rfl⟩ := same chars
    rfl
  · exact absurd chars.symm (unsigned _ _)
  · exact absurd chars (unsigned _ _)
  · obtain ⟨rfl, rfl⟩ := same (List.cons.inj chars).2
    rfl

end Decimal

/-! ## Identifiers -/

namespace Text

theorem digitValue?_digitChar {d : Nat} (h : d < 16) : digitValue? d.digitChar = some d := by
  have table : ∀ d < 16, digitValue? d.digitChar = some d := by decide
  exact table d h

theorem digitsValue_append (base soFar : Nat) (cs ds : List Char) :
    digitsValue base soFar (cs ++ ds) =
      (digitsValue base soFar cs).bind fun n => digitsValue base n ds := by
  induction cs generalizing soFar with
  | nil => rfl
  | cons c cs ih =>
    simp only [List.cons_append, digitsValue]
    cases digitValue? c with
    | none => rfl
    | some d =>
      show (if d < base then _ else none) = (if d < base then _ else none : Option Nat).bind _
      split_ifs
      · exact ih _
      · rfl

theorem digitsValue_digitChar {base d : Nat} (hbase : base ≤ 16) (hd : d < base) (soFar : Nat) :
    digitsValue base soFar [d.digitChar] = some (soFar * base + d) := by
  unfold digitsValue
  rw [digitValue?_digitChar (hd.trans_le hbase)]
  exact if_pos hd

/-- A numeral of any base up to sixteen is read back. -/
theorem digitsValue_toDigits {base : Nat} (hbase : 1 < base) (hbase' : base ≤ 16) (n : Nat) :
    digitsValue base 0 (Nat.toDigits base n) = some n := by
  induction n using Nat.strongRecOn with
  | ind n ih =>
    rw [Nat.toDigits_eq_if hbase]
    split_ifs with hn
    · rw [digitsValue_digitChar hbase' hn, Nat.zero_mul, Nat.zero_add]
    · have smaller : n / base < n := Nat.div_lt_self (by omega) hbase
      rw [digitsValue_append, ih _ smaller]
      show digitsValue base (n / base) _ = _
      rw [digitsValue_digitChar hbase' (Nat.mod_lt n (by omega)), Nat.div_add_mod']

theorem digitsValue_padded {base : Nat} (hbase : 1 < base) (hbase' : base ≤ 16) (width n : Nat) :
    digitsValue base 0 (padded base width n) = some n := by
  have zeros (k : Nat) : digitsValue base 0 (List.replicate k '0') = some 0 := by
    induction k with
    | zero => rfl
    | succ k ih =>
      have first := digitsValue_digitChar hbase' (show 0 < base by omega) 0
      rw [List.replicate_succ, ← List.singleton_append, digitsValue_append]
      rw [Nat.zero_mul] at first
      rw [show ['0'] = [Nat.digitChar 0] from rfl, first]
      exact ih
  unfold padded
  rw [digitsValue_append, zeros]
  exact digitsValue_toDigits hbase hbase' n

/-- What is read as a number holds digits only. -/
theorem isSome_digitValue?_of_digitsValue {base soFar n : Nat} {cs : List Char}
    (h : digitsValue base soFar cs = some n) : ∀ c ∈ cs, (digitValue? c).isSome := by
  induction cs generalizing soFar with
  | nil => exact List.forall_mem_nil _
  | cons c cs ih =>
    rw [digitsValue] at h
    cases hc : digitValue? c with
    | none =>
      rw [hc] at h
      cases h
    | some d =>
      rw [hc] at h
      change (if d < base then _ else none) = some n at h
      split_ifs at h
      exact List.forall_mem_cons.mpr ⟨by rw [hc]; rfl, ih h⟩

end Text

namespace Uuid

/-- An identifier without its hyphens is its digits. -/
theorem filter_toList_text (u : Uuid) : u.text.toList.filter (· != '-') = u.digits := by
  have digits : ∀ c ∈ u.digits, (c != '-') = true := by
    intro c hc
    have read : digitsValue 16 0 u.digits = some u.bits.toNat :=
      digitsValue_padded (by decide) (by decide) 32 u.bits.toNat
    have value := isSome_digitValue?_of_digitsValue read c hc
    rw [bne_iff_ne]
    rintro rfl
    exact absurd value (by decide)
  have kept {cs : List Char} (h : cs ⊆ u.digits) : cs.filter (· != '-') = cs :=
    List.filter_eq_self.mpr fun c hc => digits c (h hc)
  have hyphen (cs : List Char) : ('-' :: cs).filter (· != '-') = cs.filter (· != '-') :=
    List.filter_cons_of_neg (by decide)
  -- the five groups of digits are cut from one text, and are put together again
  have group (n : Nat) : (u.digits.drop n).take 4 ++ u.digits.drop (n + 4) = u.digits.drop n := by
    rw [← List.drop_drop, List.take_append_drop]
  have within (n : Nat) : (u.digits.drop n).take 4 ⊆ u.digits :=
    ((List.take_sublist _ _).trans (List.drop_sublist _ _)).subset
  rw [text, String.toList_ofList]
  simp only [List.filter_append, hyphen]
  rw [kept (List.take_subset 8 u.digits), kept (within 8), kept (within 12), kept (within 16),
    kept (List.drop_subset 20 u.digits)]
  simp only [List.append_assoc]
  rw [group 16, group 12, group 8, List.take_append_drop]

/-- **An identifier is told apart by its text.** -/
theorem text_inj {a b : Uuid} (h : a.text = b.text) : a = b := by
  have digits := congrArg (fun s => s.toList.filter (· != '-')) h
  simp only [filter_toList_text] at digits
  have value := congrArg (digitsValue 16 0) digits
  unfold Uuid.digits at value
  rw [digitsValue_padded (by decide) (by decide), digitsValue_padded (by decide) (by decide)]
    at value
  cases a
  cases b
  exact congrArg Uuid.mk (BitVec.eq_of_toNat_eq (Option.some.inj value))

end Uuid

end SqlScribe
