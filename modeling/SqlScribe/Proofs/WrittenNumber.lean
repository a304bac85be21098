import Mathlib.Data.List.TakeWhile
import SqlScribe.Json.Reader
import SqlScribe.Json.Writer
import SqlScribe.Proofs.Rounding

/-!
# Written numbers are read back

The text of a number begins with a sign where the number is negative. Behind it an integer is its
digits, and a double is its digits before the point, its digits behind the point and its exponent,
of which the last two may be missing, but not both. `spelled` puts these parts together, `placed`
is an instance of it, and both readers of numbers take it apart again.

The digits that are read are not always the digits that were found as the shortest: there may be
zeros in front and behind. But they denote the same number, so the same double is nearest to it.
-/

namespace SqlScribe

/-! ## Digits -/

namespace Text

theorem isDigit_eq (c : Char) : isDigit c = c.isDigit := by
  simp [isDigit, Char.isDigit, Char.le_def]

theorem isDigit_of_mem_toDigits {n : Nat} {c : Char} (h : c ∈ Nat.toDigits 10 n) :
    isDigit c = true := by
  rw [isDigit_eq]
  exact Nat.isDigit_of_mem_toDigits (by decide) (by decide) h

theorem toNat_of_isDigit {c : Char} (h : isDigit c = true) : 48 ≤ c.toNat ∧ c.toNat ≤ 57 := by
  simpa [isDigit, Char.le_def, UInt32.le_iff_toNat_le] using h

theorem digitValue?_of_isDigit {c : Char} (h : isDigit c = true) :
    digitValue? c = some (c.toNat - 48) := by
  unfold digitValue?
  rw [if_pos h]

theorem digitsValue_of_isDigit {cs : List Char} (h : ∀ c ∈ cs, isDigit c = true) (soFar : Nat) :
    digitsValue 10 soFar cs = some (Nat.ofDigitChars 10 cs soFar) := by
  induction cs generalizing soFar with
  | nil => rfl
  | cons c rest ih =>
    obtain ⟨hc, hrest⟩ := List.forall_mem_cons.mp h
    have small : c.toNat - 48 < 10 := by
      have := toNat_of_isDigit hc
      omega
    rw [digitsValue, digitValue?_of_isDigit hc]
    show (if _ then _ else _) = _
    rw [if_pos small, ih hrest, Nat.ofDigitChars_cons, Nat.mul_comm 10]
    rfl

/-- Digits are read as the number that they denote. -/
theorem readNat?_of_isDigit {cs : List Char} (hne : cs ≠ []) (h : ∀ c ∈ cs, isDigit c = true) :
    readNat? 10 cs = some (Nat.ofDigitChars 10 cs 0) := by
  cases cs with
  | nil => exact absurd rfl hne
  | cons c rest => exact digitsValue_of_isDigit h 0

theorem ofDigitChars_lt {cs : List Char} (h : ∀ c ∈ cs, isDigit c = true) (soFar : Nat) :
    Nat.ofDigitChars 10 cs soFar < (soFar + 1) * 10 ^ cs.length := by
  induction cs generalizing soFar with
  | nil => simp
  | cons c rest ih =>
    obtain ⟨hc, hrest⟩ := List.forall_mem_cons.mp h
    have bound := toNat_of_isDigit hc
    rw [Nat.ofDigitChars_cons, List.length_cons, Nat.pow_succ']
    refine (ih hrest _).trans_le ?_
    rw [← Nat.mul_assoc]
    refine Nat.mul_le_mul_right _ ?_
    have : '0'.toNat = 48 := rfl
    omega

/-- A positive number is not written with a zero in front. -/
theorem head_toDigits_ne_zero {n : Nat} (hn : 0 < n) {ds : List Char} :
    Nat.toDigits 10 n ≠ '0' :: ds := by
  intro h
  have digits : ∀ c ∈ ds, isDigit c = true := fun c hc =>
    isDigit_of_mem_toDigits (n := n) (h ▸ List.mem_cons_of_mem _ hc)
  have value : Nat.ofDigitChars 10 ds 0 = n := by
    have := Nat.ofDigitChars_ten_toDigits (n := n)
    rwa [h, Nat.ofDigitChars_cons] at this
  have large := Double.pow_length_toDigits_le hn
  rw [h, List.length_cons, Nat.add_sub_cancel] at large
  have small := ofDigitChars_lt digits 0
  rw [value] at small
  omega

/-- A numeral that is filled with zeros is still the same number. -/
theorem ofDigitChars_padded (width n : Nat) : Nat.ofDigitChars 10 (padded 10 width n) 0 = n := by
  unfold padded
  rw [Nat.ofDigitChars_append, Nat.ofDigitChars_replicate_zero, Nat.mul_zero,
    Nat.ofDigitChars_ten_toDigits]

theorem isDigit_of_mem_padded {width n : Nat} {c : Char} (h : c ∈ padded 10 width n) :
    isDigit c = true := by
  rcases List.mem_append.mp h with h | h
  · rw [List.eq_of_mem_replicate h]
    rfl
  · exact isDigit_of_mem_toDigits h

theorem padded_ne_nil (width n : Nat) : padded 10 width n ≠ [] := by
  simp [padded, Nat.toDigits_ne_nil]

/-! ### Runs of digits in a text -/

/-- Whether a text does not go on with a character that passes a test. -/
def Stops (p : Char → Bool) (rest : List Char) : Prop := ∀ c ∈ rest.head?, p c = false

theorem takeWhile_append {p : Char → Bool} {cs rest : List Char} (h : ∀ c ∈ cs, p c = true)
    (hrest : Stops p rest) : (cs ++ rest).takeWhile p = cs := by
  have none : rest.takeWhile p = [] := by
    cases rest with
    | nil => rfl
    | cons c rest => simp [hrest c rfl]
  rw [List.takeWhile_append_of_pos h, none, List.append_nil]

theorem dropWhile_append {p : Char → Bool} {cs rest : List Char} (h : ∀ c ∈ cs, p c = true)
    (hrest : Stops p rest) : (cs ++ rest).dropWhile p = rest := by
  have all : rest.dropWhile p = rest := by
    cases rest with
    | nil => rfl
    | cons c rest => simp [hrest c rfl]
  rw [List.dropWhile_append_of_pos h, all]

/-- Two runs of characters of a kind, each as long as it can be, are one. -/
theorem run_unique {p : Char → Bool} {xs ys rest rest' : List Char} (hx : ∀ c ∈ xs, p c = true)
    (hy : ∀ c ∈ ys, p c = true) (hrest : Stops p rest) (hrest' : Stops p rest')
    (h : xs ++ rest = ys ++ rest') : xs = ys ∧ rest = rest' := by
  have run : xs = ys := by rw [← takeWhile_append hx hrest, h, takeWhile_append hy hrest']
  exact ⟨run, List.append_cancel_left (run ▸ h)⟩

theorem stops_nil (p : Char → Bool) : Stops p [] := nofun

theorem stops_cons {p : Char → Bool} {c : Char} {rest : List Char} (h : p c = false) :
    Stops p (c :: rest) := by
  rintro _ ⟨⟩
  exact h

end Text

open Text

/-! ## Spelled numbers -/

namespace Double

/-- The digits behind the point, with the point. -/
def fractionPart (fraction : List Char) : List Char :=
  if fraction.isEmpty then [] else '.' :: fraction

/-- The exponent, with its letter. -/
def exponentPart : Option ℤ → List Char
  | some e => 'e' :: exponentText e
  | none => []

/-- The text of a number with these digits before and behind the point, and this exponent. -/
def spelled (whole fraction : List Char) (exponent : Option ℤ) : List Char :=
  whole ++ (fractionPart fraction ++ exponentPart exponent)

/-- What the parts of a number have to be. -/
structure Spells (whole fraction : List Char) (exponent : Option ℤ) : Prop where
  /-- A zero stands in front only alone. -/
  front : whole = ['0'] ∨ ∃ c ds, whole = c :: ds ∧ c ≠ '0'
  digits : ∀ c ∈ whole ++ fraction, isDigit c = true
  double : fraction ≠ [] ∨ exponent ≠ none

/-- The number that a spelled number denotes. -/
def spelledValue (whole fraction : List Char) (exponent : Option ℤ) : ℚ :=
  numeral (Nat.ofDigitChars 10 (whole ++ fraction) 0) (exponent.getD 0 - fraction.length)

section

variable {whole fraction : List Char} {exponent : Option ℤ}

theorem Spells.whole_ne_nil (h : Spells whole fraction exponent) : whole ≠ [] := by
  rcases h.front with rfl | ⟨c, ds, rfl, -⟩ <;> exact List.cons_ne_nil _ _

/-- A letter, a sign and the digits of a magnitude are read as an exponent. -/
theorem readExponent?_signed {letter : Char} {digits : List Char} {e : ℤ}
    (hletter : letter = 'e' ∨ letter = 'E') (hne : digits ≠ [])
    (hdigits : ∀ c ∈ digits, isDigit c = true)
    (hvalue : Nat.ofDigitChars 10 digits 0 = e.natAbs) :
    Numeral.readExponent? (letter :: (if e < 0 then '-' else '+') :: digits) = some e := by
  have read := readNat?_of_isDigit hne hdigits
  rw [hvalue] at read
  rw [Numeral.readExponent?, if_pos (by simpa using hletter)]
  by_cases hneg : e < 0
  · have value : -(e.natAbs : ℤ) = e := by omega
    simpa [Numeral.splitSign, hneg, read] using value
  · have value : (e.natAbs : ℤ) = e := by omega
    simpa [Numeral.splitSign, hneg, read] using value

theorem readExponent?_exponentPart (exponent : Option ℤ) :
    Numeral.readExponent? (exponentPart exponent) = some (exponent.getD 0) := by
  cases exponent with
  | none => rfl
  | some e =>
    exact readExponent?_signed (.inl rfl) (padded_ne_nil 2 e.natAbs)
      (fun c => isDigit_of_mem_padded) (ofDigitChars_padded 2 e.natAbs)

theorem stops_exponentPart (exponent : Option ℤ) {rest : List Char} (hrest : Stops isDigit rest) :
    Stops isDigit (exponentPart exponent ++ rest) := by
  cases exponent with
  | none => exact hrest
  | some e => exact stops_cons (by decide)

theorem stops_fractionPart (fraction : List Char) {rest : List Char} (hrest : Stops isDigit rest) :
    Stops isDigit (fractionPart fraction ++ rest) := by
  cases fraction with
  | nil => exact hrest
  | cons d ds => exact stops_cons (by decide)

/-- Digits, perhaps with a point among them, and an exponent are read as the number that they
denote. -/
theorem read?_parts {tail : List Char} {power : ℤ} (hne : whole ≠ [])
    (hdigits : ∀ c ∈ whole ++ fraction, isDigit c = true)
    (htail : Numeral.readExponent? tail = some power) :
    Numeral.read? (whole ++ (fractionPart fraction ++ tail)) =
      some ⟨Nat.ofDigitChars 10 (whole ++ fraction) 0, power - fraction.length⟩ := by
  obtain ⟨hwhole, hfraction⟩ := List.forall_mem_append.mp hdigits
  -- an exponent begins neither with a digit nor with a point
  have letter : ∀ c ∈ tail.head?, c = 'e' ∨ c = 'E' := by
    intro c hc
    by_contra hletter
    cases tail with
    | nil => cases hc
    | cons first rest =>
      cases hc
      rw [Numeral.readExponent?, if_neg (by simpa using hletter)] at htail
      cases htail
  have stops : Stops isDigit tail := by
    intro c hc
    rcases letter c hc with rfl | rfl <;> rfl
  have number := readNat?_of_isDigit (fun he => hne (List.append_eq_nil_iff.mp he).1) hdigits
  unfold Numeral.read?
  rw [takeWhile_append hwhole (stops_fractionPart fraction stops),
    dropWhile_append hwhole (stops_fractionPart fraction stops)]
  -- without a fraction there is no point, and the tail must not begin with one
  cases fraction with
  | nil =>
    rw [List.append_nil] at number
    cases tail with
    | nil => simp [fractionPart, number, htail]
    | cons first rest =>
      have hpoint : first ≠ '.' := by
        rintro rfl
        exact absurd (letter '.' rfl) (by decide)
      simp [fractionPart, number, htail, hpoint]
  | cons d ds =>
    have point : fractionPart (d :: ds) ++ tail = '.' :: (d :: ds ++ tail) := rfl
    rw [point]
    simp only [takeWhile_append hfraction stops, dropWhile_append hfraction stops, number, htail]

/-- A spelled number is read as its digits and its exponent. -/
theorem read?_spelled (h : Spells whole fraction exponent) :
    Numeral.read? (spelled whole fraction exponent) =
      some ⟨Nat.ofDigitChars 10 (whole ++ fraction) 0, exponent.getD 0 - fraction.length⟩ :=
  read?_parts h.whole_ne_nil h.digits (readExponent?_exponentPart exponent)

end

/-! ### The texts of doubles -/

theorem numeral_mul_pow (n k : Nat) (e : ℤ) : numeral (n * 10 ^ k) e = numeral n (e + k) := by
  unfold numeral
  rw [zpow_add₀ (by norm_num), zpow_natCast]
  push_cast
  ring

theorem ofDigitChars_append_zeros (digits : List Char) (k : Nat) :
    Nat.ofDigitChars 10 (digits ++ List.replicate k '0') 0 =
      Nat.ofDigitChars 10 digits 0 * 10 ^ k := by
  rw [Nat.ofDigitChars_append, Nat.ofDigitChars_replicate_zero, Nat.mul_comm]

theorem forall_mem_zeros (k : Nat) : ∀ c ∈ List.replicate k '0', isDigit c = true := by
  intro c hc
  rw [List.eq_of_mem_replicate hc]
  rfl

/-- Whether a text spells the number `0.d₁d₂… * 10^point`. -/
def SpellsPlaced (digits : List Char) (point : ℤ) (cs : List Char) : Prop :=
  ∃ whole fraction exponent, cs = spelled whole fraction exponent ∧ Spells whole fraction exponent ∧
    spelledValue whole fraction exponent =
      numeral (Nat.ofDigitChars 10 digits 0) (point - digits.length)

section

variable {d : Char} {ds : List Char} (hdigits : ∀ c ∈ d :: ds, isDigit c = true) (hd : d ≠ '0')

include hdigits hd

/-- One digit before the point and the others behind it. -/
theorem spellsPlaced_scientific (point : ℤ) :
    SpellsPlaced (d :: ds) point (spelled [d] ds (some (point - 1))) := by
  refine ⟨[d], ds, some (point - 1), rfl, ⟨.inr ⟨d, [], rfl, hd⟩, hdigits, .inr nofun⟩, ?_⟩
  unfold spelledValue
  congr 1
  simp only [Option.getD_some, List.length_cons]
  push_cast
  ring

omit hd in
/-- Zeros before all digits. -/
theorem spellsPlaced_small (k : Nat) :
    SpellsPlaced (d :: ds) (-k) (spelled ['0'] (List.replicate k '0' ++ d :: ds) none) := by
  refine ⟨['0'], List.replicate k '0' ++ d :: ds, none, rfl, ⟨.inl rfl, ?_, .inl (by simp)⟩, ?_⟩
  · exact List.forall_mem_append.mpr
      ⟨forall_mem_zeros 1, List.forall_mem_append.mpr ⟨forall_mem_zeros k, hdigits⟩⟩
  · have zero : Nat.ofDigitChars 10 ['0'] 0 = 0 := rfl
    unfold spelledValue
    rw [Nat.ofDigitChars_append, Nat.ofDigitChars_append, Nat.ofDigitChars_replicate_zero, zero,
      Nat.mul_zero, Option.getD_none, List.length_append, List.length_replicate]
    congr 1
    push_cast
    ring

/-- All digits before the point, with zeros behind them. -/
theorem spellsPlaced_whole (k : Nat) :
    SpellsPlaced (d :: ds) ((d :: ds).length + k : Nat)
      (spelled (d :: ds ++ List.replicate k '0') ['0'] none) := by
  refine ⟨d :: ds ++ List.replicate k '0', ['0'], none, rfl,
    ⟨.inr ⟨d, _, rfl, hd⟩, ?_, .inl (List.cons_ne_nil _ _)⟩, ?_⟩
  · exact List.forall_mem_append.mpr
      ⟨List.forall_mem_append.mpr ⟨hdigits, forall_mem_zeros k⟩, forall_mem_zeros 1⟩
  · have zeros : d :: ds ++ List.replicate k '0' ++ ['0'] =
        d :: ds ++ List.replicate (k + 1) '0' := by
      rw [List.replicate_succ', List.append_assoc]
    unfold spelledValue
    rw [zeros, ofDigitChars_append_zeros, numeral_mul_pow, Option.getD_none]
    congr 1
    simp only [List.length_cons, List.length_nil]
    push_cast
    ring

/-- Digits on both sides of the point. -/
theorem spellsPlaced_pointed {v : Nat} (hv : v < ds.length) :
    SpellsPlaced (d :: ds) (v + 1 : Nat) (spelled (d :: ds.take v) (ds.drop v) none) := by
  have whole : d :: ds.take v ++ ds.drop v = d :: ds := by
    rw [List.cons_append, List.take_append_drop]
  refine ⟨d :: ds.take v, ds.drop v, none, rfl, ⟨.inr ⟨d, _, rfl, hd⟩, ?_, .inl ?_⟩, ?_⟩
  · rw [whole]
    exact hdigits
  · rw [ne_eq, List.drop_eq_nil_iff]
    omega
  · unfold spelledValue
    rw [whole, Option.getD_none]
    congr 1
    simp only [List.length_drop, List.length_cons]
    omega

end

/-- Wherever the point is placed, the text spells the number. -/
theorem spellsPlaced_placed {digits : List Char} (hne : digits ≠ [])
    (hdigits : ∀ c ∈ digits, isDigit c = true) (hfirst : ∀ ds, digits ≠ '0' :: ds) (point : ℤ) :
    SpellsPlaced digits point (placed digits point) := by
  obtain ⟨d, ds, rfl⟩ := List.exists_cons_of_ne_nil hne
  have hd : d ≠ '0' := fun he => hfirst ds (by rw [he])
  unfold placed
  -- one case for each of the four forms of a text
  by_cases hscientific : point ≤ -4 ∨ 16 < point
  · rw [if_pos (by simpa using hscientific)]
    convert spellsPlaced_scientific hdigits hd point using 1
    simp [spelled, fractionPart, exponentPart]
  rw [if_neg (by simpa using hscientific)]
  by_cases hsmall : point ≤ 0
  · rw [if_pos hsmall]
    obtain ⟨k, rfl⟩ : ∃ k : Nat, point = -k := ⟨(-point).toNat, by omega⟩
    convert spellsPlaced_small hdigits k using 1
    simp [spelled, fractionPart, exponentPart]
  rw [if_neg hsmall]
  obtain ⟨v, rfl⟩ : ∃ v : Nat, point = (v + 1 : Nat) := ⟨(point - 1).toNat, by omega⟩
  by_cases hlong : ds.length ≤ v
  · obtain ⟨k, rfl⟩ := Nat.exists_eq_add_of_le hlong
    convert spellsPlaced_whole hdigits hd k using 1
    · simp only [List.length_cons]
      push_cast
      ring
    · have before : (((ds.length + k + 1 : Nat) : ℤ)).toNat = ds.length + k + 1 :=
        Int.toNat_natCast _
      have zeros : ds.length + k + 1 - (ds.length + 1) = k := by omega
      rw [before]
      simp [spelled, fractionPart, exponentPart, zeros]
  · convert spellsPlaced_pointed hdigits hd (not_le.mp hlong) using 1
    have none : v - ds.length = 0 := by omega
    have some : (ds.drop v).isEmpty = false := by
      rw [List.isEmpty_eq_false_iff, ne_eq, List.drop_eq_nil_iff]
      exact hlong
    simp [spelled, fractionPart, exponentPart, none, hlong]

/-- Digits without the zeros at their end. -/
theorem exists_trimZeros (digits : List Char) :
    ∃ k, digits = trimZeros digits ++ List.replicate k '0' := by
  have zeros : ∀ c ∈ digits.reverse.takeWhile (· == '0'), c = '0' := by
    intro c hc
    exact eq_of_beq (List.mem_takeWhile_imp (p := (· == '0')) hc)
  have front := List.eq_replicate_iff.mpr ⟨rfl, zeros⟩
  refine ⟨(digits.reverse.takeWhile (· == '0')).length, ?_⟩
  calc digits =
      (digits.reverse.takeWhile (· == '0') ++ digits.reverse.dropWhile (· == '0')).reverse := by
        rw [List.takeWhile_append_dropWhile, List.reverse_reverse]
    _ = trimZeros digits ++ (digits.reverse.takeWhile (· == '0')).reverse := List.reverse_append
    _ = _ := congrArg (trimZeros digits ++ ·) (by conv_lhs => rw [front, List.reverse_replicate])

/-- **The text of a double is a spelled number** of which the double is the nearest. -/
theorem magnitudeText_eq_spelled {rank : Nat} (hrank : rank < infinityRank) :
    ∃ whole fraction exponent, magnitudeText rank = spelled whole fraction exponent ∧
      Spells whole fraction exponent ∧
      ∀ negative, ofDecimal negative (Nat.ofDigitChars 10 (whole ++ fraction) 0)
        (exponent.getD 0 - fraction.length) = .finite negative rank hrank := by
  unfold magnitudeText
  by_cases hzero : rank = 0
  · subst hzero
    rw [if_pos rfl]
    refine ⟨['0'], ['0'], none, rfl, ⟨.inl rfl, forall_mem_zeros 2, .inl (List.cons_ne_nil _ _)⟩,
      ?_⟩
    intro negative
    show ofRank negative 0 = _
    rw [ofRank, dif_pos hrank]
  rw [if_neg hzero]
  have reads := readsBack_shortest hzero
  -- the shortest digits read back to the rank, and trimming them does not change that
  generalize hshort : shortest rank = short at reads
  obtain ⟨n, e⟩ := short
  have hn : 0 < n := by
    rcases Nat.eq_zero_or_pos n with rfl | hn
    · have := readsBack_iff.mp reads
      rw [Nat.zero_mul, rankOfRatio_zero] at this
      exact absurd this.symm hzero
    · exact hn
  obtain ⟨k, hk⟩ := exists_trimZeros (Nat.toDigits 10 n)
  generalize hdigits : trimZeros (Nat.toDigits 10 n) = digits at hk
  have ofDigits : Nat.ofDigitChars 10 digits 0 * 10 ^ k = n := by
    rw [← ofDigitChars_append_zeros, ← hk, Nat.ofDigitChars_ten_toDigits]
  have hne : digits ≠ [] := by
    rintro rfl
    rw [Nat.ofDigitChars_nil, Nat.zero_mul] at ofDigits
    omega
  have each : ∀ c ∈ digits, isDigit c = true := fun c hc =>
    isDigit_of_mem_toDigits (n := n) (hk ▸ List.mem_append_left _ hc)
  have first : ∀ ds, digits ≠ '0' :: ds := by
    rintro ds rfl
    rw [List.cons_append] at hk
    exact head_toDigits_ne_zero hn hk
  obtain ⟨whole, fraction, exponent, htext, hspells, hvalue⟩ :=
    spellsPlaced_placed hne each first ((Nat.toDigits 10 n).length + e)
  refine ⟨whole, fraction, exponent, ?_, hspells, fun negative => ?_⟩
  · show placed (trimZeros (Nat.toDigits 10 n)) ((Nat.toDigits 10 n).length + e) = _
    rw [hdigits, htext]
  · refine ofDecimal_eq negative hzero hrank reads (hvalue.trans ?_)
    have length : (Nat.toDigits 10 n).length = digits.length + k := by
      rw [hk, List.length_append, List.length_replicate]
    rw [length, ← ofDigits, numeral_mul_pow]
    congr 1
    push_cast
    ring

end Double

namespace Json

open Double

variable {whole fraction rest : List Char} {exponent : Option ℤ}

/-- Whether a text does not go on like a number. -/
def EndsNumber (rest : List Char) : Prop :=
  ∀ c ∈ rest.head?, isDigit c = false ∧ c ≠ '.' ∧ c ≠ 'e' ∧ c ≠ 'E'

theorem EndsNumber.stops (h : EndsNumber rest) : Stops isDigit rest := fun c hc => (h c hc).1

theorem takeWhole?_append {tail : List Char} (h : whole = ['0'] ∨ ∃ c ds, whole = c :: ds ∧ c ≠ '0')
    (hdigits : ∀ c ∈ whole, isDigit c = true) (htail : Stops isDigit tail) :
    takeWhole? (whole ++ tail) = some (whole, tail) := by
  rcases h with rfl | ⟨c, ds, rfl, hc⟩
  · rfl
  · obtain ⟨hdigit, hds⟩ := List.forall_mem_cons.mp hdigits
    rw [List.cons_append]
    unfold takeWhole?
    split
    next heq =>
      injection heq with heq
      exact absurd heq hc
    next heq =>
      injection heq with hhead htl
      subst hhead htl
      rw [if_pos hdigit, takeWhile_append hds htail, dropWhile_append hds htail]
    next heq => cases heq

theorem takeFraction_append {tail : List Char} (hdigits : ∀ c ∈ fraction, isDigit c = true)
    (htail : Stops isDigit tail) (hpoint : ∀ c ∈ tail.head?, c ≠ '.') :
    takeFraction (fractionPart fraction ++ tail) = (fractionPart fraction, tail) := by
  cases fraction with
  | nil =>
    show takeFraction tail = ([], tail)
    unfold takeFraction
    split
    next rest => exact absurd rfl (hpoint '.' rfl)
    next => rfl
  | cons d ds =>
    show (if (((d :: ds) ++ tail).takeWhile isDigit).isEmpty then _ else
      ('.' :: ((d :: ds) ++ tail).takeWhile isDigit, ((d :: ds) ++ tail).dropWhile isDigit)) = _
    rw [takeWhile_append hdigits htail, dropWhile_append hdigits htail]
    rfl

theorem takeExponent_append (exponent : Option ℤ) (hrest : EndsNumber rest) :
    takeExponent (exponentPart exponent ++ rest) = (exponentPart exponent, rest) := by
  cases exponent with
  | none =>
    show takeExponent rest = ([], rest)
    cases rest with
    | nil => rfl
    | cons c rest =>
      obtain ⟨-, -, hsmall, hlarge⟩ := hrest c rfl
      simp [takeExponent, hsmall, hlarge]
  | some e =>
    have digits : ∀ c ∈ padded 10 2 e.natAbs, isDigit c = true := fun c => isDigit_of_mem_padded
    have taken := takeWhile_append digits hrest.stops
    have dropped := dropWhile_append digits hrest.stops
    show takeExponent ('e' :: (if e < 0 then '-' else '+') :: (padded 10 2 e.natAbs ++ rest)) = _
    by_cases hneg : e < 0 <;>
      simp [takeExponent, exponentPart, exponentText, hneg, taken, dropped, padded_ne_nil]

/-- A number is read from its parts. -/
theorem readNumber?_of_parts {negative : Bool} {cs point power behind behind' behind'' : List Char}
    (hwhole : takeWhole? cs = some (whole, behind))
    (hpoint : takeFraction behind = (point, behind'))
    (hpower : takeExponent behind' = (power, behind'')) :
    readNumber? negative cs =
      if point.isEmpty && power.isEmpty then
        (readNat? 10 whole).map fun n => (.int (if negative then -(n : Int) else n), behind'')
      else
        (Numeral.read? (whole ++ point ++ power)).map fun n =>
          (.float (ofDecimal negative n.digits n.exponent), behind'') := by
  simp only [readNumber?, hwhole, hpoint, hpower, Option.bind_eq_bind, Option.bind_some]
  split
  · cases readNat? 10 whole <;> rfl
  · cases Numeral.read? (whole ++ point ++ power) <;> rfl

/-- A spelled number is read up to its end, as the double nearest to it. -/
theorem readNumber?_spelled (negative : Bool) (h : Spells whole fraction exponent)
    (hrest : EndsNumber rest) :
    readNumber? negative (spelled whole fraction exponent ++ rest) =
      some (.float (ofDecimal negative (Nat.ofDigitChars 10 (whole ++ fraction) 0)
        (exponent.getD 0 - fraction.length)), rest) := by
  obtain ⟨hwhole, hfraction⟩ := List.forall_mem_append.mp h.digits
  have stops := stops_exponentPart exponent hrest.stops
  have whole? : takeWhole? (whole ++ (fractionPart fraction ++ (exponentPart exponent ++ rest))) =
      some (whole, fractionPart fraction ++ (exponentPart exponent ++ rest)) :=
    takeWhole?_append h.front hwhole (stops_fractionPart fraction stops)
  have point : ∀ c ∈ (exponentPart exponent ++ rest).head?, c ≠ '.' := by
    cases exponent with
    | none => exact fun c hc => (hrest c hc).2.1
    | some e =>
      rintro _ ⟨⟩
      decide
  -- a text with a point or an exponent is never taken for an integer
  have inexact : ((fractionPart fraction).isEmpty && (exponentPart exponent).isEmpty) = false := by
    rcases h.double with hne | hne
    · cases fraction with
      | nil => exact absurd rfl hne
      | cons d ds => rfl
    · cases exponent with
      | none => exact absurd rfl hne
      | some e => exact Bool.and_false _
  have read := read?_spelled h
  unfold spelled at read ⊢
  rw [← List.append_assoc] at read
  rw [List.append_assoc, List.append_assoc, readNumber?_of_parts whole?
    (takeFraction_append hfraction stops point) (takeExponent_append exponent hrest), inexact, read]
  rfl

/-- The digits of an integer are read as the integer. -/
theorem readNumber?_toDigits (negative : Bool) (n : Nat) (hrest : EndsNumber rest) :
    readNumber? negative (Nat.toDigits 10 n ++ rest) =
      some (.int (if negative then -(n : Int) else n), rest) := by
  have digits : ∀ c ∈ Nat.toDigits 10 n, isDigit c = true := fun c => isDigit_of_mem_toDigits
  have front : Nat.toDigits 10 n = ['0'] ∨ ∃ c ds, Nat.toDigits 10 n = c :: ds ∧ c ≠ '0' := by
    rcases Nat.eq_zero_or_pos n with rfl | hn
    · exact .inl (Nat.toDigits_zero 10)
    · cases hd : Nat.toDigits 10 n with
      | nil => exact absurd hd Nat.toDigits_ne_nil
      | cons c ds =>
        refine .inr ⟨c, ds, rfl, ?_⟩
        rintro rfl
        exact head_toDigits_ne_zero hn hd
  have point : takeFraction rest = ([], rest) :=
    takeFraction_append (List.forall_mem_nil _) hrest.stops fun c hc => (hrest c hc).2.1
  have power : takeExponent rest = ([], rest) := takeExponent_append none hrest
  have read := readNat?_of_isDigit Nat.toDigits_ne_nil digits
  rw [Nat.ofDigitChars_ten_toDigits] at read
  rw [readNumber?_of_parts (takeWhole?_append front digits hrest.stops) point power, read]
  rfl

end Json

end SqlScribe
