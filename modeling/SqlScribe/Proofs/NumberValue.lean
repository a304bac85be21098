import SqlScribe.Number.Decimal
import SqlScribe.Proofs.WrittenNumber

/-!
# Numbers of all types on one line

Integers, doubles and decimals are compared as decimals. Two of them are called equal only if they
denote the same number (`Decimal.value_eq_of_compare`): decimals of one size are brought to a common
exponent, and others differ already by their size. A double has an exact value among the decimals,
and different doubles have different values, the two zeros apart: a double is the nearest one to
its own value (`rankOfRatio_ratio`).
-/

namespace SqlScribe

open Double (numeral)

/-! ## Doubles -/

namespace Double

/-- A double is the nearest one to its own value. -/
theorem rankOfRatio_ratio (rank : Nat) : rankOfRatio (ratio rank).1 (ratio rank).2 = rank := by
  by_cases hrank : rank = 0
  · subst hrank
    decide
  · have hu := unit_pos rank
    refine rankOfRatio_eq hrank (ratio_den_pos rank) ?_ ?_ fun _ => ?_ <;> rw [ratio_eq_magnitude]
    · linarith
    · linarith

theorem magnitude_inj {rank rank' : Nat} (h : magnitude rank = magnitude rank') : rank = rank' := by
  have hden : ((ratio rank).2 : ℚ) ≠ 0 := by exact_mod_cast (ratio_den_pos rank).ne'
  have hden' : ((ratio rank').2 : ℚ) ≠ 0 := by exact_mod_cast (ratio_den_pos rank').ne'
  rw [← ratio_eq_magnitude, ← ratio_eq_magnitude, div_eq_div_iff hden hden'] at h
  rw [← rankOfRatio_ratio rank, ← rankOfRatio_ratio rank']
  exact rankOfRatio_congr (ratio_den_pos rank) (ratio_den_pos rank') (by exact_mod_cast h)

theorem magnitude_nonneg (rank : Nat) : 0 ≤ magnitude rank :=
  mul_nonneg (Nat.cast_nonneg _) (unit_pos rank).le

theorem magnitude_zero : magnitude 0 = 0 := by
  have : mantissa 0 = 0 := rfl
  rw [magnitude, this, Nat.cast_zero, zero_mul]

theorem magnitude_eq_zero_iff {rank : Nat} : magnitude rank = 0 ↔ rank = 0 := by
  constructor
  · exact fun h => magnitude_inj (h.trans magnitude_zero.symm)
  · rintro rfl
    exact magnitude_zero

end Double

/-! ## Decimals -/

namespace Decimal

/-- A number with its sign. -/
def signed (negative : Bool) (q : ℚ) : ℚ := if negative then -q else q

/-- The number that a decimal denotes. -/
def value (d : Decimal) : ℚ := signed d.negative (numeral d.coefficient d.exponent)

theorem value_ofInt (n : ℤ) : (ofInt n).value = n := by
  by_cases hn : n < 0
  · have : ((n.natAbs : ℤ) : ℚ) = ((-n : ℤ) : ℚ) := congrArg _ (by omega)
    push_cast at this
    simp [value, signed, ofInt, numeral, hn, this]
  · have : ((n.natAbs : ℤ) : ℚ) = (n : ℚ) := congrArg _ (by omega)
    push_cast at this
    simp [value, signed, ofInt, numeral, hn, this]

theorem value_ofFinite (negative : Bool) (rank : Nat) :
    (ofFinite negative rank).value = signed negative (Double.magnitude rank) := by
  have hden : (Double.ratio rank).2 = 2 ^ (1075 - Double.place rank) := by
    unfold Double.ratio
    split_ifs with hplace
    · rfl
    · rw [show 1075 - Double.place rank = 0 by omega]
      rfl
  have tens : (10 : ℚ) = 5 * 2 := by norm_num
  unfold value ofFinite
  dsimp only
  rw [← Double.ratio_eq_magnitude, hden, numeral, zpow_neg, zpow_natCast, Nat.pow_eq, tens, mul_pow]
  congr 1
  push_cast
  field_simp

/-- Magnitudes that are called equal are one number. -/
theorem numeral_eq_of_compareMagnitude {a b : Decimal} (h : compareMagnitude a b = .eq) :
    numeral a.coefficient a.exponent = numeral b.coefficient b.exponent := by
  unfold compareMagnitude at h
  split_ifs at h with hsize
  · have same := Nat.compare_eq_eq.mp h
    -- both are brought to the lesser exponent
    have ha : a.exponent = min a.exponent b.exponent + ((a.exponent - b.exponent).toNat : ℤ) := by
      omega
    have hb : b.exponent = min a.exponent b.exponent + ((b.exponent - a.exponent).toNat : ℤ) := by
      omega
    calc numeral a.coefficient a.exponent
        = numeral a.coefficient (min a.exponent b.exponent + (a.exponent - b.exponent).toNat) :=
          congrArg (numeral _) ha
      _ = numeral (a.coefficient * 10 ^ (a.exponent - b.exponent).toNat)
            (min a.exponent b.exponent) := (Double.numeral_mul_pow _ _ _).symm
      _ = numeral (b.coefficient * 10 ^ (b.exponent - a.exponent).toNat)
            (min a.exponent b.exponent) := congrArg (numeral · _) same
      _ = numeral b.coefficient (min a.exponent b.exponent + (b.exponent - a.exponent).toNat) :=
          Double.numeral_mul_pow _ _ _
      _ = numeral b.coefficient b.exponent := (congrArg (numeral _) hb).symm
  · exact absurd (Int.compare_eq_eq.mp h) hsize

/-- **Decimals that are called equal denote the same number.** -/
theorem value_eq_of_compare {a b : Decimal} (h : a.compare b = .eq) : a.value = b.value := by
  obtain ⟨negative, coefficient, exponent⟩ := a
  obtain ⟨negative', coefficient', exponent'⟩ := b
  unfold compare at h
  dsimp only at h
  cases hzero : coefficient == 0 <;> cases hzero' : coefficient' == 0 <;> rw [hzero, hzero'] at h
  · cases negative <;> cases negative'
    · exact numeral_eq_of_compareMagnitude h
    · cases h
    · cases h
    · exact congrArg Neg.neg (numeral_eq_of_compareMagnitude h).symm
  · cases negative <;> cases h
  · cases negative' <;> cases h
  · have none (d : Decimal) (hd : d.coefficient = 0) : d.value = 0 := by
      simp [value, signed, numeral, hd]
    rw [none _ (by simpa using hzero), none _ (by simpa using hzero')]

end Decimal

/-! ## Doubles among the decimals -/

namespace Double

/-- Magnitudes on either side of zero are both zero. -/
theorem rank_eq_zero_of_neg {rank rank' : Nat} (h : -magnitude rank = magnitude rank') :
    rank = 0 ∧ rank' = 0 := by
  have nonneg := magnitude_nonneg rank
  have nonneg' := magnitude_nonneg rank'
  exact ⟨magnitude_eq_zero_iff.mp (by linarith), magnitude_eq_zero_iff.mp (by linarith)⟩

/-- Finite doubles of one value have one place on the line. -/
theorem position?_eq_of_value {negative negative' : Bool} {rank rank' : Nat}
    (h : (Decimal.ofFinite negative rank).value = (Decimal.ofFinite negative' rank').value)
    (hlt : rank < infinityRank) (hlt' : rank' < infinityRank) :
    (finite negative rank hlt).position? = (finite negative' rank' hlt').position? := by
  rw [Decimal.value_ofFinite, Decimal.value_ofFinite] at h
  cases negative <;> cases negative'
  · cases magnitude_inj h
    rfl
  · obtain ⟨rfl, rfl⟩ := rank_eq_zero_of_neg h.symm
    rfl
  · obtain ⟨rfl, rfl⟩ := rank_eq_zero_of_neg h
    rfl
  · cases magnitude_inj (neg_injective h)
    rfl

theorem same_of_position? {x y : Double} (h : x.position? = y.position?)
    (hx : x.position?.isSome) : x.same y = true := by
  obtain ⟨place, hplace⟩ := Option.isSome_iff_exists.mp hx
  unfold same
  rw [← h, hplace]
  exact beq_self_eq_true place

/-- **Doubles that are called equal among the decimals are equal.** -/
theorem same_of_compare? {x y : Double}
    (h : (DecimalWord.ofDouble x).compare? (.ofDouble y) = some .eq) : x.same y = true := by
  have outside (negative : Bool) : compare (DecimalWord.infinity negative).side 0 ≠ .eq ∧
      compare 0 (DecimalWord.infinity negative).side ≠ .eq := by
    cases negative <;> decide
  cases x with
  | nan => cases h
  | infinity negative =>
    cases y with
    | nan => cases h
    | infinity negative' =>
      cases negative <;> cases negative'
      · decide
      · exact absurd h (by decide)
      · exact absurd h (by decide)
      · decide
    | finite => exact absurd (Option.some.inj h) (outside negative).1
  | finite negative rank hlt =>
    cases y with
    | nan => cases h
    | infinity negative' => exact absurd (Option.some.inj h) (outside negative').2
    | finite negative' rank' hlt' =>
      refine same_of_position? (position?_eq_of_value ?_ hlt hlt') rfl
      exact Decimal.value_eq_of_compare (Option.some.inj h)

end Double

end SqlScribe
