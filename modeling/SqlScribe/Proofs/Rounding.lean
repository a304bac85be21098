import Mathlib.Algebra.Order.Field.Power
import Mathlib.Data.Int.Log
import Mathlib.Data.Rat.Floor
import Mathlib.Tactic.FieldSimp
import Mathlib.Tactic.Linarith
import Mathlib.Tactic.NormNum
import Mathlib.Tactic.Positivity
import Mathlib.Tactic.Ring
import SqlScribe.Number.Shortest

/-!
# Rounding to doubles

A quotient of naturals rounds to the rank of the double nearest to it. Three facts about this are
all that the reading of written doubles needs. Equal quotients round alike, however they are
spelled. A quotient that lies within half a unit of a double rounds to this double, unless it lies
below a power of two, where the doubles are denser. And a double is never farther than that from
one of its neighbours on a decimal grid of seventeen digits, so the search for the shortest numeral
ends with one that reads back.

The argument is carried out over the rationals, in which the quotients and the powers of two and of
ten are compared.
-/

namespace SqlScribe.Double

/-! ## Quotients -/

/-- A power with an integer exponent as a quotient of powers. -/
theorem pow_div_pow_toNat {b : Nat} (hb : 0 < b) (e : ℤ) :
    ((b ^ e.toNat : Nat) : ℚ) / ((b ^ (-e).toNat : Nat) : ℚ) = (b : ℚ) ^ e := by
  have hb' : (b : ℚ) ≠ 0 := by positivity
  rcases le_total 0 e with he | he
  · obtain ⟨n, rfl⟩ := Int.eq_ofNat_of_zero_le he
    simp
  · obtain ⟨n, hn⟩ := Int.eq_ofNat_of_zero_le (Int.neg_nonneg.mpr he)
    obtain rfl : e = -n := by omega
    simp [zpow_neg]

theorem quotient_scaled {b : Nat} (hb : 0 < b) (num den : Nat) (e : ℤ) :
    ((num * Nat.pow b (-e).toNat : Nat) : ℚ) / ((den * Nat.pow b e.toNat : Nat) : ℚ) =
      (num : ℚ) / den / (b : ℚ) ^ e := by
  rw [← pow_div_pow_toNat hb e]
  push_cast [Nat.pow_eq]
  rw [div_div_eq_mul_div, div_mul_eq_mul_div, div_div]

theorem natCast_zpow_pos {b : Nat} (hb : 0 < b) (e : ℤ) : (0 : ℚ) < (b : ℚ) ^ e :=
  zpow_pos (by exact_mod_cast hb) e

/-- A test of the exponent of a power decides between the power and the quotient. -/
theorem mul_pow_le_iff {b num den : Nat} (hb : 0 < b) (hden : 0 < den) (e : ℤ) :
    den * Nat.pow b e.toNat ≤ num * Nat.pow b (-e).toNat ↔ (b : ℚ) ^ e ≤ (num : ℚ) / den := by
  rw [← pow_div_pow_toNat hb e, div_le_div_iff₀ (by positivity) (by positivity)]
  rw [← Nat.cast_mul, ← Nat.cast_mul, Nat.cast_le, Nat.pow_eq, Nat.pow_eq, Nat.mul_comm]

/-! ## Halves -/

/-- A quotient that is less than one half away from a natural rounds to it. -/
theorem roundHalfEven_eq {num den m : Nat} (hden : 0 < den) (hlow : 2 * m * den < 2 * num + den)
    (hhigh : 2 * num < (2 * m + 1) * den) : roundHalfEven num den = m := by
  have hdiv : den * (num / den) + num % den = num := Nat.div_add_mod num den
  have hmod : num % den < den := Nat.mod_lt _ hden
  unfold roundHalfEven
  generalize num / den = q at hdiv
  generalize num % den = r at hdiv hmod
  -- the quotient without its rest is the number or the one below it
  have hq : q = m ∨ q + 1 = m := by
    have h₁ : q < m + 1 := by
      by_contra hcon
      have : den * (m + 1) ≤ den * q := Nat.mul_le_mul_left den (by omega)
      nlinarith
    have h₂ : m < q + 2 := by
      by_contra hcon
      have : den * (q + 2) ≤ den * m := Nat.mul_le_mul_left den (by omega)
      nlinarith
    omega
  rcases hq with rfl | rfl
  · have : 2 * r < den := by nlinarith
    simp only [this, if_true]
  · have : den < 2 * r := by nlinarith
    simp only [this, if_true, show ¬ 2 * r < den by omega, if_false]

theorem roundHalfEven_mul (num den : Nat) {k : Nat} (hk : 0 < k) :
    roundHalfEven (num * k) (den * k) = roundHalfEven num den := by
  have double : ∀ x y : Nat,
      (2 * (x * k) < y * k ↔ 2 * x < y) ∧ (y * k < 2 * (x * k) ↔ y < 2 * x) := by
    intro x y
    rw [← Nat.mul_assoc]
    exact ⟨Nat.mul_lt_mul_right hk, Nat.mul_lt_mul_right hk⟩
  simp only [roundHalfEven, Nat.mul_div_mul_right _ _ hk, Nat.mul_mod_mul_right, double]

/-! ## Exponents -/

/-- If a power tells which of two neighbours the exponent of a quotient is, it is found. -/
theorem log_eq_of_le {b : Nat} (hb : 1 < b) {q : ℚ} {e : ℤ} (hlow : (b : ℚ) ^ e ≤ q)
    (hhigh : q < (b : ℚ) ^ (e + 1)) : Int.log b q = e := by
  have hq : 0 < q := (natCast_zpow_pos (by omega) e).trans_le hlow
  refine le_antisymm ?_ ((Int.zpow_le_iff_le_log hb hq).mp hlow)
  have := (Int.lt_zpow_iff_log_lt hb hq).mp hhigh
  omega

theorem binaryExponent_eq {num den : Nat} (hnum : 0 < num) (hden : 0 < den) :
    binaryExponent num den = Int.log 2 ((num : ℚ) / den) := by
  have hn₁ : 2 ^ num.log2 ≤ num := Nat.log2_self_le (by omega)
  have hn₂ : num < 2 ^ (num.log2 + 1) := Nat.lt_log2_self
  have hd₁ : 2 ^ den.log2 ≤ den := Nat.log2_self_le (by omega)
  have hd₂ : den < 2 ^ (den.log2 + 1) := Nat.lt_log2_self
  have hdpos : (0 : ℚ) < den := by exact_mod_cast hden
  -- the quotient lies between the powers around the difference of the logarithms
  have below : (2 : ℚ) ^ ((num.log2 : ℤ) - den.log2 - 1) ≤ (num : ℚ) / den := by
    rw [le_div_iff₀ hdpos]
    calc (2 : ℚ) ^ ((num.log2 : ℤ) - den.log2 - 1) * den
        ≤ (2 : ℚ) ^ ((num.log2 : ℤ) - den.log2 - 1) * 2 ^ ((den.log2 : ℤ) + 1) := by
          refine mul_le_mul_of_nonneg_left ?_ (by positivity)
          exact_mod_cast hd₂.le
      _ = 2 ^ (num.log2 : ℤ) := by
          rw [← zpow_add₀ two_ne_zero]
          congr 1
          ring
      _ ≤ num := by exact_mod_cast hn₁
  have above : (num : ℚ) / den < (2 : ℚ) ^ ((num.log2 : ℤ) - den.log2 + 1) := by
    rw [div_lt_iff₀ hdpos]
    calc (num : ℚ) < 2 ^ ((num.log2 : ℤ) + 1) := by exact_mod_cast hn₂
      _ = (2 : ℚ) ^ ((num.log2 : ℤ) - den.log2 + 1) * 2 ^ (den.log2 : ℤ) := by
          rw [← zpow_add₀ two_ne_zero]
          congr 1
          ring
      _ ≤ _ := by
          refine mul_le_mul_of_nonneg_left ?_ (by positivity)
          exact_mod_cast hd₁
  unfold binaryExponent
  dsimp only
  -- the guess is right, or too large by one
  split
  next h =>
    have h := (mul_pow_le_iff two_pos hden _).mp h
    exact (log_eq_of_le one_lt_two h (by exact_mod_cast above)).symm
  next h =>
    have h := not_le.mp (mt (mul_pow_le_iff two_pos hden _).mpr h)
    refine (log_eq_of_le one_lt_two (by exact_mod_cast below) ?_).symm
    rwa [Int.sub_add_cancel]

/-- A natural is not below the power of ten with as many digits. -/
theorem pow_length_toDigits_le {n : Nat} (hn : 0 < n) :
    10 ^ ((Nat.toDigits 10 n).length - 1) ≤ n := by
  by_contra hlt
  have hone : 0 < (Nat.toDigits 10 n).length - 1 := by
    by_contra hnone
    rw [Nat.eq_zero_of_not_pos hnone] at hlt
    omega
  have := (Nat.length_toDigits_le_iff (b := 10) (by decide) hone).mpr (not_le.mp hlt)
  omega

/-- The power of ten of a magnitude is not above it. -/
theorem zpow_decimalExponent_le {num den : Nat} (hnum : 0 < num) (hden : 0 < den) :
    (10 : ℚ) ^ decimalExponent num den ≤ (num : ℚ) / den := by
  have hdpos : (0 : ℚ) < den := by exact_mod_cast hden
  have hlow := pow_length_toDigits_le hnum
  have hhigh : den < 10 ^ (Nat.toDigits 10 den).length :=
    (Nat.length_toDigits_le_iff (by decide) Nat.length_toDigits_pos).mp (Nat.le_refl _)
  unfold decimalExponent
  dsimp only
  -- the guess is low enough, or it is lowered by one
  split
  next h => exact_mod_cast (mul_pow_le_iff (b := 10) (by decide) hden _).mp h
  next h =>
    rw [le_div_iff₀ hdpos]
    have hpos : 0 < (Nat.toDigits 10 num).length := Nat.length_toDigits_pos
    calc (10 : ℚ) ^ (((Nat.toDigits 10 num).length : ℤ) - (Nat.toDigits 10 den).length - 1) * den
        ≤ 10 ^ (((Nat.toDigits 10 num).length : ℤ) - (Nat.toDigits 10 den).length - 1) *
            10 ^ ((Nat.toDigits 10 den).length : ℤ) := by
          refine mul_le_mul_of_nonneg_left ?_ (by positivity)
          exact_mod_cast hhigh.le
      _ = 10 ^ (((Nat.toDigits 10 num).length - 1 : Nat) : ℤ) := by
          rw [← zpow_add₀ (by norm_num)]
          congr 1
          omega
      _ ≤ num := by exact_mod_cast hlow

/-! ## Ranks -/

theorem rankOfRatio_zero (den : Nat) : rankOfRatio 0 den = 0 := if_pos rfl

/-- **Equal quotients round alike.** -/
theorem rankOfRatio_congr {num den num' den' : Nat} (hden : 0 < den) (hden' : 0 < den')
    (h : num * den' = num' * den) : rankOfRatio num den = rankOfRatio num' den' := by
  -- both are the rank of the quotient over the product of the denominators
  have scaled : ∀ num den k : Nat, 0 < den → 0 < k →
      rankOfRatio (num * k) (den * k) = rankOfRatio num den := by
    intro num den k hden hk
    by_cases hnum : num = 0
    · rw [hnum, Nat.zero_mul, rankOfRatio_zero, rankOfRatio_zero]
    · have hpos : 0 < num := Nat.pos_of_ne_zero hnum
      have exponent : binaryExponent (num * k) (den * k) = binaryExponent num den := by
        rw [binaryExponent_eq hpos hden, binaryExponent_eq (Nat.mul_pos hpos hk)
          (Nat.mul_pos hden hk), Nat.cast_mul, Nat.cast_mul, mul_div_mul_right]
        exact_mod_cast hk.ne'
      unfold rankOfRatio
      rw [if_neg hnum, if_neg (Nat.mul_ne_zero hnum hk.ne')]
      dsimp only
      rw [exponent, Nat.mul_right_comm num k, Nat.mul_right_comm den k, roundHalfEven_mul _ _ hk]
  rw [← scaled num den den' hden hden', h, Nat.mul_comm den, scaled num' den' den hden' hden]

/-- The unit in which the magnitude with this rank is written. -/
def unit (rank : Nat) : ℚ := 2 ^ ((place rank : ℤ) - 1075)

/-- The magnitude with this rank. -/
def magnitude (rank : Nat) : ℚ := mantissa rank * unit rank

theorem unit_pos (rank : Nat) : 0 < unit rank := natCast_zpow_pos two_pos _

theorem ratio_eq_magnitude (rank : Nat) :
    ((ratio rank).1 : ℚ) / (ratio rank).2 = magnitude rank := by
  unfold ratio magnitude unit
  split
  next h =>
    have he : (place rank : ℤ) - 1075 = -((1075 - place rank : Nat) : ℤ) := by omega
    rw [he, zpow_neg, zpow_natCast, Nat.pow_eq]
    push_cast
    rw [div_eq_mul_inv]
  next h =>
    have he : (place rank : ℤ) - 1075 = ((place rank - 1075 : Nat) : ℤ) := by omega
    rw [he, zpow_natCast, Nat.pow_eq]
    push_cast
    rw [div_one]

theorem mantissa_lt (rank : Nat) : mantissa rank < 2 ^ 53 := by
  unfold mantissa
  have : rank % Nat.pow 2 52 < Nat.pow 2 52 := Nat.mod_lt _ (by decide)
  simp only [Nat.pow_eq] at this ⊢
  split
  next h => exact ((Nat.div_eq_zero_iff_lt (by positivity)).mp h).trans (by decide)
  next => omega

/-- Only the doubles with the least exponent have a small mantissa. -/
theorem le_mantissa_or (rank : Nat) : 2 ^ 52 ≤ mantissa rank ∨ place rank = 1 := by
  unfold mantissa place
  split
  next h =>
    rw [h]
    exact .inr rfl
  next => exact .inl (Nat.le_add_right _ _)

theorem one_le_place (rank : Nat) : 1 ≤ place rank := Nat.le_max_right _ _

theorem mantissa_pos {rank : Nat} (h : rank ≠ 0) : 0 < mantissa rank := by
  unfold mantissa
  split
  · exact Nat.pos_of_ne_zero h
  · exact Nat.add_pos_left (by decide) _

/-- A rank from its place and its mantissa. -/
theorem rank_eq (rank : Nat) : (place rank - 1) * 2 ^ 52 + mantissa rank = rank := by
  have hdiv : 2 ^ 52 * (rank / 2 ^ 52) + rank % 2 ^ 52 = rank := Nat.div_add_mod rank (2 ^ 52)
  unfold mantissa place
  simp only [Nat.pow_eq]
  split
  next h => rw [h, Nat.zero_max, Nat.sub_self, Nat.zero_mul, Nat.zero_add]
  next h =>
    rw [Nat.max_eq_left (Nat.one_le_iff_ne_zero.mpr h), Nat.sub_mul]
    have : 2 ^ 52 ≤ rank / 2 ^ 52 * 2 ^ 52 :=
      Nat.le_mul_of_pos_left _ (Nat.pos_of_ne_zero h)
    omega

/-- A quotient that is positive has a positive numerator. -/
theorem pos_of_quotient_pos {num den : Nat} (h : 0 < (num : ℚ) / den) : 0 < num := by
  rcases Nat.eq_zero_or_pos num with rfl | hpos
  · simp at h
  · exact hpos

section

variable {num den rank : Nat} (hrank : rank ≠ 0) (hden : 0 < den)
  (hlow : magnitude rank - unit rank / 2 < (num : ℚ) / den)
  (hhigh : (num : ℚ) / den < magnitude rank + unit rank / 2)
  (hpower : mantissa rank = 2 ^ 52 → magnitude rank ≤ (num : ℚ) / den)

include hrank hlow

/-- What lies near a double is positive. -/
theorem quotient_pos_of_near : 0 < (num : ℚ) / den := by
  have hu := unit_pos rank
  have hm : (1 : ℚ) ≤ mantissa rank := by exact_mod_cast mantissa_pos hrank
  refine lt_of_le_of_lt ?_ hlow
  unfold magnitude
  nlinarith

include hden hhigh hpower

/-- Its exponent is that of the double. -/
theorem exponent_of_near :
    max (-1074) (binaryExponent num den - 52) = (place rank : ℤ) - 1075 := by
  have hu := unit_pos rank
  have hq := quotient_pos_of_near hrank hlow
  have upper : (num : ℚ) / den < 2 ^ ((place rank : ℤ) - 1075 + 53) := by
    have hlt : (mantissa rank : ℚ) + 1 ≤ 2 ^ 53 := by exact_mod_cast mantissa_lt rank
    refine hhigh.trans_le ?_
    rw [zpow_add₀ two_ne_zero]
    calc magnitude rank + unit rank / 2 ≤ (mantissa rank + 1) * unit rank := by
          unfold magnitude
          linarith
      _ ≤ 2 ^ 53 * unit rank := mul_le_mul_of_nonneg_right hlt hu.le
      _ = unit rank * 2 ^ (53 : ℤ) := mul_comm _ _
  rw [binaryExponent_eq (pos_of_quotient_pos hq) hden]
  have below := (Int.lt_zpow_iff_log_lt one_lt_two hq).mp upper
  -- a full mantissa fixes the exponent from below, and the smallest exponent cannot be lowered
  rcases le_mantissa_or rank with hle | hone
  · have lower : (2 : ℚ) ^ ((place rank : ℤ) - 1075 + 52) ≤ (num : ℚ) / den := by
      have hle' : (2 : ℚ) ^ (52 : ℤ) ≤ mantissa rank := by exact_mod_cast hle
      rw [zpow_add₀ two_ne_zero]
      -- below a power of two the doubles are denser, so there the quotient must not be smaller
      by_cases hp : mantissa rank = 2 ^ 52
      · refine le_trans ?_ (hpower hp)
        rw [mul_comm]
        exact mul_le_mul_of_nonneg_right hle' hu.le
      · have hmore : (2 : ℚ) ^ (52 : ℤ) + 1 ≤ mantissa rank := by
          exact_mod_cast Nat.lt_of_le_of_ne hle (Ne.symm hp)
        refine le_trans ?_ hlow.le
        unfold magnitude
        have := mul_le_mul_of_nonneg_right hmore hu.le
        rw [mul_comm]
        show 2 ^ (52 : ℤ) * unit rank ≤ _
        linarith
    have above := (Int.zpow_le_iff_le_log one_lt_two hq).mp lower
    have := one_le_place rank
    omega
  · rw [hone] at below ⊢
    omega

omit hrank hpower in
/-- In units of the double it is less than half away from the mantissa, so it is rounded to that. -/
theorem roundHalfEven_of_near :
    roundHalfEven (num * Nat.pow 2 (-((place rank : ℤ) - 1075)).toNat)
      (den * Nat.pow 2 ((place rank : ℤ) - 1075).toNat) = mantissa rank := by
  have hu := unit_pos rank
  have scaled := quotient_scaled two_pos num den ((place rank : ℤ) - 1075)
  have hdpos : 0 < den * Nat.pow 2 ((place rank : ℤ) - 1075).toNat :=
    Nat.mul_pos hden (Nat.two_pow_pos _)
  generalize num * Nat.pow 2 (-((place rank : ℤ) - 1075)).toNat = n at scaled ⊢
  generalize den * Nat.pow 2 ((place rank : ℤ) - 1075).toNat = d at scaled hdpos ⊢
  have hd : (0 : ℚ) < d := by exact_mod_cast hdpos
  have hdiv : (n : ℚ) = (num : ℚ) / den / unit rank * d :=
    (div_eq_iff hd.ne').mp (by exact_mod_cast scaled)
  have hlow' : (mantissa rank : ℚ) - 1 / 2 < (num : ℚ) / den / unit rank := by
    rw [lt_div_iff₀ hu]
    unfold magnitude at hlow
    linarith
  have hhigh' : (num : ℚ) / den / unit rank < mantissa rank + 1 / 2 := by
    rw [div_lt_iff₀ hu]
    unfold magnitude at hhigh
    linarith
  refine roundHalfEven_eq hdpos ?_ ?_
  · have := mul_lt_mul_of_pos_right hlow' hd
    rw [← hdiv] at this
    have : (2 : ℚ) * mantissa rank * d < 2 * n + d := by linarith
    exact_mod_cast this
  · have := mul_lt_mul_of_pos_right hhigh' hd
    rw [← hdiv] at this
    have : (2 : ℚ) * n < (2 * mantissa rank + 1) * d := by linarith
    exact_mod_cast this

/-- **What lies near a double rounds to it.** Near is less than half a unit away, and below a power
of two, where the unit is smaller, nothing is near. -/
theorem rankOfRatio_eq : rankOfRatio num den = rank := by
  have hq := quotient_pos_of_near hrank hlow
  unfold rankOfRatio
  rw [if_neg (pos_of_quotient_pos hq).ne']
  dsimp only
  rw [exponent_of_near hrank hden hlow hhigh hpower, roundHalfEven_of_near hden hlow hhigh]
  have hplace : ((place rank : ℤ) - 1075 + 1074).toNat = place rank - 1 := by
    have := one_le_place rank
    omega
  rw [hplace]
  exact rank_eq rank

end

/-- What is less than half of the least double rounds to zero. -/
theorem rankOfRatio_eq_zero {num den : Nat} (hnum : 0 < num) (hden : 0 < den)
    (h : (num : ℚ) / den < 2 ^ (-1075 : ℤ)) : rankOfRatio num den = 0 := by
  have hdpos : (0 : ℚ) < den := by exact_mod_cast hden
  have hq : 0 < (num : ℚ) / den := div_pos (by exact_mod_cast hnum) hdpos
  -- the quotient is below every exponent, so it gets the smallest one
  have exponent : max (-1074) (binaryExponent num den - 52) = -1074 := by
    rw [binaryExponent_eq hnum hden]
    have := (Int.lt_zpow_iff_log_lt one_lt_two hq).mp h
    omega
  unfold rankOfRatio
  rw [if_neg hnum.ne']
  dsimp only
  rw [exponent]
  have scaled := quotient_scaled two_pos num den (-1074)
  have hpos : 0 < den * Nat.pow 2 (-1074 : ℤ).toNat := Nat.mul_pos hden (Nat.two_pow_pos _)
  generalize num * Nat.pow 2 (- -1074 : ℤ).toNat = n at scaled ⊢
  generalize den * Nat.pow 2 (-1074 : ℤ).toNat = d at scaled hpos ⊢
  have hd : (0 : ℚ) < d := by exact_mod_cast hpos
  -- in units of the smallest double it is less than a half
  have half : (n : ℚ) / d < 1 / 2 := by
    rw [scaled, div_lt_iff₀ (by positivity)]
    refine h.trans_le (le_of_eq ?_)
    rw [show (-1075 : ℤ) = -1 + -1074 by decide, zpow_add₀ two_ne_zero, zpow_neg_one,
      one_div, Nat.cast_ofNat]
  have small : 2 * n < d := by
    rw [div_lt_iff₀ hd] at half
    have : (2 : ℚ) * n < d := by linarith
    exact_mod_cast this
  rw [roundHalfEven_eq (m := 0) hpos (by omega) (by omega)]
  rfl

theorem le_roundHalfEven (num den : Nat) : num / den ≤ roundHalfEven num den := by
  unfold roundHalfEven
  dsimp only
  split_ifs <;> omega

/-- What is not below `2^1024` rounds to no double. -/
theorem infinityRank_le_rankOfRatio {num den : Nat} (hden : 0 < den)
    (h : (2 : ℚ) ^ (1024 : ℤ) ≤ (num : ℚ) / den) : infinityRank ≤ rankOfRatio num den := by
  have hdpos : (0 : ℚ) < den := by exact_mod_cast hden
  have hq : 0 < (num : ℚ) / den := lt_of_lt_of_le (by positivity) h
  have hnum : 0 < num := pos_of_quotient_pos hq
  have large := (Int.zpow_le_iff_le_log one_lt_two hq).mp h
  have below := Int.zpow_log_le_self one_lt_two hq
  unfold rankOfRatio
  rw [if_neg hnum.ne']
  dsimp only
  rw [binaryExponent_eq hnum hden]
  generalize Int.log 2 ((num : ℚ) / den) = e at large below ⊢
  have exponent : max (-1074) (e - 52) = e - 52 := by omega
  rw [exponent]
  have scaled := quotient_scaled two_pos num den (e - 52)
  have hpos : 0 < den * Nat.pow 2 (e - 52).toNat := Nat.mul_pos hden (Nat.two_pow_pos _)
  have digits := le_roundHalfEven (num * Nat.pow 2 (-(e - 52)).toNat)
    (den * Nat.pow 2 (e - 52).toNat)
  generalize num * Nat.pow 2 (-(e - 52)).toNat = n at scaled digits ⊢
  generalize den * Nat.pow 2 (e - 52).toNat = d at scaled hpos digits ⊢
  -- the mantissa is full, so that the place alone reaches infinity
  have full : 2 ^ 52 ≤ n / d := by
    rw [Nat.le_div_iff_mul_le hpos]
    have hd : (0 : ℚ) < d := by exact_mod_cast hpos
    have : (2 : ℚ) ^ 52 ≤ (n : ℚ) / d := by
      rw [scaled, le_div_iff₀ (by positivity)]
      refine le_trans (le_of_eq ?_) below
      have split : e = 52 + (e - 52) := by omega
      conv_rhs => rw [split, zpow_add₀ (by norm_num)]
      norm_cast
    rw [le_div_iff₀ hd] at this
    exact_mod_cast this
  have place : 2046 ≤ (e - 52 + 1074).toNat := by omega
  have := Nat.mul_le_mul_right (2 ^ 52) place
  simp only [infinityRank, Nat.pow_eq]
  omega

/-! ## Grids -/

/-- The number that a numeral denotes. -/
def numeral (digits : Nat) (exponent : ℤ) : ℚ := digits * 10 ^ exponent

theorem quotient_numeral (digits : Nat) (exponent : ℤ) :
    ((digits * Nat.pow 10 exponent.toNat : Nat) : ℚ) / (Nat.pow 10 (-exponent).toNat : Nat) =
      numeral digits exponent := by
  have power := pow_div_pow_toNat (b := 10) (by decide) exponent
  unfold numeral
  push_cast [Nat.pow_eq] at power ⊢
  rw [mul_div_assoc, power]

theorem readsBack_iff {rank digits : Nat} {exponent : ℤ} :
    readsBack rank digits exponent = true ↔
      rankOfRatio (digits * Nat.pow 10 exponent.toNat) (Nat.pow 10 (-exponent).toNat) = rank :=
  beq_iff_eq

/-- One of the two neighbours of a double on a fine grid reads back. -/
theorem readsBack_neighbour {rank : Nat} (hrank : rank ≠ 0) {exponent : ℤ} {low : Nat}
    (hfine : 10 ^ exponent * 10 ^ 16 ≤ magnitude rank)
    (hlow : numeral low exponent ≤ magnitude rank)
    (hhigh : magnitude rank < numeral (low + 1) exponent) :
    readsBack rank low exponent = true ∨ readsBack rank (low + 1) exponent = true := by
  have hs : (0 : ℚ) < 10 ^ exponent := zpow_pos (by norm_num) _
  have hu := unit_pos rank
  have hden : 0 < Nat.pow 10 (-exponent).toNat := Nat.pow_pos (by decide)
  have next : numeral (low + 1) exponent = numeral low exponent + 10 ^ exponent := by
    unfold numeral
    push_cast
    ring
  simp only [readsBack_iff]
  by_cases hpower : mantissa rank = 2 ^ 52
  · -- here the grid is so fine that the upper neighbour is near
    have fine : (10 : ℚ) ^ exponent < unit rank / 2 := by
      have : magnitude rank = 2 ^ 52 * unit rank := by
        unfold magnitude
        rw [hpower]
        norm_cast
      rw [this] at hfine
      nlinarith
    refine .inr (rankOfRatio_eq hrank hden ?_ ?_ fun _ => ?_) <;> rw [quotient_numeral]
    · linarith
    · rw [next]
      linarith
    · exact hhigh.le
  · have fine : (10 : ℚ) ^ exponent < unit rank := by
      have hm : (mantissa rank : ℚ) < 2 ^ 53 := by exact_mod_cast mantissa_lt rank
      unfold magnitude at hfine
      nlinarith
    -- otherwise the lower neighbour is read back if it is within half a unit, and else the upper
    -- one
    by_cases near : magnitude rank - unit rank / 2 < numeral low exponent
    · refine .inl (rankOfRatio_eq hrank hden ?_ ?_ fun h => absurd h hpower) <;>
        rw [quotient_numeral]
      · exact near
      · linarith
    · refine .inr (rankOfRatio_eq hrank hden ?_ ?_ fun h => absurd h hpower) <;>
        rw [quotient_numeral]
      · linarith
      · rw [next]
        linarith

theorem exists_onGrid {rank : Nat} (hrank : rank ≠ 0) {exponent : ℤ}
    (hfine : 10 ^ exponent * 10 ^ 16 ≤ magnitude rank) :
    ∃ digits, onGrid rank (ratio rank).1 (ratio rank).2 exponent = some digits := by
  have hs : (0 : ℚ) < 10 ^ exponent := zpow_pos (by norm_num) _
  have scaled := quotient_scaled (b := 10) (by decide) (ratio rank).1 (ratio rank).2 exponent
  have hpos : 0 < (ratio rank).2 * Nat.pow 10 exponent.toNat :=
    Nat.mul_pos (ratio_den_pos rank) (Nat.pow_pos (by decide))
  rw [ratio_eq_magnitude] at scaled
  unfold onGrid
  dsimp only
  generalize (ratio rank).1 * Nat.pow 10 (-exponent).toNat = n at scaled ⊢
  generalize (ratio rank).2 * Nat.pow 10 exponent.toNat = d at scaled hpos ⊢
  have hd : (0 : ℚ) < d := by exact_mod_cast hpos
  -- the quotient lies between two neighbours of the grid
  have below : numeral (n / d) exponent ≤ magnitude rank := by
    unfold numeral
    rw [← le_div_iff₀ hs]
    have : (n : ℚ) / d = magnitude rank / 10 ^ exponent := by exact_mod_cast scaled
    rw [← this, le_div_iff₀ hd]
    exact_mod_cast Nat.div_mul_le_self n d
  have above : magnitude rank < numeral (n / d + 1) exponent := by
    unfold numeral
    rw [← div_lt_iff₀ hs]
    have : (n : ℚ) / d = magnitude rank / 10 ^ exponent := by exact_mod_cast scaled
    rw [← this, div_lt_iff₀ hd]
    exact_mod_cast Nat.lt_mul_of_div_lt (Nat.lt_succ_self _) hpos
  rcases readsBack_neighbour hrank hfine below above with h | h
  · rw [h]
    cases readsBack rank (n / d + 1) exponent with
    | true => exact ⟨_, rfl⟩
    | false => exact ⟨_, rfl⟩
  · rw [h]
    cases readsBack rank (n / d) exponent with
    | true => exact ⟨_, rfl⟩
    | false => exact ⟨_, rfl⟩

theorem readsBack_of_onGrid {rank num den digits : Nat} {exponent : ℤ}
    (h : onGrid rank num den exponent = some digits) : readsBack rank digits exponent = true := by
  unfold onGrid at h
  dsimp only at h
  -- both neighbours are read back, or the lower one alone, or the upper one alone
  split at h
  next hlow hhigh =>
    obtain rfl := Option.some.inj h
    split_ifs
    · exact hlow
    · exact hhigh
    · rcases Nat.mod_two_eq_zero_or_one
        (num * Nat.pow 10 (-exponent).toNat / (den * Nat.pow 10 exponent.toNat)) with hm | hm
      · rw [hm]
        exact hlow
      · rw [hm]
        exact hhigh
  next hlow _ =>
    obtain rfl := Option.some.inj h
    exact hlow
  next _ hhigh =>
    obtain rfl := Option.some.inj h
    exact hhigh
  next => cases h

theorem readsBack_shortestFrom {rank num den : Nat} {top : ℤ} {fuel count : Nat}
    (h : ∃ k < fuel, ∃ digits, onGrid rank num den (top - (count + k : Nat)) = some digits) :
    readsBack rank (shortestFrom rank num den top fuel count).1
      (shortestFrom rank num den top fuel count).2 = true := by
  -- on the fuel; each step adds a digit
  induction fuel generalizing count with
  | zero =>
    obtain ⟨k, hk, -⟩ := h
    exact absurd hk (Nat.not_lt_zero k)
  | succ fuel ih =>
    rw [shortestFrom]
    cases hgrid : onGrid rank num den (top - count) with
    | some digits => exact readsBack_of_onGrid hgrid
    | none =>
      refine ih ?_
      obtain ⟨k, hk, digits, hdigits⟩ := h
      cases k with
      | zero =>
        rw [Nat.add_zero, hgrid] at hdigits
        cases hdigits
      | succ k =>
        refine ⟨k, Nat.lt_of_succ_lt_succ hk, digits, ?_⟩
        rwa [Nat.add_right_comm, Nat.add_assoc]

/-- **Seventeen digits suffice.** The shortest numeral of a double reads back. -/
theorem readsBack_shortest {rank : Nat} (hrank : rank ≠ 0) :
    readsBack rank (shortest rank).1 (shortest rank).2 = true := by
  unfold shortest
  rw [if_neg hrank]
  refine readsBack_shortestFrom ⟨16, by decide, exists_onGrid hrank ?_⟩
  have hnum : 0 < (ratio rank).1 := by
    have := mantissa_pos hrank
    unfold ratio
    split
    · exact this
    · exact Nat.mul_pos this (Nat.two_pow_pos _)
  rw [← ratio_eq_magnitude]
  refine le_trans (le_of_eq ?_) (zpow_decimalExponent_le hnum (ratio_den_pos rank))
  rw [zpow_sub₀ (by norm_num), Nat.zero_add, zpow_natCast]
  exact div_mul_cancel₀ _ (by norm_num)

/-- The doubles end long before the exponents that are not evaluated. -/
theorem two_pow_le_ten_pow : (2 : ℚ) ^ (1089 : ℤ) ≤ 10 ^ (330 : ℤ) := by
  calc (2 : ℚ) ^ (1089 : ℤ) = (2 ^ 99) ^ 11 := by rw [← pow_mul]; rfl
    _ ≤ (10 ^ 30) ^ 11 := pow_le_pow_left₀ (by positivity) (by norm_num) 11
    _ = 10 ^ (330 : ℤ) := by rw [← pow_mul]; rfl

/-- The number of digits says how large a number is at most, -/
theorem numeral_lt (digits : Nat) (exponent : ℤ) :
    numeral digits exponent < 10 ^ (exponent + ((Nat.toDigits 10 digits).length : ℤ)) := by
  have : digits < 10 ^ (Nat.toDigits 10 digits).length :=
    (Nat.length_toDigits_le_iff (by decide) Nat.length_toDigits_pos).mp (Nat.le_refl _)
  rw [zpow_add₀ (by norm_num), mul_comm, zpow_natCast]
  unfold numeral
  exact mul_lt_mul_of_pos_right (by exact_mod_cast this) (by positivity)

/-- and how large at least. -/
theorem le_numeral {digits : Nat} (h : 0 < digits) (exponent : ℤ) :
    (10 : ℚ) ^ (exponent + ((Nat.toDigits 10 digits).length : ℤ) - 1) ≤
      numeral digits exponent := by
  have := pow_length_toDigits_le h
  have hsize : 0 < (Nat.toDigits 10 digits).length := Nat.length_toDigits_pos
  rw [show exponent + ((Nat.toDigits 10 digits).length : ℤ) - 1 =
    (((Nat.toDigits 10 digits).length - 1 : Nat) : ℤ) + exponent by omega,
    zpow_add₀ (by norm_num), zpow_natCast]
  unfold numeral
  exact mul_le_mul_of_nonneg_right (by exact_mod_cast this) (by positivity)

/-- **What reads back is read as the double**, with whatever digits the same number is written. -/
theorem ofDecimal_eq {rank digits digits' : Nat} {exponent exponent' : ℤ} (negative : Bool)
    (hrank : rank ≠ 0) (hfinite : rank < infinityRank)
    (hreads : readsBack rank digits exponent = true)
    (hsame : numeral digits' exponent' = numeral digits exponent) :
    ofDecimal negative digits' exponent' = .finite negative rank hfinite := by
  have hden : ∀ e : ℤ, 0 < Nat.pow 10 (-e).toNat := fun e => Nat.pow_pos (by decide)
  -- equal numerals have equal quotients, and so one rank
  have reads : rankOfRatio (digits' * Nat.pow 10 exponent'.toNat)
      (Nat.pow 10 (-exponent').toNat) = rank := by
    rw [← readsBack_iff.mp hreads]
    refine rankOfRatio_congr (hden _) (hden _) ?_
    have hq := (quotient_numeral digits' exponent').trans
      (hsame.trans (quotient_numeral digits exponent).symm)
    rw [div_eq_div_iff (by exact_mod_cast (hden _).ne') (by exact_mod_cast (hden _).ne')] at hq
    exact_mod_cast hq
  have hne : digits' ≠ 0 := by
    rintro rfl
    rw [Nat.zero_mul, rankOfRatio_zero] at reads
    exact hrank reads.symm
  have hnum : 0 < digits' * Nat.pow 10 exponent'.toNat :=
    Nat.mul_pos (Nat.pos_of_ne_zero hne) (Nat.pow_pos (by decide))
  have atMost := numeral_lt digits' exponent'
  have atLeast := le_numeral (Nat.pos_of_ne_zero hne) exponent'
  -- a number that is cut off as too small would have been read as zero
  have notSmall : ¬ exponent' + ((Nat.toDigits 10 digits').length : ℤ) < -330 := by
    intro hsmall
    refine hrank (reads.symm.trans (rankOfRatio_eq_zero hnum (hden _) ?_))
    rw [quotient_numeral]
    refine atMost.trans_le ((zpow_le_zpow_right₀ (by norm_num) hsmall.le).trans ?_)
    rw [zpow_neg, zpow_neg]
    refine inv_anti₀ (by positivity) (le_trans ?_ two_pow_le_ten_pow)
    exact zpow_le_zpow_right₀ one_le_two (by decide)
  -- a number that is cut off as too large would have been read as infinite
  have notLarge : ¬ 330 < exponent' + ((Nat.toDigits 10 digits').length : ℤ) := by
    intro hlarge
    refine absurd hfinite (not_lt.mpr (reads ▸ infinityRank_le_rankOfRatio (hden _) ?_))
    rw [quotient_numeral]
    refine le_trans ?_ ((zpow_le_zpow_right₀ (by norm_num) (Int.le_sub_one_of_lt hlarge)).trans
      atLeast)
    exact (zpow_le_zpow_right₀ one_le_two (by decide)).trans two_pow_le_ten_pow
  unfold ofDecimal
  dsimp only
  rw [if_neg (by simp [hne, notSmall]), if_neg notLarge, ofRatio, reads, ofRank, dif_pos hfinite]

end SqlScribe.Double
