import Mathlib.Algebra.Order.Field.Power
import Mathlib.Algebra.Order.Field.Rat
import Mathlib.Tactic.Positivity
import Mathlib.Tactic.Ring
import ThrowCatch.Number.Double

/-!
Rounding of quotients to double-precision numbers. Rounding does not pass over
a number: a quotient that is at most `m * 2 ^ e`, with a mantissa and an
exponent that a double-precision number can have, is rounded to a finite
number that is at most `m * 2 ^ e` as well. One from `2 ^ 1024` on is rounded
to an infinity.
-/

namespace ThrowCatch.Double

/-- What is rounded to at most `q` lies below the middle between `q` and the
next integer, or in the middle when `q` is even. -/
theorem roundDiv_le_iff {n d q : Nat} (hd : 0 < d) :
    roundDiv n d ≤ q ↔
      2 * n < (2 * q + 1) * d ∨ 2 * n = (2 * q + 1) * d ∧ q % 2 = 0 := by
  have hsplit : d * (n / d) + n % d = n := Nat.div_add_mod n d
  have hrest : n % d < d := Nat.mod_lt n hd
  rcases Nat.lt_trichotomy q (n / d) with hlt | rfl | hgt
  · have hbelow : d * (q + 1) ≤ d * (n / d) := Nat.mul_le_mul_left d hlt
    have hno : ¬ roundDiv n d ≤ q := by
      unfold roundDiv
      dsimp only
      split_ifs <;> omega
    have hlow : (2 * q + 1) * d < 2 * (d * (q + 1)) := by
      rw [show 2 * (d * (q + 1)) = (2 * q + 1) * d + d by ring]
      omega
    constructor
    · exact fun h => absurd h hno
    · rintro (h | ⟨h, -⟩) <;> omega
  · have hmiddle : (2 * (n / d) + 1) * d = 2 * (d * (n / d)) + d := by ring
    unfold roundDiv
    dsimp only
    split_ifs <;> omega
  · have habove : d * (n / d + 1) ≤ d * q := Nat.mul_le_mul_left d hgt
    have hyes : roundDiv n d ≤ q := by
      unfold roundDiv
      dsimp only
      split_ifs <;> omega
    have hhigh : 2 * n < (2 * q + 1) * d := by
      rw [show (2 * q + 1) * d = 2 * (d * q) + d by ring]
      rw [Nat.mul_add, Nat.mul_one] at habove
      omega
    exact ⟨fun _ => .inl hhigh, fun _ => hyes⟩

theorem roundDiv_le {n d q : Nat} (hd : 0 < d) (h : n ≤ q * d) : roundDiv n d ≤ q := by
  rw [roundDiv_le_iff hd]
  left
  rw [Nat.add_mul, Nat.mul_assoc, Nat.one_mul]
  omega

theorem scaled_snd_pos (n : Nat) (e : Int) : 0 < (scaled n e).2 := by
  unfold scaled
  split
  · exact Nat.two_pow_pos _
  · exact Nat.one_pos

/-- The two parts are a numerator and a denominator of `n * 2 ^ e`. -/
theorem scaled_fst (n : Nat) (e : Int) :
    ((scaled n e).1 : ℚ) = n * 2 ^ e * (scaled n e).2 := by
  unfold scaled
  split
  case isTrue h =>
    have hpow : (2 : ℚ) ^ e * 2 ^ e.natAbs = 1 := by
      rw [← zpow_natCast, ← zpow_add₀ two_ne_zero, show e + (e.natAbs : Int) = 0 by omega, zpow_zero]
    simp only [Nat.pow_eq, Nat.cast_pow, Nat.cast_ofNat]
    rw [mul_assoc, hpow, mul_one]
  case isFalse h =>
    have hpow : (2 : ℚ) ^ e.natAbs = 2 ^ e := by
      rw [← zpow_natCast, show (e.natAbs : Int) = e by omega]
    simp only [Nat.pow_eq, Nat.cast_mul, Nat.cast_pow, Nat.cast_ofNat, Nat.cast_one, mul_one, hpow]

theorem scaled_fst_pos {den : Nat} (hden : 0 < den) (e : Int) : 0 < (scaled den e).1 := by
  have hpos : (0 : ℚ) < (scaled den e).1 := by
    have hsnd : (0 : ℚ) < (scaled den e).2 := by exact_mod_cast scaled_snd_pos den e
    rw [scaled_fst]
    positivity
  exact_mod_cast hpos

theorem two_zpow_binaryExponent_le {num den : Nat} (hnum : 0 < num) :
    (2 : ℚ) ^ binaryExponent num den * den ≤ num := by
  unfold binaryExponent
  dsimp only
  have hfst := scaled_fst den ((num.log2 : Int) - den.log2)
  have hsnd : (0 : ℚ) < (scaled den ((num.log2 : Int) - den.log2)).2 := by
    exact_mod_cast scaled_snd_pos den _
  split
  case isTrue h =>
    have hle : (den : ℚ) * 2 ^ ((num.log2 : Int) - den.log2) ≤ num := by
      rw [← mul_le_mul_iff_left₀ hsnd, ← hfst]
      exact_mod_cast h
    rwa [mul_comm]
  case isFalse h =>
    -- the estimate by the lengths of the two numbers is off by one at most
    have hden : (den : ℚ) ≤ 2 ^ ((den.log2 : Int) + 1) := by
      rw [show (den.log2 : Int) + 1 = ((den.log2 + 1 : Nat) : Int) by omega, zpow_natCast]
      exact_mod_cast Nat.lt_log2_self.le
    have hnum : (2 : ℚ) ^ (num.log2 : Int) ≤ num := by
      rw [zpow_natCast]
      exact_mod_cast Nat.log2_self_le hnum.ne'
    calc (2 : ℚ) ^ ((num.log2 : Int) - den.log2 - 1) * den
        ≤ 2 ^ ((num.log2 : Int) - den.log2 - 1) * 2 ^ ((den.log2 : Int) + 1) := by
          exact mul_le_mul_of_nonneg_left hden (by positivity)
      _ = 2 ^ (num.log2 : Int) := by
          rw [← zpow_add₀ two_ne_zero]
          congr 1
          ring
      _ ≤ num := hnum

theorem lt_two_zpow_binaryExponent {num den : Nat} (hden : 0 < den) :
    (num : ℚ) < 2 ^ (binaryExponent num den + 1) * den := by
  unfold binaryExponent
  dsimp only
  have hfst := scaled_fst den ((num.log2 : Int) - den.log2)
  have hsnd : (0 : ℚ) < (scaled den ((num.log2 : Int) - den.log2)).2 := by
    exact_mod_cast scaled_snd_pos den _
  split
  case isTrue =>
    have hnum : (num : ℚ) < 2 ^ ((num.log2 : Int) + 1) := by
      rw [show (num.log2 : Int) + 1 = ((num.log2 + 1 : Nat) : Int) by omega, zpow_natCast]
      exact_mod_cast Nat.lt_log2_self
    have hden : (2 : ℚ) ^ (den.log2 : Int) ≤ den := by
      rw [zpow_natCast]
      exact_mod_cast Nat.log2_self_le hden.ne'
    calc (num : ℚ) < 2 ^ ((num.log2 : Int) + 1) := hnum
      _ = 2 ^ ((num.log2 : Int) - den.log2 + 1) * 2 ^ (den.log2 : Int) := by
          rw [← zpow_add₀ two_ne_zero]
          congr 1
          ring
      _ ≤ 2 ^ ((num.log2 : Int) - den.log2 + 1) * den := by
          exact mul_le_mul_of_nonneg_left hden (by positivity)
  case isFalse h =>
    rw [sub_add_cancel, mul_comm, ← mul_lt_mul_iff_left₀ hsnd, ← hfst]
    exact_mod_cast not_le.mp h

/-- The exponent of the last place that is kept of a quotient. -/
def place (num den : Nat) : Int := max (binaryExponent num den - 52) (-1074)

/-- A quotient as a number of units in its last place. -/
def units (num den : Nat) : Nat :=
  roundDiv (num * (scaled den (place num den)).2) (scaled den (place num den)).1

/-- Rounding by units: a number of them that needs one bit too many is halved,
and its last place moves up. -/
theorem ofQuotient_eq (negative : Bool) {num : Nat} (hnum : num ≠ 0) (den : Nat) :
    ofQuotient negative num den =
      if units num den = 2 ^ 53 then
        if 971 < place num den + 1 then .infinite negative
        else .finite negative (2 ^ 52) (place num den + 1)
      else if 971 < place num den then .infinite negative
      else .finite negative (units num den) (place num den) := by
  unfold ofQuotient
  rw [if_neg hnum]
  by_cases hfull : units num den = 2 ^ 53
  · rw [if_pos hfull]
    unfold units place at hfull
    simp only [Nat.pow_eq, hfull, if_true]
    rfl
  · rw [if_neg hfull]
    unfold units place at hfull
    simp only [Nat.pow_eq, hfull, if_false]
    rfl

section

variable {num den m : Nat} {e : Int}

/-- A quotient with a given upper bound keeps every place that the bound has. -/
theorem place_le (hnum : 0 < num) (hden : 0 < den) (hm : m < 2 ^ 53) (he : -1074 ≤ e)
    (h : (num : ℚ) ≤ m * 2 ^ e * den) : place num den ≤ e := by
  by_contra hlt
  have hexp : e + 53 ≤ binaryExponent num den := by
    unfold place at hlt
    omega
  have hden : (0 : ℚ) < den := by exact_mod_cast hden
  have hbound : (2 : ℚ) ^ (e + 53) ≤ m * 2 ^ e := by
    rw [← mul_le_mul_iff_left₀ hden]
    calc (2 : ℚ) ^ (e + 53) * den
        ≤ 2 ^ binaryExponent num den * den := by
          exact mul_le_mul_of_nonneg_right (zpow_le_zpow_right₀ one_le_two hexp) hden.le
      _ ≤ num := two_zpow_binaryExponent_le hnum
      _ ≤ m * 2 ^ e * den := h
  have hfits : (2 : ℚ) ^ 53 ≤ m := by
    rw [← mul_le_mul_iff_left₀ (zpow_pos two_pos e : (0 : ℚ) < 2 ^ e)]
    calc (2 : ℚ) ^ 53 * 2 ^ e = 2 ^ (e + 53) := by
          rw [add_comm, zpow_add₀ two_ne_zero]
          rfl
      _ ≤ m * 2 ^ e := hbound
  have hge : 2 ^ 53 ≤ m := by exact_mod_cast hfits
  omega

theorem units_le (hden : 0 < den) (hplace : place num den ≤ e)
    (h : (num : ℚ) ≤ m * 2 ^ e * den) :
    (units num den : ℚ) * 2 ^ place num den ≤ m * 2 ^ e := by
  obtain ⟨k, hk⟩ := Int.le.dest hplace
  have hpow : (2 : ℚ) ^ e = 2 ^ k * 2 ^ place num den := by
    rw [← hk, add_comm, zpow_add₀ two_ne_zero, zpow_natCast]
  have hgrid : num * (scaled den (place num den)).2 ≤
      m * 2 ^ k * (scaled den (place num den)).1 := by
    have hcast : (num : ℚ) * (scaled den (place num den)).2 ≤
        m * 2 ^ k * (scaled den (place num den)).1 := by
      calc (num : ℚ) * (scaled den (place num den)).2
          ≤ m * 2 ^ e * den * (scaled den (place num den)).2 := by
            exact mul_le_mul_of_nonneg_right h (Nat.cast_nonneg _)
        _ = m * 2 ^ k * (scaled den (place num den)).1 := by
            rw [scaled_fst, hpow]
            ring
    exact_mod_cast hcast
  have hunits : (units num den : ℚ) ≤ m * 2 ^ k := by
    exact_mod_cast roundDiv_le (scaled_fst_pos hden _) hgrid
  calc (units num den : ℚ) * 2 ^ place num den
      ≤ m * 2 ^ k * 2 ^ place num den := by
        exact mul_le_mul_of_nonneg_right hunits (by positivity)
    _ = m * 2 ^ e := by rw [hpow, mul_assoc]

/-- A quotient that is not above a number of the format is not rounded above
it. -/
theorem ofQuotient_le (negative : Bool) (hden : 0 < den) (hm : m < 2 ^ 53) (hlow : -1074 ≤ e)
    (hhigh : e ≤ 971) (h : (num : ℚ) ≤ m * 2 ^ e * den) :
    ∃ m' e', ofQuotient negative num den = .finite negative m' e' ∧
      (m' : ℚ) * 2 ^ e' ≤ m * 2 ^ e := by
  rcases Nat.eq_zero_or_pos num with rfl | hnum
  · refine ⟨0, -1074, rfl, ?_⟩
    rw [Nat.cast_zero, zero_mul]
    positivity
  · have hplace := place_le hnum hden hm hlow h
    have hunits := units_le hden hplace h
    rw [ofQuotient_eq negative hnum.ne']
    split
    case isTrue hfull =>
      have hroom : place num den ≤ 970 := by
        by_contra htop
        -- at the greatest place the bound itself has no more than `m` units
        have hsame : place num den = e := by omega
        rw [hsame, mul_le_mul_iff_left₀ (zpow_pos two_pos e)] at hunits
        have hle : units num den ≤ m := by exact_mod_cast hunits
        omega
      rw [if_neg (by omega)]
      refine ⟨_, _, rfl, ?_⟩
      calc ((2 ^ 52 : Nat) : ℚ) * 2 ^ (place num den + 1)
          = units num den * 2 ^ place num den := by
            rw [hfull, zpow_add₀ two_ne_zero, zpow_one]
            push_cast
            ring
        _ ≤ m * 2 ^ e := hunits
    case isFalse =>
      rw [if_neg (by omega)]
      exact ⟨_, _, rfl, hunits⟩

/-- A quotient beyond all numbers of the format is rounded to an infinity. -/
theorem ofQuotient_infinite (negative : Bool) (hden : 0 < den)
    (h : (2 : ℚ) ^ (1024 : Int) * den ≤ num) :
    ofQuotient negative num den = .infinite negative := by
  have hpos : (0 : ℚ) < den := by exact_mod_cast hden
  have hnum : num ≠ 0 := by
    rintro rfl
    have hzero : (0 : ℚ) < 2 ^ (1024 : Int) * den := by positivity
    rw [Nat.cast_zero] at h
    exact absurd (lt_of_lt_of_le hzero h) (lt_irrefl 0)
  have hexp : (1024 : Int) < binaryExponent num den + 1 := by
    rw [← zpow_lt_zpow_iff_right₀ (one_lt_two : (1 : ℚ) < 2), ← mul_lt_mul_iff_left₀ hpos]
    exact lt_of_le_of_lt h (lt_two_zpow_binaryExponent hden)
  have hplace : 971 < place num den := by
    unfold place
    omega
  rw [ofQuotient_eq negative hnum, if_pos hplace,
    if_pos (show 971 < place num den + 1 by omega), ite_self]

end

theorem addHalf_finite (m : Nat) (e : Int) :
    (finite false m e).addHalf =
      ofQuotient false (2 * (scaled m e).1 + (scaled m e).2) (2 * (scaled m e).2) := by
  have hsum : (2 * ((scaled m e).1 : Int) + (scaled m e).2) =
      ((2 * (scaled m e).1 + (scaled m e).2 : Nat) : Int) := by push_cast; rfl
  have hsign : decide (((2 * (scaled m e).1 + (scaled m e).2 : Nat) : Int) < 0) = false := by
    simp only [decide_eq_false_iff_not]
    omega
  simp only [addHalf, quotient?, Bool.false_eq_true, if_false]
  rw [hsum, hsign, Int.natAbs_natCast]

theorem floor?_finite (m : Nat) (e : Int) :
    (finite false m e).floor? = some (((scaled m e).1 / (scaled m e).2 : Nat) : Int) := by
  simp only [floor?, quotient?, Bool.false_eq_true, if_false, Option.map_some]
  rw [Int.fdiv_eq_ediv_of_nonneg _ (Int.natCast_nonneg _), Int.natCast_div]

end ThrowCatch.Double
