import Mathlib.Algebra.Order.Field.Basic
import Mathlib.Data.Rat.Lemmas
import ThrowCatch.Proofs.Rounding

/-!
Rounding and the order of numbers. Seen as a function on the rational numbers
that are not negative, rounding to double precision leaves the numbers of the
format as they are and never changes the order of two numbers.
-/

namespace ThrowCatch.Double

/-! ### Rounding to integers -/

theorem roundDiv_mono {n d n' d' : Nat} (hd : 0 < d) (hd' : 0 < d') (h : n * d' ≤ n' * d) :
    roundDiv n d ≤ roundDiv n' d' := by
  rw [roundDiv_le_iff hd]
  have hself := (roundDiv_le_iff hd' (q := roundDiv n' d')).mp le_rfl
  generalize roundDiv n' d' = q at hself ⊢
  have hscale : (2 * n) * d' ≤ (2 * n') * d := by
    rw [mul_assoc, mul_assoc]
    omega
  rcases hself with hlt | ⟨heq, heven⟩
  · left
    apply Nat.lt_of_mul_lt_mul_right (a := d')
    calc (2 * n) * d' ≤ (2 * n') * d := hscale
      _ < (2 * q + 1) * d' * d := Nat.mul_lt_mul_of_pos_right hlt hd
      _ = (2 * q + 1) * d * d' := by ring
  · have hle : 2 * n ≤ (2 * q + 1) * d := by
      apply Nat.le_of_mul_le_mul_right _ hd'
      rw [heq] at hscale
      calc (2 * n) * d' ≤ (2 * q + 1) * d' * d := hscale
        _ = (2 * q + 1) * d * d' := by ring
    rcases Nat.lt_or_eq_of_le hle with hlt | heq
    · exact .inl hlt
    · exact .inr ⟨heq, heven⟩

theorem le_roundDiv {n d q : Nat} (hd : 0 < d) (h : q * d ≤ n) : q ≤ roundDiv n d := by
  have hquotient : q ≤ n / d := (Nat.le_div_iff_mul_le hd).mpr h
  unfold roundDiv
  dsimp only
  split_ifs <;> omega

/-! ### Rounding to the places that are kept -/

/-- A quotient, rounded to its last place. -/
def rounded (num den : Nat) : ℚ := units num den * 2 ^ place num den

section

variable {num den num' den' m : Nat} {e : Int}

theorem rounded_zero (hden : 0 < den) : rounded 0 den = 0 := by
  have hzero : units 0 den ≤ 0 := by
    apply roundDiv_le (scaled_fst_pos hden _)
    simp
  simp [rounded, Nat.le_zero.mp hzero]

theorem rounded_nonneg : 0 ≤ rounded num den := by
  unfold rounded
  positivity

/-- The value of a rounded quotient. -/
theorem rounded_of_ofQuotient {negative : Bool} (hden : 0 < den)
    (h : ofQuotient negative num den = .finite negative m e) :
    (m : ℚ) * 2 ^ e = rounded num den := by
  rcases Nat.eq_zero_or_pos num with rfl | hnum
  · rw [rounded_zero hden]
    simp [ofQuotient, zero] at h
    simp [← h.1]
  · rw [ofQuotient_eq negative hnum.ne'] at h
    split_ifs at h with hfull hhigh hhigh
    · simp only [finite.injEq, true_and] at h
      rw [← h.1, ← h.2, rounded, hfull, zpow_add₀ two_ne_zero, zpow_one]
      push_cast
      ring
    · simp only [finite.injEq, true_and] at h
      rw [← h.1, ← h.2, rounded]

/-- Rounding does not pass over a number of the format, downwards. -/
theorem rounded_le (hden : 0 < den) (hm : m < 2 ^ 53) (he : -1074 ≤ e)
    (h : (num : ℚ) ≤ m * 2 ^ e * den) : rounded num den ≤ m * 2 ^ e := by
  rcases Nat.eq_zero_or_pos num with rfl | hnum
  · rw [rounded_zero hden]
    positivity
  · exact units_le hden (place_le hnum hden hm he h) h

theorem le_units (hden : 0 < den) (hplace : place num den ≤ e)
    (h : (m : ℚ) * 2 ^ e * den ≤ num) : (m : ℚ) * 2 ^ e ≤ rounded num den := by
  obtain ⟨k, hk⟩ := Int.le.dest hplace
  have hpow : (2 : ℚ) ^ e = 2 ^ k * 2 ^ place num den := by
    rw [← hk, add_comm, zpow_add₀ two_ne_zero, zpow_natCast]
  have hgrid : m * 2 ^ k * (scaled den (place num den)).1 ≤
      num * (scaled den (place num den)).2 := by
    have hcast : (m : ℚ) * 2 ^ k * (scaled den (place num den)).1 ≤
        num * (scaled den (place num den)).2 := by
      calc (m : ℚ) * 2 ^ k * (scaled den (place num den)).1
          = m * 2 ^ e * den * (scaled den (place num den)).2 := by
            rw [scaled_fst, hpow]
            ring
        _ ≤ num * (scaled den (place num den)).2 :=
            mul_le_mul_of_nonneg_right h (Nat.cast_nonneg _)
    exact_mod_cast hcast
  have hunits : (m : ℚ) * 2 ^ k ≤ units num den := by
    exact_mod_cast le_roundDiv (scaled_fst_pos hden _) hgrid
  calc (m : ℚ) * 2 ^ e = m * 2 ^ k * 2 ^ place num den := by rw [hpow, mul_assoc]
    _ ≤ rounded num den := mul_le_mul_of_nonneg_right hunits (by positivity)

/-- A quotient whose last place is above the least has 53 bits before it. -/
theorem two_zpow_place_le (hnum : 0 < num) (hplace : -1074 < place num den) :
    ((2 ^ 52 : Nat) : ℚ) * 2 ^ place num den * den ≤ num := by
  have hexp : binaryExponent num den = 52 + place num den := by
    unfold place at hplace ⊢
    omega
  have hle : (2 : ℚ) ^ binaryExponent num den * den ≤ num := two_zpow_binaryExponent_le hnum
  rw [hexp, zpow_add₀ two_ne_zero] at hle
  exact_mod_cast hle

/-- Rounding does not pass over a number of the format, upwards. -/
theorem le_rounded (hden : 0 < den) (hm : m < 2 ^ 53) (he : -1074 ≤ e)
    (h : (m : ℚ) * 2 ^ e * den ≤ num) : (m : ℚ) * 2 ^ e ≤ rounded num den := by
  rcases le_or_gt (place num den) e with hplace | hplace
  · exact le_units hden hplace h
  · -- the number of the format lies below the least number with that many places
    rcases Nat.eq_zero_or_pos num with rfl | hnum
    · have hzero : (m : ℚ) * 2 ^ e ≤ 0 := by
        rw [Nat.cast_zero] at h
        exact nonpos_of_mul_nonpos_left h (by exact_mod_cast hden)
      exact hzero.trans rounded_nonneg
    · have hbits : (m : ℚ) ≤ 2 ^ 53 := by exact_mod_cast hm.le
      calc (m : ℚ) * 2 ^ e ≤ 2 ^ 53 * 2 ^ e :=
            mul_le_mul_of_nonneg_right hbits (by positivity)
        _ = 2 ^ 52 * 2 ^ (e + 1) := by
            rw [zpow_add₀ two_ne_zero, zpow_one]
            ring
        _ ≤ 2 ^ 52 * 2 ^ place num den := by
            apply mul_le_mul_of_nonneg_left _ (by positivity)
            exact zpow_le_zpow_right₀ one_le_two hplace
        _ ≤ rounded num den := by
            have hleast := le_units hden le_rfl (two_zpow_place_le hnum (by omega))
            exact_mod_cast hleast

theorem place_mono (hnum : 0 < num) (hden : 0 < den) (hden' : 0 < den')
    (h : num * den' ≤ num' * den) : place num den ≤ place num' den' := by
  have hpos : (0 : ℚ) < den * den' := by exact_mod_cast Nat.mul_pos hden hden'
  have hlt : (2 : ℚ) ^ binaryExponent num den < 2 ^ (binaryExponent num' den' + 1) := by
    rw [← mul_lt_mul_iff_left₀ hpos]
    calc (2 : ℚ) ^ binaryExponent num den * (den * den')
        = 2 ^ binaryExponent num den * den * den' := by ring
      _ ≤ num * den' := by
          exact mul_le_mul_of_nonneg_right (two_zpow_binaryExponent_le hnum) (Nat.cast_nonneg _)
      _ ≤ num' * den := by exact_mod_cast h
      _ < 2 ^ (binaryExponent num' den' + 1) * den' * den := by
          apply mul_lt_mul_of_pos_right (lt_two_zpow_binaryExponent hden')
          exact_mod_cast hden
      _ = 2 ^ (binaryExponent num' den' + 1) * (den * den') := by ring
  have hexp := (zpow_lt_zpow_iff_right₀ (one_lt_two : (1 : ℚ) < 2)).mp hlt
  unfold place
  omega

theorem units_mono (hden : 0 < den) (hden' : 0 < den') (hplace : place num den = place num' den')
    (h : num * den' ≤ num' * den) : units num den ≤ units num' den' := by
  have hsame : (scaled den (place num' den')).2 = (scaled den' (place num' den')).2 := by
    unfold scaled
    split <;> rfl
  unfold units
  rw [hplace, hsame]
  apply roundDiv_mono (scaled_fst_pos hden _) (scaled_fst_pos hden' _)
  have hcast : (num : ℚ) * (scaled den' (place num' den')).2 *
      (scaled den' (place num' den')).1 ≤
        num' * (scaled den' (place num' den')).2 * (scaled den (place num' den')).1 := by
    rw [scaled_fst, scaled_fst, hsame]
    set s : ℚ := ((scaled den' (place num' den')).2 : ℚ)
    calc (num : ℚ) * s * (den' * 2 ^ place num' den' * s)
        = num * den' * (s * s * 2 ^ place num' den') := by ring
      _ ≤ num' * den * (s * s * 2 ^ place num' den') := by
          apply mul_le_mul_of_nonneg_right
          · exact_mod_cast h
          · positivity
      _ = num' * s * (den * 2 ^ place num' den' * s) := by ring
  exact_mod_cast hcast

/-- Rounding keeps the order of two quotients. -/
theorem rounded_mono (hden : 0 < den) (hden' : 0 < den') (h : num * den' ≤ num' * den) :
    rounded num den ≤ rounded num' den' := by
  rcases Nat.eq_zero_or_pos num with rfl | hnum
  · rw [rounded_zero hden]
    exact rounded_nonneg
  · have hnum' : 0 < num' := by
      by_contra hzero
      obtain rfl : num' = 0 := by omega
      have hpos := Nat.mul_pos hnum hden'
      omega
    rcases (place_mono hnum hden hden' h).lt_or_eq with hlt | heq
    · -- the least number with the greater place lies between the two
      have hleast : -1074 < place num' den' := by
        unfold place at hlt ⊢
        omega
      have hexp : binaryExponent num den + 1 ≤ 52 + place num' den' := by
        unfold place at hlt ⊢
        omega
      have hbelow : (num : ℚ) ≤ (2 ^ 52 : Nat) * 2 ^ place num' den' * den := by
        calc (num : ℚ) ≤ 2 ^ (binaryExponent num den + 1) * den :=
              (lt_two_zpow_binaryExponent hden).le
          _ ≤ 2 ^ (52 + place num' den') * den := by
              apply mul_le_mul_of_nonneg_right _ (Nat.cast_nonneg _)
              exact zpow_le_zpow_right₀ one_le_two hexp
          _ = (2 ^ 52 : Nat) * 2 ^ place num' den' * den := by
              rw [zpow_add₀ two_ne_zero]
              norm_cast
      calc rounded num den ≤ (2 ^ 52 : Nat) * 2 ^ place num' den' :=
            units_le hden hlt.le hbelow
        _ ≤ rounded num' den' := le_units hden' le_rfl (two_zpow_place_le hnum' hleast)
    · have hunits : (units num den : ℚ) ≤ units num' den' := by
        exact_mod_cast units_mono hden hden' heq h
      unfold rounded
      rw [heq]
      exact mul_le_mul_of_nonneg_right hunits (by positivity)

end

/-! ### Rounding as a function of numbers -/

/-- A number that is not negative, rounded to double precision. -/
def nearest (x : ℚ) : ℚ := rounded x.num.toNat x.den

/-- The two parts of a number that is not negative. -/
theorem toNat_num_div_den {x : ℚ} (hx : 0 ≤ x) : (x.num.toNat : ℚ) / x.den = x := by
  have hnum : (x.num.toNat : ℚ) = x.num := by
    exact_mod_cast Int.toNat_of_nonneg (Rat.num_nonneg.mpr hx)
  rw [hnum, x.num_div_den]

theorem nearest_div (num : Nat) {den : Nat} (hden : 0 < den) :
    nearest (num / den) = rounded num den := by
  set x : ℚ := num / den
  have hparts : (x.num.toNat : ℚ) / x.den = num / den := toNat_num_div_den (by positivity)
  have hcross : x.num.toNat * den = num * x.den := by
    rw [div_eq_div_iff (by exact_mod_cast x.den_nz) (by exact_mod_cast hden.ne')] at hparts
    exact_mod_cast hparts
  apply le_antisymm
  · exact rounded_mono x.den_pos hden hcross.le
  · exact rounded_mono hden x.den_pos hcross.ge

theorem nearest_mono {x y : ℚ} (hx : 0 ≤ x) (h : x ≤ y) : nearest x ≤ nearest y := by
  apply rounded_mono x.den_pos y.den_pos
  have hparts : (x.num.toNat : ℚ) / x.den ≤ y.num.toNat / y.den := by
    rwa [toNat_num_div_den hx, toNat_num_div_den (hx.trans h)]
  rw [div_le_div_iff₀ (by exact_mod_cast x.den_pos) (by exact_mod_cast y.den_pos)] at hparts
  exact_mod_cast hparts

theorem nearest_nonneg (x : ℚ) : 0 ≤ nearest x := rounded_nonneg

/-- Numbers of the format are kept. -/
theorem nearest_fixed {m : Nat} {e : Int} (hm : m < 2 ^ 53) (he : -1074 ≤ e) :
    nearest (m * 2 ^ e) = m * 2 ^ e := by
  set x : ℚ := m * 2 ^ e with hx
  have hden : (0 : ℚ) < x.den := by exact_mod_cast x.den_pos
  have hparts : (x.num.toNat : ℚ) = m * 2 ^ e * x.den := by
    rw [← hx, ← div_eq_iff hden.ne']
    exact toNat_num_div_den (by positivity)
  apply le_antisymm
  · exact rounded_le x.den_pos hm he hparts.le
  · exact le_rounded x.den_pos hm he hparts.ge

/-- Rounding a quotient up to a bound of the format gives a finite number. -/
theorem ofQuotient_eq_nearest {num den m : Nat} {e : Int} (hden : 0 < den) (hm : m < 2 ^ 53)
    (hlow : -1074 ≤ e) (hhigh : e ≤ 971) (h : (num : ℚ) / den ≤ m * 2 ^ e) :
    ∃ m' e', ofQuotient false num den = .finite false m' e' ∧
      (m' : ℚ) * 2 ^ e' = nearest (num / den) := by
  have hpos : (0 : ℚ) < den := by exact_mod_cast hden
  rw [div_le_iff₀ hpos] at h
  obtain ⟨m', e', hfinite, -⟩ := ofQuotient_le false hden hm hlow hhigh h
  refine ⟨m', e', hfinite, ?_⟩
  rw [nearest_div num hden]
  exact rounded_of_ofQuotient hden hfinite

end ThrowCatch.Double
