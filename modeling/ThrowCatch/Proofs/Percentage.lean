import Mathlib.Data.Rat.Floor
import Mathlib.Tactic.FieldSimp
import Mathlib.Tactic.Linarith
import Mathlib.Tactic.NormNum
import ThrowCatch.Coverage
import ThrowCatch.Proofs.RoundingOrder

/-!
The share of a part in percent. It is the whole part of a number that has been
rounded twice: the quotient is rounded, one half is added, and the sum is
rounded again. Rounding keeps the order of numbers and the multiples of
`2 ^ -45`, so the share grows with the part; and up to a total of `2 ^ 44` no
quotient is so near to a half below it that it could be rounded to it.
-/

namespace ThrowCatch

namespace Double

theorem scaled_div (m : Nat) (e : Int) :
    (((scaled m e).1 / (scaled m e).2 : Nat) : Int) = ⌊(m : ℚ) * 2 ^ e⌋ := by
  have hsnd : ((scaled m e).2 : ℚ) ≠ 0 := by exact_mod_cast (scaled_snd_pos m e).ne'
  have hvalue : (m : ℚ) * 2 ^ e = (scaled m e).1 / (scaled m e).2 := by
    rw [scaled_fst, mul_div_cancel_right₀ _ hsnd]
  rw [hvalue, Rat.floor_natCast_div_natCast, Int.natCast_div]

/-- A multiple of `2 ^ -45` that double-precision numbers include. -/
def Fine (x : ℚ) : Prop := ∃ n : Nat, n < 2 ^ 53 ∧ x = n / 2 ^ 45

namespace Fine

variable {x y : ℚ}

theorem nonneg (h : Fine x) : 0 ≤ x := by
  obtain ⟨n, -, rfl⟩ := h
  positivity

theorem nearest_eq (h : Fine x) : nearest x = x := by
  obtain ⟨n, hn, rfl⟩ := h
  have hfixed := nearest_fixed hn (e := -45) (by norm_num)
  rwa [zpow_neg, ← div_eq_mul_inv] at hfixed

theorem nearest_le (h : Fine y) (hx : 0 ≤ x) (hxy : x ≤ y) : nearest x ≤ y := by
  rw [← h.nearest_eq]
  exact nearest_mono hx hxy

theorem le_nearest (h : Fine x) (hxy : x ≤ y) : x ≤ nearest y := by
  rw [← h.nearest_eq]
  exact nearest_mono h.nonneg hxy

theorem add_half (h : Fine x) (hx : x ≤ 101) : Fine (x + 1 / 2) := by
  obtain ⟨n, -, rfl⟩ := h
  have hn : n ≤ 101 * 2 ^ 45 := by
    rw [div_le_iff₀ (by positivity)] at hx
    exact_mod_cast hx
  refine ⟨n + 2 ^ 44, by omega, ?_⟩
  push_cast
  ring

end Fine

end Double

namespace Coverage

open Double

/-- The share in percent with one half added, rounded twice. -/
def halfAbove (part total : Nat) : ℚ := nearest (nearest (100 * part / total) + 1 / 2)

section

variable {part part' total : Nat} {x : ℚ}

theorem halfAbove_le (hfine : Fine x) (hx : x ≤ 101) (h : 100 * part / total ≤ x) :
    halfAbove part total ≤ x + 1 / 2 := by
  have hquotient : nearest (100 * part / total) ≤ x := hfine.nearest_le (by positivity) h
  apply (hfine.add_half hx).nearest_le
  · linarith [nearest_nonneg (100 * part / total)]
  · linarith

theorem le_halfAbove (hfine : Fine x) (hx : x ≤ 101) (h : x ≤ 100 * part / total) :
    x + 1 / 2 ≤ halfAbove part total := by
  have hquotient : x ≤ nearest (100 * part / total) := hfine.le_nearest h
  apply (hfine.add_half hx).le_nearest
  linarith

theorem halfAbove_mono (h : part ≤ part') : halfAbove part total ≤ halfAbove part' total := by
  have hquotient : nearest (100 * part / total) ≤ nearest (100 * part' / total) := by
    apply nearest_mono (by positivity)
    gcongr
  apply nearest_mono
  · linarith [nearest_nonneg (100 * part / total)]
  · linarith

theorem fine_zero : Fine 0 := ⟨0, by norm_num, by norm_num⟩

theorem fine_hundred : Fine 100 := ⟨100 * 2 ^ 45, by norm_num, by norm_num⟩

theorem percent_le (htotal : 0 < total) (h : part ≤ total) : (100 * part / total : ℚ) ≤ 100 := by
  have hpos : (0 : ℚ) < total := by exact_mod_cast htotal
  rw [div_le_iff₀ hpos]
  exact_mod_cast Nat.mul_le_mul_left 100 h

/-- The share is the whole part of a number rounded twice. -/
theorem percentageOf_eq (htotal : 0 < total) (h : part ≤ total) :
    percentageOf part total = .ok ⌊halfAbove part total⌋ := by
  have hquotient : ((100 * part : Nat) : ℚ) / total = 100 * part / total := by push_cast; rfl
  have hpercent := percent_le htotal h
  have hle : nearest (100 * part / total) ≤ 100 := fine_hundred.nearest_le (by positivity) hpercent
  obtain ⟨m, e, hfinite, hm⟩ := ofQuotient_eq_nearest (m := 100) (e := 0) htotal
    (by norm_num) (by norm_num) (by norm_num) (by rwa [hquotient, zpow_zero, mul_one])
  rw [hquotient] at hm
  have hsnd : (0 : ℚ) < (scaled m e).2 := by exact_mod_cast scaled_snd_pos m e
  have hsum : ((2 * (scaled m e).1 + (scaled m e).2 : Nat) : ℚ) / (2 * (scaled m e).2 : Nat) =
      nearest (100 * part / total) + 1 / 2 := by
    push_cast
    rw [scaled_fst, hm]
    field_simp
  have hbound : nearest (100 * part / total) + 1 / 2 ≤ (101 : Nat) * 2 ^ (0 : Int) := by
    norm_num
    linarith
  obtain ⟨m', e', hhalf, hm'⟩ := ofQuotient_eq_nearest
    (Nat.mul_pos two_pos (scaled_snd_pos m e)) (by norm_num) (by norm_num) (by norm_num)
    (hsum.trans_le hbound)
  rw [hsum] at hm'
  have hne : ((total : Int) = 0) = False := by
    rw [eq_iff_iff, iff_false]
    omega
  have hsign : (decide (100 * (part : Int) < 0) != decide ((total : Int) < 0)) = false := by
    rw [decide_eq_false (by omega), decide_eq_false (by omega)]
    rfl
  have hnum : (100 * (part : Int)).natAbs = 100 * part := by omega
  simp only [percentageOf, hne, if_false, hsign, hnum, Int.natAbs_natCast, hfinite,
    addHalf_finite, hhalf, floor?_finite, Option.getD_some, scaled_div, hm', halfAbove]

/-! ### Any total -/

theorem floor_halfAbove_mem (htotal : 0 < total) (h : part ≤ total) :
    0 ≤ ⌊halfAbove part total⌋ ∧ ⌊halfAbove part total⌋ ≤ 100 := by
  have hlow : (0 : ℚ) + 1 / 2 ≤ halfAbove part total :=
    le_halfAbove fine_zero (by norm_num) (by positivity)
  have hhigh : halfAbove part total ≤ 100 + 1 / 2 :=
    halfAbove_le fine_hundred (by norm_num) (percent_le htotal h)
  constructor
  · rw [Int.le_floor, Int.cast_zero]
    linarith
  · rw [← Int.lt_add_one_iff, Int.floor_lt]
    push_cast
    linarith

theorem floor_halfAbove_zero : ⌊halfAbove 0 total⌋ = 0 := by
  have hlow : (0 : ℚ) + 1 / 2 ≤ halfAbove 0 total :=
    le_halfAbove fine_zero (by norm_num) (by simp)
  have hhigh : halfAbove 0 total ≤ 0 + 1 / 2 :=
    halfAbove_le fine_zero (by norm_num) (by simp)
  rw [Int.floor_eq_zero_iff, Set.mem_Ico]
  constructor <;> linarith

theorem floor_halfAbove_self (htotal : 0 < total) : ⌊halfAbove total total⌋ = 100 := by
  have hne : (total : ℚ) ≠ 0 := by exact_mod_cast htotal.ne'
  have hlow : (100 : ℚ) + 1 / 2 ≤ halfAbove total total :=
    le_halfAbove fine_hundred (by norm_num) (mul_div_cancel_right₀ _ hne).ge
  have hhigh : ⌊halfAbove total total⌋ ≤ 100 := (floor_halfAbove_mem htotal le_rfl).2
  apply le_antisymm hhigh
  rw [Int.le_floor]
  push_cast
  linarith

/-! ### Totals that are not too great -/

/-- From the half below an integer on, the share reaches the integer. -/
theorem le_floor_halfAbove {k : Nat} (htotal : 0 < total) (hk : k ≤ 100)
    (h : k * (2 * total) ≤ 200 * part + total) : (k : Int) ≤ ⌊halfAbove part total⌋ := by
  have hpos : (0 : ℚ) < total := by exact_mod_cast htotal
  have hcast : (k : ℚ) * (2 * total) ≤ 200 * part + total := by exact_mod_cast h
  have hle : (k : ℚ) ≤ halfAbove part total := by
    rcases k with _ | j
    · rw [Nat.cast_zero]
      exact nearest_nonneg _
    · have hfine : Fine (j + 1 / 2) := by
        refine ⟨j * 2 ^ 45 + 2 ^ 44, by omega, ?_⟩
        push_cast
        ring
      have hj : (j : ℚ) + 1 ≤ 100 := by exact_mod_cast hk
      push_cast at hcast ⊢
      have hhalf : (j : ℚ) + 1 / 2 ≤ 100 * part / total := by
        rw [le_div_iff₀ hpos]
        linarith
      linarith [le_halfAbove hfine (by linarith) hhalf]
  rw [Int.le_floor]
  exact_mod_cast hle

/-- Below the half above an integer, the share does not go beyond the integer. -/
theorem floor_halfAbove_le {k : Nat} (htotal : 0 < total) (hsmall : total ≤ 2 ^ 44)
    (hk : k ≤ 100) (h : 200 * part + total < (k + 1) * (2 * total)) :
    ⌊halfAbove part total⌋ ≤ k := by
  have hpos : (0 : ℚ) < total := by exact_mod_cast htotal
  have hsmall : (total : ℚ) ≤ 2 ^ 44 := by exact_mod_cast hsmall
  have hcast : (200 * part + total + 1 : ℚ) ≤ (k + 1) * (2 * total) := by exact_mod_cast h
  have hk' : (k : ℚ) ≤ 100 := by exact_mod_cast hk
  have hfine : Fine (k + 1 / 2 - 1 / 2 ^ 45) := by
    refine ⟨k * 2 ^ 45 + (2 ^ 44 - 1), by omega, ?_⟩
    push_cast
    ring
  -- the numerators are integers, so the quotient is below the half by `1 / (2 * total)` or more
  have hhalf : (100 * part / total : ℚ) ≤ k + 1 / 2 - 1 / 2 ^ 45 := by
    rw [div_le_iff₀ hpos]
    linarith
  have hlt := halfAbove_le hfine (by linarith) hhalf
  rw [← Int.lt_add_one_iff, Int.floor_lt]
  push_cast
  linarith

/-- Up to a total of `2 ^ 44` the share is exact, a half going up. -/
theorem floor_halfAbove (htotal : 0 < total) (hsmall : total ≤ 2 ^ 44) (h : part ≤ total) :
    ⌊halfAbove part total⌋ = ((200 * part + total) / (2 * total) : Nat) := by
  have hwhole : 0 < 2 * total := Nat.mul_pos two_pos htotal
  set k := (200 * part + total) / (2 * total) with hk
  have hhundred : k ≤ 100 := by
    rw [hk, ← Nat.lt_succ_iff, Nat.div_lt_iff_lt_mul hwhole]
    omega
  apply le_antisymm
  · apply floor_halfAbove_le htotal hsmall hhundred
    exact (Nat.div_lt_iff_lt_mul hwhole).mp (Nat.lt_succ_self k)
  · apply le_floor_halfAbove htotal hhundred
    exact Nat.div_mul_le_self _ _

end

end Coverage

end ThrowCatch
