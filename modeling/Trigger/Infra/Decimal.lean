import Mathlib.Data.Int.Log
import Mathlib.Data.Rat.Floor
import Mathlib.Tactic.Linarith
import Mathlib.Tactic.Ring

/-!
# 有効桁

十進で `d` 桁に書ける有理数と、有効数字 `d` 桁への丸め。

* `significant_roundDigits` — 丸めた数は `d` 桁で書ける
* `roundDigits_of_significant` — `d` 桁で書ける数は丸めで変わらない
-/

namespace Infra.Decimal

/-- `n` は有効数字 `d` 桁の十進数で書ける。 -/
def Significant (d : ℕ) (n : ℚ) : Prop := ∃ m e : ℤ, |m| < 10 ^ d ∧ n = m * 10 ^ e

/-- 最も近い整数。ちょうど中間なら偶数の側である。 -/
def roundHalfEven (x : ℚ) : ℤ :=
  if x - ⌊x⌋ < 1 / 2 then ⌊x⌋
  else if 1 / 2 < x - ⌊x⌋ then ⌊x⌋ + 1
  else if Even ⌊x⌋ then ⌊x⌋
  else ⌊x⌋ + 1

/-- 有効数字 `d` 桁の最後の桁の単位。 -/
def unit (d : ℕ) (n : ℚ) : ℚ := 10 ^ (Int.log 10 |n| + 1 - d)

/-- 有効数字 `d` 桁への丸め。 -/
def roundDigits (d : ℕ) (n : ℚ) : ℚ := roundHalfEven (n / unit d n) * unit d n

variable {d : ℕ} {n : ℚ}

theorem unit_pos (d : ℕ) (n : ℚ) : 0 < unit d n := zpow_pos (by norm_num) _

theorem roundHalfEven_intCast (m : ℤ) : roundHalfEven m = m := by
  unfold roundHalfEven
  rw [Int.floor_intCast, sub_self, if_pos (by norm_num)]

/-- 丸めた整数は、前後の整数の間にある。 -/
theorem floor_le_roundHalfEven (x : ℚ) : ⌊x⌋ ≤ roundHalfEven x ∧ roundHalfEven x ≤ ⌈x⌉ := by
  by_cases hx : (⌊x⌋ : ℚ) = x
  · rw [← hx, roundHalfEven_intCast, Int.floor_intCast, Int.ceil_intCast]
    exact ⟨le_refl _, le_refl _⟩
  · have hlt : ⌊x⌋ < ⌈x⌉ := by
      rw [Int.lt_ceil]
      exact lt_of_le_of_ne (Int.floor_le x) hx
    unfold roundHalfEven
    split_ifs <;> omega

theorem abs_roundHalfEven_le {x : ℚ} {k : ℤ} (h : |x| ≤ k) : |roundHalfEven x| ≤ k := by
  obtain ⟨hlow, hhigh⟩ := abs_le.mp h
  obtain ⟨hfloor, hceil⟩ := floor_le_roundHalfEven x
  have hk : -k ≤ ⌊x⌋ := by
    rw [Int.le_floor]
    push_cast
    exact hlow
  have hk' : ⌈x⌉ ≤ k := Int.ceil_le.mpr hhigh
  exact abs_le.mpr ⟨by omega, by omega⟩

/-- 単位で割った数は、高々 `d` 桁である。 -/
theorem abs_div_unit_lt (d : ℕ) (n : ℚ) : |n / unit d n| < 10 ^ d := by
  rw [abs_div, abs_of_pos (unit_pos d n), div_lt_iff₀ (unit_pos d n), unit, ← zpow_natCast,
    ← zpow_add₀ (by norm_num)]
  have h := Int.lt_zpow_succ_log_self (b := 10) (by decide) |n|
  have he : (d : ℤ) + (Int.log 10 |n| + 1 - d) = Int.log 10 |n| + 1 := by ring
  rw [he]
  exact_mod_cast h

/-- 繰り上がって桁が増えた数は、仮数 1 で書ける。 -/
theorem significant_carry (hd : 0 < d) (e : ℤ) : Significant d (10 ^ d * 10 ^ e) := by
  refine ⟨1, d + e, ?_, ?_⟩
  · rw [abs_one]
    exact one_lt_pow₀ (by norm_num) hd.ne'
  · rw [zpow_add₀ (by norm_num), zpow_natCast, Int.cast_one, one_mul]

theorem Significant.neg (h : Significant d n) : Significant d (-n) := by
  obtain ⟨m, e, hm, rfl⟩ := h
  refine ⟨-m, e, by rwa [abs_neg], ?_⟩
  rw [Int.cast_neg, neg_mul]

/-- 丸めた数は `d` 桁で書ける。 -/
theorem significant_roundDigits (hd : 0 < d) (n : ℚ) : Significant d (roundDigits d n) := by
  have hle : |roundHalfEven (n / unit d n)| ≤ 10 ^ d :=
    abs_roundHalfEven_le (by push_cast; exact (abs_div_unit_lt d n).le)
  rcases lt_or_eq_of_le hle with hlt | heq
  · exact ⟨_, _, hlt, rfl⟩
  · rcases abs_choice (roundHalfEven (n / unit d n)) with hpos | hneg
    · rw [roundDigits, ← hpos, heq, Int.cast_pow]
      exact significant_carry hd _
    · have hvalue : roundHalfEven (n / unit d n) = -10 ^ d := by omega
      rw [roundDigits, hvalue, Int.cast_neg, Int.cast_pow, neg_mul]
      exact (significant_carry hd _).neg

/-- `d` 桁で書ける数は、単位の整数倍である。 -/
theorem exists_int_of_significant (h : Significant d n) : ∃ k : ℤ, n / unit d n = k := by
  obtain ⟨m, e, hm, rfl⟩ := h
  by_cases hzero : m = 0
  · exact ⟨0, by simp [hzero]⟩
  have hpos : (0 : ℚ) < |(m : ℚ) * 10 ^ e| :=
    abs_pos.mpr (mul_ne_zero (by exact_mod_cast hzero) (zpow_ne_zero _ (by norm_num)))
  have hlt : |(m : ℚ) * 10 ^ e| < ((10 : ℕ) : ℚ) ^ ((d : ℤ) + e) := by
    rw [abs_mul, abs_of_pos (zpow_pos (by norm_num : (0 : ℚ) < 10) e), Nat.cast_ofNat,
      zpow_add₀ (by norm_num), zpow_natCast]
    refine mul_lt_mul_of_pos_right ?_ (zpow_pos (by norm_num) e)
    exact_mod_cast hm
  have hlog : Int.log 10 |(m : ℚ) * 10 ^ e| < d + e :=
    (Int.lt_zpow_iff_log_lt (by decide) hpos).mp hlt
  obtain ⟨k, hk⟩ := Int.eq_ofNat_of_zero_le
    (show 0 ≤ e - (Int.log 10 |(m : ℚ) * 10 ^ e| + 1 - d) by omega)
  refine ⟨m * 10 ^ k, ?_⟩
  rw [unit, mul_div_assoc, ← zpow_sub₀ (by norm_num), hk]
  push_cast
  rw [zpow_natCast]

/-- `d` 桁で書ける数は丸めで変わらない。 -/
theorem roundDigits_of_significant (h : Significant d n) : roundDigits d n = n := by
  obtain ⟨k, hk⟩ := exists_int_of_significant h
  rw [roundDigits, hk, roundHalfEven_intCast, ← hk]
  exact div_mul_cancel₀ n (unit_pos d n).ne'

/-- `d` 桁に収まる自然数。 -/
theorem significant_natCast {n : ℕ} (h : n < 10 ^ d) : Significant d n := by
  refine ⟨n, 0, ?_, by simp⟩
  rw [abs_of_nonneg (Int.natCast_nonneg n)]
  exact_mod_cast h

/-- 自然数を丸めた数は自然数である。 -/
theorem roundDigits_natCast (d n : ℕ) : ∃ m : ℕ, roundDigits d n = m := by
  rcases lt_or_ge n (10 ^ d) with hlt | hge
  · exact ⟨n, roundDigits_of_significant (significant_natCast hlt)⟩
  · -- 単位は 10 の自然数乗である
    have hpos : (0 : ℚ) < |(n : ℚ)| := by
      have : 0 < n := lt_of_lt_of_le (Nat.pos_of_ne_zero (by positivity)) hge
      rw [abs_of_nonneg (Nat.cast_nonneg n)]
      exact_mod_cast this
    have hlog : (d : ℤ) ≤ Int.log 10 |(n : ℚ)| := by
      refine (Int.zpow_le_iff_le_log (by decide) hpos).mp ?_
      rw [abs_of_nonneg (Nat.cast_nonneg n), zpow_natCast]
      exact_mod_cast hge
    obtain ⟨k, hk⟩ := Int.eq_ofNat_of_zero_le
      (show 0 ≤ Int.log 10 |(n : ℚ)| + 1 - d by omega)
    have hnonneg : 0 ≤ roundHalfEven (n / unit d n) := by
      refine le_trans ?_ (floor_le_roundHalfEven _).1
      exact Int.floor_nonneg.mpr (div_nonneg (Nat.cast_nonneg n) (unit_pos d n).le)
    obtain ⟨m, hm⟩ := Int.eq_ofNat_of_zero_le hnonneg
    refine ⟨m * 10 ^ k, ?_⟩
    rw [roundDigits, hm, unit, hk]
    push_cast
    rw [zpow_natCast]

end Infra.Decimal
