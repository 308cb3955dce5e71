import Mathlib.Data.Nat.Factorization.Basic
import Trigger.Infra.Number

/-!
# 倍精度の丸め

有理数を仮数 53 bit の浮動小数点数に丸める（最近接、中間は偶数）。指数の範囲は扱わない
（`toDouble_eq_nearest`）。

* `toDouble_of_representable` — 53 bit で書ける自然数は丸めで変わらない
* `representable_of_mul` — 積が 53 bit で書けるなら、因子も 53 bit で書ける
* `floor_toDouble_div` — `2^53` 未満の自然数の商は、丸めてから切り捨てても変わらない
-/

namespace Infra.Double

open Infra.Decimal

/-- 53 bit の仮数で書ける自然数。 -/
def Representable (n : ℕ) : Prop := ∃ m k : ℕ, m < 2 ^ 53 ∧ n = m * 2 ^ k

/-- 仮数の最後の桁の単位。 -/
def ulp (x : ℚ) : ℚ := 2 ^ (Int.log 2 |x| - 52)

/-- 最も近い倍精度の数。 -/
def toDouble (x : ℚ) : ℚ := roundHalfEven (x / ulp x) * ulp x

theorem ulp_pos (x : ℚ) : 0 < ulp x := zpow_pos (by norm_num) _

/-! ## 書ける自然数 -/

theorem representable_of_lt {n : ℕ} (h : n < 2 ^ 53) : Representable n :=
  ⟨n, 0, h, (Nat.mul_one n).symm⟩

theorem representable_of_le {n : ℕ} (h : n ≤ 2 ^ 53) : Representable n := by
  rcases Nat.lt_or_eq_of_le h with h | rfl
  · exact representable_of_lt h
  · exact ⟨1, 53, by norm_num, (Nat.one_mul _).symm⟩

/-- 奇数の部分は因子の方が小さいので、積が書けるなら因子も書ける。 -/
theorem representable_of_mul {a b : ℕ} (hb : 0 < b) (h : Representable (a * b)) :
    Representable a := by
  obtain ⟨m, k, hm, heq⟩ := h
  rcases Nat.eq_zero_or_pos a with rfl | ha
  · exact representable_of_lt (by norm_num)
  obtain ⟨j, o, hodd, rfl⟩ := Nat.exists_eq_two_pow_mul_odd ha.ne'
  have hdvd : o ∣ m := by
    have hcop : Nat.Coprime o (2 ^ k) := (Nat.coprime_two_right.mpr hodd).pow_right k
    refine hcop.dvd_of_dvd_mul_right ?_
    rw [← heq, Nat.mul_comm (2 ^ j) o, Nat.mul_assoc]
    exact Nat.dvd_mul_right o _
  have hmpos : 0 < m := by
    rcases Nat.eq_zero_or_pos m with rfl | hmpos
    · rw [Nat.zero_mul] at heq
      exact absurd heq (Nat.mul_pos ha hb).ne'
    · exact hmpos
  exact ⟨o, j, Nat.lt_of_le_of_lt (Nat.le_of_dvd hmpos hdvd) hm, Nat.mul_comm _ _⟩

/-! ## 丸め -/

/-- 指数の下限に届かない数では、指数の範囲を扱う丸めと同じである。 -/
theorem toDouble_eq_nearest {x : ℚ} (h : -1022 ≤ Int.log 2 |x|) : toDouble x = nearest x := by
  have hplace : lastPlace x = Int.log 2 |x| - 52 := max_eq_left (by omega)
  rw [toDouble, nearest, ulp, hplace]

/-- **53 bit で書ける自然数は丸めで変わらない。** -/
theorem toDouble_of_representable {n : ℕ} (h : Representable n) : toDouble n = n := by
  obtain ⟨m, k, hm, heq⟩ := h
  have hfits : FitsDouble (n : ℚ) := by
    refine ⟨m, k, by rw [Nat.abs_cast]; exact_mod_cast hm, by omega, ?_⟩
    rw [heq, zpow_natCast]
    push_cast
    rfl
  have hlog : -1022 ≤ Int.log 2 |(n : ℚ)| := by
    rw [Nat.abs_cast, Int.log_natCast]
    omega
  rw [toDouble_eq_nearest hlog, nearest_of_fitsDouble hfits]

theorem abs_roundHalfEven_sub_le (x : ℚ) : |roundHalfEven x - x| ≤ 1 / 2 := by
  have hlow := Int.floor_le x
  have hhigh := Int.lt_floor_add_one x
  unfold roundHalfEven
  rw [abs_le]
  split_ifs <;> push_cast <;> constructor <;> linarith

/-- 丸めの誤差は、正の数の `2^53` 分の一を越えない。 -/
theorem abs_toDouble_sub_le {x : ℚ} (hx : 0 < x) : |toDouble x - x| ≤ x / 2 ^ 53 := by
  have hu := ulp_pos x
  have hround := abs_roundHalfEven_sub_le (x / ulp x)
  have hsub : toDouble x - x = (roundHalfEven (x / ulp x) - x / ulp x) * ulp x := by
    rw [toDouble, sub_mul, div_mul_cancel₀ x hu.ne']
  have hulp : ulp x ≤ x / 2 ^ 52 := by
    have hlog : ((2 : ℕ) : ℚ) ^ Int.log 2 x ≤ x := Int.zpow_log_le_self (by decide) hx
    rw [ulp, abs_of_pos hx, zpow_sub₀ (by norm_num), Nat.cast_ofNat] at *
    exact div_le_div_of_nonneg_right hlog (by norm_num)
  calc |toDouble x - x| = |(roundHalfEven (x / ulp x) : ℚ) - x / ulp x| * ulp x := by
        rw [hsub, abs_mul, abs_of_pos hu]
    _ ≤ 1 / 2 * ulp x := mul_le_mul_of_nonneg_right hround hu.le
    _ ≤ x / 2 ^ 53 := by linarith

/-- **`2^53` 未満の自然数の商を丸めても、隣の整数に届かない。** -/
theorem floor_toDouble_div {a b : ℕ} (ha : a < 2 ^ 53) (hb : 0 < b) :
    ⌊toDouble ((a : ℚ) / b)⌋ = ((a / b : ℕ) : ℤ) := by
  have hbpos : (0 : ℚ) < b := by exact_mod_cast hb
  have hdiv : (a : ℚ) = b * (a / b : ℕ) + (a % b : ℕ) := by
    exact_mod_cast (Nat.div_add_mod a b).symm
  have hq : (a : ℚ) / b = (a / b : ℕ) + ((a % b : ℕ) : ℚ) / b := by
    conv_lhs => rw [hdiv, add_div, mul_div_cancel_left₀ _ hbpos.ne']
  rcases Nat.eq_zero_or_pos (a % b) with hzero | hpos
  · have hle : a / b < 2 ^ 53 := Nat.lt_of_le_of_lt (Nat.div_le_self a b) ha
    rw [hq, hzero, Nat.cast_zero, zero_div, add_zero,
      toDouble_of_representable (representable_of_lt hle)]
    exact Int.floor_natCast _
  · have hapos : (0 : ℚ) < a := by exact_mod_cast Nat.lt_of_lt_of_le hpos (Nat.mod_le a b)
    have herr : |toDouble ((a : ℚ) / b) - a / b| < 1 / b := by
      refine lt_of_le_of_lt (abs_toDouble_sub_le (div_pos hapos hbpos)) ?_
      rw [div_div, div_lt_div_iff₀ (by positivity) hbpos]
      have : (a : ℚ) < 2 ^ 53 := by exact_mod_cast ha
      nlinarith
    have hlow : 1 / (b : ℚ) ≤ ((a % b : ℕ) : ℚ) / b :=
      div_le_div_of_nonneg_right (by exact_mod_cast hpos) hbpos.le
    have hhigh : ((a % b : ℕ) : ℚ) / b + 1 / b ≤ 1 := by
      rw [← add_div, div_le_one hbpos]
      exact_mod_cast Nat.mod_lt a hb
    obtain ⟨hl, hr⟩ := abs_lt.mp herr
    rw [Int.floor_eq_iff, Int.cast_natCast]
    constructor <;> linarith

end Infra.Double
