import Mathlib.Data.Int.Log
import Trigger.Infra.Decimal

/-!
# JavaScript の number

有限の数は、53 bit の仮数と -1074 以上の指数で書ける有理数で、絶対値は `2^1024` に届かない。加算は、正確な和を最も近い
数（中間は偶数）に丸め、丸めた和が `2^1024` に届けば無限大になる。0 と -0 は区別しない。

* `round_value` — 有限の数は丸めで変わらない
* `ofInt_add` — 絶対値が `2^53` 以下の整数の加算は、整数の和を一度丸めるだけである
-/

namespace Infra

open Infra.Decimal

/-! ## 丸め -/

/-- 53 bit の仮数と -1074 以上の指数で書ける。 -/
def FitsDouble (x : ℚ) : Prop := ∃ m e : ℤ, |m| < 2 ^ 53 ∧ -1074 ≤ e ∧ x = m * 2 ^ e

/-- 仮数の最後の桁の指数。 -/
def lastPlace (x : ℚ) : ℤ := max (Int.log 2 |x| - 52) (-1074)

/-- 指数の上限の無い、最も近い数。 -/
def nearest (x : ℚ) : ℚ := roundHalfEven (x / 2 ^ lastPlace x) * 2 ^ lastPlace x

theorem two_zpow_pos (e : ℤ) : (0 : ℚ) < 2 ^ e := zpow_pos (by norm_num) e

/-- 最後の桁で割ると、高々 53 bit である。 -/
theorem abs_div_lastPlace_le (x : ℚ) : |x / 2 ^ lastPlace x| ≤ 2 ^ 53 := by
  have hpos := two_zpow_pos (lastPlace x)
  have hlog : |x| < 2 ^ (Int.log 2 |x| + 1) := by
    have h := Int.lt_zpow_succ_log_self (b := 2) (by decide) |x|
    exact_mod_cast h
  have hplace : Int.log 2 |x| + 1 ≤ 53 + lastPlace x := by
    unfold lastPlace
    omega
  rw [abs_div, abs_of_pos hpos, div_le_iff₀ hpos]
  calc |x| ≤ 2 ^ (Int.log 2 |x| + 1) := hlog.le
    _ ≤ 2 ^ (53 + lastPlace x) := zpow_le_zpow_right₀ (by norm_num) hplace
    _ = 2 ^ 53 * 2 ^ lastPlace x := zpow_add₀ (by norm_num) 53 _

/-- 丸めた数は書ける。繰り上がった仮数は 1 になる。 -/
theorem fitsDouble_nearest (x : ℚ) : FitsDouble (nearest x) := by
  have hle : |roundHalfEven (x / 2 ^ lastPlace x)| ≤ 2 ^ 53 :=
    abs_roundHalfEven_le (by push_cast; exact abs_div_lastPlace_le x)
  have hplace : -1074 ≤ lastPlace x := le_max_right _ _
  rcases lt_or_eq_of_le hle with hlt | heq
  · exact ⟨_, _, hlt, hplace, rfl⟩
  · have hcarry : (2 : ℚ) ^ (53 + lastPlace x) = 2 ^ 53 * 2 ^ lastPlace x :=
      zpow_add₀ (by norm_num) 53 _
    unfold nearest
    rcases abs_choice (roundHalfEven (x / 2 ^ lastPlace x)) with hsign | hsign
    · refine ⟨1, 53 + lastPlace x, by norm_num, by omega, ?_⟩
      rw [← hsign, heq, hcarry]
      norm_num
    · refine ⟨-1, 53 + lastPlace x, by norm_num, by omega, ?_⟩
      rw [← neg_neg (roundHalfEven _), ← hsign, heq, hcarry]
      push_cast
      ring

/-- 書ける数は丸めで変わらない。 -/
theorem nearest_of_fitsDouble {x : ℚ} (h : FitsDouble x) : nearest x = x := by
  obtain ⟨m, e, hm, he, rfl⟩ := h
  obtain ⟨k, hk⟩ : ∃ k : ℤ, (m : ℚ) * 2 ^ e / 2 ^ lastPlace (m * 2 ^ e) = k := by
    by_cases hzero : m = 0
    · exact ⟨0, by simp [hzero]⟩
    have hpos : (0 : ℚ) < |(m : ℚ) * 2 ^ e| :=
      abs_pos.mpr (mul_ne_zero (by exact_mod_cast hzero) (two_zpow_pos e).ne')
    have hlt : |(m : ℚ) * 2 ^ e| < ((2 : ℕ) : ℚ) ^ (53 + e) := by
      rw [abs_mul, abs_of_pos (two_zpow_pos e), Nat.cast_ofNat, zpow_add₀ (by norm_num)]
      refine mul_lt_mul_of_pos_right ?_ (two_zpow_pos e)
      exact_mod_cast hm
    have hlog : Int.log 2 |(m : ℚ) * 2 ^ e| < 53 + e :=
      (Int.lt_zpow_iff_log_lt (by decide) hpos).mp hlt
    obtain ⟨k, hk⟩ := Int.eq_ofNat_of_zero_le
      (show 0 ≤ e - lastPlace (m * 2 ^ e) by unfold lastPlace; omega)
    refine ⟨m * 2 ^ k, ?_⟩
    rw [mul_div_assoc, ← zpow_sub₀ (by norm_num), hk]
    push_cast
    rw [zpow_natCast]
  rw [nearest, hk, roundHalfEven_intCast, ← hk]
  exact div_mul_cancel₀ _ (two_zpow_pos _).ne'

theorem fitsDouble_intCast {n : ℤ} (h : |n| ≤ 2 ^ 53) : FitsDouble n := by
  rcases lt_or_eq_of_le h with hlt | heq
  · exact ⟨n, 0, hlt, by norm_num, by simp⟩
  · rcases abs_choice n with hsign | hsign
    · refine ⟨1, 53, by norm_num, by norm_num, ?_⟩
      rw [← hsign, heq]
      norm_num
    · refine ⟨-1, 53, by norm_num, by norm_num, ?_⟩
      rw [← neg_neg n, ← hsign, heq]
      norm_num

/-! ## 数 -/

/-- 有限の数。 -/
structure FiniteNumber where
  value : ℚ
  fits : FitsDouble value
  bounded : |value| < 2 ^ 1024
deriving DecidableEq

inductive Number
  | finite (d : FiniteNumber)
  | infinity
  | negInfinity
  | nan
deriving DecidableEq

namespace Number

/-- 最も近い数。 -/
def round (x : ℚ) : Number :=
  if h : |nearest x| < 2 ^ 1024 then .finite ⟨nearest x, fitsDouble_nearest x, h⟩
  else if 0 < x then .infinity
  else .negInfinity

/-- `+`。 -/
def add : Number → Number → Number
  | .finite a, .finite b => round (a.value + b.value)
  | .nan, _ | _, .nan | .infinity, .negInfinity | .negInfinity, .infinity => .nan
  | .infinity, _ | _, .infinity => .infinity
  | .negInfinity, _ | _, .negInfinity => .negInfinity

instance : Add Number := ⟨add⟩

instance (n : ℕ) : OfNat Number n := ⟨round n⟩

def ofInt (n : ℤ) : Number := round n

/-- 小数点以下を捨てた整数。有限でなければ 0 である。 -/
def toInt : Number → ℤ
  | .finite d => ⌊d.value⌋
  | _ => 0

/-- 有限の数は丸めで変わらない。 -/
theorem round_value (d : FiniteNumber) : round d.value = .finite d := by
  have hvalue := nearest_of_fitsDouble d.fits
  unfold round
  rw [dif_pos (by rw [hvalue]; exact d.bounded)]
  congr 1
  cases d
  simp only [FiniteNumber.mk.injEq]
  exact hvalue

/-- `2^53` までの整数。 -/
theorem ofInt_eq {n : ℤ} (h : |n| ≤ 2 ^ 53) :
    ∃ d : FiniteNumber, ofInt n = .finite d ∧ d.value = n := by
  have hbounded : |(n : ℚ)| < 2 ^ 1024 := by
    have hle : |(n : ℚ)| ≤ 2 ^ 53 := by exact_mod_cast h
    exact hle.trans_lt (pow_lt_pow_right₀ (by norm_num) (by norm_num))
  exact ⟨⟨n, fitsDouble_intCast h, hbounded⟩, round_value ⟨n, _, _⟩, rfl⟩

/-- **`2^53` までの整数の加算は、整数の和を一度丸めるだけである。** -/
theorem ofInt_add {a b : ℤ} (ha : |a| ≤ 2 ^ 53) (hb : |b| ≤ 2 ^ 53) :
    ofInt a + ofInt b = ofInt (a + b) := by
  obtain ⟨d, hd, hvalue⟩ := ofInt_eq ha
  obtain ⟨d', hd', hvalue'⟩ := ofInt_eq hb
  rw [hd, hd']
  show round (d.value + d'.value) = ofInt (a + b)
  rw [hvalue, hvalue', ofInt, Int.cast_add]

example : round (1 / 10) + 1 + ofInt (-1) ≠ round (1 / 10) + (1 + ofInt (-1)) := by decide +kernel

end Number

end Infra
