import Mathlib.Algebra.Order.Floor.Ring
import Mathlib.Data.List.Perm.Subperm
import Mathlib.Data.Rat.Floor

/-!
# 重みつきの非復元抽出

乱数に重みの合計を掛け、先頭から重みを引いていって、正でなくなった所の要素を選ぶ。選んだ要素を除いて繰り返す。

数の演算は `Arithmetic` として与える。丸めがあってもよく、`NaN` のように `positive` が常に偽になる値があってもよい。
どのような重みと乱数に対しても、選ばれる位置は範囲に収まり（`pick_lt`）、列は重複なく選ばれる
（`sample_subperm`・`length_sample`・`sample_perm`）。
-/

namespace Infra.Sampling

/-! ## 数の演算 -/

/-- 数の演算。`InUnit` は乱数の範囲 `[0, 1)` で、`n` を掛けて切り捨てると `n` より小さい。 -/
structure Arithmetic (ν : Type) where
  ofRat : ℚ → ν
  add : ν → ν → ν
  sub : ν → ν → ν
  mul : ν → ν → ν
  div : ν → ν → ν
  maximum : List ν → ν
  positive : ν → Bool
  isZero : ν → Bool
  floor : ν → Nat
  InUnit : ν → Prop
  floor_mul_lt : ∀ {r : ν} {n : Nat}, InUnit r → 0 < n → floor (mul r (ofRat n)) < n

namespace Arithmetic

variable {ν : Type} (A : Arithmetic ν)

/-- 乱数の一つの値。 -/
def Draw : Type := {r : ν // A.InUnit r}

/-- 0 から順に足す。 -/
def sum (l : List ν) : ν := l.foldl A.add (A.ofRat 0)

/-- 有理数の演算。 -/
def rational : Arithmetic ℚ where
  ofRat x := x
  add a b := a + b
  sub a b := a - b
  mul a b := a * b
  div a b := a / b
  maximum l := l.max?.getD 0
  positive a := 0 < a
  isZero a := a = 0
  floor a := ⌊a⌋.toNat
  InUnit r := 0 ≤ r ∧ r < 1
  floor_mul_lt := by
    intro r n hr hn
    have hn' : (0 : ℚ) < n := by exact_mod_cast hn
    have hlt : ⌊r * (n : ℚ)⌋ < (n : ℤ) := by
      rw [Int.floor_lt]
      calc r * (n : ℚ) < 1 * n := mul_lt_mul_of_pos_right hr.2 hn'
        _ = ((n : ℤ) : ℚ) := by simp
    have hpos : 0 < (n : ℤ) := by omega
    omega

@[simp] theorem rational_maximum (l : List ℚ) : rational.maximum l = l.max?.getD 0 := rfl

@[simp] theorem rational_isZero (x : ℚ) : rational.isZero x = decide (x = 0) := rfl

@[simp] theorem rational_div (x y : ℚ) : rational.div x y = x / y := rfl

end Arithmetic

variable {ν α : Type} (A : Arithmetic ν) (weight : α → ν)

/-! ## 一回の選択 -/

/-- 乱数が正である間、先頭から重みを引く。引いた回数を返す。 -/
def scan : ν → List α → Nat
  | _, [] => 0
  | random, a :: rest =>
    if A.positive random then scan (A.sub random (weight a)) rest + 1 else 0

/-- 選ばれる位置。 -/
def pick (random : ν) (items : List α) : Nat := scan A weight random items - 1

theorem scan_le : ∀ (random : ν) (items : List α), scan A weight random items ≤ items.length
  | _, [] => Nat.le_refl 0
  | random, a :: rest => by
    unfold scan
    split
    · exact Nat.succ_le_succ (scan_le _ rest)
    · exact Nat.zero_le _

/-- **選ばれる位置は範囲に収まる。** -/
theorem pick_lt (random : ν) {items : List α} (h : items ≠ []) :
    pick A weight random items < items.length := by
  have hle := scan_le A weight random items
  have hpos := List.length_pos_iff.mpr h
  unfold pick
  omega

/-! ## 繰り返し -/

/-- 高々 `n` 個を選ぶ。`k` は引いた乱数の数、`total` は重みの合計、`update` は選んだ後の合計の変え方。 -/
def sample (update : ν → ν → ν) (draw : Nat → A.Draw) : Nat → Nat → ν → List α → List α
  | 0, _, _, _ => []
  | n + 1, k, total, items =>
    let index := pick A weight (A.mul (draw k).1 total) items
    match items[index]? with
    | none => []
    | some a => a :: sample update draw n (k + 1) (update total (weight a)) (items.eraseIdx index)

section Sample

variable {A weight} {update : ν → ν → ν} {draw : Nat → A.Draw}

/-- 選んだものと残りは、元の列の並べ替えである。 -/
theorem exists_sample_append_perm : ∀ (n k : Nat) (total : ν) (items : List α),
    ∃ rest, (sample A weight update draw n k total items ++ rest).Perm items ∧
      (sample A weight update draw n k total items).length = min n items.length
  | 0, _, _, items => ⟨items, List.Perm.refl _, by simp [sample]⟩
  | n + 1, k, total, [] => ⟨[], by simp [sample], by simp [sample]⟩
  | n + 1, k, total, a :: items => by
    have hlt := pick_lt A weight (A.mul (draw k).1 total) (List.cons_ne_nil a items)
    have hget := List.getElem?_eq_getElem hlt
    have hlen : ((a :: items).eraseIdx
        (pick A weight (A.mul (draw k).1 total) (a :: items))).length = items.length := by
      rw [List.length_eraseIdx_of_lt hlt]
      rfl
    obtain ⟨rest, hperm, hcount⟩ := exists_sample_append_perm n (k + 1)
      (update total (weight ((a :: items)[pick A weight (A.mul (draw k).1 total) (a :: items)])))
      ((a :: items).eraseIdx (pick A weight (A.mul (draw k).1 total) (a :: items)))
    refine ⟨rest, ?_, ?_⟩
    · simp only [sample, hget, List.cons_append]
      exact (hperm.cons _).trans (List.getElem_cons_eraseIdx_perm hlt)
    · simp only [sample, hget, List.length_cons, hcount, hlen]
      omega

theorem sample_subperm (n k : Nat) (total : ν) (items : List α) :
    (sample A weight update draw n k total items).Subperm items := by
  obtain ⟨rest, hperm, -⟩ := exists_sample_append_perm n k total items
  exact (List.sublist_append_left _ rest).subperm.trans hperm.subperm

theorem length_sample (n k : Nat) (total : ν) (items : List α) :
    (sample A weight update draw n k total items).length = min n items.length := by
  obtain ⟨_, -, hlen⟩ := exists_sample_append_perm n k total items
  exact hlen

/-- **要素の数だけ選べば並べ替えになる。** -/
theorem sample_perm (k : Nat) (total : ν) (items : List α) :
    (sample A weight update draw items.length k total items).Perm items := by
  refine (sample_subperm items.length k total items).perm_of_length_le ?_
  rw [length_sample, Nat.min_self]

end Sample

end Infra.Sampling
