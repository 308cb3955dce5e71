import Mathlib.Data.List.Nodup
import Mathlib.Data.List.Rotate

/-!
# 回る pointer

長さ `n` の列を pointer の位置から回して、条件を満たす最初の要素を選び、pointer をその次へ進める。条件を
満たすのに選ばれなかった要素は、選ばれるたびに pointer に近づく（`find?_rotate`）。
-/

namespace Infra.Rotation

/-- 長さ `n` の列で、pointer `x` から位置 `p` まで進む数。 -/
def distance (n p x : ℕ) : ℕ := if x % n ≤ p then p - x % n else p + n - x % n

section Arithmetic

variable {n p x i : ℕ}

theorem distance_cases (n p x : ℕ) :
    x % n ≤ p ∧ distance n p x = p - x % n ∨ p < x % n ∧ distance n p x = p + n - x % n := by
  unfold distance
  by_cases h : x % n ≤ p
  · exact .inl ⟨h, if_pos h⟩
  · exact .inr ⟨Nat.lt_of_not_le h, if_neg h⟩

theorem distance_lt (hp : p < n) : distance n p x < n := by
  have hx : x % n < n := Nat.mod_lt x (by omega)
  rcases distance_cases n p x with ⟨h, hd⟩ | ⟨h, hd⟩ <;> omega

/-- 長さの二倍に届かない数の余り。 -/
theorem mod_cases {a : ℕ} (ha : a < 2 * n) : a < n ∧ a % n = a ∨ n ≤ a ∧ a % n = a - n := by
  by_cases h : a < n
  · exact .inl ⟨h, Nat.mod_eq_of_lt h⟩
  · have hle : n ≤ a := Nat.le_of_not_lt h
    exact .inr ⟨hle, (Nat.mod_eq_sub_mod hle).trans (Nat.mod_eq_of_lt (by omega))⟩

theorem distance_add_mod (hp : p < n) : (distance n p x + x) % n = p := by
  have hx : x % n < n := Nat.mod_lt x (by omega)
  rw [← Nat.add_mod_mod]
  rcases distance_cases n p x with ⟨h, hd⟩ | ⟨h, hd⟩
  · rw [hd, Nat.sub_add_cancel h]
    exact Nat.mod_eq_of_lt hp
  · rw [hd, Nat.sub_add_cancel (by omega), Nat.add_mod_right]
    exact Nat.mod_eq_of_lt hp

/-- pointer から `i` 番目を選んで次へ進むと、その先の位置までの数は `i + 1` だけ減る。 -/
theorem distance_next (hp : p < n) (hi : i < distance n p x) :
    distance n p ((i + x) % n + 1) + (i + 1) = distance n p x := by
  have hx : x % n < n := Nat.mod_lt x (by omega)
  have hlt : distance n p x < n := distance_lt hp
  have hpick : i + x % n < n ∧ (i + x) % n = i + x % n ∨
      n ≤ i + x % n ∧ (i + x) % n = i + x % n - n := by
    rw [← Nat.add_mod_mod]
    exact mod_cases (by omega)
  -- 次の pointer は、末尾の次であれば先頭へ戻る
  have hnext := mod_cases (n := n) (a := (i + x) % n + 1) (by omega)
  rcases distance_cases n p x with ⟨h, hd⟩ | ⟨h, hd⟩ <;>
    rcases distance_cases n p ((i + x) % n + 1) with ⟨h', hd'⟩ | ⟨h', hd'⟩ <;> omega

end Arithmetic

variable {α : Type} [DecidableEq α] {l : List α} {accept : α → Bool}

/--
条件を満たす要素 `t` があれば、何かが選ばれる。それが `t` でなければ、次の pointer は `t` に近づく。
-/
theorem find?_rotate (hl : l.Nodup) {t : α} (ht : t ∈ l) (haccept : accept t = true) (x : ℕ) :
    ∃ f ∈ l, (l.rotate x).find? accept = some f ∧
      (f ≠ t → distance l.length (l.idxOf t) (l.idxOf f + 1) <
        distance l.length (l.idxOf t) x) := by
  have hp : l.idxOf t < l.length := List.idxOf_lt_length_of_mem ht
  have hd : distance l.length (l.idxOf t) x < l.length := distance_lt hp
  obtain ⟨f, hf⟩ : ∃ f, (l.rotate x).find? accept = some f :=
    Option.isSome_iff_exists.mp (List.find?_isSome.mpr ⟨t, List.mem_rotate.mpr ht, haccept⟩)
  refine ⟨f, List.mem_rotate.mp (List.mem_of_find?_eq_some hf), hf, fun hne => ?_⟩
  obtain ⟨-, i, hi, hget, hbefore⟩ := List.find?_eq_some_iff_getElem.mp hf
  have hi' : i < l.length := List.length_rotate l x ▸ hi
  have hindex : ∀ {j : ℕ} {a : α}, j < l.length → (l.rotate x)[j]? = some a →
      l.idxOf a = (j + x) % l.length := by
    intro j a hj ha
    rw [List.getElem?_rotate hj] at ha
    obtain ⟨hlt, rfl⟩ := List.getElem?_eq_some_iff.mp ha
    exact hl.idxOf_getElem _ hlt
  have hrotated : (l.rotate x)[distance l.length (l.idxOf t) x]? = some t := by
    rw [List.getElem?_rotate hd, distance_add_mod hp, List.getElem?_eq_some_iff]
    exact ⟨hp, List.getElem_idxOf hp⟩
  have hfirst : (l.rotate x)[i]? = some f := List.getElem?_eq_some_iff.mpr ⟨hi, hget⟩
  -- `t` より後のものは、`t` が条件を満たすので選ばれない
  have hle : i ≤ distance l.length (l.idxOf t) x := by
    by_contra hgt
    have hlt : distance l.length (l.idxOf t) x < i := by omega
    obtain ⟨hlen, heq⟩ := List.getElem?_eq_some_iff.mp hrotated
    have hreject := hbefore _ hlt
    rw [heq, haccept] at hreject
    cases hreject
  have hnei : i ≠ distance l.length (l.idxOf t) x := by
    intro heq
    rw [heq, hrotated] at hfirst
    exact hne (Option.some.inj hfirst).symm
  have hnext := distance_next (x := x) hp (Nat.lt_of_le_of_ne hle hnei)
  rw [hindex hi' hfirst]
  omega

end Infra.Rotation
