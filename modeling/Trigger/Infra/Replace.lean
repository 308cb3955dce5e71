import Mathlib.Data.List.Count
import Mathlib.Data.List.Infix

/-!
# 二文字の並びの置換

二文字の並びを左から順に、重ならないように全て置き換える（`text.replace(/ab/g, rep)`）。

並びの個数（`adjacent`）は、その並びの置換が後ろの文字を何個減らすかを数える（`count_replacePair_self`）。
ほかの並びの置換では減らない（`adjacent_le_replacePair`）。
-/

namespace Infra.Replace

variable {α : Type} [DecidableEq α]

/-- `a` と `b` の並びを全て `rep` に置き換える。 -/
def replacePair (a b : α) (rep : List α) : List α → List α
  | [] => []
  | [c] => [c]
  | c :: d :: rest =>
    if c = a ∧ d = b then rep ++ replacePair a b rep rest
    else c :: replacePair a b rep (d :: rest)

/-- `a` の直後に `b` が来る場所の個数。 -/
def adjacent (a b : α) : List α → ℕ
  | [] => 0
  | [_] => 0
  | c :: d :: rest => (if c = a ∧ d = b then 1 else 0) + adjacent a b (d :: rest)

variable {a b c x : α} {rep l : List α}

theorem replacePair_match : replacePair a b rep (a :: b :: l) = rep ++ replacePair a b rep l := by
  rw [replacePair, if_pos ⟨rfl, rfl⟩]

/-- 先頭が `a` でなければ、先頭を残す。 -/
theorem replacePair_cons_of_ne (h : c ≠ a) :
    replacePair a b rep (c :: l) = c :: replacePair a b rep l := by
  cases l with
  | nil => rfl
  | cons d l => rw [replacePair, if_neg fun hcd => h hcd.1]

/-- 次の文字が `b` でなければ、先頭を残す。 -/
theorem replacePair_cons_of_head (h : l.head? ≠ some b) :
    replacePair a b rep (c :: l) = c :: replacePair a b rep l := by
  cases l with
  | nil => rfl
  | cons d l => rw [replacePair, if_neg fun hcd => h (by rw [hcd.2]; rfl)]

theorem adjacent_cons_of_ne (h : c ≠ a) : adjacent a b (c :: l) = adjacent a b l := by
  cases l with
  | nil => rfl
  | cons d l => rw [adjacent, if_neg fun hcd => h hcd.1, Nat.zero_add]

theorem adjacent_match (hab : b ≠ a) : adjacent a b (a :: b :: l) = 1 + adjacent a b l := by
  rw [adjacent, if_pos ⟨rfl, rfl⟩, adjacent_cons_of_ne hab]

theorem adjacent_le_cons (c : α) (l : List α) : adjacent a b l ≤ adjacent a b (c :: l) := by
  cases l with
  | nil => exact Nat.le_refl _
  | cons d l => exact Nat.le_add_left _ _

theorem adjacent_le_append : ∀ front : List α, adjacent a b l ≤ adjacent a b (front ++ l)
  | [] => Nat.le_refl _
  | c :: front => Nat.le_trans (adjacent_le_append front) (adjacent_le_cons c _)

/-- 並びがあることは、個数が正であることに等しい。 -/
theorem adjacent_pos_iff : ∀ l : List α, 0 < adjacent a b l ↔ [a, b] <:+: l
  | [] => ⟨fun h => absurd h (Nat.lt_irrefl 0), fun h => absurd h.length_le (by simp)⟩
  | [c] => ⟨fun h => absurd h (Nat.lt_irrefl 0), fun h => absurd h.length_le (by simp)⟩
  | c :: d :: rest => by
    have ih := adjacent_pos_iff (d :: rest)
    rw [adjacent, List.infix_cons_iff, ← ih]
    by_cases h : c = a ∧ d = b
    · rw [if_pos h]
      refine ⟨fun _ => .inl ?_, fun _ => by omega⟩
      rw [h.1, h.2]
      exact ⟨rest, rfl⟩
    · rw [if_neg h, Nat.zero_add]
      refine ⟨.inr, Or.rec (fun hinit => absurd ?_ h) id⟩
      obtain ⟨tail, htail⟩ := hinit
      injection htail with hc htail
      injection htail with hd _
      exact ⟨hc.symm, hd.symm⟩

/-- 並びを置き換えると、後ろの文字は並びの個数だけ減る。 -/
theorem count_replacePair_self (hba : b ≠ a) (hrep : b ∉ rep) : ∀ l : List α,
    (replacePair a b rep l).count b + adjacent a b l = l.count b
  | [] => rfl
  | [c] => rfl
  | c :: d :: rest => by
    by_cases h : c = a ∧ d = b
    · have ih := count_replacePair_self hba hrep rest
      rw [h.1, h.2, replacePair_match, adjacent_match hba, List.count_append,
        List.count_eq_zero_of_not_mem hrep, List.count_cons_of_ne hba.symm, List.count_cons_self]
      omega
    · have ih := count_replacePair_self hba hrep (d :: rest)
      rw [replacePair, adjacent, if_neg h, if_neg h, Nat.zero_add, List.count_cons,
        List.count_cons (l := d :: rest), ← ih]
      omega

/-- 置き換える並びにも、置き換えた文字にも無い文字の個数は変わらない。 -/
theorem count_replacePair_of_ne (hxa : x ≠ a) (hxb : x ≠ b) (hrep : x ∉ rep) : ∀ l : List α,
    (replacePair a b rep l).count x = l.count x
  | [] => rfl
  | [c] => rfl
  | c :: d :: rest => by
    by_cases h : c = a ∧ d = b
    · rw [h.1, h.2, replacePair_match, List.count_append, List.count_eq_zero_of_not_mem hrep,
        Nat.zero_add,
        List.count_cons_of_ne hxa.symm, List.count_cons_of_ne hxb.symm,
        count_replacePair_of_ne hxa hxb hrep rest]
    · rw [replacePair, if_neg h, List.count_cons, List.count_cons (l := d :: rest),
        count_replacePair_of_ne hxa hxb hrep (d :: rest)]

/-- ほかの並びの置換では、並びの個数は減らない。 -/
theorem adjacent_le_replacePair (rep : List α) (hxa : x ≠ a) (hxb : x ≠ b) (hba : b ≠ a) :
    ∀ l : List α, adjacent a x l ≤ adjacent a x (replacePair a b rep l)
  | [] => Nat.le_refl _
  | [_] => Nat.le_refl _
  | c :: d :: rest => by
    by_cases h : c = a ∧ d = b
    · rw [h.1, h.2, replacePair_match, adjacent, if_neg fun hd => hxb hd.2.symm, Nat.zero_add,
        adjacent_cons_of_ne hba]
      exact Nat.le_trans (adjacent_le_replacePair rep hxa hxb hba rest) (adjacent_le_append rep)
    · have ih := adjacent_le_replacePair rep hxa hxb hba (d :: rest)
      rw [replacePair, if_neg h]
      by_cases hd : c = a ∧ d = x
      · -- `d` は `a` ではないので、置換の後も先頭に残る
        rw [hd.2, replacePair_cons_of_ne hxa] at ih
        rw [hd.1, hd.2, replacePair_cons_of_ne hxa]
        rw [adjacent, adjacent, if_pos ⟨rfl, rfl⟩]
        exact Nat.add_le_add_left ih 1
      · rw [adjacent, if_neg hd, Nat.zero_add]
        exact Nat.le_trans ih (adjacent_le_cons c _)

end Infra.Replace
