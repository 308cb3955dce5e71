import Mathlib.Data.Finset.Card

/-!
# 部分関数の軌道

次の点を高々一つ返す関数を繰り返す。次の点を持つ点が有限個なら、繰り返しが止まるのは、軌道が閉路に入らない
ときに限る。

* `Infra.Orbit.halts_iff` — 停止の判定
* `Infra.Orbit.iter_eq_none` — 止まるなら、点の個数より一つ多い回数までに止まる
-/

namespace Infra.Orbit

variable {α : Type} (f : α → Option α)

/-- `n` 回先の点。 -/
def iter : ℕ → α → Option α
  | 0, a => some a
  | n + 1, a => (f a).bind (iter n)

def Reaches (a b : α) : Prop := ∃ n, iter f n a = some b

def OnCycle (a : α) : Prop := ∃ n, iter f (n + 1) a = some a

def Halts (a : α) : Prop := ∃ n, iter f n a = none

variable {f} {a b : α} {m n : ℕ}

theorem iter_add (m n : ℕ) (a : α) : iter f (m + n) a = (iter f m a).bind (iter f n) := by
  induction m generalizing a with
  | zero => rw [Nat.zero_add]; rfl
  | succ m ih =>
    rw [Nat.succ_add_eq_add_succ, Nat.add_succ]
    show (f a).bind (iter f (m + n)) = ((f a).bind (iter f m)).bind (iter f n)
    cases f a with
    | none => rfl
    | some b => exact ih b

theorem iter_none_of_le (h : iter f m a = none) (hle : m ≤ n) : iter f n a = none := by
  obtain ⟨k, rfl⟩ := Nat.exists_eq_add_of_le hle
  rw [iter_add, h]
  rfl

/-- 辺を増やしても、道は道のままである。 -/
theorem iter_mono {g : α → Option α} (hfg : ∀ a b, f a = some b → g a = some b) :
    ∀ (n : ℕ) {a b : α}, iter f n a = some b → iter g n a = some b
  | 0, _, _, h => h
  | n + 1, a, b, h => by
    obtain ⟨c, hc, hn⟩ := Option.bind_eq_some_iff.mp h
    show (g a).bind (iter g n) = some b
    rw [hfg a c hc]
    exact iter_mono hfg n hn

theorem Reaches.refl (a : α) : Reaches f a a := ⟨0, rfl⟩

/-- 一歩先から届く点には届く。 -/
theorem Reaches.head {c : α} (h : f a = some b) (hc : Reaches f b c) : Reaches f a c := by
  obtain ⟨n, hn⟩ := hc
  refine ⟨n + 1, ?_⟩
  show (f a).bind (iter f n) = some c
  rw [h]
  exact hn

/-- 止まるなら、次の点を持つ点の個数より一つ多い回数までに止まる。 -/
theorem iter_eq_none {l : List α} (hl : ∀ a, f a ≠ none → a ∈ l)
    (h : ∀ b, Reaches f a b → ¬OnCycle f b) : iter f (l.length + 1) a = none := by
  classical
  by_contra hne
  have hsome : ∀ i, i ≤ l.length + 1 → ∃ x, iter f i a = some x := by
    intro i hi
    refine Option.ne_none_iff_exists'.mp fun hnone => hne (iter_none_of_le hnone hi)
  have hmem : ∀ i, i ≤ l.length → ∀ x, iter f i a = some x → x ∈ l := by
    intro i hi x hx
    refine hl x fun hnone => ?_
    obtain ⟨y, hy⟩ := hsome (i + 1) (by omega)
    rw [iter_add, hx] at hy
    simp [iter, hnone] at hy
  -- 点の個数より多い番号が `l` に入るので、二つの番号が同じ点を指す
  obtain ⟨i, hi, j, hj, hij, heq⟩ := Finset.exists_ne_map_eq_of_card_lt_of_maps_to
    (s := Finset.range (l.length + 1)) (t := (l.map some).toFinset) (f := fun i => iter f i a)
    (by
      refine lt_of_le_of_lt (List.toFinset_card_le _) ?_
      rw [List.length_map, Finset.card_range]
      omega)
    (by
      intro i hi
      have hlt : i ≤ l.length := by
        have := Finset.mem_range.mp hi
        omega
      obtain ⟨x, hx⟩ := hsome i (by omega)
      simpa [hx] using hmem i hlt x hx)
  have hcycle : ∀ i j, i < j → i ≤ l.length → iter f i a = iter f j a → False := by
    intro i j hlt hi heq
    obtain ⟨x, hx⟩ := hsome i (by omega)
    refine h x ⟨i, hx⟩ ⟨j - i - 1, ?_⟩
    have hj : j = i + (j - i - 1 + 1) := by omega
    rw [hj, iter_add, hx] at heq
    exact heq.symm
  have hile := Finset.mem_range.mp hi
  have hjle := Finset.mem_range.mp hj
  rcases Nat.lt_or_gt_of_ne hij with hlt | hgt
  · exact hcycle i j hlt (by omega) heq
  · exact hcycle j i hgt (by omega) heq.symm

/-- 閉路に入ると止まらない。 -/
theorem not_halts (hr : Reaches f a b) (hc : OnCycle f b) : ¬Halts f a := by
  rintro ⟨n, hn⟩
  obtain ⟨k, hk⟩ := hr
  obtain ⟨m, hm⟩ := hc
  have hloop : ∀ t, iter f (t * (m + 1)) b = some b := by
    intro t
    induction t with
    | zero => rw [Nat.zero_mul]; rfl
    | succ t ih => rw [Nat.succ_mul, iter_add, ih]; exact hm
  have hlater : iter f (k + n * (m + 1)) a = some b := by
    rw [iter_add, hk]
    exact hloop n
  have hle : n ≤ k + n * (m + 1) := by
    have := Nat.le_mul_of_pos_right n (show 0 < m + 1 by omega)
    omega
  rw [iter_none_of_le hn hle] at hlater
  cases hlater

/-- **止まるのは、軌道が閉路に入らないときに限る。** -/
theorem halts_iff {l : List α} (hl : ∀ a, f a ≠ none → a ∈ l) :
    Halts f a ↔ ∀ b, Reaches f a b → ¬OnCycle f b :=
  ⟨fun h _ hr hc => not_halts hr hc h, fun h => ⟨_, iter_eq_none hl h⟩⟩

end Infra.Orbit
