import Mathlib.Data.List.Nodup
import Mathlib.Order.Lattice

/-!
# keyset による page 分け

key の大きい順の並びを、前の page の最後の key より小さいものに絞って先頭から取ることで、page に分ける。

* `walk_eq_chunks` — cursor を辿ると、並びを前から切ったものになる
* `flatten_chunks` — 切ったものをつなぐと、元の並びになる
* `flatten_strides` — 先頭を飛ばして切ったものをつないだときの並び
-/

namespace Infra.Keyset

variable {α β κ : Type}

theorem split_at {l : List α} {n : Nat} {c : α} (h : l[n]? = some c) :
    l = l.take n ++ c :: l.drop (n + 1) := by
  obtain ⟨hlt, rfl⟩ := List.getElem?_eq_some_iff.mp h
  rw [List.getElem_cons_drop, List.take_append_drop]

section Descending

variable [LinearOrder κ] {l l' : List κ}

/-- 大きい順に並べる。 -/
def descending (l : List κ) : List κ := l.mergeSort fun a b => decide (b ≤ a)

/-- 順に小さくなる並び。 -/
def Falling (l : List κ) : Prop := l.Pairwise fun a b => b < a

theorem mem_descending {a : κ} : a ∈ descending l ↔ a ∈ l := (List.mergeSort_perm l _).mem_iff

theorem length_descending : (descending l).length = l.length := List.length_mergeSort l

theorem falling_descending (h : l.Nodup) : Falling (descending l) := by
  have htrans : ∀ a b c : κ, decide (b ≤ a) → decide (c ≤ b) → decide (c ≤ a) := by
    intro a b c hab hbc
    simp only [decide_eq_true_eq] at *
    exact hbc.trans hab
  have htotal : ∀ a b : κ, decide (b ≤ a) || decide (a ≤ b) := by
    intro a b
    simpa using le_total b a
  have hsorted := List.pairwise_mergeSort htrans htotal l
  have hnodup : (descending l).Nodup := (List.mergeSort_perm l _).nodup_iff.mpr h
  refine (hsorted.and hnodup).imp fun hab => ?_
  exact lt_of_le_of_ne (of_decide_eq_true hab.1) (Ne.symm hab.2)

theorem Falling.nodup (h : Falling l) : l.Nodup := h.imp fun hab => Ne.symm (ne_of_lt hab)

/-- 順に小さくなる並びは、要素で決まる。 -/
theorem Falling.eq_of_mem_iff (h : Falling l) (h' : Falling l') (hmem : ∀ a, a ∈ l ↔ a ∈ l') :
    l = l' := by
  have hperm : l.Perm l' := (List.perm_ext_iff_of_nodup h.nodup h'.nodup).mpr hmem
  exact hperm.eq_of_pairwise (fun _ _ _ _ hab hba => absurd hab (not_lt_of_gt hba)) h h'

theorem Falling.descending_eq (h : Falling l) : descending l = l :=
  (falling_descending h.nodup).eq_of_mem_iff h fun _ => mem_descending

theorem Falling.filter (h : Falling l) (p : κ → Bool) : Falling (l.filter p) :=
  List.Pairwise.filter p h

theorem Falling.take (h : Falling l) (n : Nat) : Falling (l.take n) :=
  List.Pairwise.sublist (List.take_sublist n l) h

theorem Falling.drop (h : Falling l) (n : Nat) : Falling (l.drop n) :=
  List.Pairwise.sublist (List.drop_sublist n l) h

/-- cursor より後ろ。 -/
def after (l : List κ) : Option κ → List κ
  | none => l
  | some c => l.filter (· < c)

theorem filter_lt_append {pre post : List κ} {c : κ} (h : Falling (pre ++ c :: post)) :
    (pre ++ c :: post).filter (· < c) = post := by
  obtain ⟨-, hrest, hcross⟩ := List.pairwise_append.mp h
  have hpre : pre.filter (· < c) = [] :=
    List.filter_eq_nil_iff.mpr fun a ha => by
      simpa using (hcross a ha c List.mem_cons_self).le
  have hpost : post.filter (· < c) = post :=
    List.filter_eq_self.mpr fun a ha => by simpa using (List.pairwise_cons.mp hrest).1 a ha
  rw [List.filter_append, hpre, List.filter_cons_of_neg (by simp), hpost, List.nil_append]

theorem filter_gt_append {pre post : List κ} {c : κ} (h : Falling (pre ++ c :: post)) :
    (pre ++ c :: post).filter (c < ·) = pre := by
  obtain ⟨-, hrest, hcross⟩ := List.pairwise_append.mp h
  have hpre : pre.filter (c < ·) = pre :=
    List.filter_eq_self.mpr fun a ha => by simpa using hcross a ha c List.mem_cons_self
  have hpost : post.filter (c < ·) = [] :=
    List.filter_eq_nil_iff.mpr fun a ha => by
      simpa using ((List.pairwise_cons.mp hrest).1 a ha).le
  rw [List.filter_append, hpre, List.filter_cons_of_neg (by simp), hpost, List.append_nil]

/-- `n` 番目の key より小さいもの。 -/
theorem Falling.filter_lt (h : Falling l) {n : Nat} {c : κ} (hc : l[n]? = some c) :
    l.filter (· < c) = l.drop (n + 1) := by
  have hsplit := split_at hc
  rw [hsplit] at h
  have := filter_lt_append h
  rwa [← hsplit] at this

/-- `n` 番目の key より大きいもの。 -/
theorem Falling.filter_gt (h : Falling l) {n : Nat} {c : κ} (hc : l[n]? = some c) :
    l.filter (c < ·) = l.take n := by
  have hsplit := split_at hc
  rw [hsplit] at h
  have := filter_gt_append h
  rwa [← hsplit] at this

/-- 絞った並びから取った cursor は、元の並びでも同じ所を指す。 -/
theorem Falling.after_after (h : Falling l) {cursor : Option κ} {n : Nat} {c : κ}
    (hc : (after l cursor)[n]? = some c) : after l (some c) = (after l cursor).drop (n + 1) := by
  cases cursor with
  | none => exact h.filter_lt hc
  | some d =>
    have hlt : c < d := by
      have hmem : c ∈ l.filter (· < d) := List.mem_of_getElem? hc
      simpa using (List.mem_filter.mp hmem).2
    refine Eq.trans ?_ ((h.filter (· < d)).filter_lt hc)
    show l.filter (· < c) = (l.filter (· < d)).filter (· < c)
    rw [List.filter_filter]
    refine List.filter_congr fun a _ => ?_
    by_cases hac : a < c
    · simp [hac, hac.trans hlt]
    · simp [hac]

/-- cursor より大きいものを、小さい順に並べる。 -/
def above (l : List κ) (c : κ) : List κ := (l.filter (c < ·)).reverse

theorem Falling.above_above (h : Falling l) {c d : κ} {n : Nat} (hd : (above l c)[n]? = some d) :
    above l d = (above l c).drop (n + 1) := by
  unfold above at *
  obtain ⟨hn, -⟩ := List.getElem?_eq_some_iff.mp hd
  rw [List.length_reverse] at hn
  rw [List.getElem?_reverse hn] at hd
  have hlt : c < d := by simpa using (List.mem_filter.mp (List.mem_of_getElem? hd)).2
  have hfilter : l.filter (d < ·) = (l.filter (c < ·)).filter (d < ·) := by
    rw [List.filter_filter]
    refine List.filter_congr fun a _ => ?_
    by_cases hda : d < a
    · simp [hda, hlt.trans hda]
    · simp [hda]
  rw [hfilter, (h.filter (c < ·)).filter_gt hd, List.reverse_take]
  congr 1
  omega

end Descending

/-! ## 切った並び -/

/-- 前から `size` 個ずつ切る。 -/
def chunks (size : Nat) : Nat → List α → List (List α)
  | 0, _ => []
  | fuel + 1, l => l.take size :: if size < l.length then chunks size fuel (l.drop size) else []

theorem flatten_chunks {size : Nat} : ∀ {fuel : Nat} {l : List α}, l.length ≤ size * fuel →
    (chunks size fuel l).flatten = l
  | 0, l, h => by
    rw [Nat.mul_zero] at h
    rw [List.eq_nil_of_length_eq_zero (Nat.le_zero.mp h)]
    rfl
  | fuel + 1, l, h => by
    rw [chunks, List.flatten_cons]
    split
    · rw [flatten_chunks, List.take_append_drop]
      rw [List.length_drop]
      rw [Nat.mul_succ] at h
      omega
    · rw [List.flatten_nil, List.append_nil, List.take_of_length_le (by omega)]

/-- 最後でない page は `size` 個である。 -/
theorem length_chunks {size : Nat} : ∀ {fuel : Nat} {l : List α},
    ∀ page ∈ (chunks size fuel l).dropLast, page.length = size
  | 0, _ => fun _ h => absurd h List.not_mem_nil
  | fuel + 1, l => by
    rw [chunks]
    split
    · next hlt =>
      intro page hpage
      cases hrest : chunks size fuel (l.drop size) with
      | nil =>
        rw [hrest] at hpage
        exact absurd hpage List.not_mem_nil
      | cons first rest =>
        rw [hrest, List.dropLast_cons_of_ne_nil (List.cons_ne_nil _ _), ← hrest] at hpage
        rcases List.mem_cons.mp hpage with rfl | hpage
        · rw [List.length_take]
          omega
        · exact length_chunks page hpage
    · intro page hpage
      exact absurd hpage List.not_mem_nil

/-- 先頭を飛ばして `size` 個ずつ切る。残りが `size` 個以下なら、すべてを取る。 -/
def strides (size : Nat) : Nat → List α → List (List α)
  | 0, _ => []
  | fuel + 1, l =>
    if size < l.length then (l.drop 1).take size :: strides size fuel (l.drop size) else [l]

theorem flatten_strides {size : Nat} (hsize : 0 < size) : ∀ {fuel : Nat} {l : List α}, l ≠ [] →
    l.length ≤ size * fuel → (strides size fuel l).flatten =
      (l.drop 1).take ((l.length - 1) / size * size) ++ l.drop ((l.length - 1) / size * size)
  | 0, l, hne, h => by
    rw [Nat.mul_zero] at h
    exact absurd (List.eq_nil_of_length_eq_zero (Nat.le_zero.mp h)) hne
  | fuel + 1, l, hne, h => by
    rw [strides]
    split
    · next hlt =>
      have hdrop : (l.drop size).length = l.length - size := List.length_drop
      have hne' : l.drop size ≠ [] := List.ne_nil_of_length_pos (by omega)
      have hdiv : (l.length - 1) / size = (l.length - size - 1) / size + 1 := by
        rw [← Nat.add_div_right _ hsize]
        congr 1
        omega
      have hlen : (l.drop size).length ≤ size * fuel := by
        rw [Nat.mul_succ] at h
        omega
      rw [List.flatten_cons, flatten_strides hsize hne' hlen, hdrop, hdiv, Nat.add_mul, Nat.one_mul,
        List.drop_drop, List.drop_drop, ← List.append_assoc]
      congr 1
      · rw [Nat.add_comm (_ * size) size, List.take_add, List.drop_drop, Nat.add_comm 1 size]
      · rw [Nat.add_comm size]
    · next hle =>
      have hzero : (l.length - 1) / size = 0 := Nat.div_eq_of_lt (by
        have := List.length_pos_of_ne_nil hne
        omega)
      rw [hzero, Nat.zero_mul, List.take_zero, List.drop_zero, List.flatten_singleton,
        List.nil_append]

/-! ## cursor を辿る -/

/-- 答えの cursor を次の要求に渡す。要求ごとに、答える相手が変わってもよい。 -/
def walk (fetch : β → Option κ → α × Option κ) : List β → Option κ → List α
  | [], _ => []
  | b :: bs, cursor =>
    (fetch b cursor).1 :: match (fetch b cursor).2 with
      | none => []
      | some next => walk fetch bs (some next)

section Walk

variable [LinearOrder κ] {l : List κ} {size : Nat} {fetch : β → Option κ → α × Option κ}
  {page : List κ → α}

/-- `size` 個を取って、残りがあれば最後の key を cursor とするなら、cursor を辿った page は並びを前から切ったものである。 -/
theorem walk_eq_chunks (h : Falling l) (hsize : 0 < size) (hfetch : ∀ b cursor, fetch b cursor =
      (page ((after l cursor).take size),
        if size < (after l cursor).length then (after l cursor)[size - 1]? else none)) :
    ∀ (bs : List β) (cursor : Option κ),
      walk fetch bs cursor = (chunks size bs.length (after l cursor)).map page
  | [], _ => rfl
  | b :: bs, cursor => by
    rw [walk, hfetch, List.length_cons, chunks, List.map_cons]
    by_cases hlt : size < (after l cursor).length
    · obtain ⟨next, hnext⟩ : ∃ next, (after l cursor)[size - 1]? = some next :=
        ⟨_, List.getElem?_eq_getElem (by omega)⟩
      rw [if_pos hlt, if_pos hlt, hnext]
      dsimp only
      rw [walk_eq_chunks h hsize hfetch, h.after_after hnext, Nat.sub_add_cancel hsize]
    · rw [if_neg hlt, if_neg hlt]
      rfl

/-- 先頭を飛ばして取る場合。 -/
theorem walk_eq_strides (h : Falling l) (hsize : 0 < size) (hfetch : ∀ b c, fetch b (some c) =
      if size < (above l c).length then
        (page (((above l c).drop 1).take size), (above l c)[size - 1]?)
      else (page (above l c), none)) :
    ∀ (bs : List β) (c : κ),
      walk fetch bs (some c) = (strides size bs.length (above l c)).map page
  | [], _ => rfl
  | b :: bs, c => by
    rw [walk, hfetch, List.length_cons, strides]
    by_cases hlt : size < (above l c).length
    · obtain ⟨next, hnext⟩ : ∃ next, (above l c)[size - 1]? = some next :=
        ⟨_, List.getElem?_eq_getElem (by omega)⟩
      rw [if_pos hlt, if_pos hlt, hnext, List.map_cons]
      dsimp only
      rw [walk_eq_strides h hsize hfetch, h.above_above hnext, Nat.sub_add_cancel hsize]
    · rw [if_neg hlt, if_neg hlt]
      rfl

end Walk

end Infra.Keyset
