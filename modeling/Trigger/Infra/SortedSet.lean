import Mathlib.Order.Basic
import Mathlib.Order.Lattice
import Mathlib.Data.List.Basic
import Mathlib.Data.List.Nodup

/-!
# 整列集合

要素ごとに score を一つ持ち、`(score, 要素)` の辞書式順で並ぶ集合。

並びと要素の一意性は構造体の field が保証する。そのため以降の定理は、ほとんどの場合
`score?`（要素から score への部分関数）だけで述べられる。list の並びに触れるのは、
先頭を読む `minScore?` と、score の上限で切り出す `rangeByScore` だけである。
-/

namespace Infra

variable {M S : Type} [LinearOrder M] [LinearOrder S]

/-- 並び順。score が先で、同点なら要素の順。 -/
def EntryLt (a b : M × S) : Prop := a.2 < b.2 ∨ (a.2 = b.2 ∧ a.1 < b.1)

instance (a b : M × S) : Decidable (EntryLt a b) := inferInstanceAs (Decidable (_ ∨ _))

theorem EntryLt.trans {a b c : M × S} (hab : EntryLt a b) (hbc : EntryLt b c) : EntryLt a c := by
  rcases hab with h | ⟨h, hm⟩ <;> rcases hbc with h' | ⟨h', hm'⟩
  · exact Or.inl (lt_trans h h')
  · exact Or.inl (h' ▸ h)
  · exact Or.inl (h ▸ h')
  · exact Or.inr ⟨h.trans h', lt_trans hm hm'⟩

theorem EntryLt.of_not {a b : M × S} (h : ¬ EntryLt a b) (hne : a.1 ≠ b.1) : EntryLt b a := by
  rcases lt_trichotomy a.2 b.2 with hlt | heq | hgt
  · exact absurd (Or.inl hlt) h
  · rcases lt_or_gt_of_ne hne with hm | hm
    · exact absurd (Or.inr ⟨heq, hm⟩) h
    · exact Or.inr ⟨heq.symm, hm⟩
  · exact Or.inl hgt

theorem EntryLt.score_le {a b : M × S} (h : EntryLt a b) : a.2 ≤ b.2 := by
  rcases h with h | ⟨h, _⟩
  · exact le_of_lt h
  · exact le_of_eq h

/-- 整列集合。並びと要素の一意性を field として持つ。 -/
structure SortedSet (M S : Type) [LinearOrder M] [LinearOrder S] where
  entries : List (M × S)
  sorted : entries.Pairwise EntryLt
  nodup : (entries.map Prod.fst).Nodup

namespace SortedSet

instance : EmptyCollection (SortedSet M S) := ⟨⟨[], List.Pairwise.nil, List.nodup_nil⟩⟩

instance : Inhabited (SortedSet M S) := ⟨∅⟩

@[simp] theorem entries_empty : (∅ : SortedSet M S).entries = [] := rfl

theorem ext_entries {z z' : SortedSet M S} (h : z.entries = z'.entries) : z = z' := by
  cases z
  cases z'
  simp only at h
  subst h
  rfl

instance : DecidableEq (SortedSet M S) := fun z z' =>
  decidable_of_iff (z.entries = z'.entries) ⟨ext_entries, fun h => h ▸ rfl⟩

theorem eq_empty_iff {z : SortedSet M S} : z = ∅ ↔ z.entries = [] :=
  ⟨fun h => h ▸ rfl, fun h => ext_entries h⟩

/-! ## score の読み出し -/

/-- 要素 `m` の score。 -/
def score? (z : SortedSet M S) (m : M) : Option S :=
  (z.entries.find? (fun e => e.1 = m)).map Prod.snd

@[simp] theorem score?_empty (m : M) : (∅ : SortedSet M S).score? m = none := rfl

omit [LinearOrder S] in
/-- key が一意な list では、`find?` の答えは含まれる対そのものである。 -/
theorem find?_fst_eq : ∀ {l : List (M × S)}, (l.map Prod.fst).Nodup → ∀ {m : M} {x : S},
    ((l.find? (fun e => e.1 = m)).map Prod.snd = some x ↔ (m, x) ∈ l)
  | [], _, m, x => by simp
  | (n, y) :: rest, hnd, m, x => by
    rw [List.map_cons, List.nodup_cons] at hnd
    have ih := find?_fst_eq hnd.2 (m := m) (x := x)
    by_cases h : n = m
    · subst h
      have hmem : (n, x) ∉ rest := fun hx => hnd.1 (List.mem_map.mpr ⟨_, hx, rfl⟩)
      simp [hmem, eq_comm]
    · have h' : ¬ m = n := fun e => h e.symm
      rw [List.find?_cons_of_neg (by simpa using h), ih]
      simp [h']

theorem score?_eq_some {z : SortedSet M S} {m : M} {x : S} :
    z.score? m = some x ↔ (m, x) ∈ z.entries := find?_fst_eq z.nodup

theorem score?_eq_none {z : SortedSet M S} {m : M} :
    z.score? m = none ↔ ∀ x, (m, x) ∉ z.entries := by
  constructor
  · intro h x hx
    rw [score?_eq_some.mpr hx] at h
    exact absurd h (by simp)
  · intro h
    rcases hs : z.score? m with _ | x
    · rfl
    · exact absurd (score?_eq_some.mp hs) (h x)

theorem eq_empty_iff_score? {z : SortedSet M S} : z = ∅ ↔ ∀ m, z.score? m = none := by
  constructor
  · rintro rfl m
    rfl
  · intro h
    rw [eq_empty_iff]
    refine List.eq_nil_iff_forall_not_mem.mpr ?_
    rintro ⟨m, x⟩ hm
    exact score?_eq_none.mp (h m) x hm

/-! ## 除去と追加 -/

/-- 要素 `m` を取り除く。 -/
def rem (z : SortedSet M S) (m : M) : SortedSet M S where
  entries := z.entries.filter (fun e => e.1 ≠ m)
  sorted := z.sorted.filter _
  nodup := z.nodup.sublist (List.filter_sublist.map Prod.fst)

theorem mem_entries_rem {z : SortedSet M S} {m : M} {e : M × S} :
    e ∈ (z.rem m).entries ↔ e ∈ z.entries ∧ e.1 ≠ m := by
  simp [rem]

@[simp] theorem score?_rem (z : SortedSet M S) (m n : M) :
    (z.rem m).score? n = if n = m then none else z.score? n := by
  refine Option.ext fun x => ?_
  rw [score?_eq_some, mem_entries_rem]
  by_cases h : n = m
  · simp [h]
  · simp [h, score?_eq_some]

/-- 並びを保って対を挿入する。 -/
def insertEntry (e : M × S) : List (M × S) → List (M × S)
  | [] => [e]
  | a :: rest => if EntryLt e a then e :: a :: rest else a :: insertEntry e rest

theorem insertEntry_perm (e : M × S) : ∀ l : List (M × S), (insertEntry e l).Perm (e :: l)
  | [] => List.Perm.refl _
  | a :: rest => by
    unfold insertEntry
    split
    · exact List.Perm.refl _
    · exact ((insertEntry_perm e rest).cons a).trans (List.Perm.swap e a rest)

theorem insertEntry_sorted {e : M × S} : ∀ {l : List (M × S)}, l.Pairwise EntryLt →
    (∀ a ∈ l, a.1 ≠ e.1) → (insertEntry e l).Pairwise EntryLt
  | [], _, _ => List.pairwise_singleton _ _
  | a :: rest, hs, hne => by
    have hs' := List.pairwise_cons.mp hs
    unfold insertEntry
    split
    · next hlt =>
      refine List.pairwise_cons.mpr ⟨fun b hb => ?_, hs⟩
      rcases List.mem_cons.mp hb with rfl | hb
      · exact hlt
      · exact hlt.trans (hs'.1 b hb)
    · next hlt =>
      have hae : EntryLt a e :=
        EntryLt.of_not hlt (fun h => hne a List.mem_cons_self h.symm)
      have ih := insertEntry_sorted hs'.2 (fun b hb => hne b (List.mem_cons_of_mem _ hb))
      refine List.pairwise_cons.mpr ⟨fun b hb => ?_, ih⟩
      rcases List.mem_cons.mp ((insertEntry_perm e rest).mem_iff.mp hb) with rfl | hb
      · exact hae
      · exact hs'.1 b hb

/-- 要素 `m` を score `x` で加える。既にあれば score を置き換える。 -/
def add (z : SortedSet M S) (m : M) (x : S) : SortedSet M S where
  entries := insertEntry (m, x) (z.rem m).entries
  sorted := insertEntry_sorted (z.rem m).sorted (fun _ ha => (mem_entries_rem.mp ha).2)
  nodup := by
    refine (((insertEntry_perm (m, x) (z.rem m).entries).map Prod.fst).nodup_iff).mpr ?_
    refine List.nodup_cons.mpr ⟨fun hm => ?_, (z.rem m).nodup⟩
    obtain ⟨e, he, heq⟩ := List.mem_map.mp hm
    exact (mem_entries_rem.mp he).2 heq

@[simp] theorem score?_add (z : SortedSet M S) (m : M) (x : S) (n : M) :
    (z.add m x).score? n = if n = m then some x else z.score? n := by
  refine Option.ext fun y => ?_
  rw [score?_eq_some]
  have hmem : (n, y) ∈ (z.add m x).entries ↔ (n, y) = (m, x) ∨ (n, y) ∈ (z.rem m).entries :=
    (insertEntry_perm (m, x) (z.rem m).entries).mem_iff.trans List.mem_cons
  rw [hmem, mem_entries_rem]
  by_cases h : n = m
  · simp [h, eq_comm]
  · simp [h, score?_eq_some]

/-! ## 先頭 -/

/-- 先頭の score。空なら `none`。 -/
def minScore? (z : SortedSet M S) : Option S := z.entries.head?.map Prod.snd

/-- `o` は部分関数 `f` の値の最小値である（値が無ければ `none`）。 -/
def IsMinScore (f : M → Option S) : Option S → Prop
  | none => ∀ m, f m = none
  | some x => (∃ m, f m = some x) ∧ ∀ m y, f m = some y → x ≤ y

omit [LinearOrder M] in
theorem IsMinScore.unique {f : M → Option S} : ∀ {o o' : Option S},
    IsMinScore f o → IsMinScore f o' → o = o'
  | none, none, _, _ => rfl
  | none, some _, h, ⟨⟨m, hm⟩, _⟩ => absurd hm (by simp [h m])
  | some _, none, ⟨⟨m, hm⟩, _⟩, h => absurd hm (by simp [h m])
  | some _, some _, ⟨⟨m, hm⟩, hle⟩, ⟨⟨m', hm'⟩, hle'⟩ =>
    congrArg some (le_antisymm (hle m' _ hm') (hle' m _ hm))

/-- **先頭は最小の score である。** -/
theorem minScore?_isMin (z : SortedSet M S) : IsMinScore z.score? z.minScore? := by
  unfold minScore?
  rcases he : z.entries with _ | ⟨⟨m, x⟩, rest⟩
  · exact fun n => score?_eq_none.mpr (by simp [he])
  · have hs := z.sorted
    rw [he] at hs
    refine ⟨⟨m, score?_eq_some.mpr (by simp [he])⟩, fun n y hn => ?_⟩
    have hmem := score?_eq_some.mp hn
    rw [he] at hmem
    rcases List.mem_cons.mp hmem with h | h
    · exact le_of_eq (Prod.mk.injEq .. ▸ h).2.symm
    · exact ((List.pairwise_cons.mp hs).1 _ h).score_le

/-! ## score の上限による切り出し -/

/-- score が `max` 以下の対を、並びの順に取り出す。 -/
def rangeByScore (z : SortedSet M S) (max : S) : List (M × S) :=
  z.entries.filter (fun e => e.2 ≤ max)

theorem mem_rangeByScore {z : SortedSet M S} {max : S} {m : M} {x : S} :
    (m, x) ∈ z.rangeByScore max ↔ z.score? m = some x ∧ x ≤ max := by
  simp [rangeByScore, score?_eq_some]

theorem rangeByScore_nodup (z : SortedSet M S) (max : S) :
    ((z.rangeByScore max).map Prod.fst).Nodup :=
  z.nodup.sublist (List.filter_sublist.map Prod.fst)

/-- 並びの順に閉じた条件で選んだものは、先頭からの一続きである。 -/
theorem filter_eq_take {α : Type} {p : α → Bool} : ∀ {l : List α},
    l.Pairwise (fun a b => p b = true → p a = true) → l.filter p = l.take (l.filter p).length
  | [], _ => rfl
  | a :: l, h => by
    obtain ⟨hhead, htail⟩ := List.pairwise_cons.mp h
    by_cases ha : p a = true
    · rw [List.filter_cons_of_pos ha, List.length_cons, List.take_succ_cons,
        ← filter_eq_take htail]
    · have hnil : l.filter p = [] := by
        refine List.filter_eq_nil_iff.mpr fun b hb hpb => ha (hhead b hb hpb)
      rw [List.filter_cons_of_neg ha, hnil]
      rfl

/-- 上限以下の対は、先頭からの一続きである。 -/
theorem rangeByScore_eq_take (z : SortedSet M S) (max : S) :
    z.rangeByScore max = z.entries.take (z.rangeByScore max).length := by
  refine filter_eq_take (z.sorted.imp fun {a b} hab => ?_)
  rw [decide_eq_true_iff, decide_eq_true_iff]
  exact fun hb => hab.score_le.trans hb

/-- 先頭の `n` 個が全て上限以下であるのは、上限以下の対が `n` 個以上（または全て）のときに限る。 -/
theorem take_le_iff {z : SortedSet M S} {max : S} {n : Nat} (hn : n ≤ z.entries.length) :
    (∀ e ∈ z.entries.take n, e.2 ≤ max) ↔ n ≤ (z.rangeByScore max).length := by
  constructor
  · intro h
    have hfilter : (z.entries.take n).filter (fun e => e.2 ≤ max) = z.entries.take n :=
      List.filter_eq_self.mpr fun e he => decide_eq_true (h e he)
    have hsub := ((List.take_sublist n z.entries).filter fun e => decide (e.2 ≤ max)).length_le
    rw [hfilter, List.length_take, min_eq_left hn] at hsub
    exact hsub
  · intro h e he
    have hmem : e ∈ z.rangeByScore max := by
      rw [rangeByScore_eq_take]
      exact (List.take_subset_take_left _ h) he
    exact of_decide_eq_true (List.mem_filter.mp hmem).2

end SortedSet

end Infra
