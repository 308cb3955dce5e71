import Mathlib.Data.List.Dedup
import Mathlib.Data.List.Induction
import Trigger.Infra.Record

/-!
# 挿入順の Map による分類

列の要素を文字列の鍵で分ける。鍵は初めて現れた順に並び、値はその鍵の要素を元の順に並べた列である
（`get_groupBy`・`mem_groupBy`）。
-/

namespace Infra.JsMap

variable {α : Type}

/-- 鍵ごとに要素を集める。 -/
def groupBy (key : α → String) (l : List α) : JsMap (List α) :=
  l.foldl (fun m a => m.set (key a) ((m.get (key a)).getD [] ++ [a])) []

variable {key : α → String} {l : List α}

theorem groupBy_append_singleton (l : List α) (a : α) : groupBy key (l ++ [a]) =
    (groupBy key l).set (key a) (((groupBy key l).get (key a)).getD [] ++ [a]) := by
  simp [groupBy]

theorem nodup_keys_groupBy (key : α → String) (l : List α) :
    ((groupBy key l).map Prod.fst).Nodup := by
  induction l using List.reverseRecOn with
  | nil => exact List.nodup_nil
  | append_singleton l a ih =>
    rw [groupBy_append_singleton]
    exact nodup_keys_set ih _ _

/-- 一つの鍵の値。 -/
theorem get_groupBy (key : α → String) (l : List α) (k : String) :
    (groupBy key l).get k =
      if l.filter (key · = k) = [] then none else some (l.filter (key · = k)) := by
  induction l using List.reverseRecOn with
  | nil => rfl
  | append_singleton l a ih =>
    rw [groupBy_append_singleton, get_set, List.filter_append]
    by_cases hk : k = key a
    · subst hk
      rw [if_pos rfl, ih]
      split
      · next hnil => simp [hnil]
      · simp
    · rw [if_neg hk, ih]
      simp [Ne.symm hk]

/-- 鍵と値の組。 -/
theorem mem_groupBy {k : String} {as : List α} :
    (k, as) ∈ groupBy key l ↔ as = l.filter (key · = k) ∧ as ≠ [] := by
  constructor
  · intro h
    have hget : (groupBy key l).get k = some as :=
      Record.lookup_of_mem (nodup_keys_groupBy key l) h
    rw [get_groupBy] at hget
    split at hget
    · cases hget
    · next hne =>
      obtain rfl := Option.some.inj hget
      exact ⟨rfl, hne⟩
  · rintro ⟨rfl, hne⟩
    refine mem_of_get ?_
    rw [get_groupBy, if_neg hne]

theorem mem_keys_groupBy {k : String} :
    k ∈ (groupBy key l).map Prod.fst ↔ ∃ a ∈ l, key a = k := by
  constructor
  · intro h
    obtain ⟨⟨k', as⟩, hmem, rfl⟩ := List.mem_map.mp h
    obtain ⟨rfl, hne⟩ := mem_groupBy.mp hmem
    obtain ⟨a, ha⟩ := List.exists_mem_of_ne_nil _ hne
    obtain ⟨ha, hkey⟩ := List.mem_filter.mp ha
    exact ⟨a, ha, of_decide_eq_true hkey⟩
  · rintro ⟨a, ha, rfl⟩
    have hmem : a ∈ l.filter (key · = key a) := List.mem_filter.mpr ⟨ha, decide_eq_true rfl⟩
    exact List.mem_map.mpr ⟨_, mem_groupBy.mpr ⟨rfl, List.ne_nil_of_mem hmem⟩, rfl⟩

/-- 鍵は、列に現れる鍵を一つずつ並べたものである。 -/
theorem keys_groupBy_perm (key : α → String) (l : List α) :
    ((groupBy key l).map Prod.fst).Perm (l.map key).dedup := by
  refine (List.perm_ext_iff_of_nodup (nodup_keys_groupBy key l) (List.nodup_dedup _)).mpr
    fun k => ?_
  rw [mem_keys_groupBy, List.mem_dedup, List.mem_map]

end Infra.JsMap
