import Mathlib.Data.List.Nodup

/-!
# JavaScript の object・Map・配列

`Record` は文字列を key とする object で、key は重複しない。`JsMap` は挿入順を保つ `Map` で、
既にある key への `set` は位置を変えずに値だけを置き換える。
-/

namespace Infra

variable {α : Type}

/-- `Record<string, α>` の自前の property。並びは `Object.entries` の順である。 -/
structure Record (α : Type) where
  entries : List (String × α)
  nodup : (entries.map Prod.fst).Nodup

namespace Record

def empty : Record α := ⟨[], List.nodup_nil⟩

def keys (r : Record α) : List String := r.entries.map Prod.fst

def values (r : Record α) : List α := r.entries.map Prod.snd

/-- 自前の property の値。 -/
def get (r : Record α) (key : String) : Option α := r.entries.lookup key

theorem mem_of_get {r : Record α} {key : String} {a : α} (h : r.get key = some a) :
    (key, a) ∈ r.entries := by
  obtain ⟨l₁, l₂, hl, -⟩ := List.lookup_eq_some_iff.mp h
  rw [hl]
  simp

theorem lookup_of_mem {l : List (String × α)} (hl : (l.map Prod.fst).Nodup) {key : String} {a : α}
    (h : (key, a) ∈ l) : l.lookup key = some a := by
  induction l with
  | nil => cases h
  | cons p l ih =>
    obtain ⟨k, b⟩ := p
    simp only [List.map_cons, List.nodup_cons] at hl
    rw [List.lookup_cons]
    rcases List.mem_cons.mp h with heq | hmem
    · cases heq
      simp
    · have hne : key ≠ k := by
        rintro rfl
        exact hl.1 (List.mem_map_of_mem (f := Prod.fst) hmem)
      rw [beq_false_of_ne hne]
      exact ih hl.2 hmem

end Record

/-! ## 挿入順の Map -/

/-- `Map<string, α>`。 -/
abbrev JsMap (α : Type) := List (String × α)

namespace JsMap

/-- `map.get(key)`。 -/
def get (m : JsMap α) (key : String) : Option α := m.lookup key

/-- `map.set(key, a)`。 -/
def set (m : JsMap α) (key : String) (a : α) : JsMap α :=
  match m with
  | [] => [(key, a)]
  | (k, b) :: rest => if k = key then (k, a) :: rest else (k, b) :: JsMap.set rest key a

theorem get_set_self (m : JsMap α) (key : String) (a : α) : (m.set key a).get key = some a := by
  induction m with
  | nil => simp [set, get]
  | cons p m ih =>
    obtain ⟨k, b⟩ := p
    unfold set
    split
    · next h => subst h; simp [get]
    · next h =>
      unfold get at ih ⊢
      rw [List.lookup_cons, beq_false_of_ne (Ne.symm h)]
      exact ih

theorem get_set_of_ne {m : JsMap α} {key key' : String} (a : α) (h : key' ≠ key) :
    (m.set key a).get key' = m.get key' := by
  induction m with
  | nil => simp [set, get, h]
  | cons p m ih =>
    obtain ⟨k, b⟩ := p
    unfold set
    split
    · next hk =>
      subst hk
      unfold get
      rw [List.lookup_cons, List.lookup_cons, beq_false_of_ne h]
    · simp only [get, List.lookup_cons] at ih ⊢
      rw [ih]

theorem mem_of_get {m : JsMap α} {key : String} {a : α} (h : m.get key = some a) :
    (key, a) ∈ m := by
  obtain ⟨l₁, l₂, hl, -⟩ := List.lookup_eq_some_iff.mp h
  rw [hl]
  simp

theorem mem_set {m : JsMap α} {key k : String} {a b : α} (h : (k, b) ∈ m.set key a) :
    (k, b) ∈ m ∨ (k = key ∧ b = a) := by
  induction m with
  | nil => simp [set] at h; exact .inr h
  | cons p m ih =>
    obtain ⟨k', b'⟩ := p
    unfold set at h
    split at h
    · next hk =>
      rcases List.mem_cons.mp h with heq | hmem
      · cases heq; exact .inr ⟨hk, rfl⟩
      · exact .inl (List.mem_cons_of_mem _ hmem)
    · rcases List.mem_cons.mp h with heq | hmem
      · cases heq; exact .inl List.mem_cons_self
      · rcases ih hmem with hm | hm
        · exact .inl (List.mem_cons_of_mem _ hm)
        · exact .inr hm

/-- `map.delete(key)`。 -/
def delete (m : JsMap α) (key : String) : JsMap α := m.filter (·.1 ≠ key)

theorem get_delete (m : JsMap α) (key key' : String) :
    (m.delete key).get key' = if key' = key then none else m.get key' := by
  induction m with
  | nil => simp [delete, get]
  | cons p m ih =>
    obtain ⟨k, b⟩ := p
    unfold delete get at ih ⊢
    by_cases hk : k = key
    · subst hk
      rw [List.filter_cons_of_neg (by simp), ih, List.lookup_cons]
      by_cases h : key' = k
      · simp [h]
      · rw [beq_false_of_ne h]
    · rw [List.filter_cons_of_pos (by simpa using hk), List.lookup_cons, List.lookup_cons]
      by_cases h : key' = k
      · subst h
        simp [hk]
      · rw [beq_false_of_ne h]
        exact ih

theorem set_cons (k key : String) (a b : α) (m : JsMap α) :
    set ((k, b) :: m) key a = if k = key then (k, a) :: m else (k, b) :: m.set key a := rfl

theorem delete_set (m : JsMap α) (key key' : String) (a : α) :
    (m.set key' a).delete key = if key' = key then m.delete key else (m.delete key).set key' a := by
  induction m with
  | nil =>
    by_cases h : key' = key
    · simp [set, delete, h]
    · simp [set, delete, h]
  | cons p m ih =>
    obtain ⟨k, b⟩ := p
    unfold delete at ih ⊢
    rw [set_cons]
    by_cases hk : k = key'
    · subst hk
      by_cases h : k = key
      · simp [h]
      · simp [h, set_cons]
    · rw [if_neg hk]
      by_cases h : k = key
      · rw [List.filter_cons_of_neg (by simp [h]), List.filter_cons_of_neg (by simp [h]), ih]
      · rw [List.filter_cons_of_pos (by simp [h]), List.filter_cons_of_pos (by simp [h]), ih]
        by_cases hkey : key' = key
        · rw [if_pos hkey, if_pos hkey]
        · rw [if_neg hkey, if_neg hkey, set_cons, if_neg hk]

theorem get_set (m : JsMap α) (key key' : String) (a : α) :
    (m.set key a).get key' = if key' = key then some a else m.get key' := by
  by_cases h : key' = key
  · rw [if_pos h, h, get_set_self]
  · rw [if_neg h, get_set_of_ne a h]

theorem mem_keys_set {m : JsMap α} {key k : String} {a : α} :
    k ∈ (m.set key a).map Prod.fst ↔ k = key ∨ k ∈ m.map Prod.fst := by
  induction m with
  | nil => simp [set]
  | cons p m ih =>
    obtain ⟨k', b⟩ := p
    unfold set
    split
    · next hk =>
      subst hk
      simp only [List.map_cons, List.mem_cons, or_self_left]
    · simp only [List.map_cons, List.mem_cons, ih]
      exact or_left_comm

/-- key の並びは、値に依らない。 -/
theorem keys_set_congr {m m' : JsMap α} (h : m.map Prod.fst = m'.map Prod.fst) (key : String)
    (a a' : α) : (m.set key a).map Prod.fst = (m'.set key a').map Prod.fst := by
  induction m generalizing m' with
  | nil =>
    rw [List.map_nil] at h
    rw [List.map_eq_nil_iff.mp h.symm]
    rfl
  | cons p m ih =>
    obtain ⟨k, b⟩ := p
    obtain ⟨⟨k', b'⟩, m', rfl, hk, hm⟩ := List.map_eq_cons_iff.mp h.symm
    obtain rfl : k' = k := hk
    unfold set
    by_cases heq : k' = key
    · rw [if_pos heq, if_pos heq, List.map_cons, List.map_cons, hm]
    · rw [if_neg heq, if_neg heq, List.map_cons, List.map_cons, ih hm.symm]

/-- key の並びが同じで重ならないなら、値で決まる。 -/
theorem ext_get {m m' : JsMap α} (h : m.map Prod.fst = m'.map Prod.fst)
    (hnodup : (m.map Prod.fst).Nodup) (hget : ∀ key, m.get key = m'.get key) : m = m' := by
  induction m generalizing m' with
  | nil => exact (List.map_eq_nil_iff.mp h.symm).symm
  | cons p m ih =>
    obtain ⟨k, b⟩ := p
    obtain ⟨⟨k', b'⟩, m', rfl, hk, hm⟩ := List.map_eq_cons_iff.mp h.symm
    obtain rfl : k' = k := hk
    rw [List.map_cons, List.nodup_cons] at hnodup
    have hb : b = b' := by simpa [get] using hget k'
    have hrest : m = m' := by
      refine ih hm.symm hnodup.2 fun key => ?_
      by_cases heq : key = k'
      · -- 残りには `k'` が無い
        have hnot : ∀ l : JsMap α, k' ∉ l.map Prod.fst → l.get k' = none := fun l hl =>
          List.lookup_eq_none_iff.mpr fun p hp =>
            bne_iff_ne.mpr fun h => hl (h ▸ List.mem_map_of_mem hp)
        rw [heq, hnot m hnodup.1, hnot m' (hm ▸ hnodup.1)]
      · simpa [get, List.lookup_cons, beq_false_of_ne heq] using hget key
    rw [hb, hrest]

theorem nodup_keys_set {m : JsMap α} (h : (m.map Prod.fst).Nodup) (key : String) (a : α) :
    ((m.set key a).map Prod.fst).Nodup := by
  induction m with
  | nil => simp [set]
  | cons p m ih =>
    obtain ⟨k, b⟩ := p
    rw [List.map_cons, List.nodup_cons] at h
    unfold set
    split
    · exact List.nodup_cons.mpr h
    · next hk =>
      refine List.nodup_cons.mpr ⟨fun hmem => ?_, ih h.2⟩
      rcases mem_keys_set.mp hmem with heq | hmem
      · exact hk heq
      · exact h.1 hmem

end JsMap

/-! ## 配列の一つの位置 -/

/-- 配列を一つの要素の前後に分ける。 -/
theorem getElem?_split {l : List α} {i : Nat} {a : α} (hi : l[i]? = some a) :
    ∃ l₁ l₂, l = l₁ ++ a :: l₂ ∧ l.eraseIdx i = l₁ ++ l₂ ∧ ∀ b, l.set i b = l₁ ++ b :: l₂ := by
  obtain ⟨hlt, hget⟩ := List.getElem?_eq_some_iff.mp hi
  refine ⟨l.take i, l.drop (i + 1), ?_, List.eraseIdx_eq_take_drop_succ l i, fun b => ?_⟩
  · rw [← hget, List.getElem_cons_drop, List.take_append_drop]
  · exact List.set_eq_take_append_cons_drop.trans (if_pos hlt)

theorem mem_set_of_getElem? {l : List α} {i : Nat} {a b : α} (hi : l[i]? = some a) : b ∈ l.set i b :=
  List.mem_set (List.getElem?_eq_some_iff.mp hi).1 b

/-- 書き換えた位置に無い要素は残る。 -/
theorem mem_set_of_ne {l : List α} {i : Nat} {a a' b : α} (hi : l[i]? = some a) (hb : b ∈ l)
    (hne : b ≠ a) : b ∈ l.set i a' := by
  obtain ⟨j, hj⟩ := List.getElem?_of_mem hb
  have hij : i ≠ j := by
    rintro rfl
    exact hne (Option.some.inj (hj.symm.trans hi))
  exact List.mem_of_getElem? ((List.getElem?_set_ne hij).trans hj)

/-- 同じ値を書いても変わらない。 -/
theorem set_of_getElem? {l : List α} {i : Nat} {a : α} (hi : l[i]? = some a) : l.set i a = l := by
  obtain ⟨hlt, hget⟩ := List.getElem?_eq_some_iff.mp hi
  rw [← hget]
  exact List.set_getElem_self hlt

/-- 一つだけ置き換えた配列の個数。 -/
theorem countP_set_add {p : α → Bool} {l : List α} {i : Nat} {a : α} (hi : l[i]? = some a) (b : α) :
    (l.set i b).countP p + (if p a then 1 else 0) = l.countP p + if p b then 1 else 0 := by
  obtain ⟨hlt, rfl⟩ := List.getElem?_eq_some_iff.mp hi
  have hle := List.boole_getElem_le_countP (p := p) hlt
  rw [List.countP_set hlt]
  omega

end Infra
