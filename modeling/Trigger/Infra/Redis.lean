import Mathlib.Algebra.Order.Ring.Rat
import Mathlib.Data.Finset.Card
import Mathlib.Data.String.Basic
import Trigger.Infra.SortedSet

/-!
# Redis の keyspace と script

一つの key は、文字列・整列集合・集合・list のどれか一つを持つ。空になった集合は key ごと消える。
この二つを、型ごとの view（key から値への全域関数）と「空でない view は高々一つ」という field で
表す。空の値を持つ key は作れないので、「key が無い」と「空である」は同じことになる。

script は途中で error になっても、それまでの書き込みを巻き戻さない。`Script` はその通りに、
結果と最後の状態の両方を返す。性質は `wp`（結果と状態についての最弱事前条件）で述べる。
-/

namespace Infra.Redis

/-- 整列集合。要素は文字列、score は有限の数である。 -/
abbrev ZSet := SortedSet String ℚ

/-- command が返す error。 -/
inductive Error
  | wrongType
  | notInteger
  | script (message : String)
deriving DecidableEq, Repr

/-! ## 状態 -/

/-- keyspace。`β` は文字列型の key が持つ値。 -/
structure Db (β : Type) where
  strs : String → Option β
  zsets : String → ZSet
  sets : String → Finset String
  lists : String → List String
  str_excl : ∀ k, strs k ≠ none → zsets k = ∅ ∧ sets k = ∅ ∧ lists k = []
  zset_excl : ∀ k, zsets k ≠ ∅ → sets k = ∅ ∧ lists k = []
  set_excl : ∀ k, sets k ≠ ∅ → lists k = []

namespace Db

variable {β : Type}

/-- 空の keyspace。 -/
def empty : Db β where
  strs _ := none
  zsets _ := ∅
  sets _ := ∅
  lists _ := []
  str_excl _ h := absurd rfl h
  zset_excl _ h := absurd rfl h
  set_excl _ h := absurd rfl h

/-- key を整列集合として使える（無いか、整列集合である）。 -/
def ZTyped (s : Db β) (k : String) : Prop := s.strs k = none ∧ s.sets k = ∅ ∧ s.lists k = []

/-- key を集合として使える。 -/
def STyped (s : Db β) (k : String) : Prop := s.strs k = none ∧ s.zsets k = ∅ ∧ s.lists k = []

/-- key を list として使える。 -/
def LTyped (s : Db β) (k : String) : Prop := s.strs k = none ∧ s.zsets k = ∅ ∧ s.sets k = ∅

/-- key を文字列として読める。 -/
def StrTyped (s : Db β) (k : String) : Prop := s.zsets k = ∅ ∧ s.sets k = ∅ ∧ s.lists k = []

instance (s : Db β) (k : String) : Decidable (s.ZTyped k) :=
  decidable_of_iff ((s.strs k).isNone = true ∧ s.sets k = ∅ ∧ s.lists k = []) (by simp [ZTyped])

instance (s : Db β) (k : String) : Decidable (s.STyped k) :=
  decidable_of_iff ((s.strs k).isNone = true ∧ s.zsets k = ∅ ∧ s.lists k = []) (by simp [STyped])

instance (s : Db β) (k : String) : Decidable (s.LTyped k) :=
  decidable_of_iff ((s.strs k).isNone = true ∧ s.zsets k = ∅ ∧ s.sets k = ∅) (by simp [LTyped])

instance (s : Db β) (k : String) : Decidable (s.StrTyped k) :=
  inferInstanceAs (Decidable (_ ∧ _))

/-- 型の合わない整列集合は空に見える。 -/
theorem zsets_eq_empty {s : Db β} {k : String} (h : ¬ s.ZTyped k) : s.zsets k = ∅ := by
  by_contra hz
  refine h ⟨?_, s.zset_excl k hz⟩
  by_contra hs
  exact hz (s.str_excl k hs).1

theorem sets_eq_empty {s : Db β} {k : String} (h : ¬ s.STyped k) : s.sets k = ∅ := by
  by_contra hz
  refine h ⟨?_, ?_, s.set_excl k hz⟩
  · by_contra hs
    exact hz (s.str_excl k hs).2.1
  · by_contra hs
    exact hz (s.zset_excl k hs).1

/-! ### 一つの key の書き換え -/

/-- 整列集合を置き換える。 -/
def setZ (s : Db β) (k : String) (z : ZSet) (h : s.ZTyped k) : Db β where
  strs := s.strs
  zsets := Function.update s.zsets k z
  sets := s.sets
  lists := s.lists
  str_excl k' hs := by
    by_cases hk : k' = k
    · exact absurd (hk ▸ h.1) hs
    · rw [Function.update_of_ne hk]
      exact s.str_excl k' hs
  zset_excl k' hz := by
    by_cases hk : k' = k
    · exact hk ▸ h.2
    · rw [Function.update_of_ne hk] at hz
      exact s.zset_excl k' hz
  set_excl := s.set_excl

/-- 集合を置き換える。 -/
def setS (s : Db β) (k : String) (t : Finset String) (h : s.STyped k) : Db β where
  strs := s.strs
  zsets := s.zsets
  sets := Function.update s.sets k t
  lists := s.lists
  str_excl k' hs := by
    by_cases hk : k' = k
    · exact absurd (hk ▸ h.1) hs
    · rw [Function.update_of_ne hk]
      exact s.str_excl k' hs
  zset_excl k' hz := by
    by_cases hk : k' = k
    · exact absurd (hk ▸ h.2.1) hz
    · rw [Function.update_of_ne hk]
      exact s.zset_excl k' hz
  set_excl k' ht := by
    by_cases hk : k' = k
    · exact hk ▸ h.2.2
    · rw [Function.update_of_ne hk] at ht
      exact s.set_excl k' ht

/-- list を置き換える。 -/
def setL (s : Db β) (k : String) (l : List String) (h : s.LTyped k) : Db β where
  strs := s.strs
  zsets := s.zsets
  sets := s.sets
  lists := Function.update s.lists k l
  str_excl k' hs := by
    by_cases hk : k' = k
    · exact absurd (hk ▸ h.1) hs
    · rw [Function.update_of_ne hk]
      exact s.str_excl k' hs
  zset_excl k' hz := by
    by_cases hk : k' = k
    · exact absurd (hk ▸ h.2.1) hz
    · rw [Function.update_of_ne hk]
      exact s.zset_excl k' hz
  set_excl k' ht := by
    by_cases hk : k' = k
    · exact absurd (hk ▸ h.2.2) ht
    · rw [Function.update_of_ne hk]
      exact s.set_excl k' ht

/-- key を、型によらず文字列 `v` で上書きする。`none` なら消す。 -/
def setStr (s : Db β) (k : String) (v : Option β) : Db β where
  strs := Function.update s.strs k v
  zsets := Function.update s.zsets k ∅
  sets := Function.update s.sets k ∅
  lists := Function.update s.lists k []
  str_excl k' hs := by
    by_cases hk : k' = k
    · subst hk
      simp
    · simp only [Function.update_of_ne hk] at hs ⊢
      exact s.str_excl k' hs
  zset_excl k' hz := by
    by_cases hk : k' = k
    · subst hk
      simp
    · simp only [Function.update_of_ne hk] at hz ⊢
      exact s.zset_excl k' hz
  set_excl k' ht := by
    by_cases hk : k' = k
    · subst hk
      simp
    · simp only [Function.update_of_ne hk] at ht ⊢
      exact s.set_excl k' ht

section Views

variable (s : Db β) (k : String)

@[simp] theorem empty_strs : (empty : Db β).strs k = none := rfl
@[simp] theorem empty_zsets : (empty : Db β).zsets k = ∅ := rfl
@[simp] theorem empty_sets : (empty : Db β).sets k = ∅ := rfl
@[simp] theorem empty_lists : (empty : Db β).lists k = [] := rfl

variable (z : ZSet) (hz : s.ZTyped k) (t : Finset String) (ht : s.STyped k) (l : List String)
  (hl : s.LTyped k) (v : Option β)

@[simp] theorem setZ_strs : (s.setZ k z hz).strs = s.strs := rfl
@[simp] theorem setZ_zsets : (s.setZ k z hz).zsets = Function.update s.zsets k z := rfl
@[simp] theorem setZ_sets : (s.setZ k z hz).sets = s.sets := rfl
@[simp] theorem setZ_lists : (s.setZ k z hz).lists = s.lists := rfl
@[simp] theorem setS_strs : (s.setS k t ht).strs = s.strs := rfl
@[simp] theorem setS_zsets : (s.setS k t ht).zsets = s.zsets := rfl
@[simp] theorem setS_sets : (s.setS k t ht).sets = Function.update s.sets k t := rfl
@[simp] theorem setS_lists : (s.setS k t ht).lists = s.lists := rfl
@[simp] theorem setL_strs : (s.setL k l hl).strs = s.strs := rfl
@[simp] theorem setL_zsets : (s.setL k l hl).zsets = s.zsets := rfl
@[simp] theorem setL_sets : (s.setL k l hl).sets = s.sets := rfl
@[simp] theorem setL_lists : (s.setL k l hl).lists = Function.update s.lists k l := rfl
@[simp] theorem setStr_strs : (s.setStr k v).strs = Function.update s.strs k v := rfl
@[simp] theorem setStr_zsets : (s.setStr k v).zsets = Function.update s.zsets k ∅ := rfl
@[simp] theorem setStr_sets : (s.setStr k v).sets = Function.update s.sets k ∅ := rfl
@[simp] theorem setStr_lists : (s.setStr k v).lists = Function.update s.lists k [] := rfl

end Views

end Db

/-! ## script -/

/-- script。error のときも最後の状態を返す。 -/
def Script (β α : Type) : Type := Db β → Except Error α × Db β

namespace Script

variable {β α γ : Type}

/-- 続きの計算。error なら続きは走らず、それまでの書き込みが残る。 -/
def bind (c : Script β α) (f : α → Script β γ) : Script β γ := fun s =>
  match c s with
  | (.ok a, s') => f a s'
  | (.error e, s') => (.error e, s')

instance : Monad (Script β) where
  pure a := fun s => (.ok a, s)
  bind := bind

/-- error で止まる。 -/
def fail (e : Error) : Script β α := fun s => (.error e, s)

/-- 結果と最後の状態が `Q` を満たす。 -/
def wp (c : Script β α) (Q : Except Error α → Db β → Prop) (s : Db β) : Prop := Q (c s).1 (c s).2

variable {s : Db β} {Q : Except Error α → Db β → Prop}

@[simp] theorem wp_pure {a : α} : wp (pure a : Script β α) Q s ↔ Q (.ok a) s := Iff.rfl

@[simp] theorem wp_fail {e : Error} : wp (fail e : Script β α) Q s ↔ Q (.error e) s := Iff.rfl

/-- `bind` の規則。成功した結果ごとに続きを示し、error はそのまま渡る。 -/
theorem wp_bind {c : Script β γ} {f : γ → Script β α}
    (h : wp c (fun r s' => match r with
      | .ok a => wp (f a) Q s'
      | .error e => Q (.error e) s') s) : wp (c >>= f) Q s := by
  change wp (bind c f) Q s
  unfold wp bind
  unfold wp at h
  rcases hc : c s with ⟨r | a, s'⟩ <;> simpa [hc] using h

theorem wp_mono {c : Script β α} {Q' : Except Error α → Db β → Prop}
    (h : wp c Q s) (hQ : ∀ r s', Q r s' → Q' r s') : wp c Q' s := hQ _ _ h

theorem wp_and {c : Script β α} {Q' : Except Error α → Db β → Prop} (h : wp c Q s)
    (h' : wp c Q' s) : wp c (fun r s' => Q r s' ∧ Q' r s') s := ⟨h, h'⟩

end Script

/-! ## 遷移の関係を守る script -/

/-- どの状態から走っても、前後の状態が `R` の関係にある。 -/
def Script.Respects {β α : Type} (R : Db β → Db β → Prop) (c : Script β α) : Prop :=
  ∀ s, R s (c s).2

section Respects

open Script

variable {β α γ : Type} {R : Db β → Db β → Prop}

theorem Script.Respects.bind (htrans : ∀ {a b c}, R a b → R b c → R a c) {c : Script β α}
    {f : α → Script β γ} (hc : c.Respects R) (hf : ∀ a, (f a).Respects R) :
    (c >>= f).Respects R := by
  intro s
  have h : wp (c >>= f) (fun _ s' => R s s') s := by
    refine wp_bind (wp_mono (show wp c (fun _ s' => R s s') s from hc s) fun r s' h => ?_)
    rcases r with e | a
    · exact h
    · exact htrans h (hf a s')
  exact h

end Respects

/-! ## command -/

section Commands

variable {β α : Type}

/-- 型検査つきの command。`P` でなければ `WRONGTYPE` で、状態は変わらない。 -/
def guarded (P : Db β → Prop) [DecidablePred P] (f : ∀ s, P s → α × Db β) : Script β α := fun s =>
  if h : P s then (.ok (f s h).1, (f s h).2) else (.error .wrongType, s)

/-- `GET`。 -/
def get (k : String) : Script β (Option β) := guarded (·.StrTyped k) fun s _ => (s.strs k, s)

/-- `SET`。元の型によらず上書きする。 -/
def set (k : String) (v : β) : Script β Unit := fun s => (.ok (), s.setStr k (some v))

/-- `DEL`。 -/
def del (k : String) : Script β Unit := fun s => (.ok (), s.setStr k none)

/-- `ZADD`。 -/
def zadd (k : String) (x : ℚ) (m : String) : Script β Unit :=
  guarded (·.ZTyped k) fun s h => ((), s.setZ k ((s.zsets k).add m x) h)

/-- `ZREM`。取り除いた要素の数を返す。 -/
def zrem (k : String) (m : String) : Script β Nat := guarded (·.ZTyped k) fun s h =>
  (if ((s.zsets k).score? m).isSome then 1 else 0, s.setZ k ((s.zsets k).rem m) h)

/-- `ZRANGE k 0 0 WITHSCORES`。 -/
def zfirst (k : String) : Script β (Option (String × ℚ)) :=
  guarded (·.ZTyped k) fun s _ => ((s.zsets k).entries.head?, s)

/-- `ZRANGE k 0 stop WITHSCORES`。負の `stop` は末尾から数える。 -/
def zrange (k : String) (stop : Int) : Script β (List (String × ℚ)) :=
  guarded (·.ZTyped k) fun s _ =>
    let entries := (s.zsets k).entries
    (entries.take (if stop < 0 then (entries.length : Int) + stop + 1 else stop + 1).toNat, s)

/-- `LIMIT 0 count` の切り出し。負の `count` は「上限なし」である。 -/
def limitTo (count : ℚ) (l : List α) : List α :=
  if count.num < 0 then l else l.take count.num.toNat

theorem mem_of_mem_limitTo {count : ℚ} {l : List α} {a : α} (h : a ∈ limitTo count l) : a ∈ l := by
  unfold limitTo at h
  split at h
  · exact h
  · exact List.mem_of_mem_take h

/-- `ZRANGEBYSCORE k -inf max WITHSCORES LIMIT 0 count`。`count` は型検査より先に整数として
読まれ、整数でなければ error になる。 -/
def zrangebyscore (k : String) (max : ℚ) (count : ℚ) : Script β (List (String × ℚ)) :=
  if count.den = 1 then
    guarded (·.ZTyped k) fun s _ => (limitTo count ((s.zsets k).rangeByScore max), s)
  else Script.fail .notInteger

/-- `ZCOUNT k -inf max`。 -/
def zcount (k : String) (max : ℚ) : Script β Nat :=
  guarded (·.ZTyped k) fun s _ => (((s.zsets k).rangeByScore max).length, s)

/-- `SADD`。 -/
def sadd (k : String) (m : String) : Script β Unit :=
  guarded (·.STyped k) fun s h => ((), s.setS k (insert m (s.sets k)) h)

/-- `SREM`。 -/
def srem (k : String) (m : String) : Script β Unit :=
  guarded (·.STyped k) fun s h => ((), s.setS k ((s.sets k).erase m) h)

/-- `SCARD`。 -/
def scard (k : String) : Script β Nat := guarded (·.STyped k) fun s _ => ((s.sets k).card, s)

/-- `RPUSH`。 -/
def rpush (k : String) (v : String) : Script β Unit :=
  guarded (·.LTyped k) fun s h => ((), s.setL k (s.lists k ++ [v]) h)

/-- `LPOP`。 -/
def lpop (k : String) : Script β (Option String) :=
  guarded (·.LTyped k) fun s h => ((s.lists k).head?, s.setL k (s.lists k).tail h)

/-- `LREM k 0 v`。一致する要素を全て取り除く。 -/
def lrem (k : String) (v : String) : Script β Unit :=
  guarded (·.LTyped k) fun s h => ((), s.setL k ((s.lists k).filter (· ≠ v)) h)

/-- `LLEN`。 -/
def llen (k : String) : Script β Nat := guarded (·.LTyped k) fun s _ => ((s.lists k).length, s)

end Commands

/-! ## command の規則

書き込む command の規則は、成功したときの状態を `setZ` / `setS` / `setL` / `setStr` で名指し、
error のときは状態が変わらないことを言う。 -/

section Rules

open Script

variable {β α : Type} {s : Db β} {k m : String} {x : ℚ}

/-- 型検査つきの command の規則。以下の規則は全てこの場合である。 -/
theorem wp_guarded {P : Db β → Prop} [DecidablePred P] {f : ∀ s, P s → α × Db β}
    {Q : Except Error α → Db β → Prop} (hok : ∀ h : P s, Q (.ok (f s h).1) (f s h).2)
    (herr : ¬ P s → Q (.error .wrongType) s) : wp (guarded P f) Q s := by
  unfold wp guarded
  split
  · next h => exact hok h
  · next h => exact herr h

theorem respects_guarded {R : Db β → Db β → Prop} (hrefl : ∀ s, R s s) {P : Db β → Prop}
    [DecidablePred P] {f : ∀ s, P s → α × Db β} (hf : ∀ s h, R s (f s h).2) :
    (guarded P f).Respects R := fun s =>
  wp_guarded (Q := fun _ s' => R s s') (fun h => hf s h) (fun _ => hrefl s)

theorem wp_get {Q : Except Error (Option β) → Db β → Prop}
    (hok : s.StrTyped k → Q (.ok (s.strs k)) s) (herr : ¬ s.StrTyped k → Q (.error .wrongType) s) :
    wp (get k) Q s := wp_guarded hok herr

theorem wp_set {v : β} {Q : Except Error Unit → Db β → Prop}
    (hok : Q (.ok ()) (s.setStr k (some v))) : wp (set k v) Q s := hok

theorem wp_del {Q : Except Error Unit → Db β → Prop}
    (hok : Q (.ok ()) (s.setStr k none)) : wp (del k) Q s := hok

theorem wp_zadd {Q : Except Error Unit → Db β → Prop}
    (hok : ∀ h : s.ZTyped k, Q (.ok ()) (s.setZ k ((s.zsets k).add m x) h))
    (herr : ¬ s.ZTyped k → Q (.error .wrongType) s) : wp (zadd k x m) Q s := wp_guarded hok herr

theorem wp_zrem {Q : Except Error Nat → Db β → Prop}
    (hok : ∀ h : s.ZTyped k, Q (.ok (if ((s.zsets k).score? m).isSome then 1 else 0))
      (s.setZ k ((s.zsets k).rem m) h))
    (herr : ¬ s.ZTyped k → Q (.error .wrongType) s) : wp (zrem k m) Q s := wp_guarded hok herr

theorem wp_zfirst {Q : Except Error (Option (String × ℚ)) → Db β → Prop}
    (hok : s.ZTyped k → Q (.ok (s.zsets k).entries.head?) s)
    (herr : ¬ s.ZTyped k → Q (.error .wrongType) s) : wp (zfirst k) Q s := wp_guarded hok herr

theorem wp_zrangebyscore {count : ℚ} {Q : Except Error (List (String × ℚ)) → Db β → Prop}
    (hok : count.den = 1 → s.ZTyped k →
      Q (.ok (limitTo count ((s.zsets k).rangeByScore x))) s)
    (hint : count.den ≠ 1 → Q (.error .notInteger) s)
    (herr : ¬ s.ZTyped k → Q (.error .wrongType) s) : wp (zrangebyscore k x count) Q s := by
  unfold zrangebyscore
  split
  · next h => exact wp_guarded (hok h) herr
  · next h => exact hint h

theorem wp_sadd {Q : Except Error Unit → Db β → Prop}
    (hok : ∀ h : s.STyped k, Q (.ok ()) (s.setS k (insert m (s.sets k)) h))
    (herr : ¬ s.STyped k → Q (.error .wrongType) s) : wp (sadd k m) Q s := wp_guarded hok herr

theorem wp_srem {Q : Except Error Unit → Db β → Prop}
    (hok : ∀ h : s.STyped k, Q (.ok ()) (s.setS k ((s.sets k).erase m) h))
    (herr : ¬ s.STyped k → Q (.error .wrongType) s) : wp (srem k m) Q s := wp_guarded hok herr

theorem wp_scard {Q : Except Error Nat → Db β → Prop}
    (hok : s.STyped k → Q (.ok (s.sets k).card) s)
    (herr : ¬ s.STyped k → Q (.error .wrongType) s) : wp (scard k) Q s := wp_guarded hok herr

end Rules

end Infra.Redis
