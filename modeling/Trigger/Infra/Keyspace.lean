import Mathlib.Data.Set.Function
import Trigger.Infra.Record
import Trigger.Infra.Redis

/-!
# 型つきの key で書いた script

script は、種類（整列集合・hash・集合・list）のついた key に触れる計算 `Prog` として一度だけ書く。
それを二通りに走らせる。

* `run` — key ごとに値を持つ `Store` の上で走る。種類が合わないことは起こらない。
* `runText` — key を文字列に写した keyspace `Db` の上で走る。同じ文字列を別の種類で使うと `WRONGTYPE` で
  止まり、それまでの書き込みは残る。

key の文字列が重ならない範囲では、二つは同じ答えを返す（`runText_eq`）。性質は `run` の側で証明し、
文字列の側へはこの定理で移す。
-/

namespace Infra.Keyspace

open Infra.Redis (ZSet)

/-! ## 種類と値 -/

inductive Kind
  | zset
  | hash
  | set
  | list
deriving DecidableEq

/-- 種類ごとの値。`β` は hash の値。 -/
abbrev Val (β : Type) : Kind → Type
  | .zset => ZSet
  | .hash => JsMap β
  | .set => Finset String
  | .list => List String

variable {β : Type}

/-- 空の値。key が無いときの値でもある。 -/
def Val.empty : (κ : Kind) → Val β κ
  | .zset => (∅ : ZSet)
  | .hash => ([] : List (String × β))
  | .set => (∅ : Finset String)
  | .list => ([] : List String)

def Val.isEmpty : (κ : Kind) → Val β κ → Bool
  | .zset, z => z.entries.isEmpty
  | .hash, h => List.isEmpty h
  | .set, s => decide (s = ∅)
  | .list, l => List.isEmpty l

theorem Val.isEmpty_iff : ∀ {κ : Kind} {v : Val β κ}, Val.isEmpty κ v = true ↔ v = Val.empty κ
  | .zset, z => by
    rw [show Val.isEmpty .zset z = z.entries.isEmpty from rfl, List.isEmpty_iff]
    exact SortedSet.eq_empty_iff.symm
  | .hash, _ => List.isEmpty_iff
  | .set, _ => decide_eq_true_iff
  | .list, _ => List.isEmpty_iff

/-! ## 計算 -/

/-- 種類つきの key の族 `K` に触れる計算。`access` は一つの key を読み、書き換え、元の値を続きに渡す。 -/
inductive Prog (β : Type) (K : Kind → Type) (α : Type) : Type
  | pure (a : α)
  | access {κ : Kind} (k : K κ) (write : Val β κ → Val β κ) (next : Val β κ → Prog β K α)

variable {K : Kind → Type} {α γ : Type}

namespace Prog

def bind : Prog β K α → (α → Prog β K γ) → Prog β K γ
  | .pure a, f => f a
  | .access k write next, f => .access k write fun v => (next v).bind f

instance : Monad (Prog β K) where
  pure := .pure
  bind := bind

/-- 読むだけの command。 -/
def query {κ : Kind} (k : K κ) (f : Val β κ → α) : Prog β K α := .access k id fun v => .pure (f v)

/-- 書くだけの command。 -/
def modify {κ : Kind} (k : K κ) (write : Val β κ → Val β κ) : Prog β K Unit :=
  .access k write fun _ => .pure ()

/-- `U` の外の key に触れない。 -/
def Uses (U : Set (Sigma K)) : Prog β K α → Prop
  | .pure _ => True
  | .access k _ next => ⟨_, k⟩ ∈ U ∧ ∀ v, (next v).Uses U

variable {U : Set (Sigma K)}

theorem Uses.pure (a : α) : (Pure.pure a : Prog β K α).Uses U := trivial

theorem Uses.bind : ∀ {p : Prog β K α} {f : α → Prog β K γ}, p.Uses U → (∀ a, (f a).Uses U) →
    (p >>= f).Uses U
  | .pure a, _, _, hf => hf a
  | .access _ _ _, _, hp, hf => ⟨hp.1, fun v => Uses.bind (hp.2 v) hf⟩

theorem Uses.query {κ : Kind} {k : K κ} {f : Val β κ → α} (h : ⟨κ, k⟩ ∈ U) :
    (Prog.query k f).Uses U := ⟨h, fun _ => trivial⟩

theorem Uses.modify {κ : Kind} {k : K κ} {write : Val β κ → Val β κ} (h : ⟨κ, k⟩ ∈ U) :
    (Prog.modify k write).Uses U := ⟨h, fun _ => trivial⟩

theorem Uses.mono {U' : Set (Sigma K)} (h : U ⊆ U') : ∀ {p : Prog β K α}, p.Uses U → p.Uses U'
  | .pure _, _ => trivial
  | .access _ _ _, hp => ⟨h hp.1, fun v => Uses.mono h (hp.2 v)⟩

end Prog

/-! ## 型つきの状態 -/

/-- key ごとの値。 -/
def Store (β : Type) (K : Kind → Type) : Type := ∀ p : Sigma K, Val β p.1

namespace Store

variable [DecidableEq (Sigma K)]

/-- 全ての key が空である。 -/
def empty : Store β K := fun p => Val.empty p.1

def get {κ : Kind} (s : Store β K) (k : K κ) : Val β κ := s ⟨κ, k⟩

def set {κ : Kind} (s : Store β K) (k : K κ) (v : Val β κ) : Store β K := Function.update s ⟨κ, k⟩ v

omit [DecidableEq (Sigma K)] in
@[simp] theorem get_empty {κ : Kind} (k : K κ) : (empty : Store β K).get k = Val.empty κ := rfl

variable {κ κ' : Kind} (s : Store β K) (k : K κ) (v : Val β κ)

@[simp] theorem get_set_self : (s.set k v).get k = v := Function.update_self ..

theorem get_set_of_ne {k' : K κ'} (h : (⟨κ', k'⟩ : Sigma K) ≠ ⟨κ, k⟩) :
    (s.set k v).get k' = s.get k' := Function.update_of_ne h ..

@[simp] theorem set_get : s.set k (s.get k) = s := Function.update_eq_self ..

end Store

namespace Prog

variable [DecidableEq (Sigma K)]

/-- 型つきの状態の上での実行。 -/
def run : Prog β K α → Store β K → α × Store β K
  | .pure a, s => (a, s)
  | .access k write next, s => (next (s.get k)).run (s.set k (write (s.get k)))

@[simp] theorem run_pure (a : α) (s : Store β K) : (Pure.pure a : Prog β K α).run s = (a, s) := rfl

@[simp] theorem run_bind : ∀ (p : Prog β K α) (f : α → Prog β K γ) (s : Store β K),
    (p >>= f).run s = (f (p.run s).1).run (p.run s).2
  | .pure _, _, _ => rfl
  | .access _ _ next, f, _ => run_bind (next _) f _

@[simp] theorem run_query {κ : Kind} (k : K κ) (f : Val β κ → α) (s : Store β K) :
    (Prog.query k f).run s = (f (s.get k), s) := by
  show (f (s.get k), s.set k (s.get k)) = _
  rw [Store.set_get]

@[simp] theorem run_modify {κ : Kind} (k : K κ) (write : Val β κ → Val β κ) (s : Store β K) :
    (Prog.modify k write).run s = ((), s.set k (write (s.get k))) := rfl

variable {U : Set (Sigma K)}

/-- 触れない key の値は変わらない。 -/
theorem Uses.frame {κ : Kind} {k : K κ} (hk : ⟨κ, k⟩ ∉ U) : ∀ {p : Prog β K α}, p.Uses U →
    ∀ s : Store β K, (p.run s).2.get k = s.get k
  | .pure _, _, _ => rfl
  | .access k' write next, hp, s => by
    have hne : (⟨κ, k⟩ : Sigma K) ≠ ⟨_, k'⟩ := fun h => hk (h ▸ hp.1)
    show ((next (s.get k')).run (s.set k' (write (s.get k')))).2.get k = _
    rw [Uses.frame hk (hp.2 _), Store.get_set_of_ne _ _ _ hne]

end Prog

/-! ## command -/

section Commands

/-- `ZADD`。 -/
def zadd (k : K .zset) (x : ℚ) (m : String) : Prog β K Unit := .modify k fun z : ZSet => z.add m x

/-- `ZREM`。 -/
def zrem (k : K .zset) (m : String) : Prog β K Unit := .modify k fun z : ZSet => z.rem m

/-- `ZRANGE k 0 0 WITHSCORES`。 -/
def zfirst (k : K .zset) : Prog β K (Option (String × ℚ)) :=
  .query k fun z : ZSet => z.entries.head?

/-- 先頭から `stop` 番目までの要素。負の `stop` は末尾から数える。 -/
def takeTo (stop : Int) (z : ZSet) : List String :=
  (z.entries.take
    (if stop < 0 then (z.entries.length : Int) + stop + 1 else stop + 1).toNat).map Prod.fst

/-- `ZRANGE k 0 stop`。 -/
def zrange (k : K .zset) (stop : Int) : Prog β K (List String) :=
  .query k fun z : ZSet => takeTo stop z

/-- `ZCARD`。 -/
def zcard (k : K .zset) : Prog β K Nat := .query k fun z : ZSet => z.entries.length

/-- `ZRANGEBYSCORE k -inf max WITHSCORES LIMIT 0 count`。 -/
def zrangeByScore (k : K .zset) (max : ℚ) (count : Nat) : Prog β K (List (String × ℚ)) :=
  .query k fun z : ZSet => (z.rangeByScore max).take count

/-- `ZSCORE`。 -/
def zscore (k : K .zset) (m : String) : Prog β K (Option ℚ) :=
  .query k fun z : ZSet => z.score? m

/-- `HGET`。 -/
def hget (k : K .hash) (field : String) : Prog β K (Option β) :=
  .query k fun h : JsMap β => h.get field

/-- `HSET`。 -/
def hset (k : K .hash) (field : String) (value : β) : Prog β K Unit :=
  .modify k fun h : JsMap β => h.set field value

/-- `HDEL`。 -/
def hdel (k : K .hash) (field : String) : Prog β K Unit := .modify k fun h : JsMap β => h.delete field

/-- `SADD`。 -/
def sadd (k : K .set) (m : String) : Prog β K Unit := .modify k fun s : Finset String => insert m s

/-- `SREM`。 -/
def srem (k : K .set) (m : String) : Prog β K Unit := .modify k fun s : Finset String => s.erase m

/-- `SCARD`。 -/
def scard (k : K .set) : Prog β K Nat := .query k fun s : Finset String => s.card

/-- `RPUSH`。 -/
def rpush (k : K .list) (v : String) : Prog β K Unit := .modify k fun l : List String => l ++ [v]

variable [DecidableEq (Sigma K)] (s : Store β K)

@[simp] theorem run_zadd (k : K .zset) (x : ℚ) (m : String) :
    (zadd k x m : Prog β K Unit).run s = ((), s.set k (SortedSet.add (s.get k) m x)) := rfl

@[simp] theorem run_zrem (k : K .zset) (m : String) :
    (zrem k m : Prog β K Unit).run s = ((), s.set k (SortedSet.rem (s.get k) m)) := rfl

@[simp] theorem run_zfirst (k : K .zset) :
    (zfirst k : Prog β K _).run s = ((SortedSet.entries (s.get k)).head?, s) :=
  Prog.run_query ..

@[simp] theorem run_zrange (k : K .zset) (stop : Int) :
    (zrange k stop : Prog β K _).run s = (takeTo stop (s.get k), s) :=
  Prog.run_query ..

@[simp] theorem run_zcard (k : K .zset) :
    (zcard k : Prog β K _).run s = ((SortedSet.entries (s.get k)).length, s) :=
  Prog.run_query ..

@[simp] theorem run_zrangeByScore (k : K .zset) (max : ℚ) (count : Nat) :
    (zrangeByScore k max count : Prog β K _).run s =
      ((SortedSet.rangeByScore (s.get k) max).take count, s) :=
  Prog.run_query ..

@[simp] theorem run_zscore (k : K .zset) (m : String) :
    (zscore k m : Prog β K _).run s = (SortedSet.score? (s.get k) m, s) :=
  Prog.run_query ..

@[simp] theorem run_hget (k : K .hash) (field : String) :
    (hget k field : Prog β K _).run s = (JsMap.get (s.get k) field, s) :=
  Prog.run_query ..

@[simp] theorem run_hset (k : K .hash) (field : String) (value : β) :
    (hset k field value).run s = ((), s.set k (JsMap.set (s.get k) field value)) := rfl

@[simp] theorem run_hdel (k : K .hash) (field : String) :
    (hdel k field : Prog β K Unit).run s = ((), s.set k (JsMap.delete (s.get k) field)) := rfl

@[simp] theorem run_sadd (k : K .set) (m : String) :
    (sadd k m : Prog β K Unit).run s = ((), s.set k (insert m (s.get k : Finset String))) := rfl

@[simp] theorem run_srem (k : K .set) (m : String) :
    (srem k m : Prog β K Unit).run s = ((), s.set k (Finset.erase (s.get k) m)) := rfl

@[simp] theorem run_scard (k : K .set) :
    (scard k : Prog β K Nat).run s = (Finset.card (s.get k), s) :=
  Prog.run_query ..

@[simp] theorem run_rpush (k : K .list) (v : String) :
    (rpush k v : Prog β K Unit).run s = ((), s.set k ((s.get k : List String) ++ [v])) := rfl

end Commands

/-! ## 文字列の keyspace -/

/-- 文字列の key から値への部分関数。空の値は持たない。 -/
abbrev Db (β : Type) := String → Option (Σ κ : Kind, Val β κ)

namespace Db

def empty : Db β := fun _ => none

/-- 値の置き方。空の値は key ごと消える。 -/
def encode (κ : Kind) (v : Val β κ) : Option (Σ κ : Kind, Val β κ) :=
  if Val.isEmpty κ v then none else some ⟨κ, v⟩

/-- 種類 `κ` としての値。別の種類なら `WRONGTYPE` で `none`。 -/
def readAt (db : Db β) (key : String) (κ : Kind) : Option (Val β κ) :=
  match db key with
  | none => some (Val.empty κ)
  | some ⟨κ', v⟩ => if h : κ' = κ then some (h ▸ v) else none

def write (db : Db β) (key : String) (κ : Kind) (v : Val β κ) : Db β :=
  Function.update db key (encode κ v)

theorem readAt_of_encode {db : Db β} {key : String} {κ : Kind} {v : Val β κ}
    (h : db key = encode κ v) : db.readAt key κ = some v := by
  unfold readAt
  rw [h]
  unfold encode
  by_cases hv : Val.isEmpty κ v = true
  · rw [if_pos hv, Val.isEmpty_iff.mp hv]
  · rw [if_neg hv]
    exact dif_pos rfl

end Db

section Text

variable [DecidableEq (Sigma K)] {text : Sigma K → String} {U : Set (Sigma K)} {db : Db β}
  {s : Store β K}

/-- 文字列の keyspace の上での実行。結果の `none` は `WRONGTYPE` である。 -/
def Prog.runText (text : Sigma K → String) : Prog β K α → Db β → Option α × Db β
  | .pure a, db => (some a, db)
  | .access (κ := κ) k write next, db =>
    match db.readAt (text ⟨κ, k⟩) κ with
    | none => (none, db)
    | some v => (next v).runText text (db.write (text ⟨κ, k⟩) κ (write v))

/-- `U` の key について、keyspace が状態を表している。 -/
def Rep (text : Sigma K → String) (U : Set (Sigma K)) (db : Db β) (s : Store β K) : Prop :=
  ∀ p ∈ U, db (text p) = Db.encode p.1 (s.get p.2)

omit [DecidableEq (Sigma K)] in
theorem rep_empty : Rep text U (Db.empty : Db β) Store.empty := by
  intro p _
  have h : Val.isEmpty p.1 (Val.empty p.1 : Val β p.1) = true := Val.isEmpty_iff.mpr rfl
  exact (if_pos h).symm

theorem Rep.write (hinj : Set.InjOn text U) (h : Rep text U db s) {κ : Kind} {k : K κ}
    (hk : ⟨κ, k⟩ ∈ U) (v : Val β κ) : Rep text U (db.write (text ⟨κ, k⟩) κ v) (s.set k v) := by
  intro p hp
  by_cases heq : p = ⟨κ, k⟩
  · subst heq
    rw [Db.write, Function.update_self, Store.get_set_self]
  · rw [Db.write, Function.update_of_ne fun e => heq (hinj hp hk e),
      Store.get_set_of_ne _ _ _ heq]
    exact h p hp

/-- **文字列の重ならない key だけに触れる計算は、keyspace の上でも同じ答えを返す。** -/
theorem runText_eq (hinj : Set.InjOn text U) : ∀ {p : Prog β K α} {db : Db β} {s : Store β K},
    p.Uses U → Rep text U db s →
    (p.runText text db).1 = some (p.run s).1 ∧ Rep text U (p.runText text db).2 (p.run s).2
  | .pure _, _, _, _, h => ⟨rfl, h⟩
  | .access (κ := κ) k write next, db, s, hp, h => by
    have hread : db.readAt (text ⟨κ, k⟩) κ = some (s.get k) := Db.readAt_of_encode (h _ hp.1)
    have ih := runText_eq hinj (hp.2 (s.get k)) (h.write hinj hp.1 (write (s.get k)))
    unfold Prog.runText
    rw [hread]
    exact ih

omit [DecidableEq (Sigma K)] in
/-- 触れない文字列の key は変わらない。 -/
theorem runText_frame {key : String} (hkey : ∀ p ∈ U, text p ≠ key) :
    ∀ {p : Prog β K α} {db : Db β}, p.Uses U → (p.runText text db).2 key = db key
  | .pure _, _, _ => rfl
  | .access (κ := κ) k write next, db, hp => by
    unfold Prog.runText
    rcases db.readAt (text ⟨κ, k⟩) κ with _ | v
    · rfl
    · show ((next v).runText text _).2 key = _
      rw [runText_frame hkey (hp.2 v), Db.write, Function.update_of_ne (hkey _ hp.1).symm]

end Text

end Infra.Keyspace
