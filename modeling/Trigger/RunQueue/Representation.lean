import Trigger.RunQueue.Commands

/-!
# RunQueue の状態の表現

Redis の状態を、run ごとの五つの値だけを持つ抽象状態 `Shadow` に対応させる。

* `qs r` — run `r` の、自分の queue の整列集合での score。
* `es r` — 環境の queue での score。
* `rc r` / `ec r` — queue / 環境の `currentConcurrency` に入っているか。
* `ms K` — queue key `K` の、master queue での score。

`Rep` はこの対応である。script の一つ一つの書き込みは、抽象状態の一つの成分だけを書き換える
（`Rep.setQueue` など）か、何も書き換えない（`Rep.setDequeued` など）。key が互いに交わらないことは
`signature` が保証するが、queue 側の key だけは例外で、`…:ck:a` の `currentConcurrency` と
concurrency key `a:currentConcurrency` の queue は同じ key になりうる。衝突は `WRONGTYPE` で止まる
だけで、表現を壊さない。
-/

namespace RunQueue

open Infra Infra.Text
open Infra.Redis

/-! ## key の型 -/

inductive Kind
  | str
  | zset
  | set
  | list
deriving DecidableEq

/-- key の役割が決める型。queue 側の key には決まった型が無い。 -/
def kindOf (k : String) : Option Kind :=
  let sig := signature k
  if sig.1 = some "masterQueue" then some .zset
  else if sig.1 = some "workerQueue" then some .list
  else if sig.2.1 = some "env" then some .zset
  else if sig.2.1 = some "message" then some .str
  else if sig.2.2 = some "deadLetter" then some .zset
  else if sig.2.2 = some "currentConcurrency" ∨ sig.2.2 = some "currentDequeued" then some .set
  else none

/-- 役割の決まった key が、その型を持つ。 -/
structure Typed (s : State) : Prop where
  str : ∀ k, kindOf k = some .str → s.StrTyped k
  zset : ∀ k, kindOf k = some .zset → s.ZTyped k
  set : ∀ k, kindOf k = some .set → s.STyped k
  list : ∀ k, kindOf k = some .list → s.LTyped k

theorem typed_empty : Typed Db.empty := by
  constructor <;> intro k _ <;> exact ⟨rfl, rfl, rfl⟩

theorem kindOf_queueKey_append {env : EnvDescriptor} (h : env.NoColons) (q : String)
    (ck : Option String) (p : String) : kindOf (queueKey env q ck ++ ":" ++ p) = none := by
  unfold kindOf
  rw [signature_queueKey_append h]
  decide

theorem kindOf_queueKey {env : EnvDescriptor} (h : env.NoColons) (q : String)
    (ck : Option String) : kindOf (queueKey env q ck) = none := by
  unfold kindOf
  rw [signature_queueKey h]
  decide

theorem kindOf_envQueueKey {env : EnvDescriptor} (h : env.NoColons) :
    kindOf (envQueueKey env) = some .zset := by
  unfold kindOf
  rw [signature_envQueueKey h]
  decide

theorem kindOf_envCurrentConcurrencyKey {env : EnvDescriptor} (h : env.NoColons) :
    kindOf (envCurrentConcurrencyKey env) = some .set := by
  unfold kindOf envCurrentConcurrencyKey
  rw [signature_envPartKey h (by decide)]
  decide

theorem kindOf_envCurrentDequeuedKey {env : EnvDescriptor} (h : env.NoColons) :
    kindOf (envCurrentDequeuedKey env) = some .set := by
  unfold kindOf envCurrentDequeuedKey
  rw [signature_envPartKey h (by decide)]
  decide

theorem kindOf_deadLetterQueueKey {env : EnvDescriptor} (h : env.NoColons) :
    kindOf (deadLetterQueueKey env) = some .zset := by
  unfold kindOf deadLetterQueueKey
  rw [signature_envPartKey h (by decide)]
  decide

theorem kindOf_masterQueueKeyForShard (n : Nat) :
    kindOf (masterQueueKeyForShard n) = some .zset := by
  unfold kindOf
  simp only [signature_masterQueueKeyForShard, if_true]

theorem kindOf_workerQueueKey (w : String) : kindOf (workerQueueKey w) = some .list := by
  unfold kindOf
  simp [signature_workerQueueKey]

theorem kindOf_messageKey {o : String} (h : NoColon o) (id : String) :
    kindOf (messageKey o id) = some .str := by
  have hsig : (signature (messageKey o id)).1 = some "\x7borg" := by
    unfold signature
    rw [splitColon_messageKey h]
    rfl
  unfold kindOf
  simp [signature_messageKey h, hsig]

/-- 役割の違う key は違う。 -/
theorem ne_of_kindOf {k k' : String} (h : kindOf k ≠ kindOf k') : k ≠ k' := fun e => h (e ▸ rfl)

namespace Typed

variable {s : State} {k : String}

/-- 整列集合の書き換えは、整列集合か型の決まらない key なら型を保つ。 -/
theorem setZ (h : Typed s) (hk : kindOf k = some .zset ∨ kindOf k = none) {z : ZSet}
    (hz : s.ZTyped k) : Typed (s.setZ k z hz) := by
  have hne : ∀ {k' : String} {c : Kind}, kindOf k' = some c → c ≠ .zset → k' ≠ k := by
    rintro k' c hc hne rfl
    rcases hk with hk | hk <;> simp_all
  constructor
  · intro k' hk'
    simpa [Db.StrTyped, hne hk' (by decide)] using h.str k' hk'
  · intro k' hk'
    exact h.zset k' hk'
  · intro k' hk'
    simpa [Db.STyped, hne hk' (by decide)] using h.set k' hk'
  · intro k' hk'
    simpa [Db.LTyped, hne hk' (by decide)] using h.list k' hk'

theorem setS (h : Typed s) (hk : kindOf k = some .set ∨ kindOf k = none) {t : Finset String}
    (ht : s.STyped k) : Typed (s.setS k t ht) := by
  have hne : ∀ {k' : String} {c : Kind}, kindOf k' = some c → c ≠ .set → k' ≠ k := by
    rintro k' c hc hne rfl
    rcases hk with hk | hk <;> simp_all
  constructor
  · intro k' hk'
    simpa [Db.StrTyped, hne hk' (by decide)] using h.str k' hk'
  · intro k' hk'
    simpa [Db.ZTyped, hne hk' (by decide)] using h.zset k' hk'
  · intro k' hk'
    exact h.set k' hk'
  · intro k' hk'
    simpa [Db.LTyped, hne hk' (by decide)] using h.list k' hk'

theorem setL (h : Typed s) (hk : kindOf k = some .list ∨ kindOf k = none) {l : List String}
    (hl : s.LTyped k) : Typed (s.setL k l hl) := by
  have hne : ∀ {k' : String} {c : Kind}, kindOf k' = some c → c ≠ .list → k' ≠ k := by
    rintro k' c hc hne rfl
    rcases hk with hk | hk <;> simp_all
  constructor
  · intro k' hk'
    simpa [Db.StrTyped, hne hk' (by decide)] using h.str k' hk'
  · intro k' hk'
    simpa [Db.ZTyped, hne hk' (by decide)] using h.zset k' hk'
  · intro k' hk'
    simpa [Db.STyped, hne hk' (by decide)] using h.set k' hk'
  · intro k' hk'
    exact h.list k' hk'

theorem setStr (h : Typed s) (hk : kindOf k = some .str) {v : Option Stored} :
    Typed (s.setStr k v) := by
  have hne : ∀ {k' : String} {c : Kind}, kindOf k' = some c → c ≠ .str → k' ≠ k := by
    rintro k' c hc hne rfl
    simp_all
  constructor
  · intro k' hk'
    by_cases e : k' = k
    · subst e
      simp [Db.StrTyped]
    · simpa [Db.StrTyped, e] using h.str k' hk'
  · intro k' hk'
    simpa [Db.ZTyped, hne hk' (by decide)] using h.zset k' hk'
  · intro k' hk'
    simpa [Db.STyped, hne hk' (by decide)] using h.set k' hk'
  · intro k' hk'
    simpa [Db.LTyped, hne hk' (by decide)] using h.list k' hk'

end Typed

/-! ## 環境と run の居場所 -/

/-- queue の居場所。環境の id に `:` は無い。 -/
structure Home where
  envId : String
  queue : String
  concurrencyKey : Option String
  noColon : NoColon envId

/-- 配備。環境の id は主キーなので、organization と project を決める。
run はいつも `home` の queue に入る。 -/
structure Deployment where
  cfg : Config
  orgOf : String → String
  projectOf : String → String
  org_noColon : ∀ e, NoColon (orgOf e)
  project_noColon : ∀ e, NoColon (projectOf e)
  home : String → Home

namespace Deployment

variable (D : Deployment)

def desc (envId : String) : EnvDescriptor := ⟨D.orgOf envId, D.projectOf envId, envId⟩

/-- 居場所の queue key。 -/
def key (h : Home) : String := queueKey (D.desc h.envId) h.queue h.concurrencyKey

def homeKey (r : String) : String := D.key (D.home r)

/-- 環境の queue の key。以下の三つと同じく、`#call…` が queue key から読み戻すものである。 -/
def envQ (envId : String) : String := envQueueKey (D.desc envId).stripped

def envCC (envId : String) : String := envCurrentConcurrencyKey (D.desc envId).stripped

def envCD (envId : String) : String := envCurrentDequeuedKey (D.desc envId).stripped

def dlq (envId : String) : String := deadLetterQueueKey (D.desc envId).stripped

def master (envId : String) : String := D.cfg.masterQueueKeyForEnvironment envId

/-- run の居場所の通りに作られた payload。 -/
structure WellFormed (m : OutputPayload) : Prop where
  queue : m.queue = D.homeKey m.runId
  env : m.environmentId = (D.home m.runId).envId
  org : m.orgId = D.orgOf m.environmentId

variable {D}

theorem desc_noColons {e : String} (h : NoColon e) : (D.desc e).NoColons :=
  ⟨D.org_noColon e, D.project_noColon e, h⟩

theorem desc_stripped_noColons {e : String} (h : NoColon e) : (D.desc e).stripped.NoColons :=
  (desc_noColons h).stripped

theorem home_noColons (h : Home) : (D.desc h.envId).NoColons := desc_noColons h.noColon

/-- 同じ queue key の居場所は、同じ環境にある。 -/
theorem key_envId {h h' : Home} (hk : D.key h = D.key h') : h.envId = h'.envId :=
  congrArg EnvDescriptor.envId (queueKey_env_inj (home_noColons h) (home_noColons h') hk)

theorem envQ_inj {e e' : String} (h : NoColon e) (h' : NoColon e') (hk : D.envQ e = D.envQ e') :
    e = e' := by
  have := envQueueKey_envId_inj (desc_stripped_noColons h) (desc_stripped_noColons h') hk
  rwa [stripped_envId, stripped_envId] at this

theorem envCC_inj {e e' : String} (h : NoColon e) (h' : NoColon e') (hk : D.envCC e = D.envCC e') :
    e = e' := by
  have := congrArg EnvDescriptor.envId
    (envPartKey_env_inj (desc_stripped_noColons h) (desc_stripped_noColons h') hk)
  rwa [stripped_envId, stripped_envId] at this

theorem kindOf_key (h : Home) : kindOf (D.key h) = none := kindOf_queueKey (home_noColons h) _ _

theorem kindOf_envQ {e : String} (h : NoColon e) : kindOf (D.envQ e) = some .zset :=
  kindOf_envQueueKey (desc_stripped_noColons h)

theorem kindOf_envCC {e : String} (h : NoColon e) : kindOf (D.envCC e) = some .set :=
  kindOf_envCurrentConcurrencyKey (desc_stripped_noColons h)

theorem kindOf_envCD {e : String} (h : NoColon e) : kindOf (D.envCD e) = some .set :=
  kindOf_envCurrentDequeuedKey (desc_stripped_noColons h)

theorem kindOf_dlq {e : String} (h : NoColon e) : kindOf (D.dlq e) = some .zset :=
  kindOf_deadLetterQueueKey (desc_stripped_noColons h)

theorem kindOf_master (e : String) : kindOf (D.master e) = some .zset :=
  kindOf_masterQueueKeyForShard _

theorem master_ne {e k : String} (h : (signature k).1 ≠ some "masterQueue") : D.master e ≠ k := by
  rintro rfl
  exact h (signature_masterQueueKeyForShard _)

theorem master_ne_envQ {e e' : String} (h : NoColon e') : D.master e ≠ D.envQ e' := by
  refine master_ne ?_
  rw [envQ, signature_envQueueKey (desc_stripped_noColons h)]
  decide

theorem kindOf_queueCC (h : Home) :
    kindOf (queueCurrentConcurrencyKeyFromQueue (D.key h)) = none := by
  rw [queueCurrentConcurrencyKeyFromQueue,
    show (":currentConcurrency" : String) = ":" ++ "currentConcurrency" from rfl,
    ← String.append_assoc]
  exact kindOf_queueKey_append (home_noColons h) _ _ _

theorem kindOf_queueCD (h : Home) :
    kindOf (queueCurrentDequeuedKeyFromQueue (D.key h)) = none := by
  rw [queueCurrentDequeuedKeyFromQueue,
    show (":currentDequeued" : String) = ":" ++ "currentDequeued" from rfl, ← String.append_assoc]
  exact kindOf_queueKey_append (home_noColons h) _ _ _

end Deployment

theorem lastPart_currentConcurrency (a : String) :
    lastPart (a ++ ":currentConcurrency") = some "currentConcurrency" := by
  rw [show (":currentConcurrency" : String) = ":" ++ "currentConcurrency" from rfl,
    ← String.append_assoc]
  exact lastPart_append a (by decide)

theorem lastPart_currentDequeued (a : String) :
    lastPart (a ++ ":currentDequeued") = some "currentDequeued" := by
  rw [show (":currentDequeued" : String) = ":" ++ "currentDequeued" from rfl,
    ← String.append_assoc]
  exact lastPart_append a (by decide)

theorem lastPart_envPartKey (env : EnvDescriptor) {part : String} (h : NoColon part) :
    lastPart (envPartKey env part) = some part := by
  obtain ⟨a, ha⟩ := envPartKey_eq_append env part
  rw [ha, lastPart_append a h]

theorem ne_of_lastPart {k k' : String} (h : lastPart k ≠ lastPart k') : k ≠ k' :=
  fun e => h (e ▸ rfl)

/-! ## 抽象状態と対応 -/

/-- run ごとの抽象状態。 -/
structure Shadow where
  qs : String → Option ℚ
  es : String → Option ℚ
  rc : String → Bool
  ec : String → Bool
  ms : String → Option ℚ

namespace Shadow

variable (A : Shadow)

def setQs (r : String) (o : Option ℚ) : Shadow := { A with qs := Function.update A.qs r o }
def setEs (r : String) (o : Option ℚ) : Shadow := { A with es := Function.update A.es r o }
def setRc (r : String) (b : Bool) : Shadow := { A with rc := Function.update A.rc r b }
def setEc (r : String) (b : Bool) : Shadow := { A with ec := Function.update A.ec r b }
def setMs (k : String) (o : Option ℚ) : Shadow := { A with ms := Function.update A.ms k o }

end Shadow

/-- 状態 `s` は抽象状態 `A` を表す。 -/
structure Rep (D : Deployment) (s : State) (A : Shadow) : Prop where
  queue : ∀ (h : Home) (r : String),
    (s.zsets (D.key h)).score? r = if D.homeKey r = D.key h then A.qs r else none
  envQueue : ∀ e, NoColon e → ∀ r,
    (s.zsets (D.envQ e)).score? r = if (D.home r).envId = e then A.es r else none
  queueCC : ∀ (h : Home) (r : String),
    r ∈ s.sets (queueCurrentConcurrencyKeyFromQueue (D.key h)) ↔
      D.homeKey r = D.key h ∧ A.rc r = true
  envCC : ∀ e, NoColon e → ∀ r, r ∈ s.sets (D.envCC e) ↔ (D.home r).envId = e ∧ A.ec r = true
  master : ∀ h : Home, (s.zsets (D.master h.envId)).score? (D.key h) = A.ms (D.key h)
  typed : Typed s
  stored : ∀ k m, s.strs k = some (.message m) → D.WellFormed m

namespace Rep

variable {D : Deployment} {s : State} {A : Shadow}

/-! ### 成分を書き換える書き込み -/

/-- 自分の queue への書き込み。 -/
theorem setQueue (hrep : Rep D s A) {r : String} {o : Option ℚ} {z : ZSet}
    (hz : ∀ n, z.score? n = if n = r then o else (s.zsets (D.homeKey r)).score? n)
    (ht : s.ZTyped (D.homeKey r)) : Rep D (s.setZ (D.homeKey r) z ht) (A.setQs r o) := by
  have hkind : kindOf (D.homeKey r) = none := Deployment.kindOf_key (D.home r)
  constructor
  · intro h n
    by_cases hk : D.key h = D.homeKey r
    · by_cases hn : n = r
      · subst hn
        simp [Shadow.setQs, hk, hz]
      · have hq := hrep.queue h n
        rw [hk] at hq
        simp [Shadow.setQs, hk, hz, hn, hq]
    · have hr : ∀ n, D.homeKey n = D.key h → n ≠ r := by
        rintro n hn rfl
        exact hk hn.symm
      have hq := hrep.queue h n
      by_cases hn : D.homeKey n = D.key h
      · simp [Shadow.setQs, Function.update_of_ne hk, hq, hn, hr n hn]
      · simp [Function.update_of_ne hk, hq, hn]
  · intro e he n
    have hne : D.envQ e ≠ D.homeKey r := ne_of_kindOf (by simp [Deployment.kindOf_envQ he, hkind])
    simpa [Shadow.setQs, Function.update_of_ne hne] using hrep.envQueue e he n
  · exact hrep.queueCC
  · exact hrep.envCC
  · intro h
    have hne : D.master h.envId ≠ D.homeKey r :=
      ne_of_kindOf (by simp [Deployment.kindOf_master, hkind])
    simpa [Shadow.setQs, Function.update_of_ne hne] using hrep.master h
  · exact hrep.typed.setZ (Or.inr hkind) ht
  · exact hrep.stored

/-- 環境の queue への書き込み。 -/
theorem setEnvQueue (hrep : Rep D s A) {r : String} {o : Option ℚ} {z : ZSet}
    (hz : ∀ n, z.score? n = if n = r then o else (s.zsets (D.envQ (D.home r).envId)).score? n)
    (ht : s.ZTyped (D.envQ (D.home r).envId)) :
    Rep D (s.setZ (D.envQ (D.home r).envId) z ht) (A.setEs r o) := by
  have hcolon := (D.home r).noColon
  have hkind : kindOf (D.envQ (D.home r).envId) = some .zset := Deployment.kindOf_envQ hcolon
  constructor
  · intro h n
    have hne : D.key h ≠ D.envQ (D.home r).envId :=
      ne_of_kindOf (by simp [Deployment.kindOf_key, hkind])
    simpa [Shadow.setEs, Function.update_of_ne hne] using hrep.queue h n
  · intro e he n
    by_cases hk : e = (D.home r).envId
    · subst hk
      by_cases hn : n = r
      · subst hn
        simp [Shadow.setEs, hz]
      · simp [Shadow.setEs, hz, hn, hrep.envQueue _ he n]
    · have hne : D.envQ e ≠ D.envQ (D.home r).envId := fun h => hk (Deployment.envQ_inj he hcolon h)
      have hq := hrep.envQueue e he n
      by_cases hn : (D.home n).envId = e
      · have hnr : n ≠ r := by
          rintro rfl
          exact hk hn.symm
        simp [Shadow.setEs, Function.update_of_ne hne, hq, hn, hnr]
      · simp [Function.update_of_ne hne, hq, hn]
  · exact hrep.queueCC
  · exact hrep.envCC
  · intro h
    have hne : D.master h.envId ≠ D.envQ (D.home r).envId := Deployment.master_ne_envQ hcolon
    simpa [Shadow.setEs, Function.update_of_ne hne] using hrep.master h
  · exact hrep.typed.setZ (Or.inl hkind) ht
  · exact hrep.stored

/-- master queue への書き込み。 -/
theorem setMaster (hrep : Rep D s A) {h : Home} {o : Option ℚ} {z : ZSet}
    (hz : ∀ n, z.score? n = if n = D.key h then o else (s.zsets (D.master h.envId)).score? n)
    (ht : s.ZTyped (D.master h.envId)) :
    Rep D (s.setZ (D.master h.envId) z ht) (A.setMs (D.key h) o) := by
  have hkind : kindOf (D.master h.envId) = some .zset := Deployment.kindOf_master _
  constructor
  · intro h' n
    have hne : D.key h' ≠ D.master h.envId := ne_of_kindOf (by simp [Deployment.kindOf_key, hkind])
    simpa [Shadow.setMs, Function.update_of_ne hne] using hrep.queue h' n
  · intro e he n
    have hne : D.envQ e ≠ D.master h.envId := (Deployment.master_ne_envQ he).symm
    simpa [Shadow.setMs, Function.update_of_ne hne] using hrep.envQueue e he n
  · exact hrep.queueCC
  · exact hrep.envCC
  · intro h'
    by_cases hk : D.key h' = D.key h
    · have he : h'.envId = h.envId := Deployment.key_envId hk
      simp [Shadow.setMs, hk, he, hz]
    · have hm := hrep.master h'
      by_cases hs : D.master h'.envId = D.master h.envId
      · rw [hs] at hm
        simp [Shadow.setMs, hs, hz, hk, hm]
      · simp [Shadow.setMs, Function.update_of_ne hs, hk, hm]
  · exact hrep.typed.setZ (Or.inl hkind) ht
  · exact hrep.stored

theorem queueCC_key_inj {a b : String} (h : queueCurrentConcurrencyKeyFromQueue a
    = queueCurrentConcurrencyKeyFromQueue b) : a = b := append_right_cancel h

/-- queue の `currentConcurrency` への書き込み。 -/
theorem setQueueCC (hrep : Rep D s A) {r : String} {b : Bool} {t : Finset String}
    (hmem : ∀ n, n ∈ t ↔ if n = r then b = true
      else n ∈ s.sets (queueCurrentConcurrencyKeyFromQueue (D.homeKey r)))
    (ht : s.STyped (queueCurrentConcurrencyKeyFromQueue (D.homeKey r))) :
    Rep D (s.setS (queueCurrentConcurrencyKeyFromQueue (D.homeKey r)) t ht) (A.setRc r b) := by
  have hkind : kindOf (queueCurrentConcurrencyKeyFromQueue (D.homeKey r)) = none :=
    Deployment.kindOf_queueCC (D.home r)
  constructor
  · exact hrep.queue
  · exact hrep.envQueue
  · intro h n
    have hq := hrep.queueCC h n
    by_cases hk : D.key h = D.homeKey r
    · rw [hk] at hq ⊢
      by_cases hn : n = r
      · subst hn
        simp [Shadow.setRc, hmem]
      · simp [Shadow.setRc, hmem, hn, hq]
    · have hne : queueCurrentConcurrencyKeyFromQueue (D.key h)
          ≠ queueCurrentConcurrencyKeyFromQueue (D.homeKey r) := fun e => hk (queueCC_key_inj e)
      have hr : D.homeKey n = D.key h → n ≠ r := by
        rintro hn rfl
        exact hk hn.symm
      by_cases hn : D.homeKey n = D.key h
      · simp [Shadow.setRc, Function.update_of_ne hne, hq, hn, hr hn]
      · simp [Function.update_of_ne hne, hq, hn]
  · intro e he n
    have hne : D.envCC e ≠ queueCurrentConcurrencyKeyFromQueue (D.homeKey r) :=
      ne_of_kindOf (by simp [Deployment.kindOf_envCC he, hkind])
    simpa [Shadow.setRc, Function.update_of_ne hne] using hrep.envCC e he n
  · exact hrep.master
  · exact hrep.typed.setS (Or.inr hkind) ht
  · exact hrep.stored

/-- 環境の `currentConcurrency` への書き込み。 -/
theorem setEnvCC (hrep : Rep D s A) {r : String} {b : Bool} {t : Finset String}
    (hmem : ∀ n, n ∈ t ↔ if n = r then b = true else n ∈ s.sets (D.envCC (D.home r).envId))
    (ht : s.STyped (D.envCC (D.home r).envId)) :
    Rep D (s.setS (D.envCC (D.home r).envId) t ht) (A.setEc r b) := by
  have hcolon := (D.home r).noColon
  have hkind : kindOf (D.envCC (D.home r).envId) = some .set := Deployment.kindOf_envCC hcolon
  constructor
  · exact hrep.queue
  · exact hrep.envQueue
  · intro h n
    have hne : queueCurrentConcurrencyKeyFromQueue (D.key h) ≠ D.envCC (D.home r).envId :=
      ne_of_kindOf (by simp [Deployment.kindOf_queueCC, hkind])
    simpa [Shadow.setEc, Function.update_of_ne hne] using hrep.queueCC h n
  · intro e he n
    have hq := hrep.envCC e he n
    by_cases hk : e = (D.home r).envId
    · subst hk
      by_cases hn : n = r
      · subst hn
        simp [Shadow.setEc, hmem]
      · simp [Shadow.setEc, hmem, hn, hq]
    · have hne : D.envCC e ≠ D.envCC (D.home r).envId :=
        fun h => hk (Deployment.envCC_inj he hcolon h)
      by_cases hn : (D.home n).envId = e
      · have hnr : n ≠ r := by
          rintro rfl
          exact hk hn.symm
        simp [Shadow.setEc, Function.update_of_ne hne, hq, hn, hnr]
      · simp [Function.update_of_ne hne, hq, hn]
  · exact hrep.master
  · exact hrep.typed.setS (Or.inl hkind) ht
  · exact hrep.stored

/-! ### 成分を書き換えない書き込み -/

/-- `currentDequeued` への書き込み。 -/
theorem setDequeued (hrep : Rep D s A) {k : String} {t : Finset String}
    (hlast : lastPart k = some "currentDequeued")
    (hkind : kindOf k = some .set ∨ kindOf k = none) (ht : s.STyped k) :
    Rep D (s.setS k t ht) A := by
  constructor
  · exact hrep.queue
  · exact hrep.envQueue
  · intro h n
    have hne : queueCurrentConcurrencyKeyFromQueue (D.key h) ≠ k :=
      ne_of_lastPart (by rw [hlast, queueCurrentConcurrencyKeyFromQueue,
        lastPart_currentConcurrency]; decide)
    simpa [Function.update_of_ne hne] using hrep.queueCC h n
  · intro e he n
    have hne : D.envCC e ≠ k :=
      ne_of_lastPart (by rw [hlast, Deployment.envCC, envCurrentConcurrencyKey,
        lastPart_envPartKey _ (by decide)]; decide)
    simpa [Function.update_of_ne hne] using hrep.envCC e he n
  · exact hrep.master
  · exact hrep.typed.setS hkind ht
  · exact hrep.stored

/-- payload の key の書き換え。 -/
theorem setMessage (hrep : Rep D s A) {k : String} {v : Option Stored} (hk : kindOf k = some .str)
    (hv : ∀ m, v = some (.message m) → D.WellFormed m) : Rep D (s.setStr k v) A := by
  have hne : ∀ {k' : String}, kindOf k' ≠ some .str → k' ≠ k := fun h => ne_of_kindOf (by rwa [hk])
  constructor
  · intro h n
    have := hne (show kindOf (D.key h) ≠ some .str by simp [Deployment.kindOf_key])
    simpa [Function.update_of_ne this] using hrep.queue h n
  · intro e he n
    have := hne (show kindOf (D.envQ e) ≠ some .str by simp [Deployment.kindOf_envQ he])
    simpa [Function.update_of_ne this] using hrep.envQueue e he n
  · intro h n
    have := hne (show kindOf (queueCurrentConcurrencyKeyFromQueue (D.key h)) ≠ some .str by
      simp [Deployment.kindOf_queueCC])
    simpa [Function.update_of_ne this] using hrep.queueCC h n
  · intro e he n
    have := hne (show kindOf (D.envCC e) ≠ some .str by simp [Deployment.kindOf_envCC he])
    simpa [Function.update_of_ne this] using hrep.envCC e he n
  · intro h
    have := hne (show kindOf (D.master h.envId) ≠ some .str by simp [Deployment.kindOf_master])
    simpa [Function.update_of_ne this] using hrep.master h
  · exact hrep.typed.setStr hk
  · intro k' m hm
    by_cases e : k' = k
    · subst e
      exact hv m (by simpa using hm)
    · exact hrep.stored k' m (by simpa [Function.update_of_ne e] using hm)

/-- dead letter queue への書き込み。 -/
theorem setDeadLetter (hrep : Rep D s A) {e : String} (he : NoColon e) {z : ZSet}
    (ht : s.ZTyped (D.dlq e)) : Rep D (s.setZ (D.dlq e) z ht) A := by
  have hsig : signature (D.dlq e) = (some "\x7borg", some "proj", some "deadLetter") :=
    signature_envPartKey (Deployment.desc_stripped_noColons he) (by decide)
  constructor
  · intro h n
    have hne : D.key h ≠ D.dlq e :=
      ne_of_kindOf (by simp [Deployment.kindOf_key, Deployment.kindOf_dlq he])
    simpa [Function.update_of_ne hne] using hrep.queue h n
  · intro e' he' n
    have hne : D.envQ e' ≠ D.dlq e := by
      intro heq
      have := congrArg signature heq
      rw [Deployment.envQ, signature_envQueueKey (Deployment.desc_stripped_noColons he'), hsig] at this
      exact absurd this (by decide)
    simpa [Function.update_of_ne hne] using hrep.envQueue e' he' n
  · exact hrep.queueCC
  · exact hrep.envCC
  · intro h
    have hne : D.master h.envId ≠ D.dlq e := Deployment.master_ne (by rw [hsig]; decide)
    simpa [Function.update_of_ne hne] using hrep.master h
  · exact hrep.typed.setZ (Or.inl (Deployment.kindOf_dlq he)) ht
  · exact hrep.stored

/-- worker queue への書き込み。 -/
theorem setWorkerQueue (hrep : Rep D s A) {w : String} {l : List String}
    (ht : s.LTyped (workerQueueKey w)) : Rep D (s.setL (workerQueueKey w) l ht) A := by
  constructor
  · exact hrep.queue
  · exact hrep.envQueue
  · exact hrep.queueCC
  · exact hrep.envCC
  · exact hrep.master
  · exact hrep.typed.setL (Or.inl (kindOf_workerQueueKey w)) ht
  · exact hrep.stored

end Rep

end RunQueue
