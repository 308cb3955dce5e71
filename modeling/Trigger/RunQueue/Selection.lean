import Mathlib.Data.List.Perm.Basic
import Mathlib.Data.List.Sort
import Trigger.Infra.Record
import Trigger.RunQueue.Dequeue

/-!
# FairQueueSelectionStrategy

`fairQueueSelectionStrategy.ts`。親の queue から期限の来た queue を読み、上限に達した環境を除き、
残りを環境ごとに並べて返す。

環境の上限の検査は二度書かれている。ここでは TypeScript が、`dequeueMessagesFromQueue` では Lua が、
同じ key を読む。burst factor の key が無いとき、TypeScript は 1 を使い、Lua は `RunQueue` の
`defaultEnvConcurrencyBurstFactor` を使う。両者が食い違うのは、実行中の数が二つの上限の間に入るときである
（`env_exclusion_iff`）。

乱数と重みは、走査が止まった位置（自然数）として受け取る。どの値を渡しても、選ばれる順が変わるだけである。
-/

namespace RunQueue

open Infra Infra.Text
open Infra.Redis Infra.Redis.Script

/-! ## 設定 -/

/-- `FairQueueSelectionStrategyOptions`。重みは 0 かどうかだけを持つ。 -/
structure SelectionOptions where
  defaultEnvConcurrencyLimit : Option ℚ := none
  parentQueueLimit : Option Nat := none
  envBiases : Bool := false
  queueAgeRandomization : Bool := false
  reuseSnapshotCount : Nat := 0
  maximumEnvCount : Nat := 0

/-- `RunEngine` の `options.queue` のうち、二つの部品に渡るもの。 -/
structure EngineQueueOptions where
  defaultEnvConcurrency : Option ℚ
  defaultEnvConcurrencyBurstFactor : Option ℚ
  queueSelectionStrategyOptions : SelectionOptions

/-- `RunEngine` の constructor が `FairQueueSelectionStrategy` に渡す設定。 -/
def EngineQueueOptions.selection (o : EngineQueueOptions) : SelectionOptions :=
  { o.queueSelectionStrategyOptions with
    defaultEnvConcurrencyLimit := o.queueSelectionStrategyOptions.defaultEnvConcurrencyLimit.or
      (some (o.defaultEnvConcurrency.getD 10)) }

/-- `RunEngine` の constructor が `RunQueue` に渡す設定。`base` は残りの項目。 -/
def EngineQueueOptions.runQueue (o : EngineQueueOptions) (base : Config) : Config :=
  { base with
    defaultEnvConcurrency := o.defaultEnvConcurrency.getD 10
    defaultEnvConcurrencyBurstFactor := o.defaultEnvConcurrencyBurstFactor }

def SelectionOptions.envLimit (o : SelectionOptions) : ℚ := o.defaultEnvConcurrencyLimit.getD 100

def SelectionOptions.queueLimit (o : SelectionOptions) : Nat := o.parentQueueLimit.getD 100

/-! ## 値 -/

/-- `FairQueue`。 -/
structure FairQueue where
  id : String
  age : ℚ
  org : String
  env : String
  project : String
deriving DecidableEq

/-- `FairQueueConcurrency`。`NaN` の上限は `none` で表す。 -/
structure FairQueueConcurrency where
  current : Nat
  limit : Option Int
deriving DecidableEq

/-- `FairQueueSnapshot`。 -/
structure FairQueueSnapshot where
  envs : List (String × FairQueueConcurrency)
  queues : List FairQueue

/-- `EnvQueues`。 -/
structure EnvQueues where
  envId : String
  queues : List String
deriving DecidableEq

/-- 乱数を使う走査の止まる位置。 -/
structure Randomness where
  shuffle : Nat → Nat
  weightedShuffle : Nat → Nat
  selectTopEnvs : Nat → Nat
  queueOrder : String → Nat → Nat

/-- `#envDescriptorFromFairQueue`。 -/
def envDescriptorFromFairQueue (q : FairQueue) : EnvDescriptor := ⟨q.org, q.project, q.env⟩

/-! ## 並べ替え -/

section Shuffle

variable {α : Type}

/-- 二つの位置の入れ替え。 -/
def swap (l : List α) (i j : Nat) : List α :=
  match l[i]?, l[j]? with
  | some a, some b => (l.set i b).set j a
  | _, _ => l

/-- `#shuffle` の `while`。 -/
def shuffleLoop (draw : Nat → Nat) : Nat → List α → List α
  | 0, l => l
  | currentIndex + 1, l =>
    shuffleLoop draw currentIndex (swap l currentIndex (draw currentIndex % (currentIndex + 1)))

/-- `#shuffle`。 -/
def shuffle (draw : Nat → Nat) (l : List α) : List α := shuffleLoop draw l.length l

/-- 重みの走査が `stop` 回で止まったときの位置。 -/
def weightedIndex (stop length : Nat) : Nat := min stop length - 1

/-- 重みつきの選択を高々 `n` 回繰り返す。 -/
def weightedSelect (draw : Nat → Nat) : Nat → List α → List α
  | 0, _ => []
  | n + 1, items =>
    match items[weightedIndex (draw items.length) items.length]? with
    | none => []
    | some a =>
      a :: weightedSelect draw n (items.eraseIdx (weightedIndex (draw items.length) items.length))

theorem swap_perm (l : List α) (i j : Nat) : (swap l i j).Perm l := by
  unfold swap
  split
  · next a b ha hb =>
    obtain ⟨hi, rfl⟩ := List.getElem?_eq_some_iff.mp ha
    obtain ⟨hj, rfl⟩ := List.getElem?_eq_some_iff.mp hb
    exact List.set_set_perm hi hj
  · exact List.Perm.refl l

theorem shuffleLoop_perm (draw : Nat → Nat) : ∀ (n : Nat) (l : List α),
    (shuffleLoop draw n l).Perm l
  | 0, l => List.Perm.refl l
  | n + 1, l => (shuffleLoop_perm draw n _).trans (swap_perm l _ _)

/-- 全てを選べば並べ替えになる。 -/
theorem weightedSelect_perm (draw : Nat → Nat) : ∀ (n : Nat) (l : List α), l.length = n →
    (weightedSelect draw n l).Perm l
  | 0, l, h => by
    rw [List.length_eq_zero_iff.mp h]
    exact List.Perm.refl _
  | n + 1, l, h => by
    have hlt : weightedIndex (draw l.length) l.length < l.length := by
      unfold weightedIndex
      omega
    unfold weightedSelect
    rw [List.getElem?_eq_getElem hlt]
    have hlen : (l.eraseIdx (weightedIndex (draw l.length) l.length)).length = n := by
      rw [List.length_eraseIdx_of_lt hlt, h]
      rfl
    exact ((weightedSelect_perm draw n _ hlen).cons _).trans (List.getElem_cons_eraseIdx_perm hlt)

end Shuffle

/-! ## 読み出し -/

/-- `keys.…FromQueue` を通した、親の queue の一件。 -/
def fairQueue (now : ℚ) (entry : String × ℚ) : Script Stored FairQueue :=
  match descriptorFromQueue entry.1 with
  | none => raise "Cannot read properties of undefined (reading 'replace')"
  | some d =>
    pure { id := entry.1, age := now - entry.2, org := d.orgId, env := d.envId,
           project := d.projectId }

/-- 並べて評価する。 -/
def traverse {α γ : Type} (f : α → Script Stored γ) : List α → Script Stored (List γ)
  | [] => pure []
  | a :: rest => do
    let c ← f a
    let cs ← traverse f rest
    pure (c :: cs)

/-- `#allChildQueuesByScore`。 -/
def allChildQueuesByScore (o : SelectionOptions) (parentQueue : String) (now : ℚ) :
    Script Stored (List FairQueue) := do
  let values ← zrangebyscore parentQueue now o.queueLimit
  traverse (fairQueue now) values

/-- SWR cache の中身。値が `none` のものは `NaN` である。 -/
abbrev LimitCache := String → Option (Option ℚ)

/-- `#getEnvConcurrencyLimit`。cache に無ければ読み、読めなければ既定値を使う。 -/
def getEnvConcurrencyLimit (o : SelectionOptions) (cache : LimitCache) (env : EnvDescriptor) :
    Script Stored (Option ℚ) := fun s =>
  match cache (envConcurrencyLimitKey env) with
  | some value => (.ok value, s)
  | none =>
    match (get (envConcurrencyLimitKey env) s).1 with
    | .ok (some value) => (.ok value.toNumber, s)
    | .ok none | .error _ => (.ok (some o.envLimit), s)

/-- `#getEnvConcurrencyLimitBurstFactor`。key が無ければ 1。 -/
def getEnvConcurrencyLimitBurstFactor (env : EnvDescriptor) : Script Stored (Option ℚ) :=
  getNumberOr (envConcurrencyLimitBurstFactorKey env) 1

/-- `#getEnvConcurrency`。 -/
def getEnvConcurrency (mul : ℚ → ℚ → ℚ) (o : SelectionOptions) (cache : LimitCache)
    (env : EnvDescriptor) : Script Stored FairQueueConcurrency := do
  let current ← scard (envCurrentConcurrencyKey env)
  let limit? ← getEnvConcurrencyLimit o cache env
  let burst? ← getEnvConcurrencyLimitBurstFactor env
  pure
    { current
      limit := limit?.bind fun limit => burst?.map fun burst => ⌊mul limit burst⌋ }

/-- 上限に達している。`NaN` との比較は偽である。 -/
def FairQueueConcurrency.full (c : FairQueueConcurrency) : Bool :=
  match c.limit with
  | none => false
  | some limit => limit ≤ (c.current : Int)

/-! ## snapshot -/

/-- `#selectTopEnvs`。 -/
def selectTopEnvs (draw : Nat → Nat) (queues : List FairQueue) (maximumEnvCount : Nat) :
    List String :=
  weightedSelect draw maximumEnvCount (queues.map FairQueue.env).dedup

/-- `maximumEnvCount` で絞った queue。 -/
def selectedQueues (o : SelectionOptions) (rnd : Randomness) (queues : List FairQueue) :
    List FairQueue :=
  if o.maximumEnvCount = 0 then queues
  else queues.filter (·.env ∈ selectTopEnvs rnd.selectTopEnvs queues o.maximumEnvCount)

/-- `envIdToEnvDescriptor`。同じ id の queue が二つあれば、後のものが残る。 -/
def envDescriptors (queues : List FairQueue) : JsMap EnvDescriptor :=
  queues.foldl (fun m q => m.set q.env (envDescriptorFromFairQueue q)) []

/-- 一つの環境の id と並行数。 -/
def envConcurrencyEntry (mul : ℚ → ℚ → ℚ) (o : SelectionOptions) (cache : LimitCache)
    (e : String × EnvDescriptor) : Script Stored (String × FairQueueConcurrency) := do
  let concurrency ← getEnvConcurrency mul o cache e.2
  pure (e.1, concurrency)

/-- 新しい snapshot。 -/
def freshSnapshot (mul : ℚ → ℚ → ℚ) (o : SelectionOptions) (cache : LimitCache) (rnd : Randomness)
    (queues : List FairQueue) : Script Stored FairQueueSnapshot := do
  let queues := selectedQueues o rnd queues
  let envs ← traverse (envConcurrencyEntry mul o cache) (envDescriptors queues)
  let full := (envs.filter fun e => e.2.full).map Prod.fst
  pure
    { envs := envs.filter fun e => e.1 ∉ full
      queues := queues.filter fun q => q.env ∉ full }

/-- `_reusedSnapshotForConsumer`。 -/
abbrev ReusedSnapshots := JsMap (FairQueueSnapshot × Nat)

/-- 使い回せる snapshot。 -/
def reusable (o : SelectionOptions) (reused : ReusedSnapshots) (key : String) :
    Option (FairQueueSnapshot × Nat) :=
  (reused.get key).filter fun r => r.2 < o.reuseSnapshotCount

/-- `#createQueueSnapshot`。 -/
def createQueueSnapshot (mul : ℚ → ℚ → ℚ) (o : SelectionOptions) (cache : LimitCache)
    (rnd : Randomness) (reused : ReusedSnapshots) (parentQueue consumerId : String) (now : ℚ) :
    Script Stored (FairQueueSnapshot × ReusedSnapshots) :=
  let key := parentQueue ++ ":" ++ consumerId
  match reusable o reused key with
  | some (snapshot, reuseCount) => pure (snapshot, reused.set key (snapshot, reuseCount + 1))
  | none => do
    let reused := if o.reuseSnapshotCount = 0 then reused else reused.filter (·.1 ≠ key)
    let queues ← allChildQueuesByScore o parentQueue now
    if queues = [] then pure (⟨[], []⟩, reused)
    else do
      let snapshot ← freshSnapshot mul o cache rnd queues
      pure (snapshot,
        if o.reuseSnapshotCount = 0 then reused else reused.set key (snapshot, 0))

/-- `#weightedRandomQueueOrder`。 -/
def weightedRandomQueueOrder (o : SelectionOptions) (draw : Nat → Nat) (queues : List FairQueue) :
    List FairQueue :=
  if queues.length ≤ 1 then queues
  else if o.queueAgeRandomization then weightedSelect draw queues.length queues
  else queues.mergeSort fun a b => b.age ≤ a.age

/-- `#orderQueuesByEnvs`。 -/
def orderQueuesByEnvs (o : SelectionOptions) (rnd : Randomness) (envs : List String)
    (queues : List FairQueue) : List EnvQueues :=
  envs.filterMap fun envId =>
    let envQueues := queues.filter (·.env = envId)
    if envQueues = [] then none
    else
      some ⟨envId, (weightedRandomQueueOrder o (rnd.queueOrder envId) envQueues).map FairQueue.id⟩

/-- `#shuffleQueuesByEnv`。 -/
def shuffleQueuesByEnv (o : SelectionOptions) (rnd : Randomness) (snapshot : FairQueueSnapshot) :
    List EnvQueues :=
  let envs := snapshot.envs.map Prod.fst
  if o.envBiases then
    orderQueuesByEnvs o rnd (weightedSelect rnd.weightedShuffle envs.length envs) snapshot.queues
  else orderQueuesByEnvs o rnd (shuffle rnd.shuffle envs) snapshot.queues

/-- `distributeFairQueuesFromParentQueue`。 -/
def distributeFairQueuesFromParentQueue (mul : ℚ → ℚ → ℚ) (o : SelectionOptions)
    (cache : LimitCache) (rnd : Randomness) (reused : ReusedSnapshots)
    (parentQueue consumerId : String) (now : ℚ) : Script Stored (List EnvQueues × ReusedSnapshots) := do
  let r ← createQueueSnapshot mul o cache rnd reused parentQueue consumerId now
  if r.1.queues = [] then pure ([], r.2)
  else pure (shuffleQueuesByEnv o rnd r.1, r.2)

/-! ## script の環境の検査 -/

/-- Lua `dequeueMessagesFromQueue` の最初の検査。`none` なら script はここで `nil` を返す。 -/
def envConcurrencyCheckLua (mul : ℚ → ℚ → ℚ) (envConcurrencyLimitKey
    envConcurrencyLimitBurstFactorKey envCurrentConcurrencyKey : String)
    (defaultEnvConcurrencyLimit defaultEnvConcurrencyBurstFactor : ℚ) :
    Script Stored (Option (ℚ × Int × Nat)) := do
  let envCurrentConcurrency ← scard envCurrentConcurrencyKey
  let envConcurrencyLimit? ← getNumberOr envConcurrencyLimitKey defaultEnvConcurrencyLimit
  let envConcurrencyLimitBurstFactor? ←
    getNumberOr envConcurrencyLimitBurstFactorKey defaultEnvConcurrencyBurstFactor
  match envConcurrencyLimit?, envConcurrencyLimitBurstFactor? with
  | some envConcurrencyLimit, some envConcurrencyLimitBurstFactor =>
    let envConcurrencyLimitWithBurstFactor : Int :=
      ⌊mul envConcurrencyLimit envConcurrencyLimitBurstFactor⌋
    if envConcurrencyLimitWithBurstFactor ≤ (envCurrentConcurrency : Int) then pure none
    else pure (some
      (envConcurrencyLimit, envConcurrencyLimitWithBurstFactor, envCurrentConcurrency))
  | _, _ => raise "attempt to perform arithmetic on a nil value"

/-- queue `q` の `dequeueMessagesFromQueue` が、環境の検査で `nil` を返す。 -/
def EnvCheckNil (cfg : Config) (s : State) (q : String) : Prop :=
  ∃ d, descriptorFromQueue q = some d ∧
    (envConcurrencyCheckLua cfg.mul (envConcurrencyLimitKey d.env)
      (envConcurrencyLimitBurstFactorKey d.env) (envCurrentConcurrencyKey d.env)
      cfg.defaultEnvConcurrency (cfg.defaultEnvConcurrencyBurstFactor.getD 1) s).1 = .ok none

/-- 二つの上限が読め、実行中の数が積の床に達している。 -/
def AtEnvLimit (mul : ℚ → ℚ → ℚ) (env : EnvDescriptor) (defaultLimit defaultBurst : ℚ)
    (s : State) : Prop :=
  ∃ limit burst, numberAt s (envConcurrencyLimitKey env) defaultLimit = some limit ∧
    numberAt s (envConcurrencyLimitBurstFactorKey env) defaultBurst = some burst ∧
    ⌊mul limit burst⌋ ≤ ((s.sets (envCurrentConcurrencyKey env)).card : Int)

/-- 環境の三つの key を、検査の通りに読める。 -/
structure EnvReadable (env : EnvDescriptor) (s : State) : Prop where
  current : s.STyped (envCurrentConcurrencyKey env)
  limit : s.StrTyped (envConcurrencyLimitKey env)
  burst : s.StrTyped (envConcurrencyLimitBurstFactorKey env)

section Check

variable {mul : ℚ → ℚ → ℚ} {env : EnvDescriptor} {defaultLimit defaultBurst : ℚ} {s : State}

theorem envConcurrencyCheckLua_nil_iff :
    (envConcurrencyCheckLua mul (envConcurrencyLimitKey env)
      (envConcurrencyLimitBurstFactorKey env) (envCurrentConcurrencyKey env)
      defaultLimit defaultBurst s).1 = .ok none ↔
    EnvReadable env s ∧ AtEnvLimit mul env defaultLimit defaultBurst s := by
  have hwp : wp (envConcurrencyCheckLua mul (envConcurrencyLimitKey env)
      (envConcurrencyLimitBurstFactorKey env) (envCurrentConcurrencyKey env)
      defaultLimit defaultBurst) (fun r _ => r = .ok none ↔
        EnvReadable env s ∧ AtEnvLimit mul env defaultLimit defaultBurst s) s := by
    have herr : ∀ {e : Error}, ¬ EnvReadable env s →
        ((.error e : Except Error (Option (ℚ × Int × Nat))) = .ok none ↔
          EnvReadable env s ∧ AtEnvLimit mul env defaultLimit defaultBurst s) :=
      fun h => ⟨(fun e => by cases e), fun e => absurd e.1 h⟩
    refine wp_bind (wp_scard (fun hc => ?_) (fun hn => herr fun h => hn h.current))
    refine wp_bind (wp_getNumberOr_eq (fun hl => ?_) (fun hn => herr fun h => hn h.limit))
    refine wp_bind (wp_getNumberOr_eq (fun hb => ?_) (fun hn => herr fun h => hn h.burst))
    have hr : EnvReadable env s := ⟨hc, hl, hb⟩
    rw [and_iff_right hr]
    unfold AtEnvLimit
    rcases numberAt s (envConcurrencyLimitKey env) defaultLimit with _ | limit
    · simp [raise]
    · rcases numberAt s (envConcurrencyLimitBurstFactorKey env) defaultBurst with _ | burst
      · simp [raise]
      · by_cases hle : ⌊mul limit burst⌋ ≤ ((s.sets (envCurrentConcurrencyKey env)).card : Int)
        · simp [hle]
        · simp [hle]
  exact hwp

/-- 環境の検査が先にあるので、上限に達していれば残りは実行されない。 -/
theorem dequeueMessagesFromQueueLua_of_atEnvLimit (hr : EnvReadable env s)
    (h : AtEnvLimit mul env defaultLimit defaultBurst s) (queueKey queueConcurrencyLimitKey
      queueCurrentConcurrencyKey messageKeyPrefix envQueueKey masterQueueKey queueName : String)
    (currentTime maxCount : ℚ) :
    dequeueMessagesFromQueueLua mul queueKey queueConcurrencyLimitKey (envConcurrencyLimitKey env)
      (envConcurrencyLimitBurstFactorKey env) queueCurrentConcurrencyKey
      (envCurrentConcurrencyKey env) messageKeyPrefix envQueueKey masterQueueKey queueName
      currentTime defaultLimit defaultBurst maxCount s = (.ok none, s) := by
  obtain ⟨limit, burst, hL, hB, hle⟩ := h
  have hwp : wp (dequeueMessagesFromQueueLua mul queueKey queueConcurrencyLimitKey
      (envConcurrencyLimitKey env) (envConcurrencyLimitBurstFactorKey env)
      queueCurrentConcurrencyKey (envCurrentConcurrencyKey env) messageKeyPrefix envQueueKey
      masterQueueKey queueName currentTime defaultLimit defaultBurst maxCount)
      (fun r s' => r = .ok none ∧ s' = s) s := by
    refine wp_bind (wp_scard (fun hc => ?_) (fun hn => absurd hr.current hn))
    refine wp_bind (wp_getNumberOr_eq (fun hl => ?_) (fun hn => absurd hr.limit hn))
    refine wp_bind (wp_getNumberOr_eq (fun hb => ?_) (fun hn => absurd hr.burst hn))
    simp only [hL, hB]
    rw [if_pos hle]
    exact ⟨rfl, rfl⟩
  exact Prod.ext hwp.1 hwp.2

end Check

/-- 上限に達した環境のどの queue でも、環境の検査は `nil` になる。 -/
theorem envCheckNil_of_atEnvLimit {cfg : Config} {s : State} {q : String} {qd : QueueDescriptor}
    (hq : descriptorFromQueue q = some qd) (hr : EnvReadable qd.env s)
    (h : AtEnvLimit cfg.mul qd.env cfg.defaultEnvConcurrency
      (cfg.defaultEnvConcurrencyBurstFactor.getD 1) s) : EnvCheckNil cfg s q :=
  ⟨qd, hq, envConcurrencyCheckLua_nil_iff.mpr ⟨hr, h⟩⟩

/-- 環境の検査で `nil` になる状態では、script は何も変えずに `nil` を返す。 -/
theorem callDequeueMessagesFromQueue_of_envCheckNil {cfg : Config} {s : State} {q : String}
    (h : EnvCheckNil cfg s q) (shard : Nat) (currentTime maxCount : ℚ) :
    cfg.callDequeueMessagesFromQueue q shard currentTime maxCount s = (.ok none, s) := by
  obtain ⟨d, hd, hnil⟩ := h
  obtain ⟨hr, hat⟩ := envConcurrencyCheckLua_nil_iff.mp hnil
  unfold Config.callDequeueMessagesFromQueue
  simp only [envConcurrencyLimitKeyFromQueue, envConcurrencyLimitBurstFactorKeyFromQueue,
    envCurrentConcurrencyKeyFromQueue, messageKeyPrefixFromQueue, envQueueKeyFromQueue, hd,
    Option.map_some, key_some, pure_script_bind]
  exact dequeueMessagesFromQueueLua_of_atEnvLimit hr hat ..

/-! ## 読み出しの結果 -/

section Reads

variable {α γ : Type} {s s' : State}

theorem bind_ok {c : Script Stored α} {f : α → Script Stored γ} {b : γ}
    (h : (c >>= f) s = (.ok b, s')) : ∃ a t, c s = (.ok a, t) ∧ f a t = (.ok b, s') := by
  change Script.bind c f s = _ at h
  unfold Script.bind at h
  rcases hc : c s with ⟨e | a, t⟩
  · rw [hc] at h
    exact absurd (congrArg Prod.fst h) (by simp)
  · rw [hc] at h
    exact ⟨a, t, rfl, h⟩

/-- 状態を変えない読み出しを並べても、状態は変わらない。 -/
theorem traverse_ok {f : α → Script Stored γ} (hf : ∀ a t, (f a t).2 = t) :
    ∀ {l : List α} {cs : List γ} {s' : State}, traverse f l s = (.ok cs, s') →
      s' = s ∧ List.Forall₂ (fun a c => f a s = (.ok c, s)) l cs
  | [], cs, s', h => by
    obtain ⟨hcs, hs⟩ := Prod.mk.inj (show (Except.ok [], s) = (.ok cs, s') from h)
    rw [← Except.ok.inj hcs]
    exact ⟨hs.symm, .nil⟩
  | a :: l, cs, s', h => by
    obtain ⟨c, t, hc, h⟩ := bind_ok h
    have ht : s = t := by rw [← hf a s, hc]
    subst ht
    obtain ⟨cs', t', hcs, h⟩ := bind_ok h
    obtain ⟨ht', hall⟩ := traverse_ok hf hcs
    obtain ⟨hcons, hs⟩ := Prod.mk.inj (show (Except.ok (c :: cs'), t') = (.ok cs, s') from h)
    rw [← Except.ok.inj hcons]
    exact ⟨hs.symm.trans ht', .cons hc hall⟩

theorem getNumberOr_ok {k : String} {d : ℚ} {r : Option ℚ} (h : getNumberOr k d s = (.ok r, s')) :
    s' = s ∧ s.StrTyped k ∧ r = numberAt s k d := by
  have hwp : wp (getNumberOr k d) (fun o t => o = .ok r → t = s ∧ s.StrTyped k ∧
      r = numberAt s k d) s :=
    wp_getNumberOr_eq (fun ht h => ⟨rfl, ht, (Except.ok.inj h).symm⟩) (fun _ h => by cases h)
  have := hwp (congrArg Prod.fst h)
  rwa [h] at this

theorem scard_ok {k : String} {n : Nat} (h : scard k s = (.ok n, s')) :
    s' = s ∧ s.STyped k ∧ n = (s.sets k).card := by
  have hwp : wp (scard k) (fun o t => o = .ok n → t = s ∧ s.STyped k ∧ n = (s.sets k).card) s :=
    wp_scard (fun ht h => ⟨rfl, ht, (Except.ok.inj h).symm⟩) (fun _ h => by cases h)
  have := hwp (congrArg Prod.fst h)
  rwa [h] at this

/-- cache の値が保存された上限と等しい。 -/
structure CachedLimitStored (o : SelectionOptions) (cache : LimitCache) (env : EnvDescriptor)
    (s : State) : Prop where
  readable : s.StrTyped (envConcurrencyLimitKey env)
  cached : ∀ value, cache (envConcurrencyLimitKey env) = some value →
    value = numberAt s (envConcurrencyLimitKey env) o.envLimit

theorem getEnvConcurrencyLimit_eq {o : SelectionOptions} {cache : LimitCache}
    {env : EnvDescriptor} (h : CachedLimitStored o cache env s) :
    getEnvConcurrencyLimit o cache env s =
      (.ok (numberAt s (envConcurrencyLimitKey env) o.envLimit), s) := by
  unfold getEnvConcurrencyLimit
  rcases hc : cache (envConcurrencyLimitKey env) with _ | value
  · have hget : get (envConcurrencyLimitKey env) s =
        (.ok (s.strs (envConcurrencyLimitKey env)), s) := dif_pos h.readable
    rw [hget]
    unfold numberAt
    rcases s.strs (envConcurrencyLimitKey env) with _ | v <;> rfl
  · rw [h.cached value hc]

/-- 上限に達しているという TypeScript の判定。burst factor の既定値は 1 である。 -/
theorem getEnvConcurrency_ok {mul : ℚ → ℚ → ℚ} {o : SelectionOptions} {cache : LimitCache}
    {env : EnvDescriptor} {c : FairQueueConcurrency} (hcache : CachedLimitStored o cache env s)
    (h : getEnvConcurrency mul o cache env s = (.ok c, s')) :
    EnvReadable env s ∧ (c.full = true ↔ AtEnvLimit mul env o.envLimit 1 s) := by
  obtain ⟨current, t, hcur, h⟩ := bind_ok h
  obtain ⟨rfl, hty, rfl⟩ := scard_ok hcur
  obtain ⟨limit, t', hlim, h⟩ := bind_ok h
  rw [getEnvConcurrencyLimit_eq hcache] at hlim
  obtain ⟨hlimit, rfl⟩ := Prod.mk.inj hlim
  obtain ⟨burst, t'', hburst, h⟩ := bind_ok h
  obtain ⟨rfl, hbt, rfl⟩ := getNumberOr_ok hburst
  obtain ⟨hc, -⟩ := Prod.mk.inj h
  refine ⟨⟨hty, hcache.readable, hbt⟩, ?_⟩
  rw [← Except.ok.inj hc, ← Except.ok.inj hlimit]
  unfold AtEnvLimit FairQueueConcurrency.full
  rcases numberAt t'' (envConcurrencyLimitKey env) o.envLimit with _ | L
  · simp
  · rcases numberAt t'' (envConcurrencyLimitBurstFactorKey env) 1 with _ | B
    · simp
    · simp

theorem getEnvConcurrencyLimit_ok (o : SelectionOptions) (cache : LimitCache)
    (env : EnvDescriptor) (t : State) :
    ∃ limit, getEnvConcurrencyLimit o cache env t = (.ok limit, t) := by
  unfold getEnvConcurrencyLimit
  rcases cache (envConcurrencyLimitKey env) with _ | value
  · rcases (get (envConcurrencyLimitKey env) t).1 with e | _ | v
    · exact ⟨_, rfl⟩
    · exact ⟨_, rfl⟩
    · exact ⟨_, rfl⟩
  · exact ⟨_, rfl⟩

theorem getEnvConcurrency_state {mul : ℚ → ℚ → ℚ} {o : SelectionOptions} {cache : LimitCache}
    (env : EnvDescriptor) (t : State) : (getEnvConcurrency mul o cache env t).2 = t := by
  have hwp : wp (getEnvConcurrency mul o cache env) (fun _ t' => t' = t) t := by
    refine wp_bind (wp_scard (fun _ => wp_bind ?_) (fun _ => rfl))
    obtain ⟨limit, hlimit⟩ := getEnvConcurrencyLimit_ok o cache env t
    unfold wp
    rw [hlimit]
    show wp (getEnvConcurrencyLimitBurstFactor env >>= _) (fun _ t' => t' = t) t
    exact wp_bind (wp_getNumberOr_eq (fun _ => rfl) (fun _ => rfl))
  exact hwp

end Reads

/-! ## 候補の環境 -/

theorem envDescriptors_nodup (queues : List FairQueue) :
    ((envDescriptors queues).map Prod.fst).Nodup := by
  unfold envDescriptors
  refine List.foldlRecOn (motive := fun m : JsMap EnvDescriptor => (m.map Prod.fst).Nodup) queues _
    List.nodup_nil fun m hm q _ => ?_
  exact JsMap.nodup_keys_set hm _ _

/-- 候補の環境は、どれかの queue の環境である。 -/
theorem exists_queue_of_mem {queues : List FairQueue} {envId : String} {d : EnvDescriptor}
    (h : (envId, d) ∈ envDescriptors queues) :
    ∃ q ∈ queues, q.env = envId ∧ envDescriptorFromFairQueue q = d := by
  have hall : ∀ e ∈ envDescriptors queues,
      ∃ q ∈ queues, q.env = e.1 ∧ envDescriptorFromFairQueue q = e.2 := by
    unfold envDescriptors
    refine List.foldlRecOn (motive := fun m : JsMap EnvDescriptor => ∀ e ∈ m,
      ∃ q ∈ queues, q.env = e.1 ∧ envDescriptorFromFairQueue q = e.2) queues _ (by simp) fun m hm q hq e he => ?_
    rcases JsMap.mem_set he with hmem | ⟨h1, h2⟩
    · exact hm e hmem
    · exact ⟨q, hq, h1.symm, h2.symm⟩
  exact hall _ h

/-- 親の queue から読んだ一件は、queue key の descriptor を持つ。 -/
theorem descriptor_of_fairQueue {now : ℚ} {e : String × ℚ} {q : FairQueue} {s s' : State}
    (h : fairQueue now e s = (.ok q, s')) : ∃ d, descriptorFromQueue q.id = some d ∧
      d.env = envDescriptorFromFairQueue q := by
  unfold fairQueue at h
  rcases hd : descriptorFromQueue e.1 with _ | d
  · rw [hd] at h
    exact absurd (congrArg Prod.fst h) (by simp [raise, Script.fail])
  · rw [hd] at h
    rw [← Except.ok.inj (congrArg Prod.fst h)]
    exact ⟨d, hd, rfl⟩

theorem fairQueue_state (now : ℚ) (e : String × ℚ) (t : State) : (fairQueue now e t).2 = t := by
  unfold fairQueue
  rcases descriptorFromQueue e.1 with _ | d <;> rfl

theorem zrangebyscore_state {k : String} {max count : ℚ} {s : State} :
    (zrangebyscore k max count s).2 = s :=
  wp_zrangebyscore (Q := fun _ t => t = s) (fun _ _ => rfl) (fun _ => rfl) (fun _ => rfl)

theorem allChildQueuesByScore_ok {o : SelectionOptions} {parentQueue : String} {now : ℚ}
    {s s' : State} {queues : List FairQueue}
    (h : allChildQueuesByScore o parentQueue now s = (.ok queues, s')) :
    s' = s ∧ ∀ q ∈ queues, ∃ d, descriptorFromQueue q.id = some d ∧
      d.env = envDescriptorFromFairQueue q := by
  obtain ⟨values, t, hv, h⟩ := bind_ok h
  have ht : s = t := by rw [← zrangebyscore_state (s := s), hv]
  subst ht
  obtain ⟨hs, hall⟩ := traverse_ok (fairQueue_state now) h
  refine ⟨hs, fun q hq => ?_⟩
  obtain ⟨i, hi, rfl⟩ := List.getElem_of_mem hq
  exact descriptor_of_fairQueue (hall.get (hall.length_eq ▸ hi) hi)

/-! ## snapshot に残る環境 -/

section Snapshot

variable {mul : ℚ → ℚ → ℚ} {o : SelectionOptions} {cache : LimitCache} {rnd : Randomness}
  {queues : List FairQueue} {s s' : State} {snapshot : FairQueueSnapshot} {envId : String}
  {d : EnvDescriptor}

theorem envConcurrencyEntry_state (e : String × EnvDescriptor) (t : State) :
    (envConcurrencyEntry mul o cache e t).2 = t := by
  refine wp_bind (Q := fun _ t' => t' = t) (wp_mono (Q := fun _ t' => t' = t)
    (getEnvConcurrency_state e.2 t) fun r t' ht => ?_)
  rcases r with e' | c
  · exact ht
  · exact ht

theorem envConcurrencyEntry_ok {e : String × EnvDescriptor} {c : String × FairQueueConcurrency}
    (h : envConcurrencyEntry mul o cache e s = (.ok c, s')) :
    c.1 = e.1 ∧ getEnvConcurrency mul o cache e.2 s = (.ok c.2, s') := by
  obtain ⟨concurrency, t, hconc, h⟩ := bind_ok h
  obtain ⟨hc, ht⟩ := Prod.mk.inj (show (Except.ok (e.1, concurrency), t) = (.ok c, s') from h)
  rw [← Except.ok.inj hc, ← ht]
  exact ⟨rfl, hconc⟩

/-- 候補の環境は、上限に達していないとき、そのときに限って snapshot に残る。 -/
theorem freshSnapshot_ok (h : freshSnapshot mul o cache rnd queues s = (.ok snapshot, s'))
    (hd : (envId, d) ∈ envDescriptors (selectedQueues o rnd queues))
    (hcache : CachedLimitStored o cache d s) :
    EnvReadable d s ∧
      (envId ∈ snapshot.envs.map Prod.fst ↔ ¬ AtEnvLimit mul d o.envLimit 1 s) ∧
      ((∃ q ∈ snapshot.queues, q.env = envId) ↔ ¬ AtEnvLimit mul d o.envLimit 1 s) := by
  obtain ⟨envs, t, henvs, h⟩ := bind_ok h
  obtain ⟨-, hall⟩ := traverse_ok envConcurrencyEntry_state henvs
  obtain ⟨hsnap, -⟩ := Prod.mk.inj h
  -- 読み出した列は、候補の環境と同じ id の列である。
  have hids : envs.map Prod.fst =
      (envDescriptors (selectedQueues o rnd queues)).map Prod.fst := by
    refine List.forall₂_eq_eq_eq ▸ List.forall₂_map_left_iff.mpr
      (List.forall₂_map_right_iff.mpr ?_)
    exact hall.flip.imp fun c e hc => (envConcurrencyEntry_ok hc).1
  have hnodup : (envs.map Prod.fst).Nodup := hids ▸ envDescriptors_nodup _
  obtain ⟨i, hi, hget⟩ := List.getElem_of_mem hd
  have hi' : i < envs.length := hall.length_eq ▸ hi
  have hentry := hall.get hi hi'
  simp only [List.get_eq_getElem, hget] at hentry
  obtain ⟨hid, hconc⟩ := envConcurrencyEntry_ok hentry
  obtain ⟨hreadable, hfull⟩ := getEnvConcurrency_ok hcache hconc
  have hmem : (envId, envs[i].2) ∈ envs := by
    have : (envId, envs[i].2) = envs[i] := Prod.ext hid.symm rfl
    rw [this]
    exact List.getElem_mem hi'
  have hdropped : envId ∈ (envs.filter fun e => e.2.full).map Prod.fst ↔
      AtEnvLimit mul d o.envLimit 1 s := by
    rw [← hfull, List.mem_map]
    constructor
    · rintro ⟨⟨id, c⟩, hc, rfl⟩
      obtain ⟨hc, hcf⟩ := List.mem_filter.mp hc
      have h1 := Record.lookup_of_mem hnodup hc
      have h2 := Record.lookup_of_mem hnodup hmem
      rw [Option.some.inj (h2.symm.trans h1)]
      exact hcf
    · intro hf
      exact ⟨_, List.mem_filter.mpr ⟨hmem, hf⟩, rfl⟩
  refine ⟨hreadable, ?_, ?_⟩
  · rw [← hdropped, ← Except.ok.inj hsnap]
    constructor
    · rintro hin hfull'
      obtain ⟨e, he, rfl⟩ := List.mem_map.mp hin
      exact of_decide_eq_true (List.mem_filter.mp he).2 hfull'
    · intro hnot
      exact List.mem_map.mpr ⟨_, List.mem_filter.mpr ⟨hmem, decide_eq_true hnot⟩, rfl⟩
  · rw [← hdropped, ← Except.ok.inj hsnap]
    constructor
    · rintro ⟨q, hq, rfl⟩
      exact of_decide_eq_true (List.mem_filter.mp hq).2
    · intro hnot
      obtain ⟨q, hq, rfl, -⟩ := exists_queue_of_mem hd
      exact ⟨q, List.mem_filter.mpr ⟨hq, decide_eq_true hnot⟩, rfl⟩

end Snapshot

/-! ## 返る環境 -/

theorem mem_orderQueuesByEnvs {o : SelectionOptions} {rnd : Randomness} {envs : List String}
    {queues : List FairQueue} {envId : String} :
    envId ∈ (orderQueuesByEnvs o rnd envs queues).map EnvQueues.envId ↔
      envId ∈ envs ∧ ∃ q ∈ queues, q.env = envId := by
  have hne : ∀ id, queues.filter (·.env = id) = [] ↔ ¬ ∃ q ∈ queues, q.env = id := by
    intro id
    rw [List.filter_eq_nil_iff]
    simp
  rw [List.mem_map]
  unfold orderQueuesByEnvs
  constructor
  · rintro ⟨e, he, rfl⟩
    obtain ⟨id, hid, hsome⟩ := List.mem_filterMap.mp he
    simp only at hsome
    split at hsome
    · cases hsome
    · next hq =>
      rw [← Option.some.inj hsome]
      exact ⟨hid, not_not.mp fun h => hq ((hne id).mpr h)⟩
  · rintro ⟨hid, hq⟩
    have hsome : (if queues.filter (·.env = envId) = [] then none else some (EnvQueues.mk envId
        ((weightedRandomQueueOrder o (rnd.queueOrder envId)
          (queues.filter (·.env = envId))).map FairQueue.id))) = some _ :=
      if_neg fun h => (hne envId).mp h hq
    exact ⟨_, List.mem_filterMap.mpr ⟨envId, hid, hsome⟩, rfl⟩

/-- 並べ替えは環境を増やさず、減らさない。 -/
theorem mem_shuffleQueuesByEnv {o : SelectionOptions} {rnd : Randomness}
    {snapshot : FairQueueSnapshot} {envId : String} :
    envId ∈ (shuffleQueuesByEnv o rnd snapshot).map EnvQueues.envId ↔
      envId ∈ snapshot.envs.map Prod.fst ∧ ∃ q ∈ snapshot.queues, q.env = envId := by
  unfold shuffleQueuesByEnv
  split
  · rw [mem_orderQueuesByEnvs, (weightedSelect_perm _ _ _ rfl).mem_iff]
  · rw [mem_orderQueuesByEnvs, shuffle, (shuffleLoop_perm _ _ _).mem_iff]

/-- 候補の環境は、TypeScript の判定で上限に達しているとき、そのときに限って結果から除かれる。 -/
theorem dropped_iff_atEnvLimit {mul : ℚ → ℚ → ℚ} {o : SelectionOptions} {cache : LimitCache}
    {rnd : Randomness} {reused : ReusedSnapshots} {parentQueue consumerId : String} {now : ℚ}
    {s s' : State} {queues : List FairQueue} {r : List EnvQueues × ReusedSnapshots}
    {d : EnvDescriptor}
    (hfresh : reusable o reused (parentQueue ++ ":" ++ consumerId) = none)
    (hqueues : allChildQueuesByScore o parentQueue now s = (.ok queues, s))
    (hrun : distributeFairQueuesFromParentQueue mul o cache rnd reused parentQueue consumerId now s
      = (.ok r, s'))
    (hd : (d.envId, d) ∈ envDescriptors (selectedQueues o rnd queues))
    (hcache : CachedLimitStored o cache d s) :
    EnvReadable d s ∧
      (d.envId ∉ r.1.map EnvQueues.envId ↔ AtEnvLimit mul d o.envLimit 1 s) := by
  -- 使い回す snapshot が無いので、新しく作られる
  obtain ⟨⟨snapshot, reused'⟩, t, hsnap, hrun⟩ := bind_ok hrun
  unfold createQueueSnapshot at hsnap
  simp only [hfresh] at hsnap
  obtain ⟨queues', t', hq, hsnap⟩ := bind_ok hsnap
  rw [hqueues] at hq
  obtain ⟨hqs, rfl⟩ := Prod.mk.inj hq
  rw [← Except.ok.inj hqs] at hsnap
  have hne : queues ≠ [] := by
    rintro rfl
    have : selectedQueues o rnd [] = [] := by
      unfold selectedQueues
      split <;> rfl
    rw [this] at hd
    cases hd
  rw [if_neg hne] at hsnap
  obtain ⟨snapshot', t'', hfr, hsnap⟩ := bind_ok hsnap
  obtain ⟨hpair, -⟩ := Prod.mk.inj hsnap
  obtain ⟨rfl, -⟩ := Prod.mk.inj (Except.ok.inj hpair)
  obtain ⟨hreadable, henvs, hqs⟩ := freshSnapshot_ok hfr hd hcache
  refine ⟨hreadable, ?_⟩
  split at hrun
  · next hnil =>
    obtain ⟨hr, -⟩ := Prod.mk.inj hrun
    rw [← Except.ok.inj hr]
    simp only at hnil
    rw [hnil] at hqs
    have hat : AtEnvLimit mul d o.envLimit 1 s := by
      by_contra hnot
      obtain ⟨q, hq, -⟩ := hqs.mpr hnot
      cases hq
    simp [hat]
  · obtain ⟨hr, -⟩ := Prod.mk.inj hrun
    rw [← Except.ok.inj hr, mem_shuffleQueuesByEnv, henvs, hqs, and_self, not_not]

/-! ## 二つの検査の一致 -/

/-- 二つの検査が食い違わない状態。burst factor の key があるか、実行中の数が二つの上限の間に無い。 -/
def BurstFactorsAgree (cfg : Config) (env : EnvDescriptor) (s : State) : Prop :=
  let current : Int := (s.sets (envCurrentConcurrencyKey env)).card
  s.strs (envConcurrencyLimitBurstFactorKey env) ≠ none ∨
    ∀ limit, numberAt s (envConcurrencyLimitKey env) cfg.defaultEnvConcurrency = some limit →
      let withoutBurst := ⌊cfg.mul limit 1⌋
      let withBurst := ⌊cfg.mul limit (cfg.defaultEnvConcurrencyBurstFactor.getD 1)⌋
      ¬ (min withoutBurst withBurst ≤ current ∧ current < max withoutBurst withBurst)

theorem atEnvLimit_iff_iff (cfg : Config) {env : EnvDescriptor} {s : State} :
    (AtEnvLimit cfg.mul env cfg.defaultEnvConcurrency 1 s ↔ AtEnvLimit cfg.mul env
      cfg.defaultEnvConcurrency (cfg.defaultEnvConcurrencyBurstFactor.getD 1) s) ↔
      BurstFactorsAgree cfg env s := by
  unfold AtEnvLimit BurstFactorsAgree
  rcases hb : s.strs (envConcurrencyLimitBurstFactorKey env) with _ | v
  · have hnum : ∀ b, numberAt s (envConcurrencyLimitBurstFactorKey env) b = some b := by
      intro b
      unfold numberAt
      rw [hb]
    rcases numberAt s (envConcurrencyLimitKey env) cfg.defaultEnvConcurrency with _ | limit
    · simp
    · simp only [hnum, Option.some.injEq, exists_and_left, exists_eq_left', ne_eq,
        not_true_eq_false, false_or, forall_eq', min_le_iff, lt_max_iff]
      omega
  · have hnum : ∀ b, numberAt s (envConcurrencyLimitBurstFactorKey env) b = v.toNumber := by
      intro b
      unfold numberAt
      rw [hb]
    simp [hnum]

/-- **環境の除外は、二つの検査が食い違わないとき、そのときに限って script の検査と一致する。** 新しい
snapshot を取る呼び出しで、候補の環境が除かれることと、その環境のどの queue の script も環境の検査で `nil` を
返すこととが同値になるのは、burst factor の key があるか、実行中の数が `⌊limit⌋` と `⌊limit * burst⌋` の
間に無いときである。 -/
theorem env_exclusion_iff {o : EngineQueueOptions} {base : Config} {cache : LimitCache}
    {rnd : Randomness} {reused : ReusedSnapshots} {parentQueue consumerId : String} {now : ℚ}
    {s s' : State} {queues : List FairQueue} {r : List EnvQueues × ReusedSnapshots}
    {d : EnvDescriptor}
    (hsame : o.selection.envLimit = (o.runQueue base).defaultEnvConcurrency)
    (hfresh : reusable o.selection reused (parentQueue ++ ":" ++ consumerId) = none)
    (hqueues : allChildQueuesByScore o.selection parentQueue now s = (.ok queues, s))
    (hrun : distributeFairQueuesFromParentQueue base.mul o.selection cache rnd reused parentQueue
      consumerId now s = (.ok r, s'))
    (hd : (d.envId, d) ∈ envDescriptors (selectedQueues o.selection rnd queues))
    (hcache : CachedLimitStored o.selection cache d s) :
    (d.envId ∉ r.1.map EnvQueues.envId ↔
      ∀ q qd, descriptorFromQueue q = some qd → qd.env = d → EnvCheckNil (o.runQueue base) s q) ↔
    BurstFactorsAgree (o.runQueue base) d s := by
  obtain ⟨hreadable, hdropped⟩ := dropped_iff_atEnvLimit hfresh hqueues hrun hd hcache
  have hnil : (∀ q qd, descriptorFromQueue q = some qd → qd.env = d →
      EnvCheckNil (o.runQueue base) s q) ↔ AtEnvLimit base.mul d
        (o.runQueue base).defaultEnvConcurrency
        ((o.runQueue base).defaultEnvConcurrencyBurstFactor.getD 1) s := by
    constructor
    · intro h
      obtain ⟨q, hq, -, hqd⟩ := exists_queue_of_mem hd
      have hq' : q ∈ queues := by
        unfold selectedQueues at hq
        split at hq
        · exact hq
        · exact List.mem_of_mem_filter hq
      obtain ⟨qd, hid, henv⟩ := (allChildQueuesByScore_ok hqueues).2 q hq'
      obtain ⟨qd', hid', hcheck⟩ := h q.id qd hid (henv.trans hqd)
      rw [← Option.some.inj (hid.symm.trans hid'), henv, hqd] at hcheck
      exact (envConcurrencyCheckLua_nil_iff.mp hcheck).2
    · rintro hat q qd hq rfl
      exact envCheckNil_of_atEnvLimit hq hreadable hat
  rw [hdropped, hnil, hsame]
  exact atEnvLimit_iff_iff (o.runQueue base)

/-- 二つの検査が食い違わなければ、除かれた環境の queue からは、script も何も取り出さない。 -/
theorem excluded_env_dequeues_nothing {o : EngineQueueOptions} {base : Config} {cache : LimitCache}
    {rnd : Randomness} {reused : ReusedSnapshots} {parentQueue consumerId : String} {now : ℚ}
    {s s' : State} {queues : List FairQueue} {r : List EnvQueues × ReusedSnapshots}
    {d : EnvDescriptor}
    (hsame : o.selection.envLimit = (o.runQueue base).defaultEnvConcurrency)
    (hfresh : reusable o.selection reused (parentQueue ++ ":" ++ consumerId) = none)
    (hqueues : allChildQueuesByScore o.selection parentQueue now s = (.ok queues, s))
    (hrun : distributeFairQueuesFromParentQueue base.mul o.selection cache rnd reused parentQueue
      consumerId now s = (.ok r, s'))
    (hd : (d.envId, d) ∈ envDescriptors (selectedQueues o.selection rnd queues))
    (hcache : CachedLimitStored o.selection cache d s)
    (hagree : BurstFactorsAgree (o.runQueue base) d s)
    (hexcluded : d.envId ∉ r.1.map EnvQueues.envId) {q : String} {qd : QueueDescriptor}
    (hq : descriptorFromQueue q = some qd) (henv : qd.env = d) (shard : Nat)
    (currentTime maxCount : ℚ) :
    (o.runQueue base).callDequeueMessagesFromQueue q shard currentTime maxCount s =
      (.ok none, s) := by
  obtain ⟨hreadable, hdropped⟩ := dropped_iff_atEnvLimit hfresh hqueues hrun hd hcache
  have hat : AtEnvLimit base.mul d (o.runQueue base).defaultEnvConcurrency 1 s := by
    rw [← hsame]
    exact hdropped.mp hexcluded
  subst henv
  have hscript := ((atEnvLimit_iff_iff (o.runQueue base)).mpr hagree).mp hat
  exact callDequeueMessagesFromQueue_of_envCheckNil
    (envCheckNil_of_atEnvLimit hq hreadable hscript) shard currentTime maxCount

/-! ## 食い違う例 -/

namespace Selection

def env : EnvDescriptor := ⟨"o", "p", "e"⟩

/-- 期限の来た queue が一つあり、その環境で一つの run が実行中である。 -/
def oneRunning : State :=
  ((do
    zadd (masterQueueKeyForShard 0) 0 (queueKey env "q" none)
    sadd (envCurrentConcurrencyKey env) "run_1" : Script Stored Unit) Db.empty).2

def base : Config where
  shardOf _ := 0
  defaultEnvConcurrency := 0
  defaultEnvConcurrencyBurstFactor := none
  mul a b := a * b
  maxAttempts := 1
  overrides := none

/-- 環境の既定の上限は 1 である。 -/
def engine (burst : Option ℚ) : EngineQueueOptions := ⟨some 1, burst, {}⟩

def rnd : Randomness := ⟨fun _ => 0, fun _ => 0, fun _ => 0, fun _ _ => 0⟩

def distribute (burst : Option ℚ) :
    Except Error (List EnvQueues × ReusedSnapshots) × State :=
  distributeFairQueuesFromParentQueue base.mul (engine burst).selection (fun _ => none) rnd []
    (masterQueueKeyForShard 0) "consumer" 0 oneRunning

theorem cachedLimitStored (burst : Option ℚ) :
    CachedLimitStored (engine burst).selection (fun _ => none) env oneRunning :=
  ⟨by decide +kernel, fun _ h => by cases h⟩

/-- queue の descriptor。 -/
theorem descriptorFromQueue_sample :
    descriptorFromQueue (queueKey env "q" none) = some ⟨"o", "p", "e", "q", none⟩ := by
  decide +kernel

/-- burst factor の既定値が 2 で key が無いとき、上限 1 の環境は一つの run で除かれるが、script は
まだ環境の検査を通す。 -/
theorem env_excluded_but_not_nil :
    (distribute (some 2)).1.map (fun r => r.1.map EnvQueues.envId) = .ok [] ∧
      CachedLimitStored (engine (some 2)).selection (fun _ => none) env oneRunning ∧
      ¬ EnvCheckNil ((engine (some 2)).runQueue base) oneRunning (queueKey env "q" none) := by
  refine ⟨by decide +kernel, cachedLimitStored _, ?_⟩
  rintro ⟨d, hd, h⟩
  rw [descriptorFromQueue_sample] at hd
  rw [← Option.some.inj hd] at h
  exact absurd h (by decide +kernel)

/-- burst factor の既定値が無いときの同じ状態では、除かれ、かつ `nil` になる。 -/
theorem env_exclusion_iff_sample : ∃ r s', distribute none = (.ok r, s') ∧
    (env.envId ∉ r.1.map EnvQueues.envId ↔ ∀ q qd, descriptorFromQueue q = some qd → qd.env = env →
      EnvCheckNil ((engine none).runQueue base) oneRunning q) := by
  have hqueues : (allChildQueuesByScore (engine none).selection (masterQueueKeyForShard 0) 0
      oneRunning).1 = .ok [⟨queueKey env "q" none, 0, "o", "e", "p"⟩] := by decide +kernel
  have hok : allChildQueuesByScore (engine none).selection (masterQueueKeyForShard 0) 0 oneRunning =
      (.ok [⟨queueKey env "q" none, 0, "o", "e", "p"⟩], (allChildQueuesByScore
        (engine none).selection (masterQueueKeyForShard 0) 0 oneRunning).2) :=
    Prod.ext hqueues rfl
  have hread := allChildQueuesByScore_ok hok
  have hrun : ∃ r, (distribute none).1 = .ok r := by
    rcases h : (distribute none).1 with e | r
    · have : (distribute none).1.map (fun r => r.1.map EnvQueues.envId) = .ok [] := by
        decide +kernel
      rw [h] at this
      cases this
    · exact ⟨r, rfl⟩
  obtain ⟨r, hr⟩ := hrun
  have hdist : distribute none = (.ok r, (distribute none).2) := by rw [← hr]
  have hsame : (engine none).selection.envLimit =
      ((engine none).runQueue base).defaultEnvConcurrency := by decide +kernel
  have hd : (env.envId, env) ∈ envDescriptors (selectedQueues (engine none).selection rnd
      [⟨queueKey env "q" none, 0, "o", "e", "p"⟩]) := by decide +kernel
  refine ⟨r, _, hdist, (env_exclusion_iff hsame rfl (Prod.ext hqueues hread.1) hdist hd
    (cachedLimitStored none)).mpr (.inr ?_)⟩
  intro limit h
  have hnum : numberAt oneRunning (envConcurrencyLimitKey env) 1 = some 1 := by decide +kernel
  obtain rfl : 1 = limit := Option.some.inj (hnum.symm.trans h)
  decide +kernel

end Selection

end RunQueue
