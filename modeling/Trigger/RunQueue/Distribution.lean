import Trigger.Infra.Grouping
import Trigger.Infra.Sampling
import Trigger.RunQueue.Selection

/-!
# 環境と queue の分配

`fairQueueSelectionStrategy.ts` の `distributeFairQueuesFromParentQueue` を、重みと乱数の計算まで含めて訳す。
`RunQueue.Selection` では走査の止まる位置だけを受け取ったが、ここでは重みを求め、乱数に合計を掛け、引いていく。
数の演算 `Arithmetic` は丸めや `NaN` を許すので、重みは 0 でも、`0 / 0` でもよい。

四つの loop のどれも範囲を外れず、列を並べ替えるか、その一部を選ぶ。したがって、どの親の queue の内容と並行数と
設定と乱数に対しても、結果は queue を失わず、作り出さない（`distributes_fairly`）。
-/

namespace RunQueue.Distribution

open Infra Infra.Sampling Infra.Text
open Infra.Redis (ZSet)

/-! ## 設定 -/

/-- `FairQueueSelectionStrategyBiases`。 -/
structure Biases (ν : Type) where
  concurrencyLimitBias : ν
  availableCapacityBias : ν
  queueAgeRandomization : ν

/-- `FairQueueSelectionStrategyOptions` のうち、分配を決めるもの。 -/
structure Options (ν : Type) where
  biases : Option (Biases ν) := none
  maximumEnvCount : Nat := 0
  parentQueueLimit : Nat := 100

/-- `FairQueueConcurrency`。 -/
structure Concurrency where
  current : Nat
  limit : Int
deriving DecidableEq

/-- `FairQueueSnapshot`。 -/
structure Snapshot where
  envs : JsMap Concurrency
  queues : List FairQueue

/-- `Object.prototype` の property 名。 -/
def objectPrototype : List String :=
  ["constructor", "__defineGetter__", "__defineSetter__", "hasOwnProperty", "__lookupGetter__",
    "__lookupSetter__", "isPrototypeOf", "propertyIsEnumerable", "toString", "valueOf",
    "__proto__", "toLocaleString"]

/-- 配列の添字の形をした key。 -/
def isArrayIndex (key : String) : Bool :=
  match key.toNat? with
  | some n => toString n = key ∧ n < 4294967295
  | none => false

/-- `Object.keys` の順。添字の形の key が先に、小さい順に並ぶ。 -/
def propertyOrder (keys : List String) : List String :=
  (keys.filter isArrayIndex).mergeSort (fun a b => a.toNat?.getD 0 ≤ b.toNat?.getD 0) ++
    keys.filter fun key => !isArrayIndex key

section Strategy

variable {ν : Type} (A : Arithmetic ν)

/-- 乱数の列。 -/
abbrev Rng := Nat → A.Draw

/-- 初めの `n` 個を除いた列。 -/
def Rng.drop {A : Arithmetic ν} (rng : Rng A) (n : Nat) : Rng A := fun k => rng (n + k)

/-- `options.biases ?? defaultBiases`。 -/
def Options.effectiveBiases (o : Options ν) : Biases ν :=
  o.biases.getD ⟨A.ofRat 0, A.ofRat 0, A.ofRat 0⟩

/-! ## 並べ替え -/

/-- `#shuffle` の `while`。位置が範囲を外れると `undefined` が入る。ここでは失敗とする。 -/
def shuffleLoop {α : Type} (rng : Rng A) : Nat → Nat → List α → Except String (List α)
  | 0, _, newArray => .ok newArray
  | currentIndex + 1, k, newArray =>
    let randomIndex := A.floor (A.mul (rng k).1 (A.ofRat (currentIndex + 1 : Nat)))
    if randomIndex < newArray.length then
      shuffleLoop rng currentIndex (k + 1) (swap newArray currentIndex randomIndex)
    else .error "undefined"

/-- `#shuffle`。 -/
def shuffle {α : Type} (rng : Rng A) (array : List α) : Except String (List α) :=
  shuffleLoop A rng array.length 0 array

/-- `#weightedShuffle`。選んでも合計は変えない。 -/
def weightedShuffle (rng : Rng A) (weightedItems : List (String × ν)) : List String :=
  let totalWeight := A.sum (weightedItems.map Prod.snd)
  (sample A Prod.snd (fun total _ => total) rng weightedItems.length 0 totalWeight
    weightedItems).map Prod.fst

/-- `weightedQueues`。 -/
def weightedQueues (biases : Biases ν) (queues : List FairQueue) : List (FairQueue × ν) :=
  let maxAge := A.maximum (queues.map fun q => A.ofRat q.age)
  queues.map fun q =>
    let normalizedAge := A.div (A.ofRat q.age) maxAge
    (q, A.add (A.ofRat 1) (A.mul normalizedAge biases.queueAgeRandomization))

/-- `#weightedRandomQueueOrder`。 -/
def weightedRandomQueueOrder (biases : Biases ν) (rng : Rng A) (queues : List FairQueue) :
    List FairQueue :=
  if queues.length ≤ 1 then queues
  else if A.isZero biases.queueAgeRandomization then queues.mergeSort fun a b => b.age ≤ a.age
  else
    let remainingQueues := weightedQueues A biases queues
    let totalWeight := A.sum (remainingQueues.map Prod.snd)
    (sample A Prod.snd A.sub rng remainingQueues.length 0 totalWeight remainingQueues).map Prod.fst

/-- `#weightedRandomQueueOrder` が引く乱数の数。 -/
def queueOrderDraws (biases : Biases ν) (queues : List FairQueue) : Nat :=
  if queues.length ≤ 1 ∨ A.isZero biases.queueAgeRandomization then 0 else queues.length

/-- `queuesByEnv`。`{}` から始めるので、継承した property の名前では `push` が無い。 -/
def queuesByEnv (queues : List FairQueue) : Except String (JsMap (List FairQueue)) :=
  if queues.any (·.env ∈ objectPrototype) then .error "acc[queue.env].push is not a function"
  else .ok (JsMap.groupBy FairQueue.env queues)

/-- `#orderQueuesByEnvs` の二つ目の `reduce`。 -/
def orderEnvs (biases : Biases ν) (byEnv : JsMap (List FairQueue)) :
    Rng A → List String → List EnvQueues
  | _, [] => []
  | rng, envId :: envs =>
    match byEnv.get envId with
    | none => orderEnvs biases byEnv rng envs
    | some queues =>
      let orderedQueues := weightedRandomQueueOrder A biases rng queues
      let rest := orderEnvs biases byEnv (rng.drop (queueOrderDraws A biases queues)) envs
      if orderedQueues = [] then rest else ⟨envId, orderedQueues.map FairQueue.id⟩ :: rest

/-- `#orderQueuesByEnvs`。 -/
def orderQueuesByEnvs (biases : Biases ν) (rng : Rng A) (envs : List String) (snapshot : Snapshot) :
    Except String (List EnvQueues) := do
  let byEnv ← queuesByEnv snapshot.queues
  pure (orderEnvs A biases byEnv rng envs)

/-- `weightedEnvs` の一つの重み。 -/
def envWeight (biases : Biases ν) (maxLimit : ν) (concurrency : Concurrency) : ν :=
  let limit := A.ofRat concurrency.limit
  let square x := A.mul x x
  let weight := A.ofRat 1
  let weight :=
    if A.positive biases.concurrencyLimitBias then
      let normalizedLimit := A.div limit maxLimit
      A.mul weight (A.add (A.ofRat 1) (square (A.mul normalizedLimit biases.concurrencyLimitBias)))
    else weight
  if A.positive biases.availableCapacityBias then
    let usedCapacityPercentage := A.div (A.ofRat concurrency.current) limit
    let availableCapacityBonus := A.sub (A.ofRat 1) usedCapacityPercentage
    A.mul weight
      (A.add (A.ofRat 1) (square (A.mul availableCapacityBonus biases.availableCapacityBias)))
  else weight

/-- `weightedEnvs`。 -/
def weightedEnvs (biases : Biases ν) (snapshot : Snapshot) : List (String × ν) :=
  let envs := propertyOrder (snapshot.envs.map Prod.fst)
  let concurrency envId := (snapshot.envs.get envId).getD ⟨0, 0⟩
  let maxLimit := A.maximum (envs.map fun envId => A.ofRat (concurrency envId).limit)
  envs.map fun envId => (envId, envWeight A biases maxLimit (concurrency envId))

/-- `#shuffleQueuesByEnv`。 -/
def shuffleQueuesByEnv (o : Options ν) (rng : Rng A) (snapshot : Snapshot) :
    Except String (List EnvQueues) :=
  let envs := propertyOrder (snapshot.envs.map Prod.fst)
  let biases := o.effectiveBiases A
  if A.isZero biases.concurrencyLimitBias ∧ A.isZero biases.availableCapacityBias then do
    let shuffledEnvs ← shuffle A rng envs
    orderQueuesByEnvs A biases (rng.drop envs.length) shuffledEnvs snapshot
  else
    orderQueuesByEnvs A biases (rng.drop envs.length)
      (weightedShuffle A rng (weightedEnvs A biases snapshot)) snapshot

/-! ## snapshot -/

/-- `#selectTopEnvs` の `weightedEnvs`。 -/
def weightedTopEnvs (byEnv : JsMap (List FairQueue)) : List (String × ν) :=
  let envAverageAges := (propertyOrder (byEnv.map Prod.fst)).map fun envId =>
    let envQueues := (byEnv.get envId).getD []
    (envId, A.div (A.sum (envQueues.map fun q => A.ofRat q.age)) (A.ofRat envQueues.length))
  let maxAge := A.maximum (envAverageAges.map Prod.snd)
  envAverageAges.map fun env => (env.1, A.div env.2 maxAge)

/-- `#selectTopEnvs`。env の id は異なるので、集合の大きさは選んだ回数である。 -/
def selectTopEnvs (rng : Rng A) (queues : List FairQueue) (maximumEnvCount : Nat) :
    Except String (List String) := do
  let byEnv ← queuesByEnv queues
  let weightedEnvs := weightedTopEnvs A byEnv
  let totalWeight := A.sum (weightedEnvs.map Prod.snd)
  pure ((sample A Prod.snd A.sub rng maximumEnvCount 0 totalWeight weightedEnvs).map Prod.fst)

/-- `#allChildQueuesByScore` の一件。 -/
def fairQueue (now : ℚ) (entry : String × ℚ) : Except String FairQueue :=
  match descriptorFromQueue entry.1 with
  | none => .error "Cannot read properties of undefined (reading 'replace')"
  | some d =>
    .ok { id := entry.1, age := now - entry.2, org := d.orgId, env := d.envId,
          project := d.projectId }

/-- `ZRANGEBYSCORE parentQueue -inf now LIMIT 0 parentQueueLimit`。 -/
def fetched (o : Options ν) (content : ZSet) (now : ℚ) : List (String × ℚ) :=
  (content.rangeByScore now).take o.parentQueueLimit

/-- 上限に達している。 -/
def Concurrency.full (c : Concurrency) : Bool := c.limit ≤ c.current

/-- `maximumEnvCount` で絞った queue と、引いた乱数の数。 -/
def restrictEnvs (o : Options ν) (rng : Rng A) (queues : List FairQueue) :
    Except String (List FairQueue × Nat) :=
  if o.maximumEnvCount = 0 then pure (queues, 0)
  else do
    let selectedEnvIds ← selectTopEnvs A rng queues o.maximumEnvCount
    pure (queues.filter (·.env ∈ selectedEnvIds), selectedEnvIds.length)

/-- `#createQueueSnapshot` の `envs`。 -/
def envsOf (getEnvConcurrency : EnvDescriptor → Concurrency) (queues : List FairQueue) :
    JsMap Concurrency :=
  (envDescriptors queues).map fun e => (e.1, getEnvConcurrency e.2)

/-- `envIdsAtFullConcurrency`。 -/
def envIdsAtFullConcurrency (getEnvConcurrency : EnvDescriptor → Concurrency)
    (queues : List FairQueue) : List String :=
  ((envsOf getEnvConcurrency queues).filter fun e => e.2.full).map Prod.fst

/-- `#createQueueSnapshot` の、環境を絞った後。`acc["__proto__"] = env` は property を作らない。 -/
def snapshotOf (getEnvConcurrency : EnvDescriptor → Concurrency) (queues : List FairQueue) :
    Snapshot :=
  let full := envIdsAtFullConcurrency getEnvConcurrency queues
  { envs := (envsOf getEnvConcurrency queues).filter fun e => e.1 ∉ full ∧ e.1 ≠ "__proto__"
    queues := queues.filter (·.env ∉ full) }

/-- 新しい snapshot を取る `distributeFairQueuesFromParentQueue`。 -/
def distributeFairQueuesFromParentQueue (o : Options ν)
    (getEnvConcurrency : EnvDescriptor → Concurrency) (rng : Rng A) (content : ZSet) (now : ℚ) :
    Except String (List EnvQueues) := do
  let queues ← (fetched o content now).mapM (fairQueue now)
  if queues = [] then pure []
  else do
    let (queues, draws) ← restrictEnvs A o rng queues
    let snapshot := snapshotOf getEnvConcurrency queues
    if snapshot.queues = [] then pure []
    else shuffleQueuesByEnv A o (rng.drop draws) snapshot

end Strategy

/-! ## 並べ替えの性質 -/

section Orders

variable {ν : Type} {A : Arithmetic ν} {rng : Rng A}

theorem propertyOrder_perm (keys : List String) : (propertyOrder keys).Perm keys :=
  ((List.mergeSort_perm _ _).append_right _).trans (List.filter_append_perm isArrayIndex keys)

/-- 乱数の位置は範囲に収まる。 -/
theorem randomIndex_lt (rng : Rng A) (k currentIndex : Nat) :
    A.floor (A.mul (rng k).1 (A.ofRat (currentIndex + 1 : Nat))) < currentIndex + 1 :=
  A.floor_mul_lt (rng k).2 (Nat.succ_pos currentIndex)

theorem shuffleLoop_ok {α : Type} : ∀ (currentIndex k : Nat) (array : List α),
    currentIndex ≤ array.length →
    ∃ shuffled, shuffleLoop A rng currentIndex k array = .ok shuffled ∧ shuffled.Perm array
  | 0, _, array, _ => ⟨array, rfl, List.Perm.refl array⟩
  | currentIndex + 1, k, array, hle => by
    have hlt := randomIndex_lt rng k currentIndex
    have hperm := swap_perm array currentIndex
      (A.floor (A.mul (rng k).1 (A.ofRat (currentIndex + 1 : Nat))))
    obtain ⟨shuffled, hok, hshuffled⟩ := shuffleLoop_ok currentIndex (k + 1) _
      (show currentIndex ≤ _ by rw [hperm.length_eq]; omega)
    exact ⟨shuffled, (if_pos (by omega)).trans hok, hshuffled.trans hperm⟩

/-- `#shuffle` は並べ替えである。 -/
theorem shuffle_ok {α : Type} (rng : Rng A) (array : List α) :
    ∃ shuffled, shuffle A rng array = .ok shuffled ∧ shuffled.Perm array :=
  shuffleLoop_ok array.length 0 array (Nat.le_refl _)

theorem weightedShuffle_perm (items : List (String × ν)) :
    (weightedShuffle A rng items).Perm (items.map Prod.fst) :=
  (sample_perm 0 _ items).map Prod.fst

theorem map_fst_weightedEnvs (biases : Biases ν) (snapshot : Snapshot) :
    (weightedEnvs A biases snapshot).map Prod.fst = propertyOrder (snapshot.envs.map Prod.fst) := by
  simp [weightedEnvs, Function.comp_def]

/-- queue の順は並べ替えであり、`queueAgeRandomization` が 0 なら古い順である。 -/
theorem weightedRandomQueueOrder_perm (biases : Biases ν) (rng : Rng A) (queues : List FairQueue) :
    (weightedRandomQueueOrder A biases rng queues).Perm queues ∧
      (A.isZero biases.queueAgeRandomization = true →
        (weightedRandomQueueOrder A biases rng queues).Pairwise fun a b => b.age ≤ a.age) := by
  unfold weightedRandomQueueOrder
  split
  · next hle =>
    refine ⟨List.Perm.refl _, fun _ => ?_⟩
    match queues, hle with
    | [], _ => exact List.Pairwise.nil
    | [a], _ => exact List.pairwise_singleton _ a
  · split
    · refine ⟨List.mergeSort_perm _ _, fun _ => ?_⟩
      have htrans : ∀ a b c : FairQueue, decide (b.age ≤ a.age) = true →
          decide (c.age ≤ b.age) = true → decide (c.age ≤ a.age) = true := by
        intro a b c hab hbc
        rw [decide_eq_true_iff] at hab hbc ⊢
        exact hbc.trans hab
      have htotal : ∀ a b : FairQueue,
          (decide (b.age ≤ a.age) || decide (a.age ≤ b.age)) = true := by
        intro a b
        rw [Bool.or_eq_true, decide_eq_true_iff, decide_eq_true_iff]
        exact le_total b.age a.age
      have hsorted := List.pairwise_mergeSort htrans htotal queues
      exact hsorted.imp of_decide_eq_true
    · next hzero =>
      refine ⟨?_, fun h => absurd h hzero⟩
      have hperm : (sample A Prod.snd A.sub rng (weightedQueues A biases queues).length 0
          (A.sum ((weightedQueues A biases queues).map Prod.snd))
          (weightedQueues A biases queues)).Perm (weightedQueues A biases queues) :=
        sample_perm ..
      refine (hperm.map Prod.fst).trans (List.Perm.of_eq ?_)
      simp [weightedQueues, Function.comp_def]

end Orders

/-! ## 環境ごとの queue -/

section Envs

variable {ν : Type} {A : Arithmetic ν} {biases : Biases ν} {queues : List FairQueue}

/-- 一つの環境の結果。queue の列は、その環境の queue の並べ替えである。 -/
def Ordered (A : Arithmetic ν) (biases : Biases ν) (queues : List FairQueue) (e : EnvQueues) :
    Prop :=
  ∃ ordered : List FairQueue, e.queues = ordered.map FairQueue.id ∧
    ordered.Perm (queues.filter (·.env = e.envId)) ∧
    (A.isZero biases.queueAgeRandomization = true → ordered.Pairwise fun a b => b.age ≤ a.age)

variable (biases queues) in
/-- 結果は、queue のある環境を、渡された順に一つずつ並べたものである。 -/
theorem orderEnvs_spec : ∀ (rng : Rng A) (envs : List String),
    (orderEnvs A biases (JsMap.groupBy FairQueue.env queues) rng envs).map EnvQueues.envId =
        envs.filter (fun envId => queues.any (·.env = envId)) ∧
      ∀ e ∈ orderEnvs A biases (JsMap.groupBy FairQueue.env queues) rng envs,
        Ordered A biases queues e
  | _, [] => ⟨rfl, fun _ he => by cases he⟩
  | rng, envId :: envs => by
    have hany : (queues.any (·.env = envId)) = true ↔ queues.filter (·.env = envId) ≠ [] := by
      simp [List.any_eq_true]
    by_cases hnil : queues.filter (·.env = envId) = []
    · have hnot : (queues.any (·.env = envId)) = false :=
        Bool.eq_false_iff.mpr fun h => hany.mp h hnil
      simp only [orderEnvs, JsMap.get_groupBy, hnil, if_true, List.filter_cons, hnot,
        Bool.false_eq_true, if_false]
      exact orderEnvs_spec rng envs
    · obtain ⟨hids, hall⟩ := orderEnvs_spec
        (rng.drop (queueOrderDraws A biases (queues.filter (·.env = envId)))) envs
      obtain ⟨hperm, hsorted⟩ := weightedRandomQueueOrder_perm biases rng
        (queues.filter (·.env = envId))
      have hne : weightedRandomQueueOrder A biases rng (queues.filter (·.env = envId)) ≠ [] := by
        intro h
        rw [h] at hperm
        exact hnil hperm.symm.eq_nil
      simp only [orderEnvs, JsMap.get_groupBy, hnil, if_false, hne, List.filter_cons,
        hany.mpr hnil, if_true, List.map_cons, hids, List.mem_cons, forall_eq_or_imp]
      exact ⟨trivial, ⟨_, rfl, hperm, hsorted⟩, hall⟩

theorem queuesByEnv_ok (h : ∀ q ∈ queues, q.env ∉ objectPrototype) :
    queuesByEnv queues = .ok (JsMap.groupBy FairQueue.env queues) := by
  refine if_neg fun hany => ?_
  obtain ⟨q, hq, hmem⟩ := List.any_eq_true.mp hany
  exact h q hq (of_decide_eq_true hmem)

/-- 環境の順を変えても、環境は一つずつ現れる。 -/
theorem orderQueuesByEnvs_ok {snapshot : Snapshot}
    (hgenerated : ∀ q ∈ snapshot.queues, q.env ∉ objectPrototype) (rng : Rng A)
    {envs : List String} (hperm : envs.Perm (snapshot.envs.map Prod.fst)) :
    ∃ result, orderQueuesByEnvs A biases rng envs snapshot = .ok result ∧
      (result.map EnvQueues.envId).Perm ((snapshot.envs.map Prod.fst).filter fun envId =>
        snapshot.queues.any (·.env = envId)) ∧
      ∀ e ∈ result, Ordered A biases snapshot.queues e := by
  obtain ⟨hids, hall⟩ := orderEnvs_spec biases snapshot.queues rng envs
  refine ⟨_, ?_, ?_, hall⟩
  · rw [orderQueuesByEnvs, queuesByEnv_ok hgenerated]
    rfl
  · rw [hids]
    exact hperm.filter _

/-- `#shuffleQueuesByEnv` は、どの重みと乱数でも結果を返す。 -/
theorem shuffleQueuesByEnv_ok {o : Options ν} (rng : Rng A) (snapshot : Snapshot)
    (hgenerated : ∀ q ∈ snapshot.queues, q.env ∉ objectPrototype) :
    ∃ result, shuffleQueuesByEnv A o rng snapshot = .ok result ∧
      (result.map EnvQueues.envId).Perm ((snapshot.envs.map Prod.fst).filter fun envId =>
        snapshot.queues.any (·.env = envId)) ∧
      ∀ e ∈ result, Ordered A (o.effectiveBiases A) snapshot.queues e := by
  have hkeys := propertyOrder_perm (snapshot.envs.map Prod.fst)
  simp only [shuffleQueuesByEnv]
  split
  · obtain ⟨shuffled, hok, hperm⟩ := shuffle_ok rng (propertyOrder (snapshot.envs.map Prod.fst))
    rw [hok]
    exact orderQueuesByEnvs_ok hgenerated _ (hperm.trans hkeys)
  · refine orderQueuesByEnvs_ok hgenerated _ ((weightedShuffle_perm _).trans ?_)
    rw [map_fst_weightedEnvs]
    exact hkeys

end Envs

/-! ## snapshot の性質 -/

section Snapshots

variable {queues : List FairQueue} {getEnvConcurrency : EnvDescriptor → Concurrency}

/-- 親の queue から読んだ queue の列。id は重複せず、環境の id が同じ queue は同じ環境のものである。 -/
structure Consistent (queues : List FairQueue) : Prop where
  nodup : (queues.map FairQueue.id).Nodup
  parsed : ∀ q ∈ queues, ∃ d, descriptorFromQueue q.id = some d ∧
    d.env = envDescriptorFromFairQueue q
  generated : ∀ q ∈ queues, q.env ∉ objectPrototype
  sameEnv : ∀ q ∈ queues, ∀ q' ∈ queues, q.env = q'.env →
    envDescriptorFromFairQueue q = envDescriptorFromFairQueue q'

theorem Consistent.filter (h : Consistent queues) (p : FairQueue → Bool) :
    Consistent (queues.filter p) where
  nodup := h.nodup.sublist (List.filter_sublist.map _)
  parsed q hq := h.parsed q (List.mem_of_mem_filter hq)
  generated q hq := h.generated q (List.mem_of_mem_filter hq)
  sameEnv q hq q' hq' := h.sameEnv q (List.mem_of_mem_filter hq) q' (List.mem_of_mem_filter hq')

theorem mem_keys_envDescriptors {q : FairQueue} (hq : q ∈ queues) :
    q.env ∈ (envDescriptors queues).map Prod.fst := by
  have hall : ∀ (l : List FairQueue) (m : JsMap EnvDescriptor), q ∈ l ∨ q.env ∈ m.map Prod.fst →
      q.env ∈ (l.foldl (fun m q => m.set q.env (envDescriptorFromFairQueue q)) m).map Prod.fst := by
    intro l
    induction l with
    | nil => exact fun m h => h.resolve_left (by simp)
    | cons a l ih =>
      intro m h
      refine ih _ ?_
      rcases h with h | h
      · rcases List.mem_cons.mp h with rfl | h
        · exact .inr (JsMap.mem_keys_set.mpr (.inl rfl))
        · exact .inl h
      · exact .inr (JsMap.mem_keys_set.mpr (.inr h))
  exact hall queues [] (.inl hq)

/-- 環境ごとの descriptor は、その環境の queue の descriptor である。 -/
theorem Consistent.mem_envDescriptors (h : Consistent queues) {envId : String}
    {d : EnvDescriptor} : (envId, d) ∈ envDescriptors queues ↔
      ∃ q ∈ queues, q.env = envId ∧ envDescriptorFromFairQueue q = d := by
  refine ⟨exists_queue_of_mem, ?_⟩
  rintro ⟨q, hq, rfl, rfl⟩
  obtain ⟨⟨envId, d⟩, hmem, rfl⟩ := List.mem_map.mp (mem_keys_envDescriptors hq)
  obtain ⟨q', hq', henv, rfl⟩ := exists_queue_of_mem hmem
  rw [h.sameEnv q hq q' hq' henv.symm]
  exact hmem

/-- queue の環境に空きがある。 -/
def available (getEnvConcurrency : EnvDescriptor → Concurrency) (q : FairQueue) : Bool :=
  !(getEnvConcurrency (envDescriptorFromFairQueue q)).full

theorem Consistent.mem_envsOf (h : Consistent queues) {e : String × Concurrency} :
    e ∈ envsOf getEnvConcurrency queues ↔
      ∃ q ∈ queues, q.env = e.1 ∧ getEnvConcurrency (envDescriptorFromFairQueue q) = e.2 := by
  simp only [envsOf, List.mem_map]
  constructor
  · rintro ⟨⟨envId, d⟩, he, rfl⟩
    obtain ⟨q, hq, henv, rfl⟩ := h.mem_envDescriptors.mp he
    exact ⟨q, hq, henv, rfl⟩
  · rintro ⟨q, hq, henv, hconc⟩
    exact ⟨_, h.mem_envDescriptors.mpr ⟨q, hq, henv, rfl⟩, Prod.ext rfl hconc⟩

/-- 除かれる環境は、上限に達した環境である。 -/
theorem Consistent.mem_full (h : Consistent queues) {q : FairQueue} (hq : q ∈ queues) :
    q.env ∈ envIdsAtFullConcurrency getEnvConcurrency queues ↔
      available getEnvConcurrency q = false := by
  simp only [envIdsAtFullConcurrency, List.mem_map, List.mem_filter, available,
    Bool.not_eq_false']
  constructor
  · rintro ⟨e, ⟨he, hfull⟩, henv⟩
    obtain ⟨q', hq', henv', hconc⟩ := h.mem_envsOf.mp he
    rw [h.sameEnv q hq q' hq' (henv.symm.trans henv'.symm), hconc]
    exact hfull
  · intro hfull
    exact ⟨(q.env, getEnvConcurrency (envDescriptorFromFairQueue q)),
      ⟨h.mem_envsOf.mpr ⟨q, hq, rfl, rfl⟩, hfull⟩, rfl⟩

variable (getEnvConcurrency) in
/-- snapshot の queue は、環境に空きのある queue である。 -/
theorem Consistent.snapshot_queues (h : Consistent queues) :
    (snapshotOf getEnvConcurrency queues).queues = queues.filter (available getEnvConcurrency) := by
  refine List.filter_congr fun q hq => ?_
  rw [Bool.eq_iff_iff, decide_eq_true_iff, h.mem_full hq, Bool.not_eq_false]

/-- snapshot の環境は、空きのある queue の環境である。 -/
theorem Consistent.mem_snapshot_envs (h : Consistent queues) {envId : String} :
    envId ∈ (snapshotOf getEnvConcurrency queues).envs.map Prod.fst ↔
      ∃ q ∈ (snapshotOf getEnvConcurrency queues).queues, q.env = envId := by
  rw [h.snapshot_queues]
  simp only [snapshotOf, List.mem_map, List.mem_filter, decide_eq_true_eq]
  constructor
  · rintro ⟨e, ⟨he, hfull, -⟩, rfl⟩
    obtain ⟨q, hq, henv, -⟩ := h.mem_envsOf.mp he
    rw [← henv, h.mem_full hq, Bool.not_eq_false] at hfull
    exact ⟨q, ⟨hq, hfull⟩, henv⟩
  · rintro ⟨q, ⟨hq, havailable⟩, rfl⟩
    refine ⟨(q.env, getEnvConcurrency (envDescriptorFromFairQueue q)),
      ⟨h.mem_envsOf.mpr ⟨q, hq, rfl, rfl⟩, ?_, ?_⟩, rfl⟩
    · rw [h.mem_full hq, havailable]
      exact Bool.noConfusion
    · intro hproto
      refine h.generated q hq ?_
      rw [show q.env = "__proto__" from hproto]
      decide

theorem nodup_snapshot_envs (queues : List FairQueue) :
    ((snapshotOf getEnvConcurrency queues).envs.map Prod.fst).Nodup := by
  have hkeys : ((envsOf getEnvConcurrency queues).map Prod.fst).Nodup := by
    rw [envsOf, List.map_map]
    exact envDescriptors_nodup queues
  exact hkeys.sublist (List.filter_sublist.map _)

end Snapshots

/-! ## 読み出しと絞り込み -/

/-- 親の queue には、環境の queue の key だけが入っている。環境の id は生成されたもので、`Object.prototype` の
property 名ではなく、一つの project と organization に属する。 -/
structure QueueKeys (members : List String) : Prop where
  parsed : ∀ m ∈ members, (descriptorFromQueue m).isSome
  generated : ∀ m ∈ members, ∀ d ∈ descriptorFromQueue m, d.envId ∉ objectPrototype
  sameEnv : ∀ m ∈ members, ∀ m' ∈ members, ∀ d ∈ descriptorFromQueue m,
    ∀ d' ∈ descriptorFromQueue m', d.envId = d'.envId → d.env = d'.env

section Fetch

variable {ν : Type} {A : Arithmetic ν} {now : ℚ} {queues : List FairQueue}

/-- 読み出しは、一件ごとに queue を一つ作る。 -/
theorem mapM_fairQueue_ok : ∀ {entries : List (String × ℚ)},
    (∀ e ∈ entries, (descriptorFromQueue e.1).isSome) →
    ∃ queues, entries.mapM (fairQueue now) = .ok queues ∧
      queues.map FairQueue.id = entries.map Prod.fst ∧
      ∀ q ∈ queues, (q.id, now - q.age) ∈ entries ∧
        ∃ d, descriptorFromQueue q.id = some d ∧ d.env = envDescriptorFromFairQueue q
  | [], _ => ⟨[], rfl, rfl, fun _ hq => by cases hq⟩
  | (m, score) :: entries, h => by
    obtain ⟨queues, hok, hids, hall⟩ := mapM_fairQueue_ok fun e he =>
      h e (List.mem_cons_of_mem _ he)
    obtain ⟨d, hd⟩ := Option.isSome_iff_exists.mp (h (m, score) List.mem_cons_self)
    have hhead : fairQueue now (m, score) =
        .ok ⟨m, now - score, d.orgId, d.envId, d.projectId⟩ := by
      simp only [fairQueue, hd]
    refine ⟨⟨m, now - score, d.orgId, d.envId, d.projectId⟩ :: queues, ?_, ?_, ?_⟩
    · rw [List.mapM_cons, hhead, hok]
      rfl
    · rw [List.map_cons, List.map_cons, hids]
    · intro q hq
      rcases List.mem_cons.mp hq with rfl | hq
      · refine ⟨?_, d, hd, rfl⟩
        rw [sub_sub_cancel]
        exact List.mem_cons_self
      · exact ⟨List.mem_cons_of_mem _ (hall q hq).1, (hall q hq).2⟩

/-- **読んだ queue の列は整合する。** -/
theorem fetch_ok {o : Options ν} {content : ZSet}
    (h : QueueKeys ((fetched o content now).map Prod.fst)) :
    ∃ queues, (fetched o content now).mapM (fairQueue now) = .ok queues ∧ Consistent queues ∧
      queues.map FairQueue.id = (fetched o content now).map Prod.fst ∧
      ∀ q ∈ queues, content.score? q.id = some (now - q.age) := by
  obtain ⟨queues, hok, hids, hall⟩ := mapM_fairQueue_ok fun e he =>
    h.parsed e.1 (List.mem_map_of_mem he)
  have hmem : ∀ q ∈ queues, q.id ∈ (fetched o content now).map Prod.fst := by
    intro q hq
    rw [← hids]
    exact List.mem_map_of_mem hq
  refine ⟨queues, hok, ⟨?_, fun q hq => (hall q hq).2, ?_, ?_⟩, hids, ?_⟩
  · rw [hids]
    exact (content.rangeByScore_nodup now).sublist ((List.take_sublist _ _).map _)
  · intro q hq
    obtain ⟨d, hd, henv⟩ := (hall q hq).2
    have henvId : d.envId = q.env := congrArg EnvDescriptor.envId henv
    rw [← henvId]
    exact h.generated q.id (hmem q hq) d hd
  · intro q hq q' hq' heq
    obtain ⟨d, hd, henv⟩ := (hall q hq).2
    obtain ⟨d', hd', henv'⟩ := (hall q' hq').2
    have henvId : d.envId = q.env := congrArg EnvDescriptor.envId henv
    have henvId' : d'.envId = q'.env := congrArg EnvDescriptor.envId henv'
    rw [← henv, ← henv']
    exact h.sameEnv q.id (hmem q hq) q'.id (hmem q' hq') d hd d' hd'
      (henvId.trans (heq.trans henvId'.symm))
  · intro q hq
    have hrange := List.mem_of_mem_take (hall q hq).1
    exact (SortedSet.mem_rangeByScore.mp hrange).1

/-- 絞り込みは環境を単位とし、`maximumEnvCount` が無ければ全てを残す。 -/
theorem restrictEnvs_ok {o : Options ν} (rng : Rng A)
    (hgenerated : ∀ q ∈ queues, q.env ∉ objectPrototype) :
    ∃ (selected : String → Bool) (draws : Nat),
      restrictEnvs A o rng queues = .ok (queues.filter (selected ·.env), draws) ∧
      (o.maximumEnvCount = 0 → ∀ envId, selected envId = true) := by
  by_cases hzero : o.maximumEnvCount = 0
  · refine ⟨fun _ => true, 0, ?_, fun _ _ => rfl⟩
    rw [restrictEnvs, if_pos hzero, List.filter_eq_self.mpr fun _ _ => rfl]
    rfl
  · have hselect : ∃ selectedEnvIds, selectTopEnvs A rng queues o.maximumEnvCount =
        .ok selectedEnvIds := by
      rw [selectTopEnvs, queuesByEnv_ok hgenerated]
      exact ⟨_, rfl⟩
    obtain ⟨selectedEnvIds, hselect⟩ := hselect
    refine ⟨fun envId => envId ∈ selectedEnvIds, selectedEnvIds.length, ?_,
      fun h => absurd h hzero⟩
    rw [restrictEnvs, if_neg hzero, hselect]
    rfl

end Fetch

/-! ## 全体 -/

section Distribute

variable {ν : Type} {A : Arithmetic ν} {o : Options ν} {queues : List FairQueue}
  {getEnvConcurrency : EnvDescriptor → Concurrency}

variable (getEnvConcurrency) in
/-- 選ばれた環境の queue から作る結果。環境は一度ずつ現れ、その空きのある queue を全て持つ。 -/
theorem Consistent.shuffle_spec (h : Consistent queues) (selected : String → Bool) (rng : Rng A) :
    ∃ result, shuffleQueuesByEnv A o rng
        (snapshotOf getEnvConcurrency (queues.filter (selected ·.env))) = .ok result ∧
      (result.map EnvQueues.envId).Nodup ∧
      (∀ e ∈ result, Ordered A (o.effectiveBiases A)
        (queues.filter (available getEnvConcurrency)) e) ∧
      ∀ q ∈ queues, selected q.env → available getEnvConcurrency q →
        ∃ e ∈ result, e.envId = q.env := by
  have hselected := h.filter (selected ·.env)
  have hsnapshot := hselected.snapshot_queues getEnvConcurrency
  obtain ⟨result, hok, hperm, hall⟩ := shuffleQueuesByEnv_ok (o := o) rng
    (snapshotOf getEnvConcurrency (queues.filter (selected ·.env))) (by
      intro q hq
      rw [hsnapshot] at hq
      exact hselected.generated q (List.mem_of_mem_filter hq))
  have hany : ∀ envId, envId ∈ result.map EnvQueues.envId ↔
      ∃ q ∈ (snapshotOf getEnvConcurrency (queues.filter (selected ·.env))).queues,
        q.env = envId := by
    intro envId
    rw [hperm.mem_iff, List.mem_filter, hselected.mem_snapshot_envs, List.any_eq_true]
    simp only [decide_eq_true_iff, and_self]
  rw [hsnapshot] at hall hany
  refine ⟨result, hok, hperm.nodup_iff.mpr ((nodup_snapshot_envs _).filter _), ?_, ?_⟩
  · intro e he
    obtain ⟨q₀, hq₀, henv⟩ := (hany e.envId).mp (List.mem_map_of_mem he)
    obtain ⟨ordered, hids, hordered, hsorted⟩ := hall e he
    refine ⟨ordered, hids, hordered.trans (List.Perm.of_eq ?_), hsorted⟩
    -- 結果にある環境は選ばれているので、絞り込みはその queue を減らさない。
    have henvSelected : selected e.envId = true := by
      rw [← henv]
      exact (List.mem_filter.mp (List.mem_of_mem_filter hq₀)).2
    rw [List.filter_filter, List.filter_filter, List.filter_filter]
    refine List.filter_congr fun q _ => ?_
    by_cases hq : q.env = e.envId
    · simp [hq, henvSelected]
    · simp [hq]
  · intro q hq hsel havailable
    obtain ⟨e, he, henv⟩ := List.mem_map.mp ((hany q.env).mpr
      ⟨q, List.mem_filter.mpr ⟨List.mem_filter.mpr ⟨hq, hsel⟩, havailable⟩, rfl⟩)
    exact ⟨e, he, henv⟩

variable (getEnvConcurrency) in
/-- 読み出しが済んだ後は、必ず結果を返す。 -/
theorem Consistent.distribute_spec (h : Consistent queues) (rng : Rng A) {content : ZSet} {now : ℚ}
    (hfetch : (fetched o content now).mapM (fairQueue now) = .ok queues) :
    ∃ result, distributeFairQueuesFromParentQueue A o getEnvConcurrency rng content now =
        .ok result ∧
      (result.map EnvQueues.envId).Nodup ∧
      (∀ e ∈ result, Ordered A (o.effectiveBiases A)
        (queues.filter (available getEnvConcurrency)) e) ∧
      (o.maximumEnvCount = 0 → ∀ q ∈ queues, available getEnvConcurrency q →
        ∃ e ∈ result, e.envId = q.env) := by
  obtain ⟨selected, draws, hrestrict, hselected⟩ := restrictEnvs_ok (o := o) rng h.generated
  obtain ⟨result, hok, hnodup, hall, hcover⟩ :=
    h.shuffle_spec (o := o) getEnvConcurrency selected (rng.drop draws)
  -- source は、queue が無いときと、選んだ環境に空きが無いときに、並べ替える前に戻る。
  by_cases hnil : queues = []
  · refine ⟨[], ?_, List.nodup_nil, fun e he => absurd he List.not_mem_nil, ?_⟩
    · rw [distributeFairQueuesFromParentQueue, hfetch]
      simp only [bind, Except.bind, hnil, if_true]
      rfl
    · intro _ q hq
      rw [hnil] at hq
      exact absurd hq List.not_mem_nil
  · by_cases hempty : (snapshotOf getEnvConcurrency (queues.filter (selected ·.env))).queues = []
    · refine ⟨[], ?_, List.nodup_nil, fun e he => absurd he List.not_mem_nil, ?_⟩
      · rw [distributeFairQueuesFromParentQueue, hfetch]
        simp only [bind, Except.bind, hnil, if_false, hrestrict, hempty, if_true]
        rfl
      · intro hzero q hq havailable
        rw [(h.filter _).snapshot_queues, List.filter_eq_nil_iff] at hempty
        exact absurd havailable
          (hempty q (List.mem_filter.mpr ⟨hq, hselected hzero q.env⟩))
    · refine ⟨result, ?_, hnodup, hall, fun hzero q hq => hcover q hq (hselected hzero q.env)⟩
      rw [distributeFairQueuesFromParentQueue, hfetch]
      simp only [bind, Except.bind, hnil, if_false, hrestrict, hempty]
      exact hok

/-- 読まれた queue で、その環境の実行中の数が上限より小さい。 -/
def Eligible (o : Options ν) (getEnvConcurrency : EnvDescriptor → Concurrency) (content : ZSet)
    (now : ℚ) (queue : String) : Prop :=
  queue ∈ (fetched o content now).map Prod.fst ∧ ∃ d ∈ descriptorFromQueue queue,
    ((getEnvConcurrency d.env).current : Int) < (getEnvConcurrency d.env).limit

/-- 結果は queue を失わず、作り出さない。 -/
structure Distributes (A : Arithmetic ν) (o : Options ν)
    (getEnvConcurrency : EnvDescriptor → Concurrency) (content : ZSet) (now : ℚ)
    (result : List EnvQueues) : Prop where
  envs : (result.map EnvQueues.envId).Nodup
  queues : (result.flatMap EnvQueues.queues).Nodup
  own : ∀ e ∈ result, ∀ queue, queue ∈ e.queues ↔
    Eligible o getEnvConcurrency content now queue ∧
      ∃ d ∈ descriptorFromQueue queue, d.envId = e.envId
  exact : o.maximumEnvCount = 0 → ∀ queue, queue ∈ result.flatMap EnvQueues.queues ↔
    Eligible o getEnvConcurrency content now queue
  oldest : A.isZero (o.effectiveBiases A).queueAgeRandomization = true → ∀ e ∈ result,
    e.queues.Pairwise fun a b => ∀ x ∈ content.score? a, ∀ y ∈ content.score? b, now - y ≤ now - x

/-- 空きのある環境の queue は、条件を満たす queue である。 -/
theorem eligible_iff {content : ZSet} {now : ℚ} (h : Consistent queues)
    (hids : queues.map FairQueue.id = (fetched o content now).map Prod.fst) {queue : String} :
    Eligible o getEnvConcurrency content now queue ↔
      ∃ q ∈ queues, available getEnvConcurrency q ∧ q.id = queue := by
  have hfull : ∀ q : FairQueue, available getEnvConcurrency q ↔
      ((getEnvConcurrency (envDescriptorFromFairQueue q)).current : Int) <
        (getEnvConcurrency (envDescriptorFromFairQueue q)).limit := by
    intro q
    rw [available, Bool.not_eq_true', Concurrency.full, decide_eq_false_iff_not, not_le]
  rw [Eligible, ← hids, List.mem_map]
  constructor
  · rintro ⟨⟨q, hq, rfl⟩, d, hd, hlt⟩
    obtain ⟨d', hd', henv⟩ := h.parsed q hq
    obtain rfl : d' = d := Option.some.inj (hd'.symm.trans hd)
    rw [henv] at hlt
    exact ⟨q, hq, (hfull q).mpr hlt, rfl⟩
  · rintro ⟨q, hq, havailable, rfl⟩
    obtain ⟨d, hd, henv⟩ := h.parsed q hq
    refine ⟨⟨q, hq, rfl⟩, d, hd, ?_⟩
    rw [henv]
    exact (hfull q).mp havailable

/-- 一つの環境の結果に現れる queue は、空きのあるその環境の queue である。 -/
theorem Ordered.mem_queues {biases : Biases ν} {e : EnvQueues} (h : Ordered A biases queues e)
    {queue : String} : queue ∈ e.queues ↔ ∃ q ∈ queues, q.env = e.envId ∧ q.id = queue := by
  obtain ⟨ordered, hids, hperm, -⟩ := h
  rw [hids, List.mem_map]
  constructor
  · rintro ⟨q, hq, rfl⟩
    obtain ⟨hmem, henv⟩ := List.mem_filter.mp (hperm.mem_iff.mp hq)
    exact ⟨q, hmem, of_decide_eq_true henv, rfl⟩
  · rintro ⟨q, hq, henv, rfl⟩
    exact ⟨q, hperm.mem_iff.mpr (List.mem_filter.mpr ⟨hq, decide_eq_true henv⟩), rfl⟩

/-- 環境が重複しなければ、結果の queue も重複しない。 -/
theorem Consistent.nodup_flatMap (h : Consistent queues) {biases : Biases ν}
    {result : List EnvQueues} (henvs : (result.map EnvQueues.envId).Nodup)
    (hall : ∀ e ∈ result, Ordered A biases queues e) :
    (result.flatMap EnvQueues.queues).Nodup := by
  rw [List.nodup_flatMap]
  constructor
  · intro e he
    obtain ⟨ordered, hids, hperm, -⟩ := hall e he
    rw [hids, (hperm.map FairQueue.id).nodup_iff]
    exact h.nodup.sublist (List.filter_sublist.map _)
  · refine (List.pairwise_map.mp henvs).imp_of_mem fun {e e'} he he' hne queue hq hq' => hne ?_
    obtain ⟨q, hmem, henv, hid⟩ := (hall e he).mem_queues.mp hq
    obtain ⟨q', hmem', henv', hid'⟩ := (hall e' he').mem_queues.mp hq'
    -- queue の id は重複しないので、二つの環境は同じである。
    have hsame : q = q' := List.inj_on_of_nodup_map h.nodup hmem hmem' (hid.trans hid'.symm)
    rw [← henv, ← henv', hsame]

/-- **どの重みと乱数でも、分配は終わり、queue を失わず、作り出さない。** -/
theorem distributes_fairly (A : Arithmetic ν) (o : Options ν)
    (getEnvConcurrency : EnvDescriptor → Concurrency) (rng : Rng A) (content : ZSet) (now : ℚ)
    (h : QueueKeys ((fetched o content now).map Prod.fst)) :
    ∃ result, distributeFairQueuesFromParentQueue A o getEnvConcurrency rng content now =
        .ok result ∧ Distributes A o getEnvConcurrency content now result := by
  obtain ⟨queues, hfetch, hqueues, hids, hages⟩ := fetch_ok h
  obtain ⟨result, hok, henvs, hall, hcover⟩ :=
    hqueues.distribute_spec getEnvConcurrency rng hfetch
  have hmem : ∀ e ∈ result, ∀ queue, queue ∈ e.queues ↔
      ∃ q ∈ queues, available getEnvConcurrency q ∧ q.env = e.envId ∧ q.id = queue := by
    intro e he queue
    simp only [(hall e he).mem_queues, List.mem_filter, and_assoc]
  refine ⟨result, hok, henvs, (hqueues.filter _).nodup_flatMap henvs hall, ?_, ?_, ?_⟩
  · intro e he queue
    rw [hmem e he, eligible_iff hqueues hids]
    constructor
    · rintro ⟨q, hq, havailable, henv, rfl⟩
      obtain ⟨d, hd, hdenv⟩ := hqueues.parsed q hq
      refine ⟨⟨q, hq, havailable, rfl⟩, d, hd, ?_⟩
      rw [← henv]
      exact congrArg EnvDescriptor.envId hdenv
    · rintro ⟨⟨q, hq, havailable, rfl⟩, d, hd, henv⟩
      obtain ⟨d', hd', hdenv⟩ := hqueues.parsed q hq
      obtain rfl : d' = d := Option.some.inj (hd'.symm.trans hd)
      refine ⟨q, hq, havailable, ?_, rfl⟩
      rw [← henv]
      exact (congrArg EnvDescriptor.envId hdenv).symm
  · intro hzero queue
    rw [List.mem_flatMap, eligible_iff hqueues hids]
    constructor
    · rintro ⟨e, he, hq⟩
      obtain ⟨q, hq, havailable, -, hid⟩ := (hmem e he queue).mp hq
      exact ⟨q, hq, havailable, hid⟩
    · rintro ⟨q, hq, havailable, rfl⟩
      obtain ⟨e, he, henv⟩ := hcover hzero q hq havailable
      exact ⟨e, he, (hmem e he q.id).mpr ⟨q, hq, havailable, henv.symm, rfl⟩⟩
  · intro hzero e he
    obtain ⟨ordered, hordered, hperm, hsorted⟩ := hall e he
    rw [hordered, List.pairwise_map]
    refine (hsorted hzero).imp_of_mem fun {a b} ha hb hage x hx y hy => ?_
    -- 年齢は score から作られるので、年齢の順は score の順である
    have hscore : ∀ q ∈ ordered, content.score? q.id = some (now - q.age) := fun q hq =>
      hages q (List.mem_of_mem_filter (List.mem_of_mem_filter (hperm.mem_iff.mp hq)))
    have hx' : now - a.age = x := Option.some.inj ((hscore a ha).symm.trans hx)
    have hy' : now - b.age = y := Option.some.inj ((hscore b hb).symm.trans hy)
    rw [← hx', ← hy', sub_sub_cancel, sub_sub_cancel]
    exact hage

end Distribute

/-- 二つの環境に queue が三つある親の queue。 -/
def exampleContent : ZSet :=
  (((∅ : ZSet).add "{org:o}:proj:p:env:e1:queue:a" 3).add "{org:o}:proj:p:env:e1:queue:b" 1).add
    "{org:o}:proj:p:env:e2:queue:a" 2

/-- `e2` は上限に達している。 -/
def exampleConcurrency (env : EnvDescriptor) : Concurrency :=
  if env.envId = "e2" then ⟨5, 5⟩ else ⟨0, 5⟩

def exampleRng : Rng Arithmetic.rational := fun _ => ⟨1 / 2, by norm_num [Arithmetic.rational]⟩

theorem queueKeys_exampleContent :
    QueueKeys ((fetched ({} : Options ℚ) exampleContent 4).map Prod.fst) where
  parsed := by decide +kernel
  generated := by decide +kernel
  sameEnv := by decide +kernel

theorem distributes_fairly_exampleContent :
    ∃ result, distributeFairQueuesFromParentQueue Arithmetic.rational {} exampleConcurrency
        exampleRng exampleContent 4 = .ok result ∧
      Distributes Arithmetic.rational {} exampleConcurrency exampleContent 4 result :=
  distributes_fairly Arithmetic.rational {} exampleConcurrency exampleRng exampleContent 4
    queueKeys_exampleContent

end RunQueue.Distribution
