import Mathlib.Data.String.Basic
import Trigger.FairQueue.Weighted
import Trigger.Infra.Rotation
import Trigger.Infra.SortedSet

/-!
# RoundRobinScheduler

`fair-queue/schedulers/roundRobin.ts`。tenant を queue の並びに現れる順に並べ、最後に先頭にした tenant の次から
回して、容量の残る tenant とその queue を返す。pointer は shard ごとに Redis に置く。

tenant の順は queue の score で決まるので、呼び出しのたびに変わりうる。それでも、容量の残る tenant の位置が後ろへ
動かない限り、先頭にならない呼び出しの数は、前へ動いた数の `n` 倍と `n - 1` の和を超えない
（`selectQueues_no_starvation`）。位置が動かなければ、`n` 回に一度は先頭になる。
-/

namespace FairQueue.RoundRobinScheduler

open Infra Infra.Rotation

/-! ## 選択 -/

/-- `TenantQueues`。 -/
structure TenantQueues where
  tenantId : String
  queues : List String
deriving DecidableEq

/-- `RoundRobinSchedulerConfig` のうち、選択が読むもの。 -/
structure Config where
  extractTenantId : String → String
  masterQueueLimit : ℕ := 1000

/-- `#getQueuesFromShard`。 -/
def getQueuesFromShard (config : Config) (masterQueue : SortedSet String ℚ) (maxScore : ℚ) :
    List QueueWithScore :=
  let results := (masterQueue.rangeByScore maxScore).take config.masterQueueLimit
  (results.filter fun r => r.1 ≠ "").map fun r =>
    { queueId := r.1, score := r.2, tenantId := config.extractTenantId r.1 }

/-- `#rotateArray`。 -/
def rotateArray {α : Type} (array : List α) (startIndex : ℕ) : List α :=
  if array.length = 0 then []
  else
    let normalizedIndex := startIndex % array.length
    array.drop normalizedIndex ++ array.take normalizedIndex

/-- `queuesByTenant`。鍵の並びが `tenantOrder` である。 -/
def queuesByTenant (queues : List QueueWithScore) : JsMap (List QueueWithScore) :=
  JsMap.groupBy QueueWithScore.tenantId queues

def tenantOrder (queues : List QueueWithScore) : List String :=
  (queuesByTenant queues).map Prod.fst

/-- Redis に置いた `lastServed`。shard の key ごとにある。 -/
abbrev Pointers := String → Option ℕ

/-- `#lastServedKey`。 -/
def lastServedKey (shardKey : String) : String := shardKey ++ ":rr:lastServed"

/-- `#getLastServedIndex`。 -/
def getLastServedIndex (pointers : Pointers) (shardKey : String) : ℕ :=
  (pointers (lastServedKey shardKey)).getD 0

/-- `#setLastServedIndex`。 -/
def setLastServedIndex (pointers : Pointers) (shardKey : String) (index : ℕ) : Pointers :=
  fun key => if key = lastServedKey shardKey then some index else pointers key

@[simp] theorem getLastServedIndex_set_self (pointers : Pointers) (shardKey : String)
    (index : ℕ) :
    getLastServedIndex (setLastServedIndex pointers shardKey index) shardKey = index := by
  unfold getLastServedIndex setLastServedIndex
  rw [if_pos rfl]
  rfl

theorem getLastServedIndex_set_of_ne {pointers : Pointers} {shardKey other : String}
    (hne : other ≠ shardKey) (index : ℕ) :
    getLastServedIndex (setLastServedIndex pointers other index) shardKey =
      getLastServedIndex pointers shardKey := by
  have hkey : lastServedKey shardKey ≠ lastServedKey other :=
    fun h => hne (String.append_left_inj _ |>.mp h).symm
  unfold getLastServedIndex setLastServedIndex
  rw [if_neg hkey]

/-- 一回の呼び出しが読むもの。 -/
structure Call where
  masterQueueShard : String
  masterQueue : SortedSet String ℚ
  now : ℚ
  isAtCapacity : String → Bool

def Call.queues (config : Config) (call : Call) : List QueueWithScore :=
  getQueuesFromShard config call.masterQueue call.now

/-- 呼び出しが見る tenant の順。 -/
def Call.order (config : Config) (call : Call) : List String := tenantOrder (call.queues config)

/-- `selectQueues`。 -/
def selectQueues (config : Config) (call : Call) (pointers : Pointers) :
    List TenantQueues × Pointers :=
  let queues := call.queues config
  if queues.length = 0 then ([], pointers)
  else
    let lastServedIndex := getLastServedIndex pointers call.masterQueueShard
    let rotatedTenants := rotateArray (call.order config) lastServedIndex
    let eligibleTenants := (rotatedTenants.filter fun t => !call.isAtCapacity t).map fun t =>
      { tenantId := t
        queues := (((queuesByTenant queues).get t).getD []).map QueueWithScore.queueId }
    match eligibleTenants.head? with
    | none => (eligibleTenants, pointers)
    | some firstEligible =>
      let firstTenantIndex := (call.order config).idxOf firstEligible.tenantId
      (eligibleTenants,
        setLastServedIndex pointers call.masterQueueShard (firstTenantIndex + 1))

/-- 呼び出しの列。返したものを、呼び出しとともに並べる。 -/
def run (config : Config) : Pointers → List Call → List (Call × List TenantQueues)
  | _, [] => []
  | pointers, call :: rest =>
    (call, (selectQueues config call pointers).1) ::
      run config (selectQueues config call pointers).2 rest

/-! ## 一回の呼び出し -/

section Step

variable {config : Config} {call : Call} {pointers : Pointers} {t : String}

theorem rotateArray_eq_rotate {α : Type} (array : List α) (startIndex : ℕ) :
    rotateArray array startIndex = array.rotate startIndex := by
  unfold rotateArray
  split
  · next h => rw [List.length_eq_zero_iff.mp h, List.rotate_nil]
  · exact List.rotate_eq_drop_append_take_mod.symm

theorem nodup_order : (call.order config).Nodup := JsMap.nodup_keys_groupBy _ _

theorem length_queues_ne_zero (ht : t ∈ call.order config) : (call.queues config).length ≠ 0 := by
  obtain ⟨q, hq, -⟩ := JsMap.mem_keys_groupBy.mp ht
  exact Nat.ne_of_gt (List.length_pos_of_mem hq)

/-- 容量の残る tenant があれば、返る列の先頭は回した順で最初のものであり、pointer はその次へ進む。 -/
theorem selectQueues_first {f : String} (hf : f ∈ call.order config)
    (hfind : ((call.order config).rotate
      (getLastServedIndex pointers call.masterQueueShard)).find? (fun t => !call.isAtCapacity t) =
        some f) :
    (selectQueues config call pointers).1.head?.map TenantQueues.tenantId = some f ∧
      (selectQueues config call pointers).2 =
        setLastServedIndex pointers call.masterQueueShard ((call.order config).idxOf f + 1) := by
  unfold selectQueues
  dsimp only
  rw [if_neg (length_queues_ne_zero hf), rotateArray_eq_rotate]
  simp only [List.head?_map, List.head?_filter, hfind, Option.map_some]
  trivial

/-- 先頭にならなかった tenant に、pointer は近づく。 -/
theorem selectQueues_closer (ht : t ∈ call.order config) (hcapacity : call.isAtCapacity t = false)
    (hnot : (selectQueues config call pointers).1.head?.map TenantQueues.tenantId ≠ some t) :
    distance (call.order config).length ((call.order config).idxOf t)
        (getLastServedIndex (selectQueues config call pointers).2 call.masterQueueShard) <
      distance (call.order config).length ((call.order config).idxOf t)
        (getLastServedIndex pointers call.masterQueueShard) := by
  have haccept : (!call.isAtCapacity t) = true := by rw [hcapacity]; rfl
  obtain ⟨f, hf, hfind, hcloser⟩ := @find?_rotate String _ (call.order config)
    (fun t => !call.isAtCapacity t) nodup_order t ht haccept
    (getLastServedIndex pointers call.masterQueueShard)
  obtain ⟨hhead, hpointers⟩ := selectQueues_first hf hfind
  have hne : f ≠ t := fun heq => hnot (heq ▸ hhead)
  have hnext : getLastServedIndex (selectQueues config call pointers).2 call.masterQueueShard =
      (call.order config).idxOf f + 1 := by
    rw [hpointers, getLastServedIndex_set_self]
  rw [hnext]
  exact hcloser hne

/-- 他の shard の呼び出しは、pointer を変えない。 -/
theorem selectQueues_frame {shardKey : String} (hne : call.masterQueueShard ≠ shardKey) :
    getLastServedIndex (selectQueues config call pointers).2 shardKey =
      getLastServedIndex pointers shardKey := by
  unfold selectQueues
  dsimp only
  split
  · rfl
  · split
    · rfl
    · exact getLastServedIndex_set_of_ne hne _

end Step

/-! ## 呼び出しの列 -/

/-- shard `shardKey` の呼び出し。 -/
def callsAt (shardKey : String) (calls : List Call) : List Call :=
  calls.filter (·.masterQueueShard = shardKey)

/--
shard の呼び出しの間、tenant は `n` 個で、`t` は容量が残り、その位置は `q` から `p` までにあって後ろへは動かない。
-/
structure Waiting (config : Config) (shardKey t : String) (n q p : ℕ) (calls : List Call) :
    Prop where
  length_order : ∀ call ∈ callsAt shardKey calls, (call.order config).length = n
  mem_order : ∀ call ∈ callsAt shardKey calls, t ∈ call.order config
  below : ∀ call ∈ callsAt shardKey calls, call.isAtCapacity t = false
  within : ∀ call ∈ callsAt shardKey calls,
    q ≤ (call.order config).idxOf t ∧ (call.order config).idxOf t ≤ p
  forward : (callsAt shardKey calls).Pairwise fun a b =>
    (b.order config).idxOf t ≤ (a.order config).idxOf t

section Run

variable {config : Config} {shardKey t : String} {n q p : ℕ} {call : Call} {calls : List Call}

theorem callsAt_cons_of_eq (h : call.masterQueueShard = shardKey) :
    callsAt shardKey (call :: calls) = call :: callsAt shardKey calls :=
  List.filter_cons_of_pos (decide_eq_true h)

theorem callsAt_cons_of_ne (h : call.masterQueueShard ≠ shardKey) :
    callsAt shardKey (call :: calls) = callsAt shardKey calls :=
  List.filter_cons_of_neg (by simpa using h)

/-- 次の呼び出しからは、今の位置が上限になる。 -/
theorem Waiting.tail (h : Waiting config shardKey t n q p (call :: calls))
    (hshard : call.masterQueueShard = shardKey) :
    Waiting config shardKey t n q ((call.order config).idxOf t) calls := by
  obtain ⟨hlength, hmem, hbelow, hwithin, hforward⟩ := h
  rw [callsAt_cons_of_eq hshard] at hlength hmem hbelow hwithin hforward
  obtain ⟨hfirst, hrest⟩ := List.pairwise_cons.mp hforward
  exact ⟨fun c hc => hlength c (List.mem_cons_of_mem call hc),
    fun c hc => hmem c (List.mem_cons_of_mem call hc),
    fun c hc => hbelow c (List.mem_cons_of_mem call hc),
    fun c hc => ⟨(hwithin c (List.mem_cons_of_mem call hc)).1, hfirst c hc⟩, hrest⟩

theorem Waiting.skip (h : Waiting config shardKey t n q p (call :: calls))
    (hshard : call.masterQueueShard ≠ shardKey) : Waiting config shardKey t n q p calls := by
  obtain ⟨hlength, hmem, hbelow, hwithin, hforward⟩ := h
  rw [callsAt_cons_of_ne hshard] at hlength hmem hbelow hwithin hforward
  exact ⟨hlength, hmem, hbelow, hwithin, hforward⟩

/--
`t` が先頭にならない呼び出しのたびに、位置が前へ動くか、pointer が近づく。位置が一つ前へ動くごとに、pointer は
高々一周する。
-/
theorem Waiting.length_le : ∀ {calls : List Call} {pointers : Pointers} {p : ℕ},
    Waiting config shardKey t n q p calls →
    (∀ r ∈ run config pointers calls, r.1.masterQueueShard = shardKey →
      r.2.head?.map TenantQueues.tenantId ≠ some t) →
    (callsAt shardKey calls).length ≤
      n * (p - q) + distance n p (getLastServedIndex pointers shardKey)
  | [], _, _, _, _ => Nat.zero_le _
  | call :: rest, pointers, p, h, hnot => by
    obtain ⟨hfirst, hrest⟩ := List.forall_mem_cons.mp hnot
    by_cases hshard : call.masterQueueShard = shardKey
    · have ih := (h.tail hshard).length_le hrest
      have hmem : call ∈ callsAt shardKey (call :: rest) := by
        rw [callsAt_cons_of_eq hshard]
        exact List.mem_cons_self
      obtain ⟨hq, hp⟩ := h.within call hmem
      have hlength := h.length_order call hmem
      have hcloser := selectQueues_closer (h.mem_order call hmem) (h.below call hmem)
        (hfirst hshard)
      have hlt : (call.order config).idxOf t < n :=
        hlength ▸ List.idxOf_lt_length_of_mem (h.mem_order call hmem)
      rw [hlength, hshard] at hcloser
      rw [callsAt_cons_of_eq hshard, List.length_cons]
      generalize (call.order config).idxOf t = p' at *
      rcases Nat.eq_or_lt_of_le hp with rfl | hmoved
      · omega
      · -- 位置が前へ動いた分で、今の周回の残りを払う
        have hround : distance n p' (getLastServedIndex pointers shardKey) < n :=
          distance_lt hlt
        have hpay : n * (p' - q) + n ≤ n * (p - q) := by
          rw [← Nat.mul_succ]
          exact Nat.mul_le_mul_left n (by omega)
        omega
    · have ih := (h.skip hshard).length_le hrest
      rw [selectQueues_frame hshard] at ih
      rw [callsAt_cons_of_ne hshard]
      exact ih

/-! ## 主定理 -/

/--
**他の shard の呼び出しと混ざったどの列でも、どの pointer から始めても、待つ tenant が一度も先頭にならない呼び出しは、
位置が前へ動きうる数の `n` 倍と `n - 1` の和より多くない。**
-/
theorem selectQueues_no_starvation (h : Waiting config shardKey t n q p calls) (hp : p < n)
    {pointers : Pointers} (hnot : ∀ r ∈ run config pointers calls,
      r.1.masterQueueShard = shardKey → r.2.head?.map TenantQueues.tenantId ≠ some t) :
    (callsAt shardKey calls).length ≤ n * (p - q) + (n - 1) := by
  have hle := h.length_le hnot
  have hround : distance n p (getLastServedIndex pointers shardKey) < n := distance_lt hp
  omega

/-- 三つの queue がそれぞれ別の tenant にある呼び出し。 -/
def sampleCall (masterQueueShard : String) (masterQueue : SortedSet String ℚ) : Call where
  masterQueueShard := masterQueueShard
  masterQueue := masterQueue
  now := 3
  isAtCapacity := fun _ => false

/-- tenant `b` が三番目から二番目へ動く間の、二つの shard の呼び出し。 -/
def sampleCalls : List Call :=
  [sampleCall "shard" ⟨[("a", 1), ("c", 2), ("b", 3)], by decide, by decide⟩,
    sampleCall "other" ⟨[("b", 1), ("d", 2)], by decide, by decide⟩,
    sampleCall "shard" ⟨[("a", 1), ("c", 2), ("b", 3)], by decide, by decide⟩,
    sampleCall "shard" ⟨[("a", 1), ("b", 2), ("c", 3)], by decide, by decide⟩,
    sampleCall "shard" ⟨[("a", 1), ("b", 2), ("c", 3)], by decide, by decide⟩]

/-- `b` は四回待ち、位置が一つ動いたので五回までしか待たない。次の呼び出しで先頭になる。 -/
theorem selectQueues_no_starvation_sample :
    ((run ⟨id, 1000⟩ (fun _ => none) (sampleCalls ++ [sampleCall "shard"
        ⟨[("a", 1), ("b", 2), ("c", 3)], by decide, by decide⟩])).map fun r =>
      (r.1.masterQueueShard, r.2.head?.map TenantQueues.tenantId)) =
        [("shard", some "a"), ("other", some "b"), ("shard", some "c"), ("shard", some "c"),
          ("shard", some "a"), ("shard", some "b")] ∧
    (callsAt "shard" sampleCalls).length = 4 ∧
    (callsAt "shard" sampleCalls).length ≤ 3 * (2 - 1) + (3 - 1) := by
  have hwaiting : Waiting ⟨id, 1000⟩ "shard" "b" 3 1 2 sampleCalls :=
    ⟨by decide, by decide, by decide, by decide, by decide⟩
  have hnot : ∀ r ∈ run ⟨id, 1000⟩ (fun _ => none) sampleCalls, r.1.masterQueueShard = "shard" →
      r.2.head?.map TenantQueues.tenantId ≠ some "b" := by decide
  exact ⟨by decide, rfl, selectQueues_no_starvation hwaiting (by decide) hnot⟩

end Run

end FairQueue.RoundRobinScheduler
