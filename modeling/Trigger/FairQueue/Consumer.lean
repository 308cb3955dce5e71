import Mathlib.Data.List.Sort
import Trigger.FairQueue.System
import Trigger.Infra.Triple

/-!
# DRRScheduler と consumer loop

`fair-queue/schedulers/drr.ts` の `DRRScheduler` と、それを使う `#processMasterQueueShard`。一回の繰り返しは、期限の
来た queue を tenant ごとにまとめ、tenant に quantum を足し、deficit が 1 以上の tenant の queue を順に配る。

command の前には、ほかの process の command や、同じ process の別の method が入り得る。これを、状態を書き換える
関数の列 `env` で表し、command のたびに一つ取り出して当てる（`interfere`）。時刻も `env` が進める。Redis の数は
有理数とし、`HINCRBYFLOAT` の丸めは扱わない。
-/

namespace FairQueue

open Infra Infra.Keyspace

variable {P : Type}

/-! ## deficit の script -/

/-- hash の数。無ければ 0。 -/
def Stored.toNumber : Option (Stored P) → ℚ
  | some (.number x) => x
  | _ => 0

/-- `HINCRBYFLOAT`。 -/
def hincrbyfloat (key : Key .hash) (field : String) (increment : ℚ) : Script P ℚ := do
  let value ← hget key field
  let new := Stored.toNumber value + increment
  hset key field (.number new)
  pure new

/-- Lua `drrAddQuantum` の `for`。 -/
def drrAddQuantumLua (quantum maxDeficit : ℚ) : List String → Script P (List ℚ)
  | [] => pure []
  | tenantId :: rest => do
    let newDeficit ← hincrbyfloat .deficit tenantId quantum
    if maxDeficit < newDeficit then do
      hset .deficit tenantId (.number maxDeficit)
      let results ← drrAddQuantumLua quantum maxDeficit rest
      pure (maxDeficit :: results)
    else do
      let results ← drrAddQuantumLua quantum maxDeficit rest
      pure (newDeficit :: results)

/-- Lua `drrDecrementDeficitBatch`。 -/
def drrDecrementDeficitBatchLua (tenantId : String) (count : Nat) : Script P ℚ := do
  let newDeficit ← hincrbyfloat .deficit tenantId (-count)
  if newDeficit < 0 then do
    hset .deficit tenantId (.number 0)
    pure 0
  else pure newDeficit

/-! ## 状態 -/

/-- `DRRSchedulerConfig`。 -/
structure DRRSchedulerConfig where
  quantum : ℚ
  maxDeficit : ℚ
  masterQueueLimit : Nat := 1000

/-- `options.cooloff`。 -/
structure CooloffOptions where
  enabled : Bool := true
  threshold : Nat := 10
  periodMs : ℚ := 10000
  maxStatesSize : Nat := 1000

/-- `QueueCooloffState`。 -/
inductive CooloffState
  | normal (consecutiveFailures : Nat)
  | cooloff (expiresAt : ℚ)

/-- Redis と、一つの instance の memory と、時刻。 -/
structure World (P : Type) where
  redis : Redis P
  queueDescriptorCache : String → Option QueueDescriptor
  queueCooloffStates : JsMap CooloffState
  now : ℚ

/-- 起きた事。`claimed` は claim の script の直前の、取られる message の数と tenant の deficit。 -/
inductive LoopEvent
  | claimed (tenantId : String) (size : Nat) (deficit : ℚ)
  | pushed (tenantId messageId : String)
  | stored (tenantId : String) (deficit : ℚ)
deriving DecidableEq

/-- consumer loop の状態。 -/
structure Loop (P : Type) where
  world : World P
  env : List (World P → World P)
  trace : List LoopEvent

abbrev LoopM (P : Type) := Task (Loop P) String

/-- tenant の deficit。 -/
def deficit (s : Redis P) (tenantId : String) : ℚ := Stored.toNumber (JsMap.get (s.get .deficit) tenantId)

namespace Loop

variable (s : Loop P)

/-- ほかの command が一つ入る。 -/
def interfere : Loop P :=
  match s.env with
  | [] => s
  | e :: rest => { s with world := e s.world, env := rest }

def setRedis (redis : Redis P) : Loop P := { s with world := { s.world with redis := redis } }

def record (events : List LoopEvent) : Loop P := { s with trace := s.trace ++ events }

end Loop

/-- 一つの command か script を発行し、起きた事を記録する。 -/
def command {α : Type} (c : ℚ → Script P α) (events : World P → α → List LoopEvent) :
    LoopM P α := do
  let s ← get
  let s := s.interfere
  let r := (c s.world.now).run s.world.redis
  set ((s.setRedis r.2).record (events s.world r.1))
  pure r.1

/-- 記録の要らない command。 -/
def silent {α : Type} (c : ℚ → Script P α) : LoopM P α := command c fun _ _ => []

/-- memory の cooloff の状態を書き換える。 -/
def setCooloff (f : ℚ → JsMap CooloffState → JsMap CooloffState) : LoopM P Unit :=
  modify fun s => { s with world :=
    { s.world with queueCooloffStates := f s.world.now s.world.queueCooloffStates } }

/-! ## DRRScheduler -/

/-- `groupQueuesByTenant`。要素は queue id と tenant id。 -/
def groupQueuesByTenant (queues : List (String × String)) : JsMap (List String) :=
  queues.foldl
    (fun grouped q => JsMap.set grouped q.2 ((JsMap.get grouped q.2).getD [] ++ [q.1])) []

section Consumer

variable (options : FairQueueOptions P) (drr : DRRSchedulerConfig) (cooloff : CooloffOptions)

/-- `#getQueuesFromShard`。 -/
def getQueuesFromShard (shardId : Nat) : LoopM P (List (String × String)) := do
  let results ← silent fun now => zrangeByScore (.masterQueue shardId) now drr.masterQueueLimit
  pure ((results.filter fun r => r.1 ≠ "").map fun r => (r.1, options.keys.extractTenantId r.1))

/-- `isAtCapacity`。`groupsByName` は `Map` なので、同じ名前の group は後のものが残る。 -/
def isAtCapacity (groupName groupId : String) : LoopM P Bool :=
  if options.concurrencyGroups.isEmpty then pure false
  else do
    let current ← silent fun _ =>
      scard (.concurrency (options.keys.concurrencyGroup groupName groupId))
    match (options.concurrencyGroups.filter fun group => group.name = groupName).getLast? with
    | none => throw ("Unknown concurrency group: " ++ groupName)
    | some group => pure (decide (group.limit groupId ≤ current))

/-- `selectQueues`。tenant とその queue を、deficit の大きい順に返す。 -/
def selectQueues (shardId : Nat) : LoopM P (List (String × List String)) := do
  let queues ← getQueuesFromShard options drr shardId
  if queues.isEmpty then pure []
  else do
    let queuesByTenant := groupQueuesByTenant queues
    let tenantIds := queuesByTenant.map Prod.fst
    let deficits ← command (fun _ => drrAddQuantumLua drr.quantum drr.maxDeficit tenantIds)
      fun _ results => (tenantIds.zip results).map fun r => .stored r.1 r.2
    let tenantData ← (tenantIds.zip deficits).mapM fun t => do
      let atCapacity ← isAtCapacity options "tenant" t.1
      pure (t.1, t.2, atCapacity)
    let eligibleTenants := tenantData.filter fun t => !t.2.2 && decide (1 ≤ t.2.1)
    let sorted := eligibleTenants.insertionSort fun a b => b.2.1 ≤ a.2.1
    pure (sorted.map fun t => (t.1, (JsMap.get queuesByTenant t.1).getD []))

/-- `recordProcessedBatch`。 -/
def recordProcessedBatch (tenantId : String) (count : Nat) : LoopM P Unit := do
  let _ ← command (fun _ => drrDecrementDeficitBatchLua tenantId count)
    fun _ newDeficit => [.stored tenantId newDeficit]

/-! ## cooloff -/

/-- `#isInCooloff`。 -/
def isInCooloff (queueId : String) : LoopM P Bool := do
  let s ← get
  match JsMap.get s.world.queueCooloffStates queueId with
  | some (.cooloff expiresAt) =>
    if expiresAt ≤ s.world.now then do
      setCooloff fun _ states => JsMap.delete states queueId
      pure false
    else pure true
  | _ => pure false

/-- `cooloffEnabled && #isInCooloff(queueId)`。 -/
def skipsQueue (queueId : String) : LoopM P Bool :=
  if cooloff.enabled then isInCooloff queueId else pure false

/-- `#incrementCooloff`。 -/
def incrementCooloff (queueId : String) : LoopM P Unit :=
  setCooloff fun now states =>
    let states := if cooloff.maxStatesSize ≤ states.length then [] else states
    match (JsMap.get states queueId).getD (.normal 0) with
    | .normal consecutiveFailures =>
      if cooloff.threshold ≤ consecutiveFailures + 1 then
        JsMap.set states queueId (.cooloff (now + cooloff.periodMs))
      else JsMap.set states queueId (.normal (consecutiveFailures + 1))
    | .cooloff _ => states

/-- `#resetCooloff`。 -/
def resetCooloff (queueId : String) : LoopM P Unit :=
  setCooloff fun _ states => JsMap.delete states queueId

/-! ## 一つの queue を配る -/

/-- `getAvailableCapacity`。 -/
def getAvailableCapacity : List (Key .set × Nat) → Option Nat → LoopM P Nat
  | [], minCapacity => pure (minCapacity.getD 0)
  | (key, limit) :: rest, minCapacity => do
    let current ← silent fun _ => scard key
    let available := limit - current
    getAvailableCapacity rest (some (match minCapacity with
      | none => available
      | some least => min least available))

/-- `concurrencyManager.reserve`。group の無い設定では、いつも取れたとする。 -/
def reserve (descriptor : QueueDescriptor) (messageId : String) : LoopM P Nat :=
  if options.concurrencyGroups.isEmpty then pure 1
  else silent fun _ => reserveConcurrencyLua (options.groupData descriptor) messageId

/-- claim した message を一つずつ worker queue に入れる `for`。入れた数を返す。 -/
def pushMessages (descriptor : QueueDescriptor) (queueId tenantId : String) (shardId : Nat) :
    List (String × StoredMessage P) → LoopM P Nat
  | [] => pure 0
  | message :: rest => do
    let reserved ← reserve options descriptor message.1
    if reserved = 1 then do
      command (fun _ => rpush (.workerQueue (options.resolveWorkerQueue message.2))
        (makeMember message.1 queueId)) fun _ _ => [.pushed tenantId message.1]
      let processedCount ← pushMessages descriptor queueId tenantId shardId rest
      pure (processedCount + 1)
    else do
      let _ ← silent fun now => releaseMessageBatchLua (.inflight (options.shardOf queueId))
        (.inflightData (options.shardOf queueId)) (.queue queueId) (.queueItems queueId)
        (.masterQueue shardId) now queueId
        ((message :: rest).map fun m => (makeMember m.1 queueId, m.1))
      pure 0

/-- claim の script と、その後。 -/
def claimAndPush (descriptor : QueueDescriptor) (queueId tenantId : String) (shardId : Nat)
    (maxClaimCount : Nat) : LoopM P Nat := do
  let claimed ← command (fun now => claimMessageBatchLua (.queue queueId) (.queueItems queueId)
      (.inflight (options.shardOf queueId)) (.inflightData (options.shardOf queueId)) queueId
      (now + options.visibilityTimeoutMs) maxClaimCount)
    fun world _ => [.claimed tenantId
      (takeTo ((maxClaimCount : Int) - 1) (world.redis.get (.queue queueId))).length
      (deficit world.redis tenantId)]
  let messages := claimed.filterMap fun m => m.2.message?.map fun message => (m.1, message)
  if messages.isEmpty then do
    let removed ← silent fun _ =>
      updateMasterQueueIfEmptyLua (.masterQueue shardId) (.queue queueId) queueId
    if removed = 1 then do
      modify fun s : Loop P => { s with world := { s.world with
        queueDescriptorCache := Function.update s.world.queueDescriptorCache queueId none } }
      resetCooloff queueId
      pure 0
    else pure 0
  else do
    let processedCount ← pushMessages options descriptor queueId tenantId shardId messages
    if 0 < processedCount then do
      resetCooloff queueId
      pure processedCount
    else pure processedCount

/-- `#claimAndPushToWorkerQueue`。入れた message の数を返す。 -/
def claimAndPushToWorkerQueue (queueId tenantId : String) (shardId : Nat) : LoopM P Nat := do
  let s ← get
  let descriptor := (s.world.queueDescriptorCache queueId).getD
    { id := queueId, tenantId := tenantId, metadata := [] }
  if options.concurrencyGroups.isEmpty then
    claimAndPush options descriptor queueId tenantId shardId options.batchClaimSize
  else do
    let availableCapacity ← getAvailableCapacity (options.groupData descriptor) none
    if availableCapacity = 0 then do
      incrementCooloff cooloff queueId
      pure 0
    else
      claimAndPush options descriptor queueId tenantId shardId
        (min options.batchClaimSize availableCapacity)

/-! ## 一回の繰り返し -/

/-- 一つの tenant の queue を順に配る。 -/
def processQueues (tenantId : String) (shardId : Nat) : List String → LoopM P Nat
  | [] => pure 0
  | queueId :: rest => do
    let skipped ← skipsQueue cooloff queueId
    if skipped then processQueues tenantId shardId rest
    else do
      let atCapacity ← isAtCapacity options "tenant" tenantId
      if atCapacity then pure 0
      else do
        let processed ← claimAndPushToWorkerQueue options cooloff queueId tenantId shardId
        if 0 < processed then do
          recordProcessedBatch tenantId processed
          let others ← processQueues tenantId shardId rest
          pure (processed + others)
        else processQueues tenantId shardId rest

/-- 選ばれた tenant を順に配る。 -/
def processTenants (shardId : Nat) : List (String × List String) → LoopM P Nat
  | [] => pure 0
  | (tenantId, queues) :: rest => do
    let processed ← processQueues options cooloff tenantId shardId queues
    let others ← processTenants shardId rest
    pure (processed + others)

/-- `#processMasterQueueShard`。message を配ったかどうかを返す。 -/
def processMasterQueueShard (shardId : Nat) : LoopM P Bool := do
  let tenantQueues ← selectQueues options drr shardId
  let messagesProcessed ← processTenants options cooloff shardId tenantQueues
  pure (decide (0 < messagesProcessed))

/-- `#runMasterQueueConsumerLoop` の繰り返し。例外は記録して続ける。 -/
def runIterations (shards : List Nat) (s : Loop P) : Loop P :=
  shards.foldl
    (fun s shardId => ((processMasterQueueShard options drr cooloff shardId).result s).2) s

end Consumer

end FairQueue
