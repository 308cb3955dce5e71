import Trigger.FairQueue.Keys

/-!
# FairQueue の script

`fair-queue/index.ts` と `fair-queue/visibility.ts` の Lua script。`redis.call` の順のまま、種類つきの key に
触れる計算として訳す。key と引数の組は、呼び出す側（`Command.prog`）が queue id から作る。
-/

namespace FairQueue

open Infra Infra.Keyspace
open Infra.Redis (ZSet)

variable {P : Type}

/-! ## 保存されるもの -/

/-- `Record<string, unknown>`。値は JSON の文字列。 -/
abbrev Metadata := JsMap String

/-- `QueueDescriptor`。 -/
structure QueueDescriptor where
  id : String
  tenantId : String
  metadata : Metadata
deriving DecidableEq

/-- `StoredMessage`。 -/
structure StoredMessage (P : Type) where
  id : String
  queueId : String
  tenantId : String
  payload : P
  timestamp : ℚ
  attempt : Nat
  workerQueue : Option String := none
  metadata : Option Metadata := none
deriving DecidableEq

/-- `DeadLetterMessage`。 -/
structure DeadLetterMessage (P : Type) where
  id : String
  queueId : String
  tenantId : String
  payload : P
  deadLetteredAt : ℚ
  attempts : Nat
  lastError : Option String
  originalTimestamp : ℚ
deriving DecidableEq

/-- hash の値。JSON にした message か、数である。 -/
inductive Stored (P : Type)
  | message (m : StoredMessage P)
  | deadLetter (m : DeadLetterMessage P)
  | number (x : ℚ)
deriving DecidableEq

abbrev Script (P α : Type) := Prog (Stored P) Key α

abbrev Redis (P : Type) := Store (Stored P) Key

/-- `#makeMember`。 -/
def makeMember (messageId queueId : String) : String := messageId ++ ":" ++ queueId

/-! ## enqueue -/

/-- 「Update master queue with oldest message timestamp」。 -/
def updateMasterQueue (masterQueueKey queueKey : Key .zset) (queueId : String) :
    Script P Unit := do
  let oldest ← zfirst queueKey
  match oldest with
  | some (_, score) => zadd masterQueueKey score queueId
  | none => pure ()

/-- Lua `enqueueMessageAtomic`。 -/
def enqueueMessageAtomicLua (queueKey : Key .zset) (queueItemsKey : Key .hash)
    (masterQueueKey : Key .zset) (queueId messageId : String) (timestamp : ℚ)
    (payload : Stored P) : Script P Nat := do
  zadd queueKey timestamp messageId
  hset queueItemsKey messageId payload
  updateMasterQueue masterQueueKey queueKey queueId
  pure 1

/-- Lua `enqueueBatchAtomic` の `for`。 -/
def enqueueLoop (queueKey : Key .zset) (queueItemsKey : Key .hash) :
    List (String × ℚ × Stored P) → Script P Unit
  | [] => pure ()
  | (messageId, timestamp, payload) :: rest => do
    zadd queueKey timestamp messageId
    hset queueItemsKey messageId payload
    enqueueLoop queueKey queueItemsKey rest

/-- Lua `enqueueBatchAtomic`。 -/
def enqueueBatchAtomicLua (queueKey : Key .zset) (queueItemsKey : Key .hash)
    (masterQueueKey : Key .zset) (queueId : String) (messages : List (String × ℚ × Stored P)) :
    Script P Nat := do
  enqueueLoop queueKey queueItemsKey messages
  updateMasterQueue masterQueueKey queueKey queueId
  pure messages.length

/-- Lua `updateMasterQueueIfEmpty`。 -/
def updateMasterQueueIfEmptyLua (masterQueueKey queueKey : Key .zset) (queueId : String) :
    Script P Nat := do
  let count ← zcard queueKey
  if count = 0 then do
    zrem masterQueueKey queueId
    pure 1
  else do
    updateMasterQueue masterQueueKey queueKey queueId
    pure 0

/-! ## claim -/

/-- 一件を queue から in-flight へ移す。payload が無ければ queue から除くだけである。 -/
def claimOne (queueKey : Key .zset) (queueItemsKey : Key .hash) (inflightKey : Key .zset)
    (inflightDataKey : Key .hash) (queueId : String) (deadline : ℚ) (messageId : String) :
    Script P (Option (Stored P)) := do
  let payload ← hget queueItemsKey messageId
  match payload with
  | none => do
    zrem queueKey messageId
    pure none
  | some payload => do
    zrem queueKey messageId
    hdel queueItemsKey messageId
    zadd inflightKey deadline (makeMember messageId queueId)
    hset inflightDataKey messageId payload
    pure (some payload)

/-- Lua `claimMessage`。 -/
def claimMessageLua (queueKey : Key .zset) (queueItemsKey : Key .hash) (inflightKey : Key .zset)
    (inflightDataKey : Key .hash) (queueId : String) (deadline : ℚ) :
    Script P (Option (String × Stored P)) := do
  let items ← zrange queueKey 0
  match items with
  | [] => pure none
  | messageId :: _ => do
    let payload ← claimOne queueKey queueItemsKey inflightKey inflightDataKey queueId deadline
      messageId
    pure (payload.map fun p => (messageId, p))

/-- Lua `claimMessageBatch` の `for`。 -/
def claimLoop (queueKey : Key .zset) (queueItemsKey : Key .hash) (inflightKey : Key .zset)
    (inflightDataKey : Key .hash) (queueId : String) (deadline : ℚ) :
    List String → Script P (List (String × Stored P))
  | [] => pure []
  | messageId :: rest => do
    let payload ← claimOne queueKey queueItemsKey inflightKey inflightDataKey queueId deadline
      messageId
    let results ← claimLoop queueKey queueItemsKey inflightKey inflightDataKey queueId deadline rest
    pure ((payload.map fun p => (messageId, p)).toList ++ results)

/-- Lua `claimMessageBatch`。 -/
def claimMessageBatchLua (queueKey : Key .zset) (queueItemsKey : Key .hash)
    (inflightKey : Key .zset) (inflightDataKey : Key .hash) (queueId : String) (deadline : ℚ)
    (maxCount : Int) : Script P (List (String × Stored P)) := do
  let items ← zrange queueKey (maxCount - 1)
  claimLoop queueKey queueItemsKey inflightKey inflightDataKey queueId deadline items

/-! ## release -/

/-- 一件を in-flight から queue へ戻す。 -/
def releaseOne (inflightKey : Key .zset) (inflightDataKey : Key .hash) (queueKey : Key .zset)
    (queueItemsKey : Key .hash) (member messageId : String) (score : ℚ) : Script P Nat := do
  let payload ← hget inflightDataKey messageId
  match payload with
  | none => pure 0
  | some payload => do
    zrem inflightKey member
    hdel inflightDataKey messageId
    zadd queueKey score messageId
    hset queueItemsKey messageId payload
    pure 1

/-- Lua `releaseMessage`。 -/
def releaseMessageLua (inflightKey : Key .zset) (inflightDataKey : Key .hash)
    (queueKey : Key .zset) (queueItemsKey : Key .hash) (masterQueueKey : Key .zset)
    (member messageId : String) (score : ℚ) (queueId : String) : Script P Nat := do
  let released ← releaseOne inflightKey inflightDataKey queueKey queueItemsKey member messageId
    score
  if released = 0 then pure 0
  else do
    updateMasterQueue masterQueueKey queueKey queueId
    pure 1

/-- Lua `releaseMessageBatch` の `for`。 -/
def releaseLoop (inflightKey : Key .zset) (inflightDataKey : Key .hash) (queueKey : Key .zset)
    (queueItemsKey : Key .hash) (score : ℚ) : List (String × String) → Script P Nat
  | [] => pure 0
  | (member, messageId) :: rest => do
    let released ← releaseOne inflightKey inflightDataKey queueKey queueItemsKey member messageId
      score
    let count ← releaseLoop inflightKey inflightDataKey queueKey queueItemsKey score rest
    pure (released + count)

/-- Lua `releaseMessageBatch`。 -/
def releaseMessageBatchLua (inflightKey : Key .zset) (inflightDataKey : Key .hash)
    (queueKey : Key .zset) (queueItemsKey : Key .hash) (masterQueueKey : Key .zset) (score : ℚ)
    (queueId : String) (messages : List (String × String)) : Script P Nat := do
  let releasedCount ← releaseLoop inflightKey inflightDataKey queueKey queueItemsKey score messages
  if releasedCount = 0 then pure 0
  else do
    updateMasterQueue masterQueueKey queueKey queueId
    pure releasedCount

/-- Lua `heartbeatMessage`。 -/
def heartbeatMessageLua (inflightKey : Key .zset) (member : String) (newDeadline : ℚ) :
    Script P Nat := do
  let score ← zscore inflightKey member
  match score with
  | none => pure 0
  | some _ => do
    zadd inflightKey newDeadline member
    pure 1

end FairQueue
