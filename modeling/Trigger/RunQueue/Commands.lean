import Mathlib.Data.Rat.Floor
import Trigger.Infra.Redis
import Trigger.RunQueue.Keys

/-!
# RunQueue の command

`run-queue/index.ts` の Lua script と、その key を計算する `#call…`。

Lua script は key と引数を受け取る関数として、`redis.call` の順のまま訳す。途中の `WRONGTYPE` は
script を止めるが、それまでの書き込みは残る。`#call…` は payload から key を作って script を呼ぶ。
-/

namespace RunQueue

open Infra.Text
open Infra.Redis

/-! ## payload と設定 -/

/-- `InputPayload`。 -/
structure InputPayload where
  runId : String
  taskIdentifier : String
  orgId : String
  projectId : String
  environmentId : String
  environmentType : EnvironmentType
  queue : String
  concurrencyKey : Option String
  timestamp : ℚ
  attempt : Nat
deriving DecidableEq

/-- payload の版。 -/
inductive PayloadVersion
  | v1 (masterQueues : List String)
  | v2 (workerQueue : String)
deriving DecidableEq

/-- `OutputPayload`。 -/
structure OutputPayload extends InputPayload where
  version : PayloadVersion
deriving DecidableEq

/-- 文字列型の key が持つ値。数（limit など）か、JSON にした payload である。 -/
inductive Stored
  | number (q : ℚ)
  | message (m : OutputPayload)
deriving DecidableEq

/-- Lua の `tonumber`。payload の JSON は数ではない。 -/
def Stored.toNumber : Stored → Option ℚ
  | .number q => some q
  | .message _ => none

abbrev State := Db Stored

/-- worker queue の上書き（`WorkerQueueOverrides`）。 -/
structure WorkerQueueOverrides where
  environmentId : String → Option String
  projectId : String → Option String
  orgId : String → Option String
  workerQueue : String → Option String

/-- `RunQueue` の設定。`shardOf` は `jumpHash(envId, shardCount)`、`mul` は倍精度の積である。 -/
structure Config where
  shardOf : String → Nat
  defaultEnvConcurrency : ℚ
  defaultEnvConcurrencyBurstFactor : Option ℚ
  mul : ℚ → ℚ → ℚ
  maxAttempts : Nat
  overrides : Option WorkerQueueOverrides

def Config.masterQueueKeyForEnvironment (cfg : Config) (envId : String) : String :=
  masterQueueKeyForShard (cfg.shardOf envId)

/-- 空文字列は偽として読み飛ばされる。 -/
def truthy (o : Option String) : Option String := o.filter (· ≠ "")

/-- `#getOverride`。環境、project、organization、worker queue の順に見る。 -/
def getOverride (o : WorkerQueueOverrides) (m : OutputPayload) (workerQueue : String) :
    Option String :=
  truthy (o.environmentId m.environmentId) <|> truthy (o.projectId m.projectId)
    <|> truthy (o.orgId m.orgId) <|> truthy (o.workerQueue workerQueue)

/-- `getWorkerQueueFromMessage`。`v1` で `masterQueues` が空なら `undefined` になる。 -/
def Config.getWorkerQueueFromMessage (cfg : Config) (m : OutputPayload) : String :=
  match m.version with
  | .v2 workerQueue => ((cfg.overrides.bind fun o => getOverride o m workerQueue)).getD workerQueue
  | .v1 masterQueues =>
    if m.environmentType = .development then m.environmentId
    else masterQueues.head?.getD "undefined"

/-! ## Lua script -/

/-- 例外。 -/
def raise {α : Type} (message : String) : Script Stored α := Script.fail (.script message)

/-- 五つの script に共通の、親の queue の調整。 -/
def rebalance (masterQueueKey queueKey queueName : String) : Script Stored Unit := do
  let earliestMessage ← zfirst queueKey
  match earliestMessage with
  | none =>
    let _ ← zrem masterQueueKey queueName
    pure ()
  | some (_, score) => zadd masterQueueKey score queueName

/-- `SREM` の四つ組。 -/
def removeConcurrency (queueCurrentConcurrencyKey envCurrentConcurrencyKey queueCurrentDequeuedKey
    envCurrentDequeuedKey messageId : String) : Script Stored Unit := do
  srem queueCurrentConcurrencyKey messageId
  srem envCurrentConcurrencyKey messageId
  srem queueCurrentDequeuedKey messageId
  srem envCurrentDequeuedKey messageId

/-- Lua `enqueueMessage`。 -/
def enqueueMessageLua (masterQueueKey queueKey messageKey queueCurrentConcurrencyKey
    envCurrentConcurrencyKey queueCurrentDequeuedKey envCurrentDequeuedKey envQueueKey
    queueName messageId : String) (messageData : OutputPayload) (messageScore : ℚ) :
    Script Stored Unit := do
  set messageKey (.message messageData)
  zadd queueKey messageScore messageId
  zadd envQueueKey messageScore messageId
  rebalance masterQueueKey queueKey queueName
  removeConcurrency queueCurrentConcurrencyKey envCurrentConcurrencyKey queueCurrentDequeuedKey
    envCurrentDequeuedKey messageId

/-- 取り出した一件。 -/
structure DequeuedEntry where
  messageId : String
  messageScore : ℚ
  messagePayload : Stored
deriving DecidableEq

/-- Lua `dequeueMessagesFromQueue` の `for`。payload の無い id は飛ばされ、queue に残る。 -/
def dequeueLoop (queueKey envQueueKey queueCurrentConcurrencyKey envCurrentConcurrencyKey
    messageKeyPrefix : String) : List (String × ℚ) → Script Stored (List DequeuedEntry)
  | [] => pure []
  | (messageId, messageScore) :: messages => do
    let messagePayload ← get (messageKeyPrefix ++ messageId)
    match messagePayload with
    | none =>
      dequeueLoop queueKey envQueueKey queueCurrentConcurrencyKey envCurrentConcurrencyKey
        messageKeyPrefix messages
    | some payload =>
      let _ ← zrem queueKey messageId
      let _ ← zrem envQueueKey messageId
      sadd queueCurrentConcurrencyKey messageId
      sadd envCurrentConcurrencyKey messageId
      let results ← dequeueLoop queueKey envQueueKey queueCurrentConcurrencyKey
        envCurrentConcurrencyKey messageKeyPrefix messages
      pure (⟨messageId, messageScore, payload⟩ :: results)

/-- `tonumber(redis.call('GET', key) or default)`。 -/
def getNumberOr (key : String) (default : ℚ) : Script Stored (Option ℚ) := do
  let value ← get key
  match value with
  | none => pure (some default)
  | some v => pure v.toNumber

/-- Lua `dequeueMessagesFromQueue`。取り出すものが無ければ `nil` を返す。 -/
def dequeueMessagesFromQueueLua (mul : ℚ → ℚ → ℚ) (queueKey queueConcurrencyLimitKey
    envConcurrencyLimitKey envConcurrencyLimitBurstFactorKey queueCurrentConcurrencyKey
    envCurrentConcurrencyKey messageKeyPrefix envQueueKey masterQueueKey queueName : String)
    (currentTime defaultEnvConcurrencyLimit defaultEnvConcurrencyBurstFactor maxCount : ℚ) :
    Script Stored (Option (List DequeuedEntry)) := do
  let envCurrentConcurrency ← scard envCurrentConcurrencyKey
  let envConcurrencyLimit? ← getNumberOr envConcurrencyLimitKey defaultEnvConcurrencyLimit
  let envConcurrencyLimitBurstFactor? ←
    getNumberOr envConcurrencyLimitBurstFactorKey defaultEnvConcurrencyBurstFactor
  match envConcurrencyLimit?, envConcurrencyLimitBurstFactor? with
  | some envConcurrencyLimit, some envConcurrencyLimitBurstFactor =>
    let envConcurrencyLimitWithBurstFactor : Int :=
      ⌊mul envConcurrencyLimit envConcurrencyLimitBurstFactor⌋
    if envConcurrencyLimitWithBurstFactor ≤ (envCurrentConcurrency : Int) then pure none
    else do
      let queueCurrentConcurrency ← scard queueCurrentConcurrencyKey
      let queueLimit? ← getNumberOr queueConcurrencyLimitKey 1000000
      match queueLimit? with
      | some queueLimit =>
        let totalQueueConcurrencyLimit := min queueLimit envConcurrencyLimit
        if totalQueueConcurrencyLimit ≤ (queueCurrentConcurrency : ℚ) then pure none
        else do
          let envAvailableCapacity : ℚ :=
            (envConcurrencyLimitWithBurstFactor - (envCurrentConcurrency : Int) : Int)
          let queueAvailableCapacity := totalQueueConcurrencyLimit - queueCurrentConcurrency
          let actualMaxCount := min maxCount (min envAvailableCapacity queueAvailableCapacity)
          if actualMaxCount ≤ 0 then pure none
          else do
            let messages ← zrangebyscore queueKey currentTime actualMaxCount
            if messages = [] then pure none
            else do
              let results ← dequeueLoop queueKey envQueueKey queueCurrentConcurrencyKey
                envCurrentConcurrencyKey messageKeyPrefix messages
              rebalance masterQueueKey queueKey queueName
              pure (some results)
      | none => raise "bad argument #1 to 'min' (number expected, got nil)"
  | _, _ => raise "attempt to perform arithmetic on a nil value"

/-- Lua `dequeueMessageFromKey`。`(.+):queue:` の照合は貪欲なので、最後の `:queue:` で切る。 -/
def dequeueMessageFromKeyLua (messageKey : String) : Script Stored (Option Stored) := do
  let message ← get messageKey
  match message with
  | none => pure none
  | some (.number _) => raise "attempt to index local 'messageData' (a number value)"
  | some (.message messageData) =>
    match beforeLast ":queue:".toList messageData.queue.toList with
    | none => raise "attempt to concatenate a nil value"
    | some env => do
      sadd (messageData.queue ++ ":currentDequeued") messageData.runId
      sadd (String.ofList env ++ ":currentDequeued") messageData.runId
      pure (some (.message messageData))

/-- Lua `dequeueMessageFromWorkerQueueNonBlocking`。 -/
def dequeueMessageFromWorkerQueueNonBlockingLua (workerQueueKey : String) :
    Script Stored (Option (String × Nat)) := do
  let messageId ← lpop workerQueueKey
  match messageId with
  | none => pure none
  | some messageId =>
    let queueLength ← llen workerQueueKey
    pure (some (messageId, queueLength))

/-- Lua `acknowledgeMessage`。 -/
def acknowledgeMessageLua (masterQueueKey messageKey messageQueueKey queueCurrentConcurrencyKey
    envCurrentConcurrencyKey queueCurrentDequeuedKey envCurrentDequeuedKey envQueueKey
    workerQueueKey messageId messageQueueName messageKeyValue : String)
    (removeFromWorkerQueue : Bool) : Script Stored Unit := do
  del messageKey
  let _ ← zrem messageQueueKey messageId
  let _ ← zrem envQueueKey messageId
  rebalance masterQueueKey messageQueueKey messageQueueName
  removeConcurrency queueCurrentConcurrencyKey envCurrentConcurrencyKey queueCurrentDequeuedKey
    envCurrentDequeuedKey messageId
  if removeFromWorkerQueue then lrem workerQueueKey messageKeyValue else pure ()

/-- Lua `nackMessage`。 -/
def nackMessageLua (masterQueueKey messageKey messageQueueKey queueCurrentConcurrencyKey
    envCurrentConcurrencyKey queueCurrentDequeuedKey envCurrentDequeuedKey envQueueKey
    messageId messageQueueName : String) (messageData : OutputPayload) (messageScore : ℚ) :
    Script Stored Unit := do
  set messageKey (.message messageData)
  removeConcurrency queueCurrentConcurrencyKey envCurrentConcurrencyKey queueCurrentDequeuedKey
    envCurrentDequeuedKey messageId
  zadd messageQueueKey messageScore messageId
  zadd envQueueKey messageScore messageId
  rebalance masterQueueKey messageQueueKey messageQueueName

/-- Lua `moveToDeadLetterQueue`。`now` は `TIME` が返す秒。 -/
def moveToDeadLetterQueueLua (masterQueueKey messageQueue queueCurrentConcurrencyKey
    envCurrentConcurrencyKey queueCurrentDequeuedKey envCurrentDequeuedKey envQueueKey
    deadLetterQueueKey messageId messageQueueName : String) (now : ℚ) : Script Stored Unit := do
  let _ ← zrem messageQueue messageId
  let _ ← zrem envQueueKey messageId
  rebalance masterQueueKey messageQueue messageQueueName
  zadd deadLetterQueueKey now messageId
  removeConcurrency queueCurrentConcurrencyKey envCurrentConcurrencyKey queueCurrentDequeuedKey
    envCurrentDequeuedKey messageId

/-- Lua `releaseConcurrency` と `clearMessageFromConcurrencySets`（本文は同じ）。 -/
def releaseConcurrencyLua (queueCurrentConcurrencyKey envCurrentConcurrencyKey
    queueCurrentDequeuedKey envCurrentDequeuedKey messageId : String) : Script Stored Unit :=
  removeConcurrency queueCurrentConcurrencyKey envCurrentConcurrencyKey queueCurrentDequeuedKey
    envCurrentDequeuedKey messageId

/-- Lua `updateEnvironmentConcurrencyLimits`。 -/
def updateEnvironmentConcurrencyLimitsLua (envConcurrencyLimitKey
    envConcurrencyLimitBurstFactorKey : String) (envConcurrencyLimit
    envConcurrencyLimitBurstFactor : ℚ) : Script Stored Unit := do
  set envConcurrencyLimitKey (.number envConcurrencyLimit)
  set envConcurrencyLimitBurstFactorKey (.number envConcurrencyLimitBurstFactor)

/-- Lua `migrateLegacyMasterQueues`。 -/
def migrateLegacyMasterQueuesLua (masterQueueKey : String) : List String → Script Stored Unit
  | [] => pure ()
  | queueName :: rest => do
    rebalance masterQueueKey queueName queueName
    migrateLegacyMasterQueuesLua masterQueueKey rest

/-- 並んだ要素を順に `ZREM` する。 -/
def zremAll (k : String) : List String → Script Stored Unit
  | [] => pure ()
  | m :: rest => do
    let _ ← zrem k m
    zremAll k rest

/-- Lua `markCompletedRunsForAck`。引数は organization と message の id の対である。 -/
def markCompletedRunsForAckLua (markedForAckKey : String) (currentTime : ℚ) :
    List (String × String) → Script Stored Unit
  | [] => pure ()
  | (orgId, messageId) :: rest => do
    zadd markedForAckKey currentTime (orgId ++ ":" ++ messageId)
    markCompletedRunsForAckLua markedForAckKey currentTime rest

/-- 最初の `:` で二つに分ける。 -/
def splitFirstColon (s : String) : Option (String × String) :=
  match s.toList.span (· ≠ ':') with
  | (_, []) => none
  | (a, _ :: b) => some (String.ofList a, String.ofList b)

/-- Lua `getMarkedRunsForAck`。読めた行があれば、`:` の無いものも含めて取り除く。 -/
def getMarkedRunsForAckLua (markedForAckKey : String) (maxCount : Int) :
    Script Stored (List (String × String × ℚ)) := do
  let markedRuns ← zrange markedForAckKey (maxCount - 1)
  let results := markedRuns.filterMap fun e =>
    (splitFirstColon e.1).map fun p => (p.1, p.2, e.2)
  if results = [] then pure results
  else do
    zremAll markedForAckKey (markedRuns.map Prod.fst)
    pure results

/-! ## key を計算して script を呼ぶ -/

/-- 例外を投げうる key の計算。 -/
def key (k : Option String) : Script Stored String :=
  match k with
  | some k => pure k
  | none => raise "Cannot read properties of undefined (reading 'replace')"

theorem key_some (k : String) : key (some k) = (pure k : Script Stored String) := rfl

theorem pure_script_bind {α β : Type} (a : α) (f : α → Script Stored β) : pure a >>= f = f a := rfl

namespace Config

variable (cfg : Config)

/-- `#callEnqueueMessage`。 -/
def callEnqueueMessage (message : OutputPayload) : Script Stored Unit := do
  let envCurrentConcurrencyKey ← key (envCurrentConcurrencyKeyFromQueue message.queue)
  let envCurrentDequeuedKey ← key (envCurrentDequeuedKeyFromQueue message.queue)
  let envQueueKey ← key (envQueueKeyFromQueue message.queue)
  enqueueMessageLua (cfg.masterQueueKeyForEnvironment message.environmentId) message.queue
    (messageKey message.orgId message.runId) (queueCurrentConcurrencyKeyFromQueue message.queue)
    envCurrentConcurrencyKey (queueCurrentDequeuedKeyFromQueue message.queue) envCurrentDequeuedKey
    envQueueKey message.queue message.runId message message.timestamp

/-- `#callDequeueMessagesFromQueue` が呼ぶ script。payload の検査は script の外で行われる。 -/
def callDequeueMessagesFromQueue (messageQueue : String) (shard : Nat) (currentTime maxCount : ℚ) :
    Script Stored (Option (List DequeuedEntry)) := do
  let envConcurrencyLimitKey ← key (envConcurrencyLimitKeyFromQueue messageQueue)
  let envConcurrencyLimitBurstFactorKey ←
    key (envConcurrencyLimitBurstFactorKeyFromQueue messageQueue)
  let envCurrentConcurrencyKey ← key (envCurrentConcurrencyKeyFromQueue messageQueue)
  let messageKeyPrefix ← key (messageKeyPrefixFromQueue messageQueue)
  let envQueueKey ← key (envQueueKeyFromQueue messageQueue)
  dequeueMessagesFromQueueLua cfg.mul messageQueue (queueConcurrencyLimitKeyFromQueue messageQueue)
    envConcurrencyLimitKey envConcurrencyLimitBurstFactorKey
    (queueCurrentConcurrencyKeyFromQueue messageQueue) envCurrentConcurrencyKey messageKeyPrefix
    envQueueKey (masterQueueKeyForShard shard) messageQueue currentTime cfg.defaultEnvConcurrency
    (cfg.defaultEnvConcurrencyBurstFactor.getD 1) maxCount

/-- `#callAcknowledgeMessage`。 -/
def callAcknowledgeMessage (message : OutputPayload) (removeFromWorkerQueue : Bool) :
    Script Stored Unit := do
  let envCurrentConcurrencyKey ← key (envCurrentConcurrencyKeyFromQueue message.queue)
  let envCurrentDequeuedKey ← key (envCurrentDequeuedKeyFromQueue message.queue)
  let envQueueKey ← key (envQueueKeyFromQueue message.queue)
  acknowledgeMessageLua (cfg.masterQueueKeyForEnvironment message.environmentId)
    (messageKey message.orgId message.runId) message.queue
    (queueCurrentConcurrencyKeyFromQueue message.queue) envCurrentConcurrencyKey
    (queueCurrentDequeuedKeyFromQueue message.queue) envCurrentDequeuedKey envQueueKey
    (workerQueueKey (cfg.getWorkerQueueFromMessage message)) message.runId message.queue
    (messageKey message.orgId message.runId) removeFromWorkerQueue

/-- `#callNackMessage`。`messageScore` は `retryAt`、または現在時刻に再試行の遅延を足したもの。 -/
def callNackMessage (message : OutputPayload) (messageScore : ℚ) : Script Stored Unit := do
  let envCurrentConcurrencyKey ← key (envCurrentConcurrencyKeyFromQueue message.queue)
  let envCurrentDequeuedKey ← key (envCurrentDequeuedKeyFromQueue message.queue)
  let envQueueKey ← key (envQueueKeyFromQueue message.queue)
  nackMessageLua (cfg.masterQueueKeyForEnvironment message.environmentId)
    (messageKey message.orgId message.runId) message.queue
    (queueCurrentConcurrencyKeyFromQueue message.queue) envCurrentConcurrencyKey
    (queueCurrentDequeuedKeyFromQueue message.queue) envCurrentDequeuedKey envQueueKey
    message.runId message.queue message messageScore

/-- `#callMoveToDeadLetterQueue`。 -/
def callMoveToDeadLetterQueue (message : OutputPayload) (now : ℚ) : Script Stored Unit := do
  let envCurrentConcurrencyKey ← key (envCurrentConcurrencyKeyFromQueue message.queue)
  let envCurrentDequeuedKey ← key (envCurrentDequeuedKeyFromQueue message.queue)
  let envQueueKey ← key (envQueueKeyFromQueue message.queue)
  let deadLetterQueueKey ← key (deadLetterQueueKeyFromQueue message.queue)
  moveToDeadLetterQueueLua (cfg.masterQueueKeyForEnvironment message.environmentId) message.queue
    (queueCurrentConcurrencyKeyFromQueue message.queue) envCurrentConcurrencyKey
    (queueCurrentDequeuedKeyFromQueue message.queue) envCurrentDequeuedKey envQueueKey
    deadLetterQueueKey message.runId message.queue now

end Config

/-- `releaseAllConcurrency` が、読んだ payload で呼ぶ script。 -/
def callReleaseConcurrency (message : OutputPayload) : Script Stored Unit := do
  let envCurrentConcurrencyKey ← key (envCurrentConcurrencyKeyFromQueue message.queue)
  let envCurrentDequeuedKey ← key (envCurrentDequeuedKeyFromQueue message.queue)
  releaseConcurrencyLua (queueCurrentConcurrencyKeyFromQueue message.queue)
    envCurrentConcurrencyKey (queueCurrentDequeuedKeyFromQueue message.queue)
    envCurrentDequeuedKey message.runId

/-- `#callClearMessageFromConcurrencySets`。concurrency key は渡されない。 -/
def callClearMessageFromConcurrencySets (runId queue : String) (env : EnvDescriptor) :
    Script Stored Unit :=
  releaseConcurrencyLua (queueCurrentConcurrencyKey env queue none) (envCurrentConcurrencyKey env)
    (queueCurrentDequeuedKey env queue none) (envCurrentDequeuedKey env) runId

/-! ## 公開の操作 -/

/-- `enqueueMessage` が保存する payload。queue 名は queue key に置き換わる。 -/
def enqueuePayload (env : Environment) (message : InputPayload) (workerQueue : String) :
    OutputPayload :=
  { message with
    queue := queueKey env.descriptor message.queue message.concurrencyKey
    attempt := 0
    version := .v2 workerQueue }

/-- `enqueueMessage`。 -/
def Config.enqueueMessage (cfg : Config) (env : Environment) (message : InputPayload)
    (workerQueue : String) : Script Stored Unit :=
  cfg.callEnqueueMessage (enqueuePayload env message workerQueue)

/-- `readMessage`。payload として読めない値もそのまま返されるので、数なら `0` のときだけ
「無い」ことになり、他は worker queue を求めるところで例外になる。 -/
def readMessage (orgId messageId : String) : Script Stored (Option OutputPayload) := do
  let rawMessage ← get (messageKey orgId messageId)
  match rawMessage with
  | none => pure none
  | some (.message m) => pure (some m)
  | some (.number q) =>
    if q = 0 then pure none else raise "Cannot read properties of undefined (reading '0')"

/-- `acknowledgeMessage`。 -/
def Config.acknowledgeMessage (cfg : Config) (orgId messageId : String)
    (removeFromWorkerQueue : Bool) : Script Stored Unit := do
  let message ← readMessage orgId messageId
  match message with
  | none => pure ()
  | some m => cfg.callAcknowledgeMessage m removeFromWorkerQueue

/-- `nackMessage`。試行回数が上限に達すれば dead letter queue に移し、`false` を返す。 -/
def Config.nackMessage (cfg : Config) (orgId messageId : String) (incrementAttemptCount : Bool)
    (messageScore now : ℚ) : Script Stored (Option Bool) := do
  let message ← readMessage orgId messageId
  match message with
  | none => pure none
  | some m =>
    let m := if incrementAttemptCount then { m with attempt := m.attempt + 1 } else m
    if incrementAttemptCount && cfg.maxAttempts ≤ m.attempt then do
      cfg.callMoveToDeadLetterQueue m now
      pure (some false)
    else do
      cfg.callNackMessage m messageScore
      pure (some true)

/-- `releaseAllConcurrency`。 -/
def releaseAllConcurrency (orgId messageId : String) : Script Stored Unit := do
  let message ← readMessage orgId messageId
  match message with
  | none => pure ()
  | some m => callReleaseConcurrency m

/-- `updateQueueConcurrencyLimits`。 -/
def updateQueueConcurrencyLimits (env : Environment) (queue : String) (concurrency : ℚ) :
    Script Stored Unit :=
  set (queueConcurrencyLimitKey env.descriptor queue) (.number concurrency)

/-- `removeQueueConcurrencyLimits`。 -/
def removeQueueConcurrencyLimits (env : Environment) (queue : String) : Script Stored Unit :=
  del (queueConcurrencyLimitKey env.descriptor queue)

/-- `updateEnvConcurrencyLimits`。 -/
def updateEnvConcurrencyLimits (env : Environment) : Script Stored Unit :=
  updateEnvironmentConcurrencyLimitsLua (envConcurrencyLimitKey env.descriptor)
    (envConcurrencyLimitBurstFactorKey env.descriptor) env.maximumConcurrencyLimit
    env.concurrencyLimitBurstFactor

/-- `handleRedriveMessage`。読んだ payload の `queue` を queue 名として `enqueueMessage` に渡す。
例外は握りつぶされ、DLQ からの除去は最後に行われる。 -/
def Config.handleRedriveMessage (cfg : Config) (runId envId projectId orgId : String) :
    Script Stored Unit := do
  let data ← readMessage orgId runId
  match data with
  | none => pure ()
  | some data => do
    let env : Environment :=
      { id := data.environmentId
        type := data.environmentType
        projectId := data.projectId
        organizationId := data.orgId
        maximumConcurrencyLimit := -1
        concurrencyLimitBurstFactor := 1 }
    cfg.enqueueMessage env { data.toInputPayload with attempt := 0 }
      (cfg.getWorkerQueueFromMessage data)
    let _ ← zrem (deadLetterQueueKey ⟨orgId, projectId, envId⟩) runId
    pure ()

end RunQueue
