import Trigger.FairQueue.Commands

/-!
# FairQueue の並行実行

`fair-queue/index.ts` の各 method は `await` のたびに中断し、ほかの consumer や worker の command が間に
入る。method の実行を、これから発行する Redis の command の列 `List (Op P)` として表す。一つの `Op` は一つの
command か一つの script であり、結果を見て次の `Op` を決める（`Op.prog`）。

状態 `System` は、Redis、各 instance の `queueDescriptorCache`、始まった method の残りの列、起きた事の記録
`history` から成る。`Label` は、method の呼び出しか、どれか一つの method を一 command だけ進めることである。
時刻は command を進めるたびに読み直し、単調とは限らない。
-/

namespace FairQueue

open Infra Infra.Keyspace
open Infra.Redis (ZSet)

variable {P : Type}

/-! ## 設定 -/

/-- `ConcurrencyGroupConfig`。上限は一定とする。 -/
structure ConcurrencyGroupConfig where
  name : String
  extractGroupId : QueueDescriptor → String
  getLimit : String → Nat
  defaultLimit : Nat

/-- `limit || group.defaultLimit`。 -/
def ConcurrencyGroupConfig.limit (group : ConcurrencyGroupConfig) (groupId : String) : Nat :=
  let limit := group.getLimit groupId
  if limit = 0 then group.defaultLimit else limit

/-- `FairQueueOptions` のうち、message の流れを決めるもの。`shardOf` は `jumpHash(queueId, shardCount)`、
`getNextDelay` は `retryStrategy` の method で、`retry` の無い設定では `none`。 -/
structure FairQueueOptions (P : Type) where
  keys : KeyProducer
  shardOf : String → Nat
  concurrencyGroups : List ConcurrencyGroupConfig := []
  getNextDelay : Option (Nat → Option String → Option ℚ) := none
  deadLetterQueue : Bool := true
  visibilityTimeoutMs : ℚ := 30000
  heartbeatIntervalMs : ℚ := 10000
  batchClaimSize : Nat := 10
  resolveWorkerQueue : StoredMessage P → String

namespace FairQueueOptions

variable (options : FairQueueOptions P)

/-- group の集合の key。 -/
def concurrencyKey (group : ConcurrencyGroupConfig) (queue : QueueDescriptor) : Key .set :=
  .concurrency (options.keys.concurrencyGroup group.name (group.extractGroupId queue))

/-- `reserve` の `groupData`。 -/
def groupData (queue : QueueDescriptor) : List (Key .set × Nat) :=
  options.concurrencyGroups.map fun group =>
    (options.concurrencyKey group queue, group.limit (group.extractGroupId queue))

/-- `release` が message を除く集合。 -/
def groupKeys (queue : QueueDescriptor) : List (Key .set) :=
  options.concurrencyGroups.map fun group => options.concurrencyKey group queue

end FairQueueOptions

/-! ## concurrency の script -/

/-- Lua `reserveConcurrency` の一つ目の `for`。どの group にも空きがあるか。 -/
def checkCapacity : List (Key .set × Nat) → Script P Bool
  | [] => pure true
  | (key, limit) :: rest => do
    let current ← scard key
    if limit ≤ current then pure false else checkCapacity rest

/-- Lua `reserveConcurrency` の二つ目の `for`。 -/
def addToGroups (messageId : String) : List (Key .set) → Script P Unit
  | [] => pure ()
  | key :: rest => do
    sadd key messageId
    addToGroups messageId rest

/-- Lua `reserveConcurrency`。 -/
def reserveConcurrencyLua (groups : List (Key .set × Nat)) (messageId : String) :
    Script P Nat := do
  let allowed ← checkCapacity groups
  if allowed then do
    addToGroups messageId (groups.map Prod.fst)
    pure 1
  else pure 0

/-! ## 一つの command -/

/-- `#parseMember`。最初の `:` で分ける。 -/
def parseMember (member : String) : String × String :=
  (String.ofList (member.toList.takeWhile (· ≠ ':')),
    String.ofList ((member.toList.dropWhile (· ≠ ':')).drop 1))

/-- `JSON.parse` で読む message。 -/
def Stored.message? : Stored P → Option (StoredMessage P)
  | .message m => some m
  | .deadLetter _ | .number _ => none

/-- `#claimAndPushToWorkerQueue` の引数と、初めに決まる descriptor。 -/
structure ClaimCall where
  inst : Nat
  queueId : String
  shardId : Nat
  descriptor : QueueDescriptor
deriving DecidableEq

/-- in-flight の data を読んでから何をするか。 -/
inductive Purpose
  | complete
  | release
  | fail (error : Option String)
deriving DecidableEq

/-- これから発行する command。 -/
inductive Op (P : Type)
  | enqueueMessageAtomic (message : StoredMessage P)
  | enqueueBatchAtomic (queueId : String) (messages : List (StoredMessage P))
  | scard (call : ClaimCall) (key : Key .set) (limit : Nat) (rest : List (Key .set × Nat))
      (minCapacity : Option Nat)
  | claim (queueId : String) (timeoutMs : ℚ)
  | claimBatch (call : ClaimCall) (maxCount : Nat)
  | reserve (call : ClaimCall) (message : String × StoredMessage P)
      (rest : List (String × StoredMessage P))
  | push (call : ClaimCall) (message : String × StoredMessage P)
      (rest : List (String × StoredMessage P))
  | releaseBatch (call : ClaimCall) (messageIds : List String)
  | updateMasterQueueIfEmpty (inst shardId : Nat) (queueId : String)
  | getMessage (inst : Nat) (purpose : Purpose) (messageId queueId : String)
  | zremInflight (messageId queueId : String)
  | hdelInflightData (messageId queueId : String)
  | release (messageId queueId : String) (delay : ℚ)
  | hsetItems (queueId : String) (message : StoredMessage P)
  | zaddDeadLetter (tenantId messageId : String) (score : ℚ)
  | hsetDeadLetter (tenantId : String) (message : DeadLetterMessage P)
  | srem (key : Key .set) (messageId : String)
  | reclaimScan (shardId : Nat)
  | reclaimGet (shardId : Nat) (clock : ℚ) (member : String)
  | reclaim (shardId : Nat) (clock : ℚ) (member : String) (score : ℚ)
  | heartbeat (messageId queueId : String)
  | getDeadLetter (inst : Nat) (tenantId messageId : String)
  | zremDeadLetter (tenantId messageId : String)
  | hdelDeadLetter (tenantId messageId : String)

/-- command が起こした事。 -/
inductive Event
  | claimed (queueId : String) (messageIds : List String)
  | reserved (messageId : String) (descriptor : QueueDescriptor)
  | pushed (messageId : String)
  | completed (messageId queueId : String)
  | released (messageId queueId : String)
  | reclaimed (shardId : Nat) (member : String) (clock : ℚ) (released : Bool)
  | extended (shardId : Nat) (member : String) (deadline : ℚ)
deriving DecidableEq

/-- command の後で決まること。`front` は直ちに続き、`back` は残りの後に続く。 -/
structure Outcome (P : Type) where
  front : List (Op P) := []
  back : List (Op P) := []
  cache : Option (Nat × String × Option QueueDescriptor) := none
  event : Option Event := none

/-- instance ごとの `queueDescriptorCache`。 -/
abbrev Cache := Nat → String → Option QueueDescriptor

namespace FairQueueOptions

variable (options : FairQueueOptions P)

/-- `enqueue` が作る descriptor。 -/
def enqueueDescriptor (queueId tenantId : String) (metadata : Option Metadata) : QueueDescriptor :=
  { id := queueId, tenantId := tenantId, metadata := metadata.getD [] }

/-- `enqueue` が保存する message。 -/
def storedMessage (queueId tenantId messageId : String) (payload : P) (timestamp : ℚ)
    (metadata : Option Metadata) : StoredMessage P :=
  let message : StoredMessage P :=
    { id := messageId, queueId := queueId, tenantId := tenantId, payload := payload,
      timestamp := timestamp, attempt := 1, metadata := metadata }
  { message with workerQueue := some (options.resolveWorkerQueue message) }

/-- `completeMessage`・`releaseMessage`・`failMessage` が slot を返す先の descriptor。 -/
def releaseDescriptor (cache : Cache) (inst : Nat) (queueId : String)
    (message : StoredMessage P) : QueueDescriptor :=
  (cache inst queueId).getD
    { id := queueId, tenantId := message.tenantId, metadata := message.metadata.getD [] }

/-- `concurrencyManager.release`。group の集合から一つずつ除く。 -/
def releaseSlots (queue : QueueDescriptor) (messageId : String) : List (Op P) :=
  (options.groupKeys queue).map fun key => .srem key messageId

/-- `#claimAndPushToWorkerQueue` の `for`。 -/
def claimNext (call : ClaimCall) : List (String × StoredMessage P) → List (Op P)
  | [] => []
  | message :: rest =>
    if options.concurrencyGroups.isEmpty then [.push call message rest]
    else [.reserve call message rest]

/-- `#moveToDeadLetterQueue`。 -/
def moveToDeadLetterQueue (now : ℚ) (message : StoredMessage P) (error : Option String) :
    List (Op P) :=
  [Op.zremInflight message.id message.queueId, .hdelInflightData message.id message.queueId] ++
    if options.deadLetterQueue then
      [.zaddDeadLetter message.tenantId message.id now,
        .hsetDeadLetter message.tenantId
          { id := message.id, queueId := message.queueId, tenantId := message.tenantId,
            payload := message.payload, deadLetteredAt := now, attempts := message.attempt,
            lastError := error, originalTimestamp := message.timestamp }]
    else []

/-- `#handleMessageFailure`。 -/
def handleMessageFailure (now : ℚ) (queueId : String) (descriptor : QueueDescriptor)
    (message : StoredMessage P) (error : Option String) : List (Op P) :=
  match options.getNextDelay.bind fun next => next message.attempt error with
  | some delay =>
    [Op.release message.id queueId delay,
      .hsetItems queueId { message with attempt := message.attempt + 1 }] ++
      options.releaseSlots descriptor message.id
  | none =>
    options.moveToDeadLetterQueue now message error ++ options.releaseSlots descriptor message.id

/-- in-flight の data を読んだ後の command。 -/
def afterGet (cache : Cache) (now : ℚ) (inst : Nat) (messageId queueId : String)
    (stored : Option (StoredMessage P)) : Purpose → List (Op P)
  | .complete =>
    [Op.zremInflight messageId queueId, .hdelInflightData messageId queueId] ++
      (match stored with
        | some message =>
          options.releaseSlots (releaseDescriptor cache inst queueId message) messageId
        | none => []) ++
      [Op.updateMasterQueueIfEmpty inst (options.shardOf queueId) queueId]
  | .release =>
    .release messageId queueId 0 ::
      match stored with
      | some message =>
        options.releaseSlots (releaseDescriptor cache inst queueId message) messageId
      | none => []
  | .fail error =>
    match stored with
    | some message =>
      options.handleMessageFailure now queueId (releaseDescriptor cache inst queueId message)
        message error
    | none => []

/-- reclaim が slot を返す先の descriptor。data が無ければ queue id から tenant を取り出す。 -/
def reclaimDescriptor (queueId : String) : Option (StoredMessage P) → QueueDescriptor
  | some message =>
    { id := queueId, tenantId := message.tenantId, metadata := message.metadata.getD [] }
  | none =>
    { id := queueId, tenantId := options.keys.extractTenantId queueId, metadata := [] }

end FairQueueOptions

/-- 一つの command。`now` はこの command の前に読んだ時刻。 -/
def Op.prog (options : FairQueueOptions P) (cache : Cache) (now : ℚ) :
    Op P → Script P (Outcome P)
  | .enqueueMessageAtomic message => do
    let _ ← enqueueMessageAtomicLua (.queue message.queueId) (.queueItems message.queueId)
      (.masterQueue (options.shardOf message.queueId)) message.queueId message.id message.timestamp
      (.message message)
    pure {}
  | .enqueueBatchAtomic queueId messages => do
    let _ ← enqueueBatchAtomicLua (.queue queueId) (.queueItems queueId)
      (.masterQueue (options.shardOf queueId)) queueId
      (messages.map fun message => (message.id, message.timestamp, .message message))
    pure {}
  | .scard call key limit rest minCapacity => do
    let current ← Keyspace.scard key
    let available := limit - current
    let capacity := match minCapacity with
      | none => available
      | some least => min least available
    match rest with
    | (key', limit') :: rest' => pure { front := [.scard call key' limit' rest' (some capacity)] }
    | [] =>
      pure { front :=
        if capacity = 0 then [] else [.claimBatch call (min options.batchClaimSize capacity)] }
  | .claim queueId timeoutMs => do
    let claimed ← claimMessageLua (.queue queueId) (.queueItems queueId)
      (.inflight (options.shardOf queueId)) (.inflightData (options.shardOf queueId)) queueId
      (now + timeoutMs)
    pure { event := some (.claimed queueId (claimed.toList.map Prod.fst)) }
  | .claimBatch call maxCount => do
    let claimed ← claimMessageBatchLua (.queue call.queueId) (.queueItems call.queueId)
      (.inflight (options.shardOf call.queueId)) (.inflightData (options.shardOf call.queueId))
      call.queueId (now + options.visibilityTimeoutMs) maxCount
    let messages := claimed.filterMap fun m => m.2.message?.map fun message => (m.1, message)
    pure
      { front :=
          if messages.isEmpty then
            [.updateMasterQueueIfEmpty call.inst call.shardId call.queueId]
          else options.claimNext call messages
        event := some (.claimed call.queueId (claimed.map Prod.fst)) }
  | .reserve call message rest => do
    let reserved ← reserveConcurrencyLua (options.groupData call.descriptor) message.1
    pure
      { front :=
          if reserved = 1 then [.push call message rest]
          else [.releaseBatch call (message.1 :: rest.map Prod.fst)]
        event := if reserved = 1 then some (.reserved message.1 call.descriptor) else none }
  | .push call message rest => do
    rpush (.workerQueue (options.resolveWorkerQueue message.2)) (makeMember message.1 call.queueId)
    pure { front := options.claimNext call rest, event := some (.pushed message.1) }
  | .releaseBatch call messageIds => do
    let _ ← releaseMessageBatchLua (.inflight (options.shardOf call.queueId))
      (.inflightData (options.shardOf call.queueId)) (.queue call.queueId)
      (.queueItems call.queueId) (.masterQueue call.shardId) now call.queueId
      (messageIds.map fun m => (makeMember m call.queueId, m))
    pure {}
  | .updateMasterQueueIfEmpty inst shardId queueId => do
    let removed ← updateMasterQueueIfEmptyLua (.masterQueue shardId) (.queue queueId) queueId
    pure { cache := if removed = 1 then some (inst, queueId, none) else none }
  | .getMessage inst purpose messageId queueId => do
    let data ← hget (.inflightData (options.shardOf queueId)) messageId
    pure { front := options.afterGet cache now inst messageId queueId
            (data.bind Stored.message?) purpose }
  | .zremInflight messageId queueId => do
    zrem (.inflight (options.shardOf queueId)) (makeMember messageId queueId)
    pure { event := some (.completed messageId queueId) }
  | .hdelInflightData messageId queueId => do
    hdel (.inflightData (options.shardOf queueId)) messageId
    pure {}
  | .release messageId queueId delay => do
    let _ ← releaseMessageLua (.inflight (options.shardOf queueId))
      (.inflightData (options.shardOf queueId)) (.queue queueId) (.queueItems queueId)
      (.masterQueue (options.shardOf queueId)) (makeMember messageId queueId) messageId
      (now + delay) queueId
    pure { event := some (.released messageId queueId) }
  | .hsetItems queueId message => do
    hset (.queueItems queueId) message.id (.message message)
    pure {}
  | .zaddDeadLetter tenantId messageId score => do
    zadd (.deadLetterQueue tenantId) score messageId
    pure {}
  | .hsetDeadLetter tenantId message => do
    hset (.deadLetterQueueData tenantId) message.id (.deadLetter message)
    pure {}
  | .srem key messageId => do
    Keyspace.srem key messageId
    pure {}
  | .reclaimScan shardId => do
    let timedOut ← zrangeByScore (.inflight shardId) now 100
    pure { front := timedOut.map fun m => .reclaimGet shardId now m.1 }
  | .reclaimGet shardId clock member => do
    let m := parseMember member
    let data ← hget (.inflightData shardId) m.1
    let stored := data.bind Stored.message?
    pure { front := [.reclaim shardId clock member ((stored.map StoredMessage.timestamp).getD clock)]
           back := options.releaseSlots (options.reclaimDescriptor m.2 stored) m.1 }
  | .reclaim shardId clock member score => do
    let m := parseMember member
    let released ← releaseMessageLua (.inflight shardId) (.inflightData shardId) (.queue m.2)
      (.queueItems m.2) (.masterQueue (options.shardOf m.2)) member m.1 score m.2
    pure { event := some (.reclaimed shardId member clock (released = 1)) }
  | .heartbeat messageId queueId => do
    let deadline := now + options.heartbeatIntervalMs
    let extended ← heartbeatMessageLua (.inflight (options.shardOf queueId))
      (makeMember messageId queueId) deadline
    pure { event :=
      if extended = 1 then
        some (.extended (options.shardOf queueId) (makeMember messageId queueId) deadline)
      else none }
  | .getDeadLetter inst tenantId messageId => do
    let data ← hget (.deadLetterQueueData tenantId) messageId
    match data with
    | some (.deadLetter m) =>
      pure { front :=
              [.enqueueMessageAtomic
                (options.storedMessage m.queueId m.tenantId m.id m.payload now none),
                .zremDeadLetter tenantId messageId, .hdelDeadLetter tenantId messageId]
             cache := some (inst, m.queueId,
              some (FairQueueOptions.enqueueDescriptor m.queueId m.tenantId none)) }
    | _ => pure {}
  | .zremDeadLetter tenantId messageId => do
    zrem (.deadLetterQueue tenantId) messageId
    pure {}
  | .hdelDeadLetter tenantId messageId => do
    hdel (.deadLetterQueueData tenantId) messageId
    pure {}

/-- command が `ZRANGE queue 0 stop` で message を取る queue と `stop`。 -/
def Op.claimRange : Op P → Option (String × Int)
  | .claim queueId _ => some (queueId, 0)
  | .claimBatch call maxCount => some (call.queueId, maxCount - 1)
  | _ => none

/-! ## 全体の状態 -/

/-- `history` は、task の番号と、その command が起こした事。 -/
structure System (P : Type) where
  redis : Redis P
  cache : Cache
  tasks : List (List (Op P))
  history : List (Nat × Event)

/-- method の呼び出しか、`run`（task を一 command 進める）。 -/
inductive Label (P : Type)
  | enqueue (inst : Nat) (queueId tenantId messageId : String) (payload : P) (timestamp : ℚ)
      (metadata : Option Metadata)
  | enqueueBatch (inst : Nat) (queueId tenantId : String) (messages : List (String × P × ℚ))
      (metadata : Option Metadata)
  | claim (queueId : String) (timeoutMs : ℚ)
  | claimAndPush (inst : Nat) (queueId tenantId : String) (shardId : Nat)
  | message (inst : Nat) (purpose : Purpose) (messageId queueId : String)
  | heartbeat (messageId queueId : String)
  | reclaim (shardId : Nat)
  | redrive (inst : Nat) (tenantId messageId : String)
  | run (task : Nat) (now : ℚ)

/-- cache の一項目を書き換える。 -/
def Cache.set (cache : Cache) (inst : Nat) (queueId : String) (d : Option QueueDescriptor) : Cache :=
  Function.update cache inst (Function.update (cache inst) queueId d)

namespace System

variable (options : FairQueueOptions P) (s : System P)

/-- 何も始まっていない状態。 -/
def init : System P := { redis := Store.empty, cache := fun _ _ => none, tasks := [], history := [] }

/-- method を始める。 -/
def start (ops : List (Op P)) : System P := { s with tasks := s.tasks ++ [ops] }

/-- `enqueue` が cache に置く。 -/
def remember (inst : Nat) (d : QueueDescriptor) : System P :=
  { s with cache := s.cache.set inst d.id (some d) }

/-- `#claimAndPushToWorkerQueue` の初めの command。 -/
def claimStart (inst : Nat) (queueId tenantId : String) (shardId : Nat) : List (Op P) :=
  let call : ClaimCall :=
    { inst := inst, queueId := queueId, shardId := shardId
      descriptor := (s.cache inst queueId).getD
        { id := queueId, tenantId := tenantId, metadata := [] } }
  match options.groupData call.descriptor with
  | [] => [.claimBatch call options.batchClaimSize]
  | (key, limit) :: rest => [.scard call key limit rest none]

/-- 先頭の command を一つ進めた後。 -/
def advance (task : Nat) (now : ℚ) (op : Op P) (rest : List (Op P)) : System P :=
  let r := (op.prog options s.cache now).run s.redis
  { redis := r.2
    cache := match r.1.cache with
      | some (inst, queueId, d) => s.cache.set inst queueId d
      | none => s.cache
    tasks := s.tasks.set task (r.1.front ++ rest ++ r.1.back)
    history := s.history ++ (r.1.event.map fun event => (task, event)).toList }

def step : Label P → System P
  | .enqueue inst queueId tenantId messageId payload timestamp metadata =>
    (s.remember inst (FairQueueOptions.enqueueDescriptor queueId tenantId metadata)).start
      [.enqueueMessageAtomic
        (options.storedMessage queueId tenantId messageId payload timestamp metadata)]
  | .enqueueBatch inst queueId tenantId messages metadata =>
    (s.remember inst (FairQueueOptions.enqueueDescriptor queueId tenantId metadata)).start
      [.enqueueBatchAtomic queueId (messages.map fun m =>
        options.storedMessage queueId tenantId m.1 m.2.1 m.2.2 metadata)]
  | .claim queueId timeoutMs => s.start [.claim queueId timeoutMs]
  | .claimAndPush inst queueId tenantId shardId =>
    s.start (s.claimStart options inst queueId tenantId shardId)
  | .message inst purpose messageId queueId => s.start [.getMessage inst purpose messageId queueId]
  | .heartbeat messageId queueId => s.start [.heartbeat messageId queueId]
  | .reclaim shardId => s.start [.reclaimScan shardId]
  | .redrive inst tenantId messageId =>
    if options.deadLetterQueue then s.start [.getDeadLetter inst tenantId messageId] else s
  | .run task now =>
    match s.tasks[task]? with
    | some (op :: rest) => s.advance options task now op rest
    | _ => s

/-- 一歩で実行される command。 -/
def head? : Label P → Option (Op P)
  | .run task _ => s.tasks[task]?.bind List.head?
  | _ => none

/-- 始めから順に進めた状態。 -/
def exec (ls : List (Label P)) : System P := ls.foldl (step options) init

theorem exec_append (ls : List (Label P)) (l : Label P) :
    exec options (ls ++ [l]) = (exec options ls).step options l := by
  simp [exec]

/-- 状態 `s` から始まる実行の、どの一歩も条件 `C` を満たす。 -/
def Along (C : System P → Label P → Prop) : System P → List (Label P) → Prop
  | _, [] => True
  | s, l :: ls => C s l ∧ Along C (s.step options l) ls

instance decidableAlong (C : System P → Label P → Prop) [∀ s l, Decidable (C s l)] :
    ∀ (s : System P) (ls : List (Label P)), Decidable (Along options C s ls)
  | _, [] => inferInstanceAs (Decidable True)
  | s, l :: ls =>
    have := decidableAlong C (s.step options l) ls
    inferInstanceAs (Decidable (_ ∧ _))

variable {options}

theorem Along.take {C : System P → Label P → Prop} : ∀ {s : System P} {ls : List (Label P)} (n : Nat),
    Along options C s ls → Along options C s (ls.take n)
  | _, _, 0, _ => by simp [Along]
  | _, [], _ + 1, _ => trivial
  | _, _ :: _, n + 1, h => ⟨h.1, h.2.take n⟩

/-- 一歩ごとに保たれる性質は、実行の終わりでも成り立つ。 -/
theorem Along.invariant {C : System P → Label P → Prop} {I : System P → Prop}
    (hstep : ∀ s l, I s → C s l → I (s.step options l)) : ∀ {s : System P} {ls : List (Label P)},
    I s → Along options C s ls → I (ls.foldl (step options) s)
  | _, [], hs, _ => hs
  | s, l :: _, hs, h => Along.invariant (s := s.step options l) hstep (hstep s l hs h.1) h.2

end System

end FairQueue
