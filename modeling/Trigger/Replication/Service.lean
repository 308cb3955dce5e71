import Trigger.Infra.Record
import Trigger.Replication.Rows

/-!
# RunsReplicationService

`runsReplicationService.server.ts` の `RunsReplicationService` と `ConcurrentFlushScheduler`。

replication の message・timer・ClickHouse への挿入の完了を、それぞれ一つの label とする状態機械である。
`log`・`acknowledged`・`written`・`lost` は、code が残さない記録（commit された変更、渡した LSN、`task_runs` に
挿入された batch、諦めた挿入）である。
停止（`shutdown`）と計測は含めない。
-/

namespace Replication

open Infra

variable {J : Type}

/-! ## 状態 -/

/-- `TransactionEvent`。 -/
structure TransactionEvent (J : Type) where
  tag : Tag
  data : PostgresTaskRun J

/-- `#flushBatch` の進み具合。`attempt` は挿入を試みている回数である。 -/
inductive FlushPhase
  /-- limiter の待ち行列にいる。 -/
  | waiting
  | taskRuns (attempt : Nat)
  | payloads (attempt : Nat) (taskRunsInserted : Bool)
deriving DecidableEq

/-- 取り出された batch。 -/
structure Flush (J : Type) where
  batch : List (TaskRunInsert J)
  phase : FlushPhase

/-- サービスと ClickHouse の状態。 -/
structure ServiceState (J : Type) where
  currentTransaction : Option (List (TransactionEvent J)) := none
  latestCommitEndLsn : Option Lsn := none
  lastAcknowledgedLsn : Option String := none
  lastAcknowledgedAt : Option Int := none
  /-- `ConcurrentFlushScheduler.batch`。 -/
  batch : JsMap (TaskRunInsert J) := []
  flushes : List (Flush J) := []
  /-- 挿入された `task_runs` の block。 -/
  taskRuns : List (List (TaskRunRow J)) := []
  payloads : List (PayloadRow J) := []
  /-- commit された変更。LSN の順、同じ LSN では届いた順である。 -/
  log : List (TaskRunInsert J) := []
  written : List (List (TaskRunInsert J)) := []
  acknowledged : List Lsn := []
  lost : List (TaskRunInsert J) := []

/-! ## ConcurrentFlushScheduler -/

/-- `getKey`。id の無い変更は読み飛ばされる。 -/
def getKey (item : TaskRunInsert J) : Option String :=
  if item.run.id = "" then none else some (item.event.text ++ "_" ++ item.run.id)

/-- `shouldReplace`。 -/
def shouldReplace (existing incoming : TaskRunInsert J) : Bool :=
  decide (existing.version ≤ incoming.version)

/-- `addToBatch` のループの一回。 -/
def addItem (batch : JsMap (TaskRunInsert J)) (item : TaskRunInsert J) : JsMap (TaskRunInsert J) :=
  match getKey item with
  | none => batch
  | some key =>
    match batch.get key with
    | none => batch.set key item
    | some existing => if shouldReplace existing item then batch.set key item else batch

/-- `#flushNextBatch`。 -/
def flushNextBatch (s : ServiceState J) : ServiceState J :=
  if s.batch = [] then s
  else { s with batch := [], flushes := s.flushes ++ [⟨s.batch.map Prod.snd, .waiting⟩] }

/-- `addToBatch`。 -/
def addToBatch (o : Options J) (items : List (TaskRunInsert J)) (s : ServiceState J) :
    ServiceState J :=
  let s := { s with batch := items.foldl addItem s.batch }
  if o.flushBatchSize ≤ s.batch.length then flushNextBatch s else s

/-! ## message -/

/-- `#handleTransaction` が batch に加える変更。 -/
def itemsOf (commitEndLsn : Lsn) (events : List (TransactionEvent J)) : List (TaskRunInsert J) :=
  events.map fun e => ⟨lsnToUInt64 commitEndLsn, e.data, e.tag⟩

/-- 変更を記録の LSN の順の位置に加える。 -/
def record (lsn : Lsn) (items log : List (TaskRunInsert J)) : List (TaskRunInsert J) :=
  log.takeWhile (·.version ≤ lsnToUInt64 lsn) ++ items ++
    log.dropWhile (·.version ≤ lsnToUInt64 lsn)

/-- `#handleTransaction`。 -/
def handleTransaction (o : Options J) (events : List (TransactionEvent J)) (commitEndLsn : Option Lsn)
    (s : ServiceState J) : ServiceState J :=
  match events, commitEndLsn with
  | [], _ => s
  | _, none => s
  | events, some lsn =>
    addToBatch o (itemsOf lsn events) { s with log := record lsn (itemsOf lsn events) s.log }

/-- `insert`・`update`・`delete` の message。transaction の外では無視される。 -/
def handleChange (tag : Tag) (run : PostgresTaskRun J) (s : ServiceState J) : ServiceState J :=
  { s with currentTransaction := s.currentTransaction.map (· ++ [⟨tag, run⟩]) }

/-- `commit` の message。 -/
def handleCommit (o : Options J) (commitEndLsn : Option Lsn) (s : ServiceState J) : ServiceState J :=
  match s.currentTransaction with
  | none => s
  | some events =>
    handleTransaction o events commitEndLsn
      { s with currentTransaction := none
               latestCommitEndLsn := commitEndLsn.or s.latestCommitEndLsn }

/-- keepalive の message。 -/
def handleHeartbeat (lsn : Lsn) (shouldRespond : Bool) (s : ServiceState J) : ServiceState J :=
  if shouldRespond then
    { s with lastAcknowledgedLsn := some lsn.plain, acknowledged := s.acknowledged ++ [lsn] }
  else s

/-- `#acknowledgeLatestTransaction` が渡す LSN。 -/
def acknowledgeable (o : Options J) (now : Int) (s : ServiceState J) : Option Lsn :=
  match s.latestCommitEndLsn with
  | none => none
  | some lsn =>
    if s.lastAcknowledgedLsn = some lsn.padded then none
    else if (s.lastAcknowledgedAt.any fun t => t ≠ 0 ∧ now - t < o.acknowledgeTimeoutMs) then none
    else some lsn

/-- `#acknowledgeLatestTransaction`。 -/
def acknowledgeLatestTransaction (o : Options J) (now : Int) (s : ServiceState J) :
    ServiceState J :=
  match acknowledgeable o now s with
  | none => s
  | some lsn =>
    { s with lastAcknowledgedAt := some now, lastAcknowledgedLsn := some lsn.padded
             acknowledged := s.acknowledged ++ [lsn] }

/-! ## 挿入 -/

/-- 挿入の一回の結果。`applied` は、例外になっても行が書かれていたことを表す。 -/
inductive InsertOutcome
  | ok
  | error (message : String) (applied : Bool)

def InsertOutcome.applied : InsertOutcome → Bool
  | .ok => true
  | .error _ applied => applied

/-- 再試行しない error の文面。 -/
def permanentErrorPatterns : List String :=
  ["authentication failed", "permission denied", "invalid credentials", "table not found",
    "database not found", "column not found", "schema mismatch", "invalid query", "syntax error",
    "type error", "constraint violation", "duplicate key", "foreign key violation"]

/-- `#isRetryableError`。 -/
def isRetryableError (message : String) : Bool :=
  !permanentErrorPatterns.any fun pattern =>
    decide (pattern.toList <:+: (message.toList.map Char.toLower))

/-- `#insertWithRetry` が、試みの結果の後にもう一度試みる。 -/
def InsertOutcome.retries (o : Options J) (attempt : Nat) : InsertOutcome → Bool
  | .ok => false
  | .error message _ => isRetryableError message && attempt < o.insertMaxRetries

def InsertOutcome.isOk : InsertOutcome → Bool
  | .ok => true
  | .error _ _ => false

def Flush.isWaiting (f : Flush J) : Bool := f.phase = .waiting

/-- `MAX_CONCURRENCY`。 -/
def maxConcurrency (o : Options J) : Nat :=
  if o.maxFlushConcurrency = 0 then 1 else o.maxFlushConcurrency

/-- limiter が待ち行列の先頭を始める。 -/
def startFlush (o : Options J) (s : ServiceState J) : ServiceState J :=
  match s.flushes.findIdx? Flush.isWaiting with
  | none => s
  | some i =>
    let active := s.flushes.countP fun f => !f.isWaiting
    if active < maxConcurrency o then
      -- 一度も試みない設定では、行を書かずに終わる
      if o.insertMaxRetries = 0 then
        { s with flushes := s.flushes.eraseIdx i
                 lost := s.lost ++ (s.flushes[i]?.map Flush.batch).getD [] }
      else { s with flushes := s.flushes.modify i fun f => { f with phase := .taskRuns 1 } }
    else s

/-- `#insertTaskRunInserts` の一回。 -/
def insertTaskRunInserts (o : Options J) (batch : List (TaskRunInsert J)) (applied : Bool)
    (s : ServiceState J) : ServiceState J :=
  if applied then
    { s with taskRuns := s.taskRuns ++ [taskRunInserts o batch], written := s.written ++ [batch] }
  else s

/-- `#insertPayloadInserts` の一回。 -/
def insertPayloadInserts (o : Options J) (batch : List (TaskRunInsert J)) (applied : Bool)
    (s : ServiceState J) : ServiceState J :=
  if applied then { s with payloads := s.payloads ++ payloadInserts o batch } else s

/-- 実行中の挿入が一つ終わる。 -/
def finishAttempt (o : Options J) (i : Nat) (outcome : InsertOutcome) (s : ServiceState J) :
    ServiceState J :=
  match s.flushes[i]? with
  | some ⟨batch, .taskRuns attempt⟩ =>
    let s := insertTaskRunInserts o batch outcome.applied s
    let phase := if outcome.retries o attempt then .taskRuns (attempt + 1)
      else .payloads 1 outcome.isOk
    { s with flushes := s.flushes.set i ⟨batch, phase⟩ }
  | some ⟨batch, .payloads attempt taskRunsInserted⟩ =>
    let s := insertPayloadInserts o batch outcome.applied s
    if outcome.retries o attempt then
      { s with flushes := s.flushes.set i ⟨batch, .payloads (attempt + 1) taskRunsInserted⟩ }
    else
      { s with flushes := s.flushes.eraseIdx i
               lost := if taskRunsInserted && outcome.isOk then s.lost else s.lost ++ batch }
  | _ => s

/-! ## 一段 -/

/-- 出来事。 -/
inductive Label (J : Type)
  | begin
  | change (tag : Tag) (run : PostgresTaskRun J)
  | commit (commitEndLsn : Option Lsn)
  | heartbeat (lsn : Lsn) (shouldRespond : Bool)
  | flushTick
  | acknowledgeTick (now : Int)
  | startFlush
  | finishAttempt (i : Nat) (outcome : InsertOutcome)

def step (o : Options J) (s : ServiceState J) : Label J → ServiceState J
  | .begin => { s with currentTransaction := some [] }
  | .change tag run => handleChange tag run s
  | .commit commitEndLsn => handleCommit o commitEndLsn s
  | .heartbeat lsn shouldRespond => handleHeartbeat lsn shouldRespond s
  | .flushTick => flushNextBatch s
  | .acknowledgeTick now => acknowledgeLatestTransaction o now s
  | .startFlush => Replication.startFlush o s
  | .finishAttempt i outcome => Replication.finishAttempt o i outcome s

end Replication
