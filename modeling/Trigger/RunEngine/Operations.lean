import Trigger.Infra.Machine
import Trigger.RunEngine.Database

/-!
# run engine の操作

`engine/systems/*.ts` と `engine/index.ts` の操作のうち、一つの run の snapshot を作るものを写す。
`runLock` の中は一歩で終わり、lock の外の database 呼び出し（`trigger` の後半と
`enqueueRunsForBackgroundWorker`）は別々の一歩とする。

途中で throw した操作は、それまでの書き込みを残す。
-/

namespace RunEngine

/-- engine の設定と、database の読み出し順。 -/
structure Config where
  environmentType : EnvironmentType
  retryWarmStartThresholdMs : Option ℚ
  treatProductionExecutionStallsAsOOM : Bool
  queueMaxAttempts : ℕ
  fetch : Fetch

/-- 操作の後の行と、throw した error の文言。 -/
structure Result where
  db : Db
  error : Option String

def Result.ok (db : Db) : Result := ⟨db, none⟩

def Result.throw (db : Db) (message : String) : Result := ⟨db, some message⟩

/-- `getLatestExecutionSnapshot` を読んで続ける。 -/
def withLatest (db : Db) (f : Snapshot → Result) : Result :=
  match db.latest with
  | none => .throw db "No execution snapshot found for TaskRun"
  | some snapshot => f snapshot

section Operations

variable (config : Config)

/-! ## runAttemptSystem -/

/-- `cancelRun`。 -/
def cancelRun (finalizeRun : Bool) (db : Db) : Result :=
  withLatest db fun latest =>
    if latest.executionStatus = .finished then .ok db
    else if latest.executionStatus = .pendingCancel ∧ finalizeRun = false then .ok db
    else
      let db := (db.updateRun fun run => { run with status := .canceled }).acknowledgeMessage
      if latest.executionStatus.isExecuting || latest.executionStatus.isPendingExecuting then
        .ok (createExecutionSnapshot
          { runStatus := .canceled
            attemptNumber := db.run.attemptNumber
            executionStatus := .pendingCancel
            previousSnapshotId := some latest.id } db)
      else
        .ok (createExecutionSnapshot
          { runStatus := .canceled
            attemptNumber := db.run.attemptNumber
            executionStatus := .finished
            previousSnapshotId := some latest.id } db)

/-- `#permanentlyFailRun`。 -/
def permanentlyFailRun (latest : Snapshot) (error : TaskRunError) (db : Db) : Result :=
  let status := runStatusFromError error config.environmentType
  let db := db.updateRun fun run => { run with status := status }
  .ok (createExecutionSnapshot
    { runStatus := status
      attemptNumber := db.run.attemptNumber
      executionStatus := .finished
      previousSnapshotId := some latest.id } db).acknowledgeMessage

/-- 失敗した attempt の報告。 -/
structure FailedCompletion where
  error : TaskRunError
  retry : Option ExecutionRetry

/-- `attemptFailed` の本体。再試行すると決まった後の処理を引数に取る。 -/
def attemptFailedWith (retryRun : Snapshot → RetryMethod → ExecutionRetry → Db → Result)
    (snapshotId : ℕ) (completion : FailedCompletion) (forceRequeue : Bool) (now random : ℚ)
    (db : Db) : Result :=
  withLatest db fun latest =>
    if latest.id ≠ snapshotId then .throw db "Snapshot ID doesn't match the latest snapshot"
    else if latest.executionStatus = .finished then .throw db "Run is already finished"
    else
      let db := db.clearBlockingWaitpoints
      match retryOutcomeFromCompletion db.run.settings latest.attemptNumber completion.error
        forceRequeue completion.retry now random with
      | .cancelRun _ => cancelRun true db
      | .failRun => permanentlyFailRun config latest completion.error db
      | .retry method settings machine =>
        retryRun latest method settings (db.updateRun fun run =>
          { run with
            settings := { run.settings with machinePreset := machine <|> run.settings.machinePreset } })

/-- `systemFailure` が報告する error。どちらの code も再試行の対象ではない。 -/
inductive SystemError
  | dequeuedInvalidState
  | dequeuedMaxRetries

def SystemError.toError : SystemError → TaskRunError
  | .dequeuedInvalidState => .internalError .taskDequeuedInvalidState none none
  | .dequeuedMaxRetries => .internalError .taskRunDequeuedMaxRetries none none

/--
`systemFailure`。source では `attemptFailed` を呼ぶが、渡る error は再試行されないので
（`SystemError.not_retried`）、再試行の枝には来ない。
-/
def systemFailure (error : SystemError) (now random : ℚ) (db : Db) : Result :=
  withLatest db fun latest =>
    if latest.executionStatus = .finished then .ok db
    else attemptFailedWith config (fun _ _ _ db => .ok db) latest.id ⟨error.toError, none⟩ false now
      random db

/-- `tryNackAndRequeue`。 -/
def tryNackAndRequeue (checkpointId : Option ℕ) (completedWaitpoints : List IndexedWaitpoint)
    (batchId : Option String) (now random : ℚ) (db : Db) : Result :=
  match db.nackMessage config.queueMaxAttempts with
  | (false, db) => systemFailure config .dequeuedMaxRetries now random db
  | (true, db) =>
    let db := db.updateRun fun run => { run with status := .pending }
    .ok (createExecutionSnapshot
      { runStatus := .pending
        attemptNumber := db.run.attemptNumber
        executionStatus := .queued
        checkpointId := checkpointId
        completedWaitpoints := completedWaitpoints
        batchId := batchId } db)

/-- 再試行すると決まった attempt。長い遅延は queue へ戻し、短い遅延は同じ worker で続ける。 -/
def retryRun (forceRequeue : Bool) (now random : ℚ) (latest : Snapshot) (method : RetryMethod)
    (settings : ExecutionRetry) (db : Db) : Result :=
  if forceRequeue || method = .queue ||
      config.retryWarmStartThresholdMs.any (· ≤ settings.delay) then
    tryNackAndRequeue config none [] none now random db
  else
    .ok (createExecutionSnapshot
      { runStatus := db.run.status
        attemptNumber := db.run.attemptNumber
        executionStatus := .executing
        previousSnapshotId := some latest.id } db)

/-- `attemptFailed`。 -/
def attemptFailed (snapshotId : ℕ) (completion : FailedCompletion) (forceRequeue : Bool)
    (now random : ℚ) (db : Db) : Result :=
  attemptFailedWith config (retryRun config forceRequeue now random) snapshotId completion
    forceRequeue now random db

/-- `attemptSucceeded`。 -/
def attemptSucceeded (snapshotId : ℕ) (db : Db) : Result :=
  withLatest db fun latest =>
    if latest.id ≠ snapshotId then .throw db "Snapshot ID doesn't match the latest snapshot"
    else if latest.executionStatus = .finished then .throw db "Run is already finished"
    else
      let db := db.updateRun fun run => { run with status := .completedSuccessfully }
      .ok (createExecutionSnapshot
        { runStatus := .completedSuccessfully
          attemptNumber := latest.attemptNumber
          executionStatus := .finished } db).acknowledgeMessage

/-- `startRunAttempt`。 -/
def startRunAttempt (snapshotId : ℕ) (now random : ℚ) (db : Db) : Result :=
  withLatest db fun latest =>
    if latest.id ≠ snapshotId then .throw db "Snapshot changed inside startRunAttempt"
    else if latest.executionStatus.isFinishedOrPendingFinished then
      .throw db "Task run is already finished"
    else if db.run.lockedById = none then .throw db "Task run is not locked"
    else
      let nextAttemptNumber := db.run.attemptNumber.getD 0 + 1
      if maxTaskRunAttempts < nextAttemptNumber then
        let failed := attemptFailed config snapshotId
          ⟨.internalError .taskRunCrashed (some "Max attempts reached.") none, none⟩ false now random
          db
        .throw failed.db (failed.error.getD "Max attempts reached")
      else
        let db := db.updateRun fun run =>
          { run with status := .executing, attemptNumber := some nextAttemptNumber }
        .ok (createExecutionSnapshot
          { runStatus := .executing
            attemptNumber := some nextAttemptNumber
            executionStatus := .executing
            previousSnapshotId := some latest.id
            batchId := latest.batchId
            completedWaitpoints := latest.enhanced config.fetch } db)

/-! ## enqueueSystem / delayedRunSystem / ttlSystem -/

/-- `enqueueRun` の引数のうち、snapshot に書かれるもの。 -/
structure EnqueueArgs where
  runStatus : RunStatus
  attemptNumber : Option ℕ
  status : ExecutionStatus := .queued
  previousSnapshotId : Option ℕ := none
  batchId : Option String := none
  checkpointId : Option ℕ := none
  completedWaitpoints : List IndexedWaitpoint := []

/-- `enqueueRun`。 -/
def enqueueRun (a : EnqueueArgs) (db : Db) : Db :=
  (createExecutionSnapshot
    { runStatus := a.runStatus
      attemptNumber := a.attemptNumber
      executionStatus := a.status
      previousSnapshotId := a.previousSnapshotId
      batchId := a.batchId
      checkpointId := a.checkpointId
      completedWaitpoints := a.completedWaitpoints } db).enqueueMessage

/-- `rescheduleDelayedRun`。 -/
def rescheduleDelayedRun (delayUntil : ℚ) (db : Db) : Result :=
  withLatest db fun latest =>
    if latest.executionStatus.isInitialState = false then
      .throw db "Cannot reschedule a run that is not delayed"
    else
      let db := db.updateRun fun run => { run with delayUntil := some delayUntil }
      .ok (createExecutionSnapshot
        { runStatus := .delayed, attemptNumber := none, executionStatus := .delayed } db)

/-- `enqueueDelayedRun`。 -/
def enqueueDelayedRun (now : ℚ) (db : Db) : Result :=
  withLatest db fun latest =>
    if latest.executionStatus.isInitialState = false then .ok db
    else if db.run.delayUntil.any (now < ·) then .ok db
    else
      let db := enqueueRun
        { runStatus := db.run.status
          attemptNumber := db.run.attemptNumber
          batchId := db.run.batchId } db
      .ok (db.updateRun fun run => { run with status := .pending })

/-- `expireRun`。 -/
def expireRun (db : Db) : Result :=
  withLatest db fun latest =>
    if latest.executionStatus.isExecuting then .ok db
    else if db.run.status ≠ .pending then .ok db
    else if db.run.lockedAt ≠ none then .ok db
    else
      let db := db.updateRun fun run => { run with status := .expired }
      .ok (createExecutionSnapshot
        { runStatus := .expired, attemptNumber := none, executionStatus := .finished }
        db).acknowledgeMessage

/-! ## checkpointSystem -/

/-- `createCheckpoint`。作られた checkpoint の id は `checkpointId` である。 -/
def createCheckpoint (snapshotId checkpointId : ℕ) (db : Db) : Result :=
  withLatest db fun latest =>
    if ¬ (latest.id = snapshotId ∨ (latest.previousSnapshotId = some snapshotId ∧
        latest.executionStatus = .queuedExecuting)) then .ok db
    else if latest.executionStatus.isCheckpointable = false then .ok db
    else
      let db := db.updateRun fun run => { run with status := .waitingToResume }
      if latest.executionStatus = .queuedExecuting then
        .ok (enqueueRun
          { runStatus := .waitingToResume
            attemptNumber := db.run.attemptNumber
            previousSnapshotId := some latest.id
            batchId := latest.batchId
            checkpointId := some checkpointId
            completedWaitpoints := latest.enhanced config.fetch } db)
      else
        .ok (createExecutionSnapshot
          { runStatus := .waitingToResume
            attemptNumber := db.run.attemptNumber
            executionStatus := .suspended
            previousSnapshotId := some latest.id
            batchId := latest.batchId
            checkpointId := some checkpointId
            completedWaitpoints := latest.enhanced config.fetch } db)

/-- `continueRunExecution`。 -/
def continueRunExecution (snapshotId : ℕ) (db : Db) : Result :=
  withLatest db fun latest =>
    if latest.id ≠ snapshotId then
      .throw db "Snapshot ID doesn't match the latest snapshot in continueRunExecution"
    else if latest.executionStatus.isPendingExecuting = false then
      .throw db "Snapshot is not in a valid state to continue in continueRunExecution"
    else
      let db := db.updateRun fun run => { run with status := .executing }
      .ok (createExecutionSnapshot
        { runStatus := .executing
          attemptNumber := db.run.attemptNumber
          executionStatus := .executing
          previousSnapshotId := some latest.id
          batchId := latest.batchId
          completedWaitpoints := latest.enhanced config.fetch } db)

/-! ## waitpointSystem -/

/-- 同じ行は `ON CONFLICT DO NOTHING` で無視される。 -/
def insertWaitpoints (rows : List WaitpointRow) (db : Db) : Db :=
  { db with
    blockingWaitpoints := rows.foldl
      (fun acc row =>
        if acc.any (fun r => r.waitpointId = row.waitpointId ∧ r.batchIndex = row.batchIndex) then acc
        else acc ++ [row])
      db.blockingWaitpoints }

/-- `blockRunWithWaitpoint`。実行中でなければ、どの状態からでも SUSPENDED を書く。 -/
def blockRunWithWaitpoint (waitpoints : List String) (batch : Option (String × Option ℕ))
    (db : Db) : Result :=
  withLatest db fun latest =>
    let db := insertWaitpoints
      (waitpoints.map fun w => ⟨w, batch.map Prod.fst, batch.bind Prod.snd⟩) db
    let newStatus := if latest.executionStatus.isExecuting then .executingWithWaitpoints
      else ExecutionStatus.suspended
    if newStatus = latest.executionStatus then .ok db
    else
      .ok (createExecutionSnapshot
        { runStatus := latest.runStatus
          attemptNumber := latest.attemptNumber
          executionStatus := newStatus
          previousSnapshotId := some latest.id
          batchId := batch.map Prod.fst } db)

/-- `completeWaitpoint` が database に書くもの。 -/
def completeWaitpoint (id : String) (db : Db) : Db := { db with completed := id :: db.completed }

/-- `continueRunIfUnblocked` の error。 -/
def suspendedWithoutCheckpoint : String :=
  "continueRunIfUnblocked: run is suspended, but has no checkpoint"

/-- 行を `completedWaitpoints` の引数にする。 -/
def completedPairs (rows : List WaitpointRow) : List IndexedWaitpoint :=
  rows.map fun row => (row.waitpointId, row.batchIndex)

/-- `continueRunIfUnblocked`。 -/
def continueRunIfUnblocked (db : Db) : Result :=
  if db.blockingWaitpoints.any (fun row => row.waitpointId ∉ db.completed) then .ok db
  else
    withLatest db fun latest =>
      match latest.executionStatus with
      | .executingWithWaitpoints =>
        .ok (createExecutionSnapshot
          { runStatus := latest.runStatus
            attemptNumber := latest.attemptNumber
            executionStatus := .executing
            previousSnapshotId := some latest.id
            batchId := latest.batchId
            completedWaitpoints := completedPairs db.blockingWaitpoints }
          db).clearBlockingWaitpoints
      | .suspended =>
        match latest.checkpointId with
        | none => .throw db suspendedWithoutCheckpoint
        | some checkpointId =>
          .ok (enqueueRun
            { runStatus := db.run.status
              attemptNumber := db.run.attemptNumber
              batchId := latest.batchId
              checkpointId := some checkpointId
              completedWaitpoints := completedPairs db.blockingWaitpoints }
            db).clearBlockingWaitpoints
      | _ => .ok db

/-! ## dequeueSystem -/

/-- `#getRunWithBackgroundWorkerTasks` と deployment の検査の結果。 -/
inductive DequeueTarget
  | noRun
  | archived
  | pendingVersion
  | mismatch
  | ready (task : String) (maxAttempts : Option ℕ) (retryConfig : Option (Option RetryConfig))
      (machine : String)

/-- `#pendingVersion`。 -/
def pendingVersion (db : Db) : Result :=
  let db := db.updateRun fun run => { run with status := .pendingVersion }
  .ok (createExecutionSnapshot
    { runStatus := .pendingVersion
      attemptNumber := db.run.attemptNumber
      executionStatus := .runCreated } db).acknowledgeMessage

/-- `dequeueFromWorkerQueue`。message が無ければ何も取り出されない。 -/
def dequeueFromWorkerQueue (target : DequeueTarget) (now random : ℚ) (db : Db) : Result :=
  if db.message = none then .ok db
  else
    withLatest db fun latest =>
      if latest.executionStatus.isDequeueableExecutionStatus = false then
        if latest.executionStatus = .pendingExecuting then .ok db.acknowledgeMessage
        else
          systemFailure config .dequeuedInvalidState now random
            (createExecutionSnapshot
              { runStatus := latest.runStatus
                attemptNumber := none
                executionStatus := latest.executionStatus
                previousSnapshotId := some latest.id
                checkpointId := latest.checkpointId
                completedWaitpoints := latest.enhanced config.fetch
                error := true } db)
      else if latest.executionStatus = .queuedExecuting then
        .ok (createExecutionSnapshot
          { runStatus := latest.runStatus
            attemptNumber := latest.attemptNumber
            executionStatus := .executing
            previousSnapshotId := some latest.id
            batchId := latest.batchId
            completedWaitpoints := latest.enhanced config.fetch } db)
      else
        match target with
        | .noRun | .archived => .ok db.acknowledgeMessage
        | .pendingVersion => pendingVersion db
        | .mismatch => .ok (db.nackMessage config.queueMaxAttempts).2
        | .ready task maxAttempts retryConfig machine =>
          let db := db.updateRun fun run =>
            { run with
              status := .dequeued
              lockedAt := some now
              lockedById := some task
              settings :=
                { maxAttempts :=
                    run.settings.maxAttempts.filter (· ≠ 0) <|> maxAttempts <|>
                      run.settings.maxAttempts
                  lockedRetryConfig := run.settings.lockedRetryConfig <|> retryConfig
                  machinePreset := some machine } }
          .ok (createExecutionSnapshot
            { runStatus := .dequeued
              attemptNumber := db.run.attemptNumber
              executionStatus := .pendingExecuting
              previousSnapshotId := some latest.id
              checkpointId := latest.checkpointId
              batchId := latest.batchId
              completedWaitpoints := latest.enhanced config.fetch } db)

/-! ## heartbeat -/

/-- 止まった実行を報告する error。 -/
def stallError (status : ExecutionStatus) : TaskRunError :=
  if config.environmentType ≠ .development ∧ config.treatProductionExecutionStallsAsOOM = true then
    .internalError .taskProcessOomKilled (some "Run was terminated due to running out of memory") none
  else if status = .executing then .internalError .taskRunStalledExecuting none none
  else .internalError .taskRunStalledExecutingWithWaitpoints none none

/-- `#handleStalledSnapshot`。 -/
def handleStalledSnapshot (snapshotId : ℕ) (now random : ℚ) (db : Db) : Result :=
  withLatest db fun latest =>
    if latest.id ≠ snapshotId then .ok db
    else
      match latest.executionStatus with
      | .runCreated => .throw db "There shouldn't be a heartbeat for RUN_CREATED"
      | .queued => .throw db "There shouldn't be a heartbeat for QUEUED"
      | .queuedExecuting => .throw db "There shouldn't be a heartbeat for QUEUED_EXECUTING"
      | .pendingExecuting =>
        tryNackAndRequeue config latest.checkpointId (latest.enhanced config.fetch) latest.batchId now
          random db
      | .executing | .executingWithWaitpoints =>
        attemptFailed config latest.id
          ⟨stallError config latest.executionStatus,
            if config.environmentType = .development then none else some ⟨now + 250, 250⟩⟩
          true now random db
      | .suspended => continueRunIfUnblocked db
      | .pendingCancel => cancelRun true db
      | .finished => .throw db "There shouldn't be a heartbeat for FINISHED"
      | .delayed => .throw db "There shouldn't be a heartbeat for DELAYED"

end Operations

/-! ## 一つの run の実行 -/

/-- `trigger` の進み具合。 -/
inductive TriggerPhase
  | created
  | snapshotCreated
  | done
deriving DecidableEq

/--
run の行と、lock の外で進んでいる処理。`pendingVersionRead` は `enqueueRunsForBackgroundWorker` の job の
うち run を読んで status をまだ書いていないものの数、`pendingVersionUpdated` は書いて enqueue していないものが
持つ run の attemptNumber である。
-/
structure Engine where
  db : Db
  trigger : TriggerPhase
  pendingVersionRead : ℕ
  pendingVersionUpdated : List (Option ℕ)

/-- `trigger` が run の行を作った直後。 -/
def triggered (delayUntil : Option ℚ) (batchId : Option String) (settings : RetrySettings) :
    Engine where
  db := createExecutionSnapshot
    { runStatus := if delayUntil.isSome then .delayed else .pending
      attemptNumber := none
      executionStatus := if delayUntil.isSome then .delayed else .runCreated }
    { run :=
        { status := if delayUntil.isSome then .delayed else .pending
          attemptNumber := none
          lockedById := none
          lockedAt := none
          delayUntil := delayUntil
          batchId := batchId
          settings := settings }
      snapshots := []
      blockingWaitpoints := []
      completed := []
      message := none
      nextId := 0 }
  trigger := if delayUntil.isSome then .done else .created
  pendingVersionRead := 0
  pendingVersionUpdated := []

/-- run に対する一歩。 -/
inductive Label
  | triggerCreateSnapshot
  | triggerEnqueueMessage
  | dequeueFromWorkerQueue (target : DequeueTarget) (now random : ℚ)
  | startRunAttempt (snapshotId : ℕ) (now random : ℚ)
  | attemptSucceeded (snapshotId : ℕ)
  | attemptFailed (snapshotId : ℕ) (completion : FailedCompletion) (forceRequeue : Bool)
      (now random : ℚ)
  | cancelRun (finalizeRun : Bool)
  | expireRun
  | createCheckpoint (snapshotId checkpointId : ℕ)
  | continueRunExecution (snapshotId : ℕ)
  | blockRunWithWaitpoint (waitpoints : List String) (batch : Option (String × Option ℕ))
  | completeWaitpoint (id : String)
  | continueRunIfUnblocked
  | rescheduleDelayedRun (delayUntil : ℚ)
  | enqueueDelayedRun (now : ℚ)
  | handleStalledSnapshot (snapshotId : ℕ) (now random : ℚ)
  | tryNackAndRequeue (now random : ℚ)
  | pendingVersionRead
  | pendingVersionUpdate
  | pendingVersionEnqueue

/-- lock の中の操作。 -/
def Label.locked (config : Config) (db : Db) : Label → Option Result
  | .dequeueFromWorkerQueue target now random =>
    some (RunEngine.dequeueFromWorkerQueue config target now random db)
  | .startRunAttempt snapshotId now random =>
    some (RunEngine.startRunAttempt config snapshotId now random db)
  | .attemptSucceeded snapshotId => some (RunEngine.attemptSucceeded snapshotId db)
  | .attemptFailed snapshotId completion forceRequeue now random =>
    some (RunEngine.attemptFailed config snapshotId completion forceRequeue now random db)
  | .cancelRun finalizeRun => some (RunEngine.cancelRun finalizeRun db)
  | .expireRun => some (RunEngine.expireRun db)
  | .createCheckpoint snapshotId checkpointId =>
    some (RunEngine.createCheckpoint config snapshotId checkpointId db)
  | .continueRunExecution snapshotId => some (RunEngine.continueRunExecution config snapshotId db)
  | .blockRunWithWaitpoint waitpoints batch =>
    some (RunEngine.blockRunWithWaitpoint waitpoints batch db)
  | .completeWaitpoint id => some (.ok (RunEngine.completeWaitpoint id db))
  | .continueRunIfUnblocked => some (RunEngine.continueRunIfUnblocked db)
  | .rescheduleDelayedRun delayUntil => some (RunEngine.rescheduleDelayedRun delayUntil db)
  | .enqueueDelayedRun now => some (RunEngine.enqueueDelayedRun now db)
  | .handleStalledSnapshot snapshotId now random =>
    some (RunEngine.handleStalledSnapshot config snapshotId now random db)
  | .tryNackAndRequeue now random =>
    some (RunEngine.tryNackAndRequeue config none [] none now random db)
  | .triggerCreateSnapshot | .triggerEnqueueMessage | .pendingVersionRead | .pendingVersionUpdate
  | .pendingVersionEnqueue => none

/-- lock の外の一歩。進んでいない処理の続きは起こらない。 -/
def Engine.unlocked (e : Engine) : Label → Engine
  | .triggerCreateSnapshot =>
    if e.trigger = .created then
      { e with
        db := createExecutionSnapshot
          { runStatus := .pending, attemptNumber := none, executionStatus := .queued } e.db
        trigger := .snapshotCreated }
    else e
  | .triggerEnqueueMessage =>
    if e.trigger = .snapshotCreated then { e with db := e.db.enqueueMessage, trigger := .done } else e
  | .pendingVersionRead =>
    if e.db.run.status = .pendingVersion then
      { e with pendingVersionRead := e.pendingVersionRead + 1 }
    else e
  | .pendingVersionUpdate =>
    if 0 < e.pendingVersionRead then
      { e with
        db := e.db.updateRun fun run => { run with status := .pending }
        pendingVersionRead := e.pendingVersionRead - 1
        pendingVersionUpdated := e.db.run.attemptNumber :: e.pendingVersionUpdated }
    else e
  | .pendingVersionEnqueue =>
    match e.pendingVersionUpdated with
    | [] => e
    | attemptNumber :: rest =>
      { e with
        db := enqueueRun { runStatus := .pending, attemptNumber := attemptNumber } e.db
        pendingVersionUpdated := rest }
  | _ => e

/-- 一歩の後の状態。 -/
def Engine.step (config : Config) (e : Engine) (l : Label) : Engine :=
  match l.locked config e.db with
  | some result => { e with db := result.db }
  | none => e.unlocked l

end RunEngine
