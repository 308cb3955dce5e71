import Trigger.RunEngine.Lifecycle

/-!
# QUEUED の run の message

run の状態は database の snapshot に、run を待つ message は Redis にあり、二つは別々に書かれる。操作が snapshot に
書くものは `Operations` に写したので、ここでは同じ操作が RunQueue に出す command を写し、二つの行き先を並べて動かす。

* `Serves` — 一つの操作が run と message の両方に何をするか
* `Inv` — QUEUED の run の message は、zset か worker queue か、取り出された手の中にある
* `queued_delivered` — 戻せなかった message の run が QUEUED に残らない限り、message は失われない

message を queue から worker queue へ移す Lua と RPUSH、worker queue からの POP、message key の読み出し、run lock の
中の処理は、それぞれ別の一歩とする。
-/

namespace RunEngine.QueueMessage

open Infra.Machine

/-! ## message の置き場所 -/

/--
一つの run の message。`message` は message key にある attempt、`queue` は queue の zset にあること、`worker` は
worker queue にある数、`deadLetter` は dead letter queue にあることである。
-/
structure Store where
  message : Option ℕ
  queue : Bool
  worker : ℕ
  deadLetter : Bool
deriving DecidableEq

namespace Store

/-- `enqueueMessage`。dead letter queue と worker queue には触れない。 -/
def enqueueMessage (m : Store) : Store := { m with message := some 0, queue := true }

/-- `acknowledgeMessage`。message key が無ければ何もしない。 -/
def acknowledgeMessage (removeFromWorkerQueue : Bool) (m : Store) : Store :=
  match m.message with
  | none => m
  | some _ =>
    { m with
      message := none
      queue := false
      worker := if removeFromWorkerQueue then 0 else m.worker }

/-- `moveToDeadLetterQueue`。message key は残る。 -/
def moveToDeadLetterQueue (m : Store) : Store := { m with queue := false, deadLetter := true }

/-- `nackMessage`。返り値は `undefined`、`false`、`true` のどれかである。 -/
def nackMessage (maxAttempts : ℕ) (m : Store) : Option Bool × Store :=
  match m.message with
  | none => (none, m)
  | some attempt =>
    if maxAttempts ≤ attempt + 1 then (some false, m.moveToDeadLetterQueue)
    else (some true, { m with message := some (attempt + 1), queue := true })

end Store

/-- 操作が RunQueue に出す command。 -/
inductive Call
  | enqueueMessage
  | acknowledgeMessage (removeFromWorkerQueue : Bool)
  | nackMessage
deriving DecidableEq

def Call.apply (maxAttempts : ℕ) (m : Store) : Call → Store
  | .enqueueMessage => m.enqueueMessage
  | .acknowledgeMessage removeFromWorkerQueue => m.acknowledgeMessage removeFromWorkerQueue
  | .nackMessage => (m.nackMessage maxAttempts).2

/-- command を順に出す。 -/
def runCalls (maxAttempts : ℕ) (calls : List Call) (m : Store) : Store :=
  calls.foldl (Call.apply maxAttempts) m

/-- message を queue に戻す command。 -/
def Call.requeues (maxAttempts : ℕ) (m : Store) : Call → Bool
  | .enqueueMessage => true
  | .acknowledgeMessage _ => false
  | .nackMessage => m.message.any (· + 1 < maxAttempts)

/-- attempt が上限に達した message は、nack されると dead letter queue へ移る。 -/
def Store.exhausted (maxAttempts : ℕ) (m : Store) : Bool := m.message.any (maxAttempts ≤ · + 1)

/-! ## 操作が出す command -/

section Calls

variable (config : Config)

/-- `cancelRun`。 -/
def cancelRunCalls (finalizeRun : Bool) (db : Db) : List Call :=
  match db.latest with
  | none => []
  | some latest =>
    if latest.executionStatus = .finished then []
    else if latest.executionStatus = .pendingCancel ∧ finalizeRun = false then []
    else [.acknowledgeMessage true]

/-- `attemptFailed`。失敗と決まった run は `#permanentlyFailRun` が ack する。 -/
def attemptFailedWithCalls (retryCalls : RetryMethod → ExecutionRetry → Db → List Call)
    (snapshotId : ℕ) (completion : FailedCompletion) (forceRequeue : Bool) (now random : ℚ)
    (db : Db) : List Call :=
  match db.latest with
  | none => []
  | some latest =>
    if latest.id ≠ snapshotId then []
    else if latest.executionStatus = .finished then []
    else
      match retryOutcomeFromCompletion db.run.settings latest.attemptNumber completion.error
        forceRequeue completion.retry now random with
      | .cancelRun _ => cancelRunCalls true db
      | .failRun => [.acknowledgeMessage true]
      | .retry method settings _ => retryCalls method settings db

/-- `systemFailure`。 -/
def systemFailureCalls (db : Db) : List Call :=
  match db.latest with
  | none => []
  | some latest =>
    if latest.executionStatus = .finished then [] else [.acknowledgeMessage true]

/-- `tryNackAndRequeue`。 -/
def tryNackAndRequeueCalls (db : Db) : List Call :=
  .nackMessage ::
    if (db.nackMessage config.queueMaxAttempts).1 = true then [] else systemFailureCalls db

/-- 再試行すると決まった attempt。 -/
def retryRunCalls (forceRequeue : Bool) (method : RetryMethod) (settings : ExecutionRetry)
    (db : Db) : List Call :=
  if forceRequeue || method = .queue ||
      config.retryWarmStartThresholdMs.any (· ≤ settings.delay) then tryNackAndRequeueCalls config db
  else []

/-- `attemptFailed`。 -/
def attemptFailedCalls (snapshotId : ℕ) (completion : FailedCompletion) (forceRequeue : Bool)
    (now random : ℚ) (db : Db) : List Call :=
  attemptFailedWithCalls (retryRunCalls config forceRequeue) snapshotId completion forceRequeue now
    random db

/-- `attemptSucceeded`。worker queue に残ったものは取り除かない。 -/
def attemptSucceededCalls (snapshotId : ℕ) (db : Db) : List Call :=
  match db.latest with
  | none => []
  | some latest =>
    if latest.id ≠ snapshotId then []
    else if latest.executionStatus = .finished then []
    else [.acknowledgeMessage false]

/-- `startRunAttempt`。attempt の数が上限を超えた run は失敗する。 -/
def startRunAttemptCalls (snapshotId : ℕ) (now random : ℚ) (db : Db) : List Call :=
  match db.latest with
  | none => []
  | some latest =>
    if latest.id ≠ snapshotId then []
    else if latest.executionStatus.isFinishedOrPendingFinished then []
    else if db.run.lockedById = none then []
    else if maxTaskRunAttempts < db.run.attemptNumber.getD 0 + 1 then
      attemptFailedCalls config snapshotId
        ⟨.internalError .taskRunCrashed (some "Max attempts reached.") none, none⟩ false now random db
    else []

/-- `enqueueDelayedRun`。 -/
def enqueueDelayedRunCalls (now : ℚ) (db : Db) : List Call :=
  match db.latest with
  | none => []
  | some latest =>
    if latest.executionStatus.isInitialState = false then []
    else if db.run.delayUntil.any (now < ·) then []
    else [.enqueueMessage]

/-- `expireRun`。 -/
def expireRunCalls (db : Db) : List Call :=
  match db.latest with
  | none => []
  | some latest =>
    if latest.executionStatus.isExecuting then []
    else if db.run.status ≠ .pending then []
    else if db.run.lockedAt ≠ none then []
    else [.acknowledgeMessage true]

/-- `createCheckpoint`。 -/
def createCheckpointCalls (snapshotId : ℕ) (db : Db) : List Call :=
  match db.latest with
  | none => []
  | some latest =>
    if ¬ (latest.id = snapshotId ∨ (latest.previousSnapshotId = some snapshotId ∧
        latest.executionStatus = .queuedExecuting)) then []
    else if latest.executionStatus.isCheckpointable = false then []
    else if latest.executionStatus = .queuedExecuting then [.enqueueMessage]
    else []

/-- `continueRunIfUnblocked`。 -/
def continueRunIfUnblockedCalls (db : Db) : List Call :=
  if db.blockingWaitpoints.any (fun row => row.waitpointId ∉ db.completed) then []
  else
    match db.latest with
    | none => []
    | some latest =>
      if latest.executionStatus = .suspended ∧ latest.checkpointId ≠ none then [.enqueueMessage] else []

/-- `dequeueFromWorkerQueue`。 -/
def dequeueRunCalls (target : DequeueTarget) (db : Db) : List Call :=
  match db.latest with
  | none => []
  | some latest =>
    if latest.executionStatus.isDequeueableExecutionStatus = false then
      if latest.executionStatus = .pendingExecuting then [.acknowledgeMessage false]
      else systemFailureCalls db
    else if latest.executionStatus = .queuedExecuting then []
    else
      match target with
      | .noRun | .archived | .pendingVersion => [.acknowledgeMessage false]
      | .mismatch => [.nackMessage]
      | .ready .. => []

/-- `#handleStalledSnapshot`。 -/
def handleStalledSnapshotCalls (snapshotId : ℕ) (now random : ℚ) (db : Db) : List Call :=
  match db.latest with
  | none => []
  | some latest =>
    if latest.id ≠ snapshotId then []
    else
      match latest.executionStatus with
      | .pendingExecuting => tryNackAndRequeueCalls config db
      | .executing | .executingWithWaitpoints =>
        attemptFailedCalls config latest.id
          ⟨stallError config latest.executionStatus,
            if config.environmentType = .development then none else some ⟨now + 250, 250⟩⟩
          true now random db
      | .suspended => continueRunIfUnblockedCalls db
      | .pendingCancel => cancelRunCalls true db
      | .runCreated | .queued | .queuedExecuting | .finished | .delayed => []

/-- `#handleRepairSnapshot`。戻せなかったときは、それを記録するだけである。 -/
def handleRepairSnapshotCalls (snapshotId : ℕ) (db : Db) : List Call :=
  match db.latest with
  | none => []
  | some latest =>
    if latest.id ≠ snapshotId then []
    else if latest.executionStatus = .queued then [.nackMessage]
    else []

end Calls

/-! ## 一つの操作が run と message にすること -/

/-- 操作が作る行と出す command の組。 -/
inductive Serves (maxAttempts : ℕ) (db db' : Db) : List Call → Prop
  | untouched (hmessage : db'.message = db.message)
      (hstatus : db'.status = some .queued → db.status = some .queued) :
      Serves maxAttempts db db' []
  | enqueued (hmessage : db'.message = some 0) : Serves maxAttempts db db' [.enqueueMessage]
  | requeued {attempt : ℕ} (hbefore : db.message = some attempt) (hmax : attempt + 1 < maxAttempts)
      (hmessage : db'.message = some (attempt + 1)) : Serves maxAttempts db db' [.nackMessage]
  | acknowledged {removeFromWorkerQueue : Bool} (hmessage : db'.message = none)
      (hstatus : db'.status ≠ some .queued) :
      Serves maxAttempts db db' [.acknowledgeMessage removeFromWorkerQueue]
  | gaveUp (hbefore : ∀ attempt, db.message = some attempt → maxAttempts ≤ attempt + 1)
      (hmessage : db'.message = db.message) (hstatus : db'.status ≠ some .queued) :
      Serves maxAttempts db db' [.nackMessage]
  | failed {removeFromWorkerQueue : Bool}
      (hbefore : ∀ attempt, db.message = some attempt → maxAttempts ≤ attempt + 1)
      (hmessage : db'.message = none) (hstatus : db'.status ≠ some .queued) :
      Serves maxAttempts db db' [.nackMessage, .acknowledgeMessage removeFromWorkerQueue]

theorem status_create {a : NewSnapshot} {db : Db} (h : a.error = false) :
    (createExecutionSnapshot a db).status = some a.executionStatus := by
  refine Db.status_of_latest (Db.latest_create_valid (s := a.row) ?_)
  show (!a.error) = true
  rw [h]
  rfl

theorem status_create_ne {a : NewSnapshot} {db : Db} (h : a.error = false)
    (ha : a.executionStatus ≠ .queued) :
    (createExecutionSnapshot a db).status ≠ some .queued := by
  rw [status_create h]
  exact fun hqueued => ha (Option.some.inj hqueued)

namespace Serves

variable {maxAttempts : ℕ} {db db₁ db' : Db} {calls : List Call}

theorem refl (db : Db) : Serves maxAttempts db db [] := .untouched rfl id

/-- 最新の snapshot と message を変えない更新の後の操作。 -/
theorem of_same (hlatest : db₁.latest = db.latest) (hmessage : db₁.message = db.message)
    (h : Serves maxAttempts db₁ db' calls) : Serves maxAttempts db db' calls := by
  have hstatus : db₁.status = db.status := by
    unfold Db.status
    rw [hlatest]
  cases h with
  | untouched hm hs => exact .untouched (hm.trans hmessage) fun hq => hstatus ▸ hs hq
  | enqueued hm => exact .enqueued hm
  | requeued hbefore hmax hm => exact .requeued (hmessage ▸ hbefore) hmax hm
  | acknowledged hm hs => exact .acknowledged hm hs
  | gaveUp hbefore hm hs => exact .gaveUp (hmessage ▸ hbefore) (hm.trans hmessage) hs
  | failed hbefore hm hs => exact .failed (hmessage ▸ hbefore) hm hs

/-- QUEUED でない snapshot を作り、message に触れない。 -/
theorem moved (hmessage : db'.message = db.message) (hstatus : db'.status ≠ some .queued) :
    Serves maxAttempts db db' [] := .untouched hmessage fun h => absurd h hstatus

/-- RunQueue に触れない操作は、最新の snapshot があるときだけ調べればよい。 -/
theorem withLatest {f : Snapshot → Result}
    (h : ∀ latest, db.latest = some latest → Serves maxAttempts db (f latest).db []) :
    Serves maxAttempts db (RunEngine.withLatest db f).db [] := by
  unfold RunEngine.withLatest
  split
  · exact .refl db
  · next latest hlatest => exact h latest hlatest

end Serves

variable {config : Config} {db : Db}

theorem cancelRun_serves (finalizeRun : Bool) :
    Serves config.queueMaxAttempts db (cancelRun finalizeRun db).db
      (cancelRunCalls finalizeRun db) := by
  unfold cancelRun cancelRunCalls withLatest
  cases db.latest with
  | none => exact .refl db
  | some latest =>
    dsimp only
    split
    · exact .refl db
    · split
      · exact .refl db
      · split
        · exact .acknowledged rfl (status_create_ne rfl (by simp))
        · exact .acknowledged rfl (status_create_ne rfl (by simp))

theorem permanentlyFailRun_serves (latest : Snapshot) (error : TaskRunError) :
    Serves config.queueMaxAttempts db (permanentlyFailRun config latest error db).db
      [.acknowledgeMessage true] :=
  .acknowledged rfl (status_create_ne rfl (by simp))

theorem attemptFailedWith_serves {retry : Snapshot → RetryMethod → ExecutionRetry → Db → Result}
    {retryCalls : RetryMethod → ExecutionRetry → Db → List Call} {snapshotId : ℕ}
    {completion : FailedCompletion} {forceRequeue : Bool} {now random : ℚ}
    (hretry : ∀ latest method settings db₁, db.latest = some latest → db₁.latest = db.latest →
      db₁.message = db.message →
      Serves config.queueMaxAttempts db₁ (retry latest method settings db₁).db
        (retryCalls method settings db)) :
    Serves config.queueMaxAttempts db
      (attemptFailedWith config retry snapshotId completion forceRequeue now random db).db
      (attemptFailedWithCalls retryCalls snapshotId completion forceRequeue now random db) := by
  unfold attemptFailedWith attemptFailedWithCalls withLatest
  cases hlatest : db.latest with
  | none => exact .refl db
  | some latest =>
    dsimp only
    split
    · exact .refl db
    · split
      · exact .refl db
      · simp only [Db.clearBlockingWaitpoints]
        generalize retryOutcomeFromCompletion db.run.settings latest.attemptNumber completion.error
          forceRequeue completion.retry now random = outcome
        cases outcome with
        | cancelRun reason =>
          dsimp only
          refine Serves.of_same ?_ ?_ (cancelRun_serves true)
          · rfl
          · rfl
        | failRun =>
          dsimp only
          refine Serves.of_same ?_ ?_ (permanentlyFailRun_serves latest completion.error)
          · rfl
          · rfl
        | retry method settings machine =>
          dsimp only
          refine Serves.of_same ?_ ?_ (hretry latest method settings _ hlatest ?_ ?_)
          · rfl
          · rfl
          · rfl
          · rfl

/-- `systemFailure` は、終わっていない run を終わらせて ack する。どちらにしても QUEUED の run は残らない。 -/
theorem systemFailure_cases (error : SystemError) (now random : ℚ) :
    systemFailureCalls db = [] ∧ (systemFailure config error now random db).db = db ∧
        db.status ≠ some .queued ∨
      systemFailureCalls db = [.acknowledgeMessage true] ∧
        (systemFailure config error now random db).db.message = none ∧
        (systemFailure config error now random db).db.status ≠ some .queued := by
  unfold systemFailureCalls systemFailure withLatest
  cases hlatest : db.latest with
  | none =>
    refine .inl ⟨rfl, rfl, ?_⟩
    unfold Db.status
    rw [hlatest]
    simp
  | some latest =>
    dsimp only
    by_cases hfinished : latest.executionStatus = .finished
    · rw [if_pos hfinished, if_pos hfinished, Db.status_of_latest hlatest, hfinished]
      exact .inl ⟨rfl, rfl, by simp⟩
    · rw [if_neg hfinished, if_neg hfinished]
      unfold attemptFailedWith withLatest
      rw [hlatest]
      dsimp only
      rw [if_neg (by simp), if_neg hfinished]
      simp only [Db.clearBlockingWaitpoints]
      rw [error.not_retried]
      exact .inr ⟨trivial, rfl, status_create_ne rfl (by simp)⟩

theorem systemFailure_serves (error : SystemError) (now random : ℚ) :
    Serves config.queueMaxAttempts db (systemFailure config error now random db).db
      (systemFailureCalls db) := by
  rcases systemFailure_cases error now random with ⟨hcalls, hdb, -⟩ | ⟨hcalls, hmessage, hstatus⟩
  · rw [hcalls, hdb]
    exact .refl db
  · rw [hcalls]
    exact .acknowledged hmessage hstatus

/-- message を戻せたときの attempt。 -/
theorem nackMessage_true {db : Db} {maxAttempts : ℕ} (h : (db.nackMessage maxAttempts).1 = true) :
    ∃ attempt, db.message = some attempt ∧ attempt + 1 < maxAttempts ∧
      db.nackMessage maxAttempts = (true, { db with message := some (attempt + 1) }) := by
  unfold Db.nackMessage at h ⊢
  cases hmessage : db.message with
  | none =>
    rw [hmessage] at h
    cases h
  | some attempt =>
    rw [hmessage] at h
    dsimp only at h ⊢
    by_cases hmax : maxAttempts ≤ attempt + 1
    · rw [if_pos hmax] at h
      cases h
    · rw [if_neg hmax]
      exact ⟨attempt, rfl, by omega, rfl⟩

/-- 戻せなかった message は、無いか、attempt が上限に達している。 -/
theorem nackMessage_false {db : Db} {maxAttempts : ℕ} (h : (db.nackMessage maxAttempts).1 = false) :
    db.nackMessage maxAttempts = (false, db) ∧
      ∀ attempt, db.message = some attempt → maxAttempts ≤ attempt + 1 := by
  unfold Db.nackMessage at h ⊢
  cases hmessage : db.message with
  | none => exact ⟨rfl, by simp⟩
  | some attempt =>
    rw [hmessage] at h
    dsimp only at h ⊢
    by_cases hmax : maxAttempts ≤ attempt + 1
    · rw [if_pos hmax]
      refine ⟨rfl, fun attempt' hattempt => ?_⟩
      rw [Option.some.inj hattempt] at hmax
      exact hmax
    · rw [if_neg hmax] at h
      cases h

theorem tryNackAndRequeue_serves {checkpointId : Option ℕ} {w : List IndexedWaitpoint}
    {batchId : Option String} {now random : ℚ} :
    Serves config.queueMaxAttempts db
      (tryNackAndRequeue config checkpointId w batchId now random db).db
      (tryNackAndRequeueCalls config db) := by
  unfold tryNackAndRequeue tryNackAndRequeueCalls
  cases hnack : (db.nackMessage config.queueMaxAttempts).1 with
  | true =>
    obtain ⟨attempt, hbefore, hmax, hnacked⟩ := nackMessage_true hnack
    rw [hnacked]
    exact .requeued hbefore hmax rfl
  | false =>
    obtain ⟨hnacked, hbefore⟩ := nackMessage_false hnack
    rw [hnacked, if_neg (by simp)]
    dsimp only
    rcases systemFailure_cases .dequeuedMaxRetries now random with
      ⟨hcalls, hdb, hstatus⟩ | ⟨hcalls, hmessage, hstatus⟩
    · rw [hcalls, hdb]
      exact .gaveUp hbefore rfl hstatus
    · rw [hcalls]
      exact .failed hbefore hmessage hstatus

theorem retryRun_serves {db₁ : Db} {forceRequeue : Bool} {now random : ℚ} {latest : Snapshot}
    {method : RetryMethod} {settings : ExecutionRetry} (hlatest : db₁.latest = db.latest)
    (hmessage : db₁.message = db.message) :
    Serves config.queueMaxAttempts db₁
      (retryRun config forceRequeue now random latest method settings db₁).db
      (retryRunCalls config forceRequeue method settings db) := by
  have hcalls : tryNackAndRequeueCalls config db = tryNackAndRequeueCalls config db₁ := by
    unfold tryNackAndRequeueCalls systemFailureCalls
    rw [nackMessage_congr hmessage, hlatest]
  unfold retryRun retryRunCalls
  split
  · rw [hcalls]
    exact tryNackAndRequeue_serves
  · exact .moved rfl (status_create_ne rfl (by simp))

theorem attemptFailed_serves {snapshotId : ℕ} {completion : FailedCompletion} {forceRequeue : Bool}
    {now random : ℚ} :
    Serves config.queueMaxAttempts db
      (attemptFailed config snapshotId completion forceRequeue now random db).db
      (attemptFailedCalls config snapshotId completion forceRequeue now random db) :=
  attemptFailedWith_serves fun _ _ _ _ _ hlatest hmessage => retryRun_serves hlatest hmessage

theorem attemptSucceeded_serves {maxAttempts : ℕ} (snapshotId : ℕ) :
    Serves maxAttempts db (attemptSucceeded snapshotId db).db (attemptSucceededCalls snapshotId db) := by
  unfold attemptSucceeded attemptSucceededCalls withLatest
  cases db.latest with
  | none => exact .refl db
  | some latest =>
    dsimp only
    split
    · exact .refl db
    · split
      · exact .refl db
      · exact .acknowledged rfl (status_create_ne rfl (by simp))

theorem startRunAttempt_serves (snapshotId : ℕ) (now random : ℚ) :
    Serves config.queueMaxAttempts db (startRunAttempt config snapshotId now random db).db
      (startRunAttemptCalls config snapshotId now random db) := by
  unfold startRunAttempt startRunAttemptCalls withLatest
  cases db.latest with
  | none => exact .refl db
  | some latest =>
    dsimp only
    split
    · exact .refl db
    · split
      · exact .refl db
      · split
        · exact .refl db
        · split
          · exact attemptFailed_serves
          · exact .moved rfl (status_create_ne rfl (by simp))

theorem enqueueRun_serves {maxAttempts : ℕ} (a : EnqueueArgs) :
    Serves maxAttempts db (enqueueRun a db) [.enqueueMessage] := .enqueued rfl

theorem rescheduleDelayedRun_serves {maxAttempts : ℕ} (delayUntil : ℚ) :
    Serves maxAttempts db (rescheduleDelayedRun delayUntil db).db [] := by
  refine .withLatest fun latest hlatest => ?_
  split
  · exact .refl db
  · exact .moved rfl (status_create_ne rfl (by simp))

theorem enqueueDelayedRun_serves {maxAttempts : ℕ} (now : ℚ) :
    Serves maxAttempts db (enqueueDelayedRun now db).db (enqueueDelayedRunCalls now db) := by
  unfold enqueueDelayedRun enqueueDelayedRunCalls withLatest
  cases db.latest with
  | none => exact .refl db
  | some latest =>
    dsimp only
    split
    · exact .refl db
    · split
      · exact .refl db
      · exact .enqueued rfl

theorem expireRun_serves {maxAttempts : ℕ} :
    Serves maxAttempts db (expireRun db).db (expireRunCalls db) := by
  unfold expireRun expireRunCalls withLatest
  cases db.latest with
  | none => exact .refl db
  | some latest =>
    dsimp only
    split
    · exact .refl db
    · split
      · exact .refl db
      · split
        · exact .refl db
        · exact .acknowledged rfl (status_create_ne rfl (by simp))

theorem createCheckpoint_serves (snapshotId checkpointId : ℕ) :
    Serves config.queueMaxAttempts db (createCheckpoint config snapshotId checkpointId db).db
      (createCheckpointCalls snapshotId db) := by
  unfold createCheckpoint createCheckpointCalls withLatest
  cases db.latest with
  | none => exact .refl db
  | some latest =>
    dsimp only
    split
    · exact .refl db
    · split
      · exact .refl db
      · split
        · exact .enqueued rfl
        · exact .moved rfl (status_create_ne rfl (by simp))

theorem continueRunExecution_serves (snapshotId : ℕ) :
    Serves config.queueMaxAttempts db (continueRunExecution config snapshotId db).db [] := by
  refine .withLatest fun latest hlatest => ?_
  split
  · exact .refl db
  · split
    · exact .refl db
    · exact .moved rfl (status_create_ne rfl (by simp))

theorem blockRunWithWaitpoint_serves {maxAttempts : ℕ} (waitpoints : List String)
    (batch : Option (String × Option ℕ)) :
    Serves maxAttempts db (blockRunWithWaitpoint waitpoints batch db).db [] := by
  refine .withLatest fun latest hlatest => ?_
  dsimp only
  split
  · split
    · exact .untouched rfl id
    · exact .moved rfl (status_create_ne rfl (by simp))
  · split
    · exact .untouched rfl id
    · exact .moved rfl (status_create_ne rfl (by simp))

theorem continueRunIfUnblocked_serves {maxAttempts : ℕ} :
    Serves maxAttempts db (continueRunIfUnblocked db).db (continueRunIfUnblockedCalls db) := by
  unfold continueRunIfUnblocked continueRunIfUnblockedCalls withLatest
  split
  · exact .refl db
  · cases db.latest with
    | none => exact .refl db
    | some latest =>
      dsimp only
      split
      · next hstatus =>
        rw [if_neg (by simp [hstatus])]
        exact .moved rfl (status_create_ne rfl (by simp))
      · next hstatus =>
        split
        · next hcheckpoint =>
          rw [if_neg (by simp [hcheckpoint])]
          exact .refl db
        · next hcheckpoint =>
          rw [if_pos ⟨hstatus, by simp [hcheckpoint]⟩]
          exact .enqueued rfl
      · next hwaiting hsuspended =>
        rw [if_neg fun h => hsuspended h.1]
        exact .refl db

/-! ## dequeue された run -/

/-- `dequeueFromWorkerQueue` の lock の中。取り出した message は、この間に消えていることもある。 -/
def dequeueRun (config : Config) (target : DequeueTarget) (now random : ℚ) (db : Db) : Result :=
  withLatest db fun latest =>
    if latest.executionStatus.isDequeueableExecutionStatus = false then
      if latest.executionStatus = .pendingExecuting then .ok db.acknowledgeMessage
      else
        systemFailure config .dequeuedInvalidState now random
          (createExecutionSnapshot
            { runStatus := latest.runStatus
              attemptNumber := none
              executionStatus := latest.executionStatus
              previousSnapshotId := some latest.id
              checkpointId := latest.checkpointId
              completedWaitpoints := latest.enhanced config.fetch
              error := true } db)
    else if latest.executionStatus = .queuedExecuting then
      .ok (createExecutionSnapshot
        { runStatus := latest.runStatus
          attemptNumber := latest.attemptNumber
          executionStatus := .executing
          previousSnapshotId := some latest.id
          batchId := latest.batchId
          completedWaitpoints := latest.enhanced config.fetch } db)
    else
      match target with
      | .noRun | .archived => .ok db.acknowledgeMessage
      | .pendingVersion => pendingVersion db
      | .mismatch => .ok (db.nackMessage config.queueMaxAttempts).2
      | .ready task maxAttempts retryConfig machine =>
        let db := db.updateRun fun run =>
          { run with
            status := .dequeued
            lockedAt := some now
            lockedById := some task
            settings :=
              { maxAttempts :=
                  run.settings.maxAttempts.filter (· ≠ 0) <|> maxAttempts <|>
                    run.settings.maxAttempts
                lockedRetryConfig := run.settings.lockedRetryConfig <|> retryConfig
                machinePreset := some machine } }
        .ok (createExecutionSnapshot
          { runStatus := .dequeued
            attemptNumber := db.run.attemptNumber
            executionStatus := .pendingExecuting
            previousSnapshotId := some latest.id
            checkpointId := latest.checkpointId
            batchId := latest.batchId
            completedWaitpoints := latest.enhanced config.fetch } db)

/-- run があり、environment が archive されていない。 -/
def Active : DequeueTarget → Prop
  | .noRun | .archived => False
  | .pendingVersion | .mismatch | .ready .. => True

/-- QUEUED の run に別の worker の version が来たときは、nack の返り値を見ずに終わる。 -/
theorem dequeueRun_mismatch (now random : ℚ) (h : db.status = some .queued) :
    dequeueRun config .mismatch now random db = .ok (db.nackMessage config.queueMaxAttempts).2 ∧
      dequeueRunCalls .mismatch db = [.nackMessage] := by
  obtain ⟨latest, hlatest, hstatus⟩ := Option.map_eq_some_iff.mp h
  unfold dequeueRun dequeueRunCalls withLatest
  rw [hlatest]
  dsimp only
  rw [hstatus]
  exact ⟨rfl, rfl⟩

/-- それ以外の dequeue の後、run は QUEUED ではない。 -/
theorem dequeueRun_serves {target : DequeueTarget} (now random : ℚ) (hactive : Active target)
    (hmismatch : db.status = some .queued → target ≠ .mismatch) :
    Serves config.queueMaxAttempts db (dequeueRun config target now random db).db
        (dequeueRunCalls target db) ∧
      (dequeueRun config target now random db).db.status ≠ some .queued := by
  unfold dequeueRun dequeueRunCalls withLatest
  cases hlatest : db.latest with
  | none =>
    refine ⟨.refl db, ?_⟩
    show db.status ≠ _
    unfold Db.status
    rw [hlatest]
    simp
  | some latest =>
    have hstatus := Db.status_of_latest hlatest
    dsimp only
    split
    · -- 取り消しを待つ run は ack され、他の状態では run が system failure になる
      split
      · next hpending =>
        have hkept : db.acknowledgeMessage.status ≠ some .queued := by
          show db.status ≠ _
          rw [hstatus, hpending]
          simp
        exact ⟨.acknowledged rfl hkept, hkept⟩
      · generalize hinvalid : createExecutionSnapshot _ db = db₁
        have hlatest₁ : db₁.latest = db.latest := by
          rw [← hinvalid]
          exact Db.latest_create_invalid rfl
        have hmessage₁ : db₁.message = db.message := by
          rw [← hinvalid]
          rfl
        have hcalls : systemFailureCalls db = systemFailureCalls db₁ := by
          unfold systemFailureCalls
          rw [hlatest₁]
        rw [hcalls]
        refine ⟨.of_same hlatest₁ hmessage₁ (systemFailure_serves ..), ?_⟩
        rcases systemFailure_cases .dequeuedInvalidState now random with
          ⟨-, hdb, hfinal⟩ | ⟨-, -, hfinal⟩
        · rw [hdb]
          exact hfinal
        · exact hfinal
    · next hdequeueable =>
      split
      · have hmoved : (createExecutionSnapshot
            { runStatus := latest.runStatus
              attemptNumber := latest.attemptNumber
              executionStatus := .executing
              previousSnapshotId := some latest.id
              batchId := latest.batchId
              completedWaitpoints := latest.enhanced config.fetch } db).status ≠ some .queued :=
          status_create_ne rfl (by simp)
        exact ⟨.moved rfl hmoved, hmoved⟩
      · next hexecuting =>
        have hqueued : latest.executionStatus = .queued := by
          revert hdequeueable hexecuting
          cases latest.executionStatus <;> simp [ExecutionStatus.isDequeueableExecutionStatus]
        rw [hqueued] at hstatus
        -- 実行中でなければ QUEUED であり、残るのは worker の側の結果である
        cases target with
        | noRun => exact hactive.elim
        | archived => exact hactive.elim
        | mismatch => exact absurd rfl (hmismatch hstatus)
        | pendingVersion =>
          exact ⟨.acknowledged rfl (status_create_ne rfl (by simp)), status_create_ne rfl (by simp)⟩
        | ready task maxAttempts retryConfig machine =>
          exact ⟨.moved rfl (status_create_ne rfl (by simp)), status_create_ne rfl (by simp)⟩

theorem handleStalledSnapshot_serves (snapshotId : ℕ) (now random : ℚ) :
    Serves config.queueMaxAttempts db (handleStalledSnapshot config snapshotId now random db).db
      (handleStalledSnapshotCalls config snapshotId now random db) := by
  unfold handleStalledSnapshot handleStalledSnapshotCalls withLatest
  cases db.latest with
  | none => exact .refl db
  | some latest =>
    dsimp only
    split
    · exact .refl db
    · cases latest.executionStatus with
      | pendingExecuting => exact tryNackAndRequeue_serves
      | executing => exact attemptFailed_serves
      | executingWithWaitpoints => exact attemptFailed_serves
      | suspended => exact continueRunIfUnblocked_serves
      | pendingCancel => exact cancelRun_serves true
      | _ => exact .refl db

/-- `#handleRepairSnapshot`。SUSPENDED と FINISHED の修復は concurrency の集合だけを書く。 -/
def handleRepairSnapshot (config : Config) (snapshotId : ℕ) (db : Db) : Result :=
  withLatest db fun latest =>
    if latest.id ≠ snapshotId then .ok db
    else if latest.executionStatus = .queued then .ok (db.nackMessage config.queueMaxAttempts).2
    else .ok db

/-! ## run と message を並べた実行 -/

/--
database と、message を運んでいる途中の処理。`moving` は zset から取り出してまだ RPUSH していない数、`popped` は
worker queue から取り出してまだ message key を読んでいない数、`dequeued` は読み終えて run lock を待っている数、
`marked` は `concurrencySweeper` が終わったと見て印を付け、まだ ack していない数である。
-/
structure Sys where
  engine : Engine
  store : Store
  moving : ℕ
  popped : ℕ
  dequeued : ℕ
  marked : ℕ

/-- `trigger` が run の行を作った直後。 -/
def Sys.triggered (delayUntil : Option ℚ) (batchId : Option String) (settings : RetrySettings) :
    Sys where
  engine := RunEngine.triggered delayUntil batchId settings
  store := ⟨none, false, 0, false⟩
  moving := 0
  popped := 0
  dequeued := 0
  marked := 0

/-- dequeue された run の処理ではない操作。 -/
def isDirect : RunEngine.Label → Bool
  | .dequeueFromWorkerQueue .. | .tryNackAndRequeue .. => false
  | _ => true

/-- run と message に対する一歩。`dequeueFailed` は `dequeueFromWorkerQueue` の `catch` である。 -/
inductive Label
  | engine (l : RunEngine.Label) (h : isDirect l = true)
  | dequeueMessagesFromQueue
  | enqueueMessagesToWorkerQueues
  | popMessageFromWorkerQueue
  | dequeueMessageFromKey
  | dequeueFromWorkerQueue (target : DequeueTarget) (now random : ℚ)
  | dequeueFailed (now random : ℚ)
  | handleRepairSnapshot (snapshotId : ℕ)
  | concurrencySweeperCallback
  | processMarkedRun

/-- 操作が出す command。 -/
def engineCalls (config : Config) (e : Engine) : RunEngine.Label → List Call
  | .triggerEnqueueMessage => if e.trigger = .snapshotCreated then [.enqueueMessage] else []
  | .startRunAttempt snapshotId now random => startRunAttemptCalls config snapshotId now random e.db
  | .attemptSucceeded snapshotId => attemptSucceededCalls snapshotId e.db
  | .attemptFailed snapshotId completion forceRequeue now random =>
    attemptFailedCalls config snapshotId completion forceRequeue now random e.db
  | .cancelRun finalizeRun => cancelRunCalls finalizeRun e.db
  | .expireRun => expireRunCalls e.db
  | .createCheckpoint snapshotId _ => createCheckpointCalls snapshotId e.db
  | .continueRunIfUnblocked => continueRunIfUnblockedCalls e.db
  | .enqueueDelayedRun now => enqueueDelayedRunCalls now e.db
  | .handleStalledSnapshot snapshotId now random =>
    handleStalledSnapshotCalls config snapshotId now random e.db
  | .pendingVersionEnqueue => if e.pendingVersionUpdated = [] then [] else [.enqueueMessage]
  | .dequeueFromWorkerQueue target _ _ => dequeueRunCalls target e.db
  | .tryNackAndRequeue _ _ => tryNackAndRequeueCalls config e.db
  | .triggerCreateSnapshot | .continueRunExecution _ | .blockRunWithWaitpoint _ _
  | .completeWaitpoint _ | .rescheduleDelayedRun _ | .pendingVersionRead
  | .pendingVersionUpdate => []

/-- 一歩が出す command。 -/
def Label.calls (config : Config) (s : Sys) : Label → List Call
  | .engine l _ => engineCalls config s.engine l
  | .dequeueFromWorkerQueue target _ _ =>
    if s.dequeued = 0 then [] else dequeueRunCalls target s.engine.db
  | .dequeueFailed _ _ => if s.dequeued = 0 then [] else tryNackAndRequeueCalls config s.engine.db
  | .handleRepairSnapshot snapshotId => handleRepairSnapshotCalls snapshotId s.engine.db
  | .processMarkedRun => if s.marked = 0 then [] else [.acknowledgeMessage false]
  | .dequeueMessagesFromQueue | .enqueueMessagesToWorkerQueues | .popMessageFromWorkerQueue
  | .dequeueMessageFromKey | .concurrencySweeperCallback => []

/-- 操作の後の行と、command の後の message。 -/
def Sys.put (config : Config) (engine : Engine) (calls : List Call) (s : Sys) : Sys :=
  { s with engine := engine, store := runCalls config.queueMaxAttempts calls s.store }

/-- lock の中の操作の後の行と、command の後の message。 -/
def Sys.putDb (config : Config) (db : Db) (calls : List Call) (s : Sys) : Sys :=
  s.put config { s.engine with db := db } calls

/-- Lua `dequeueMessagesFromQueue`。message key の無いものは zset に残る。 -/
def Sys.dequeueMessagesFromQueue (s : Sys) : Sys :=
  if s.store.queue = true ∧ s.store.message ≠ none then
    { s with store := { s.store with queue := false }, moving := s.moving + 1 }
  else s

/-- `#enqueueMessagesToWorkerQueues`。 -/
def Sys.enqueueMessagesToWorkerQueues (s : Sys) : Sys :=
  if s.moving = 0 then s
  else
    { s with
      moving := s.moving - 1
      store := { s.store with worker := s.store.worker + 1 } }

/-- worker queue からの BLPOP か LPOP。 -/
def Sys.popMessageFromWorkerQueue (s : Sys) : Sys :=
  if s.store.worker = 0 then s
  else
    { s with
      store := { s.store with worker := s.store.worker - 1 }
      popped := s.popped + 1 }

/-- `#dequeueMessageFromKey`。message key が無ければ、取り出したものは捨てられる。 -/
def Sys.dequeueMessageFromKey (s : Sys) : Sys :=
  if s.popped = 0 then s
  else
    { s with
      popped := s.popped - 1
      dequeued := if s.store.message = none then s.dequeued else s.dequeued + 1 }

/-- `dequeueFromWorkerQueue`。throw したときは `catch` の処理が残る。 -/
def Sys.dequeueFromWorkerQueue (config : Config) (target : DequeueTarget) (now random : ℚ)
    (s : Sys) : Sys :=
  if s.dequeued = 0 then s
  else
    let result := dequeueRun config target now random s.engine.db
    { s.putDb config result.db (dequeueRunCalls target s.engine.db) with
      dequeued := if result.error = none then s.dequeued - 1 else s.dequeued }

/-- `dequeueFromWorkerQueue` の `catch`。 -/
def Sys.dequeueFailed (config : Config) (now random : ℚ) (s : Sys) : Sys :=
  if s.dequeued = 0 then s
  else
    { s.putDb config (tryNackAndRequeue config none [] none now random s.engine.db).db
        (tryNackAndRequeueCalls config s.engine.db) with
      dequeued := s.dequeued - 1 }

/-- `#concurrencySweeperCallback` と `markRunsForAck`。 -/
def Sys.concurrencySweeperCallback (s : Sys) : Sys :=
  if s.engine.db.run.status.isFinalRunStatus = true then { s with marked := s.marked + 1 } else s

/-- `processMarkedRun`。印が付いた後の run の状態は調べない。 -/
def Sys.processMarkedRun (config : Config) (s : Sys) : Sys :=
  if s.marked = 0 then s
  else
    { s.putDb config s.engine.db.acknowledgeMessage [.acknowledgeMessage false] with
      marked := s.marked - 1 }

/-- 一歩の後の状態。 -/
def step (config : Config) (s : Sys) : Label → Sys
  | .engine l _ => s.put config (s.engine.step config l) (engineCalls config s.engine l)
  | .dequeueMessagesFromQueue => s.dequeueMessagesFromQueue
  | .enqueueMessagesToWorkerQueues => s.enqueueMessagesToWorkerQueues
  | .popMessageFromWorkerQueue => s.popMessageFromWorkerQueue
  | .dequeueMessageFromKey => s.dequeueMessageFromKey
  | .dequeueFromWorkerQueue target now random => s.dequeueFromWorkerQueue config target now random
  | .dequeueFailed now random => s.dequeueFailed config now random
  | .handleRepairSnapshot snapshotId =>
    s.putDb config (handleRepairSnapshot config snapshotId s.engine.db).db
      (handleRepairSnapshotCalls snapshotId s.engine.db)
  | .concurrencySweeperCallback => s.concurrencySweeperCallback
  | .processMarkedRun => s.processMarkedRun config

/-! ## 不変条件 -/

/-- run に対する操作が何も進んでいない。 -/
def Sys.Quiet (s : Sys) : Prop :=
  s.engine.trigger = .done ∧ s.engine.pendingVersionRead = 0 ∧ s.engine.pendingVersionUpdated = [] ∧
    s.moving = 0 ∧ s.popped = 0 ∧ s.dequeued = 0

/-- 操作が進んでいない QUEUED の run の message は、zset か worker queue にあり、dead letter queue には無い。 -/
def Sys.Delivered (s : Sys) : Prop :=
  s.Quiet → s.engine.db.status = some .queued →
    s.store.message ≠ none ∧ (s.store.queue = true ∨ 0 < s.store.worker) ∧
      s.store.deadLetter = false

/-- message を待っている。`trigger` が QUEUED の snapshot を作って enqueue するまでの間は除く。 -/
def Sys.Waiting (s : Sys) : Prop :=
  s.engine.db.status = some .queued ∧ s.engine.trigger ≠ .snapshotCreated

instance (s : Sys) : Decidable s.Waiting := inferInstanceAs (Decidable (_ ∧ _))

/-- message があり、zset か worker queue か、`n` 個の手のどれかにある。 -/
def Store.Held (n : ℕ) (m : Store) : Prop :=
  m.message ≠ none ∧ (m.queue = true ∨ 0 < m.worker + n) ∧ m.deadLetter = false

/-- message を運んでいる処理の数。 -/
def Sys.hands (s : Sys) : ℕ := s.moving + s.popped + s.dequeued

/-- 二つの message の attempt は一致し、待っている run の message はどこかにある。 -/
structure Inv (s : Sys) : Prop where
  message : s.store.message = s.engine.db.message
  held : s.Waiting → s.store.Held s.hands

/-- 待っている run の message を手放す一歩。 -/
def Label.abandons (config : Config) (s : Sys) : Label → Bool
  | .dequeueFromWorkerQueue .mismatch _ _ =>
    s.dequeued ≠ 0 && s.store.exhausted config.queueMaxAttempts
  | .handleRepairSnapshot snapshotId =>
    s.engine.db.latest.any (·.id = snapshotId) && s.store.exhausted config.queueMaxAttempts
  | .processMarkedRun => s.marked ≠ 0
  | _ => false

/-- 待っている run の message を手放さず、dead letter queue にある message を queue に戻さない。 -/
def Keeps (config : Config) (s : Sys) (l : Label) : Prop :=
  (s.Waiting → l.abandons config s = false) ∧
    (s.store.deadLetter = true →
      ∀ c ∈ l.calls config s, c.requeues config.queueMaxAttempts s.store = false)

instance (config : Config) (s : Sys) (l : Label) : Decidable (Keeps config s l) :=
  inferInstanceAs (Decidable (_ ∧ _))

/-! ## command の効果 -/

section Effects

variable {maxAttempts : ℕ} {m : Store} {db' : Db} {calls : List Call}

theorem acknowledgeMessage_message (removeFromWorkerQueue : Bool) :
    (m.acknowledgeMessage removeFromWorkerQueue).message = none := by
  unfold Store.acknowledgeMessage
  split
  · next h => exact h
  · rfl

/-- 戻せなかった nack の後も、message key は変わらない。 -/
theorem nackMessage_message (h : ∀ attempt, m.message = some attempt → maxAttempts ≤ attempt + 1) :
    (m.nackMessage maxAttempts).2.message = m.message := by
  unfold Store.nackMessage
  cases hm : m.message with
  | none => exact hm
  | some attempt =>
    dsimp only
    rw [if_pos (h attempt hm)]
    exact hm

theorem nackMessage_requeued {attempt : ℕ} (hm : m.message = some attempt)
    (h : attempt + 1 < maxAttempts) :
    m.nackMessage maxAttempts = (some true, { m with message := some (attempt + 1), queue := true }) := by
  unfold Store.nackMessage
  rw [hm]
  dsimp only
  rw [if_neg (by omega)]

/-- database の操作が見る message は、RunQueue の message key と同じに動く。 -/
theorem Serves.message (h : Serves maxAttempts db db' calls) (hm : m.message = db.message) :
    (runCalls maxAttempts calls m).message = db'.message := by
  cases h with
  | untouched hmessage hstatus => exact hm.trans hmessage.symm
  | enqueued hmessage => exact hmessage.symm
  | requeued hbefore hmax hmessage =>
    show (m.nackMessage maxAttempts).2.message = _
    rw [nackMessage_requeued (hm.trans hbefore) hmax, hmessage]
  | acknowledged hmessage hstatus => exact (acknowledgeMessage_message _).trans hmessage.symm
  | gaveUp hbefore hmessage hstatus =>
    rw [hmessage, ← hm]
    exact nackMessage_message fun attempt h => hbefore attempt (hm ▸ h)
  | failed hbefore hmessage hstatus => exact (acknowledgeMessage_message _).trans hmessage.symm

/-- 操作の後に QUEUED の run は、前から QUEUED で message にも触れられていないか、message が queue にある。 -/
theorem Serves.held (h : Serves maxAttempts db db' calls) (hm : m.message = db.message)
    (hdead : m.deadLetter = true → ∀ c ∈ calls, c.requeues maxAttempts m = false)
    (hqueued : db'.status = some .queued) :
    calls = [] ∧ db.status = some .queued ∨ ∀ n, (runCalls maxAttempts calls m).Held n := by
  have halive : ∀ c ∈ calls, c.requeues maxAttempts m = true → m.deadLetter = false := by
    intro c hc hrequeues
    cases hm : m.deadLetter with
    | false => rfl
    | true =>
      rw [hdead hm c hc] at hrequeues
      cases hrequeues
  cases h with
  | untouched hmessage hstatus => exact .inl ⟨rfl, hstatus hqueued⟩
  | enqueued hmessage =>
    refine .inr fun n => ⟨by simp [runCalls, Call.apply, Store.enqueueMessage], .inl rfl, ?_⟩
    exact halive _ List.mem_cons_self rfl
  | requeued hbefore hmax hmessage =>
    have halive := halive _ List.mem_cons_self (by
      unfold Call.requeues
      rw [hm, hbefore]
      simpa using hmax)
    refine .inr fun n => ?_
    show (m.nackMessage maxAttempts).2.Held n
    rw [nackMessage_requeued (hm.trans hbefore) hmax]
    exact ⟨by simp, .inl rfl, halive⟩
  | acknowledged hmessage hstatus => exact absurd hqueued hstatus
  | gaveUp hbefore hmessage hstatus => exact absurd hqueued hstatus
  | failed hbefore hmessage hstatus => exact absurd hqueued hstatus

end Effects

/-! ## 一歩ごとの保存 -/

/-- lock の中の操作と `enqueueRunsForBackgroundWorker` の一歩。 -/
theorem engine_serves {e : Engine} {l : RunEngine.Label} (hdirect : isDirect l = true)
    (hcreate : l ≠ .triggerCreateSnapshot) :
    Serves config.queueMaxAttempts e.db (e.step config l).db (engineCalls config e l) := by
  cases l with
  | triggerCreateSnapshot => exact absurd rfl hcreate
  | triggerEnqueueMessage =>
    simp only [Engine.step, Label.locked, Engine.unlocked, engineCalls]
    split
    · exact .enqueued rfl
    · exact .refl _
  | dequeueFromWorkerQueue target now random => cases hdirect
  | startRunAttempt snapshotId now random => exact startRunAttempt_serves snapshotId now random
  | attemptSucceeded snapshotId => exact attemptSucceeded_serves snapshotId
  | attemptFailed snapshotId completion forceRequeue now random => exact attemptFailed_serves
  | cancelRun finalizeRun => exact cancelRun_serves finalizeRun
  | expireRun => exact expireRun_serves
  | createCheckpoint snapshotId checkpointId => exact createCheckpoint_serves snapshotId checkpointId
  | continueRunExecution snapshotId => exact continueRunExecution_serves snapshotId
  | blockRunWithWaitpoint waitpoints batch => exact blockRunWithWaitpoint_serves waitpoints batch
  | completeWaitpoint id => exact .untouched rfl fun h => h
  | continueRunIfUnblocked => exact continueRunIfUnblocked_serves
  | rescheduleDelayedRun delayUntil => exact rescheduleDelayedRun_serves delayUntil
  | enqueueDelayedRun now => exact enqueueDelayedRun_serves now
  | handleStalledSnapshot snapshotId now random =>
    exact handleStalledSnapshot_serves snapshotId now random
  | tryNackAndRequeue now random => cases hdirect
  | pendingVersionRead =>
    simp only [Engine.step, Label.locked, Engine.unlocked, engineCalls]
    split
    · exact .refl _
    · exact .refl _
  | pendingVersionUpdate =>
    simp only [Engine.step, Label.locked, Engine.unlocked, engineCalls]
    split
    · exact .untouched rfl fun h => h
    · exact .refl _
  | pendingVersionEnqueue =>
    simp only [Engine.step, Label.locked, Engine.unlocked, engineCalls]
    cases e.pendingVersionUpdated with
    | nil => exact .refl _
    | cons attemptNumber rest => exact enqueueRun_serves _

/-- RunQueue に触れない操作は、`trigger` を進めない。 -/
theorem engine_trigger {e : Engine} {l : RunEngine.Label} (hcreate : l ≠ .triggerCreateSnapshot)
    (h : engineCalls config e l = []) : (e.step config l).trigger = e.trigger := by
  cases l with
  | triggerCreateSnapshot => exact absurd rfl hcreate
  | triggerEnqueueMessage =>
    simp only [Engine.step, Label.locked, Engine.unlocked]
    split
    · next hcreated =>
      unfold engineCalls at h
      rw [if_pos hcreated] at h
      cases h
    · rfl
  | pendingVersionRead =>
    simp only [Engine.step, Label.locked, Engine.unlocked]
    split
    · rfl
    · rfl
  | pendingVersionUpdate =>
    simp only [Engine.step, Label.locked, Engine.unlocked]
    split
    · rfl
    · rfl
  | pendingVersionEnqueue =>
    simp only [Engine.step, Label.locked, Engine.unlocked]
    split
    · rfl
    · rfl
  | _ => rfl

theorem Store.Held.mono {m : Store} {n n' : ℕ} (h : m.Held n) (hn : n ≤ n') : m.Held n' :=
  ⟨h.1, h.2.1.imp_right fun hpos => by omega, h.2.2⟩

section Invariant

variable {s s' : Sys}

theorem Inv.of_serves {calls : List Call} (hinv : Inv s)
    (hserves : Serves config.queueMaxAttempts s.engine.db s'.engine.db calls)
    (hstore : s'.store = runCalls config.queueMaxAttempts calls s.store)
    (hdead : s.store.deadLetter = true →
      ∀ c ∈ calls, c.requeues config.queueMaxAttempts s.store = false)
    (hidle : calls = [] → s'.engine.db.status = some .queued →
      s'.engine.trigger = s.engine.trigger ∧ s.hands ≤ s'.hands) : Inv s' := by
  refine ⟨by rw [hstore]; exact hserves.message hinv.message, fun hwaiting => ?_⟩
  rcases hserves.held hinv.message hdead hwaiting.1 with ⟨hcalls, hqueued⟩ | hheld
  · obtain ⟨htrigger, hhands⟩ := hidle hcalls hwaiting.1
    rw [hcalls] at hstore
    have hbefore := (hinv.held ⟨hqueued, htrigger ▸ hwaiting.2⟩).mono hhands
    rw [hstore]
    exact hbefore
  · rw [hstore]
    exact hheld _

/-- QUEUED の run の message を nack しただけの一歩。 -/
theorem Inv.of_nack (hinv : Inv s)
    (hdb : s'.engine.db = (s.engine.db.nackMessage config.queueMaxAttempts).2)
    (htrigger : s'.engine.trigger = s.engine.trigger)
    (hstore : s'.store = (s.store.nackMessage config.queueMaxAttempts).2)
    (hkept : s.Waiting → s.store.exhausted config.queueMaxAttempts = false) : Inv s' := by
  cases hnack : (s.engine.db.nackMessage config.queueMaxAttempts).1 with
  | true =>
    obtain ⟨attempt, hbefore, hmax, hnacked⟩ := nackMessage_true hnack
    rw [hnacked] at hdb
    rw [nackMessage_requeued (hinv.message.trans hbefore) hmax] at hstore
    refine ⟨by rw [hstore, hdb], fun hwaiting => ?_⟩
    have hwaitingBefore : s.Waiting := by
      refine ⟨?_, htrigger ▸ hwaiting.2⟩
      have hstatus := hwaiting.1
      rw [hdb] at hstatus
      exact hstatus
    rw [hstore]
    exact ⟨by simp, .inl rfl, (hinv.held hwaitingBefore).2.2⟩
  | false =>
    obtain ⟨hnacked, hbefore⟩ := nackMessage_false hnack
    replace hdb : s'.engine.db = s.engine.db := hdb.trans (congrArg Prod.snd hnacked)
    refine ⟨?_, fun hwaiting => ?_⟩
    · rw [hstore, hdb, ← hinv.message]
      exact nackMessage_message fun attempt h => hbefore attempt (hinv.message ▸ h)
    · have hwaitingBefore : s.Waiting := ⟨hdb ▸ hwaiting.1, htrigger ▸ hwaiting.2⟩
      obtain ⟨attempt, hattempt⟩ := Option.ne_none_iff_exists'.mp (hinv.held hwaitingBefore).1
      have hexhausted := hkept hwaitingBefore
      unfold Store.exhausted at hexhausted
      rw [hattempt] at hexhausted
      have hmax := hbefore attempt (hinv.message ▸ hattempt)
      simp only [Option.any_some, decide_eq_false_iff_not] at hexhausted
      exact absurd hmax hexhausted

/-- message を運ぶだけの一歩。 -/
theorem Inv.of_carried (hinv : Inv s) (hengine : s'.engine = s.engine)
    (hmessage : s'.store.message = s.store.message)
    (hdead : s'.store.deadLetter = s.store.deadLetter)
    (hplace : s.store.message ≠ none → s.store.queue = true ∨ 0 < s.store.worker + s.hands →
      s'.store.queue = true ∨ 0 < s'.store.worker + s'.hands) : Inv s' := by
  refine ⟨by rw [hmessage, hengine]; exact hinv.message, fun hwaiting => ?_⟩
  have hheld := hinv.held ⟨hengine ▸ hwaiting.1, hengine ▸ hwaiting.2⟩
  exact ⟨hmessage ▸ hheld.1, hplace hheld.1 hheld.2.1, hdead ▸ hheld.2.2⟩

theorem inv_engine {l : RunEngine.Label} {hdirect : isDirect l = true} (hinv : Inv s)
    (hkeeps : Keeps config s (.engine l hdirect)) : Inv (step config s (.engine l hdirect)) := by
  by_cases hcreate : l = .triggerCreateSnapshot
  · subst hcreate
    by_cases hcreated : s.engine.trigger = .created
    · refine ⟨?_, fun hwaiting => ?_⟩
      · simp only [step, Sys.put, Engine.step, Label.locked, Engine.unlocked, if_pos hcreated]
        exact hinv.message
      · refine absurd ?_ hwaiting.2
        simp only [step, Sys.put, Engine.step, Label.locked, Engine.unlocked, if_pos hcreated]
    · have hsame : step config s (.engine .triggerCreateSnapshot hdirect) = s := by
        simp only [step, Sys.put, Engine.step, Label.locked, Engine.unlocked, if_neg hcreated]
        rfl
      rw [hsame]
      exact hinv
  · exact hinv.of_serves (engine_serves hdirect hcreate) rfl hkeeps.2 fun hcalls _ =>
      ⟨engine_trigger hcreate hcalls, le_refl _⟩

theorem inv_dequeueFromWorkerQueue {target : DequeueTarget} {now random : ℚ} (hinv : Inv s)
    (hactive : Active target) (hkeeps : Keeps config s (.dequeueFromWorkerQueue target now random)) :
    Inv (step config s (.dequeueFromWorkerQueue target now random)) := by
  simp only [step, Sys.dequeueFromWorkerQueue]
  by_cases hzero : s.dequeued = 0
  · rw [if_pos hzero]
    exact hinv
  · rw [if_neg hzero]
    by_cases hmismatch : s.engine.db.status = some .queued ∧ target = .mismatch
    · obtain ⟨hqueued, rfl⟩ := hmismatch
      obtain ⟨hdb, hcalls⟩ : dequeueRun config .mismatch now random s.engine.db = _ ∧ _ :=
        dequeueRun_mismatch now random hqueued
      refine hinv.of_nack (congrArg Result.db hdb) rfl ?_ fun hwaiting => ?_
      · exact congrArg (runCalls _ · s.store) hcalls
      · simpa [Label.abandons, hzero] using hkeeps.1 hwaiting
    · obtain ⟨hserves, hstatus⟩ : Serves config.queueMaxAttempts s.engine.db
          (dequeueRun config target now random s.engine.db).db _ ∧ _ :=
        dequeueRun_serves now random hactive fun hqueued htarget => hmismatch ⟨hqueued, htarget⟩
      refine hinv.of_serves hserves rfl (fun hdead c hc => hkeeps.2 hdead c ?_) fun _ hqueued =>
        absurd hqueued hstatus
      show c ∈ if s.dequeued = 0 then _ else _
      rw [if_neg hzero]
      exact hc

theorem inv_dequeueFailed {now random : ℚ} (hinv : Inv s)
    (hkeeps : Keeps config s (.dequeueFailed now random)) :
    Inv (step config s (.dequeueFailed now random)) := by
  simp only [step, Sys.dequeueFailed]
  by_cases hzero : s.dequeued = 0
  · rw [if_pos hzero]
    exact hinv
  · rw [if_neg hzero]
    refine hinv.of_serves tryNackAndRequeue_serves rfl (fun hdead c hc => hkeeps.2 hdead c ?_)
      fun hcalls _ => ?_
    · show c ∈ if s.dequeued = 0 then _ else _
      rw [if_neg hzero]
      exact hc
    · unfold tryNackAndRequeueCalls at hcalls
      cases hcalls

/-- 修復は、最新の snapshot が QUEUED のときだけ message を nack する。 -/
theorem handleRepairSnapshot_cases (config : Config) (snapshotId : ℕ) (db : Db) :
    (handleRepairSnapshot config snapshotId db).db = db ∧
        handleRepairSnapshotCalls snapshotId db = [] ∨
      db.latest.any (·.id = snapshotId) = true ∧
        (handleRepairSnapshot config snapshotId db).db =
          (db.nackMessage config.queueMaxAttempts).2 ∧
        handleRepairSnapshotCalls snapshotId db = [.nackMessage] := by
  unfold handleRepairSnapshot handleRepairSnapshotCalls withLatest
  cases db.latest with
  | none => exact .inl ⟨rfl, rfl⟩
  | some latest =>
    dsimp only
    by_cases hid : latest.id = snapshotId
    · rw [if_neg (not_not.mpr hid), if_neg (not_not.mpr hid)]
      by_cases hqueued : latest.executionStatus = .queued
      · rw [if_pos hqueued, if_pos hqueued]
        exact .inr ⟨by simpa using hid, rfl, rfl⟩
      · rw [if_neg hqueued, if_neg hqueued]
        exact .inl ⟨rfl, rfl⟩
    · rw [if_pos hid, if_pos hid]
      exact .inl ⟨rfl, rfl⟩

theorem inv_handleRepairSnapshot {snapshotId : ℕ} (hinv : Inv s)
    (hkeeps : Keeps config s (.handleRepairSnapshot snapshotId)) :
    Inv (step config s (.handleRepairSnapshot snapshotId)) := by
  simp only [step]
  rcases handleRepairSnapshot_cases config snapshotId s.engine.db with
    ⟨hdb, hcalls⟩ | ⟨hlatest, hdb, hcalls⟩
  · rw [hdb, hcalls]
    exact hinv
  · rw [hdb, hcalls]
    refine hinv.of_nack rfl rfl rfl fun hwaiting => ?_
    simpa [Label.abandons, hlatest] using hkeeps.1 hwaiting

theorem inv_processMarkedRun (hinv : Inv s) (hkeeps : Keeps config s .processMarkedRun) :
    Inv (step config s .processMarkedRun) := by
  simp only [step, Sys.processMarkedRun]
  by_cases hzero : s.marked = 0
  · rw [if_pos hzero]
    exact hinv
  · rw [if_neg hzero]
    refine ⟨acknowledgeMessage_message false, fun hwaiting => ?_⟩
    have habandons := hkeeps.1 hwaiting
    simp [Label.abandons, hzero] at habandons

theorem inv_dequeueMessagesFromQueue (hinv : Inv s) : Inv s.dequeueMessagesFromQueue := by
  unfold Sys.dequeueMessagesFromQueue
  split
  · refine hinv.of_carried rfl rfl rfl fun _ _ => .inr ?_
    simp only [Sys.hands]
    omega
  · exact hinv

theorem inv_enqueueMessagesToWorkerQueues (hinv : Inv s) :
    Inv s.enqueueMessagesToWorkerQueues := by
  unfold Sys.enqueueMessagesToWorkerQueues
  split
  · exact hinv
  · refine hinv.of_carried rfl rfl rfl fun _ hplace => hplace.imp_right fun hpos => ?_
    simp only [Sys.hands]
    omega

theorem inv_popMessageFromWorkerQueue (hinv : Inv s) : Inv s.popMessageFromWorkerQueue := by
  unfold Sys.popMessageFromWorkerQueue
  split
  · exact hinv
  · refine hinv.of_carried rfl rfl rfl fun _ hplace => hplace.imp_right fun hpos => ?_
    simp only [Sys.hands]
    omega

/-- 待っている run の message key はあるので、取り出したものは捨てられない。 -/
theorem inv_dequeueMessageFromKey (hinv : Inv s) : Inv s.dequeueMessageFromKey := by
  unfold Sys.dequeueMessageFromKey
  split
  · exact hinv
  · next hpopped =>
    refine hinv.of_carried rfl rfl rfl fun hmessage hplace => hplace.imp_right fun hpos => ?_
    simp only [Sys.hands] at hpos ⊢
    rw [if_neg hmessage]
    omega

theorem inv_concurrencySweeperCallback (hinv : Inv s) : Inv s.concurrencySweeperCallback := by
  unfold Sys.concurrencySweeperCallback
  split
  · exact hinv.of_carried rfl rfl rfl fun _ hplace => hplace
  · exact hinv

/-- dequeue が見る run はあり、environment は archive されていない。 -/
def Label.Active : Label → Prop
  | .dequeueFromWorkerQueue target _ _ => QueueMessage.Active target
  | _ => True

/-- message を手放さない一歩は、不変条件を保つ。 -/
theorem inv_step {l : Label} (hinv : Inv s) (hactive : l.Active) (hkeeps : Keeps config s l) :
    Inv (step config s l) := by
  cases l with
  | engine l hdirect => exact inv_engine hinv hkeeps
  | dequeueMessagesFromQueue => exact inv_dequeueMessagesFromQueue hinv
  | enqueueMessagesToWorkerQueues => exact inv_enqueueMessagesToWorkerQueues hinv
  | popMessageFromWorkerQueue => exact inv_popMessageFromWorkerQueue hinv
  | dequeueMessageFromKey => exact inv_dequeueMessageFromKey hinv
  | dequeueFromWorkerQueue target now random => exact inv_dequeueFromWorkerQueue hinv hactive hkeeps
  | dequeueFailed now random => exact inv_dequeueFailed hinv hkeeps
  | handleRepairSnapshot snapshotId => exact inv_handleRepairSnapshot hinv hkeeps
  | concurrencySweeperCallback => exact inv_concurrencySweeperCallback hinv
  | processMarkedRun => exact inv_processMarkedRun hinv hkeeps

theorem inv_triggered (delayUntil : Option ℚ) (batchId : Option String) (settings : RetrySettings) :
    Inv (.triggered delayUntil batchId settings) := by
  refine ⟨rfl, fun hwaiting => ?_⟩
  have hstatus := hwaiting.1
  simp only [Sys.triggered, RunEngine.triggered] at hstatus
  rw [status_create rfl] at hstatus
  cases delayUntil with
  | none => cases hstatus
  | some delayUntil => cases hstatus

/-- 手の中に何も無ければ、待っている run の message は zset か worker queue にある。 -/
theorem Inv.delivered (hinv : Inv s) : s.Delivered := by
  rintro ⟨htrigger, -, -, hmoving, hpopped, hdequeued⟩ hqueued
  obtain ⟨hmessage, hplace, halive⟩ := hinv.held ⟨hqueued, by rw [htrigger]; simp⟩
  refine ⟨hmessage, hplace.imp_right fun hpos => ?_, halive⟩
  simpa [Sys.hands, hmoving, hpopped, hdequeued] using hpos

end Invariant

/--
**QUEUED の run の message は、操作が進んでいないどの状態でも zset か worker queue にあり、dead letter queue には無い。**
ただし、worker の version の違いと修復で QUEUED の run の message が nack されるときは attempt が上限に達しておらず、
sweeper は QUEUED の run を ack せず、dead letter queue に移った message は queue に戻されないとする。
-/
theorem queued_delivered (config : Config) (delayUntil : Option ℚ) (batchId : Option String)
    (settings : RetrySettings) (ls : List Label) (hactive : ∀ l ∈ ls, l.Active)
    (hkeeps : Along (step config) (Keeps config) (.triggered delayUntil batchId settings) ls) :
    Throughout (step config) Sys.Delivered (.triggered delayUntil batchId settings) ls := by
  refine Throughout.mono (fun s => Inv.delivered) (throughout_of_along
    (C := fun s l => Label.Active l ∧ Keeps config s l) (fun s l hinv h => inv_step hinv h.1 h.2)
    (inv_triggered delayUntil batchId settings) ?_)
  exact (Along.of_mem fun l hl _ => hactive l hl).and hkeeps

/-- `trigger` が終わるまで。 -/
def enqueued : List Label :=
  [.engine .triggerCreateSnapshot rfl, .engine .triggerEnqueueMessage rfl]

/-- message が worker queue を通って dequeue されるが、worker の version が違う。 -/
def mismatched : List Label :=
  [.dequeueMessagesFromQueue, .enqueueMessagesToWorkerQueues, .popMessageFromWorkerQueue,
    .dequeueMessageFromKey, .dequeueFromWorkerQueue .mismatch 0 0]

theorem queued_delivered_mismatched :
    Throughout (step sampleConfig) Sys.Delivered (.triggered none none sampleSettings)
      (enqueued ++ mismatched) :=
  queued_delivered sampleConfig none none sampleSettings (enqueued ++ mismatched)
    (by simp [enqueued, mismatched, Label.Active, Active]) (by decide +kernel)

/-- 12 回目の nack で message は dead letter queue へ移るが、run は QUEUED のままである。 -/
theorem queued_deadLettered :
    ¬ Throughout (step sampleConfig) Sys.Delivered (.triggered none none sampleSettings)
      (enqueued ++ (List.replicate 12 mismatched).flatten) := by
  intro h
  have hlast := h.last
  revert hlast
  unfold Sys.Delivered Sys.Quiet
  decide +kernel

end RunEngine.QueueMessage
