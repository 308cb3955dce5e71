import Trigger.RunEngine.Operations

/-!
# run の寿命

一つの run の snapshot について、終わった run が動き出さないこと、取り消しが失われないこと、止められた run が
必ず再開できることを調べる。

どの操作も、有効な snapshot を高々一つ作る。`Move` は一歩が作る行を言い尽くし、三つの結果はどれもそこから出る。

* `finished_forever_iff` — FINISHED の後に動く一歩
* `pendingCancel_forever_iff` — PENDING_CANCEL の後に動く一歩
* `resumable_throughout_iff` — checkpoint の無い SUSPENDED を作る一歩
-/

namespace RunEngine

open Infra.Machine

/-! ## 有効な snapshot -/

/-- 最新の有効な snapshot が FINISHED か PENDING_CANCEL である。 -/
def Db.Ending (db : Db) : Prop := ∃ s, db.latest = some s ∧ s.executionStatus.isFinishedOrPendingFinished

/-- SUSPENDED なら checkpoint を持つ。 -/
def Snapshot.Resumable (s : Snapshot) : Prop := s.executionStatus = .suspended → s.checkpointId ≠ none

/-- 無効な行だけを足した列。 -/
def Padded (db : Db) (l : List Snapshot) : Prop :=
  ∃ old, (∀ s ∈ old, s.isValid = false) ∧ l = old ++ db.snapshots

/-- 一歩が作る行。有効な行は高々一つで、その前に error の付いた無効な行が作られることがある。 -/
inductive Move (db db' : Db) : Prop
  | stay (hold : Padded db db'.snapshots) (hrun : db'.run.status = db.run.status)
  | finish (r : Snapshot) (rest : List Snapshot) (hold : Padded db rest)
      (hsnapshots : db'.snapshots = r :: rest) (hvalid : r.isValid = true)
      (hr : r.executionStatus = .finished)
      (hbefore : db.status ≠ some .finished ∨ db.run.status.isFinalRunStatus = false)
      (hrun : db'.run.status.isFinalRunStatus = true)
  | advance (r : Snapshot) (rest : List Snapshot) (hold : Padded db rest)
      (hsnapshots : db'.snapshots = r :: rest) (hvalid : r.isValid = true)
      (hr : r.executionStatus ≠ .finished) (hresume : r.Resumable) (hbefore : ¬ db.Ending)

theorem Padded.refl (db : Db) : Padded db db.snapshots := ⟨[], by simp, rfl⟩

theorem Padded.of_same {db db₁ : Db} {l : List Snapshot} (hs : db₁.snapshots = db.snapshots)
    (h : Padded db₁ l) : Padded db l := by
  unfold Padded at h
  rw [hs] at h
  exact h

theorem Padded.of_create {db : Db} {s : Snapshot} {l : List Snapshot} (hs : s.isValid = false)
    (h : Padded (db.create s) l) : Padded db l := by
  obtain ⟨old, hold, rfl⟩ := h
  refine ⟨old ++ [{ s with id := db.nextId }], ?_, by simp [Db.create]⟩
  intro t ht
  rcases List.mem_append.mp ht with ht | ht
  · exact hold t ht
  · rw [List.mem_singleton.mp ht]
    exact hs

theorem Padded.latest {db db' : Db} (h : Padded db db'.snapshots) : db'.latest = db.latest := by
  obtain ⟨old, hold, hs⟩ := h
  unfold Db.latest
  rw [hs, List.find?_append, List.find?_eq_none.mpr (fun s hs => by simp [hold s hs])]
  rfl

theorem latest_of_head {db' : Db} {r : Snapshot} {rest : List Snapshot} (hr : r.isValid = true)
    (h : db'.snapshots = r :: rest) : db'.latest = some r := by
  unfold Db.latest
  rw [h, List.find?_cons_of_pos (by exact hr)]

theorem Db.status_of_latest {db : Db} {s : Snapshot} (h : db.latest = some s) :
    db.status = some s.executionStatus := by
  unfold Db.status
  rw [h]
  rfl

theorem Db.ending_iff {db : Db} {s : Snapshot} (h : db.latest = some s) :
    db.Ending ↔ s.executionStatus = .finished ∨ s.executionStatus = .pendingCancel := by
  unfold Db.Ending
  rw [h]
  simp [ExecutionStatus.isFinishedOrPendingFinished]

theorem Db.not_ending {db : Db} {s : Snapshot} (h : db.latest = some s)
    (hs : s.executionStatus.isFinishedOrPendingFinished = false) : ¬ db.Ending := by
  rintro ⟨s', h', hs'⟩
  rw [h] at h'
  cases h'
  rw [hs] at hs'
  cases hs'

/-- 終わりの状態を除く条件を満たす snapshot は、終わっていない。 -/
theorem Db.not_ending_of {db : Db} {s : Snapshot} {p : ExecutionStatus → Bool}
    (h : db.latest = some s) (hp : ¬ p s.executionStatus = false) (hfinished : p .finished = false)
    (hcancel : p .pendingCancel = false) : ¬ db.Ending := by
  rw [Db.ending_iff h]
  rintro (hs | hs)
  · exact hp (hs ▸ hfinished)
  · exact hp (hs ▸ hcancel)

namespace Move

variable {db db₁ db' : Db}

theorem refl (db : Db) : Move db db := .stay (.refl db) rfl

/-- snapshot と run の status を変えない更新。 -/
theorem same (hs : db'.snapshots = db.snapshots) (hrun : db'.run.status = db.run.status) :
    Move db db' := .stay ⟨[], by simp, by simpa using hs⟩ hrun

/-- 有効な snapshot と run の status が同じ状態からの一歩は、元の状態からの一歩でもある。 -/
theorem of_latest (hold : ∀ {l}, Padded db₁ l → Padded db l) (hlatest : db₁.latest = db.latest)
    (hrun : db₁.run.status = db.run.status) (h : Move db₁ db') : Move db db' := by
  cases h with
  | stay hrest hkept => exact .stay (hold hrest) (hkept.trans hrun)
  | finish r rest hrest hsnapshots hvalid hr hbefore hfinal =>
    refine .finish r rest (hold hrest) hsnapshots hvalid hr ?_ hfinal
    rw [Db.status, hlatest, hrun] at hbefore
    exact hbefore
  | advance r rest hrest hsnapshots hvalid hr hresume hbefore =>
    refine .advance r rest (hold hrest) hsnapshots hvalid hr hresume ?_
    rw [Db.Ending, hlatest] at hbefore
    exact hbefore

theorem of_same (hs : db₁.snapshots = db.snapshots) (hrun : db₁.run.status = db.run.status)
    (h : Move db₁ db') : Move db db' := by
  refine h.of_latest (Padded.of_same hs) ?_ hrun
  unfold Db.latest
  rw [hs]

/-- 途中で作られた無効な行は、一歩の結果に影響しない。 -/
theorem of_invalid {s : Snapshot} (hs : s.isValid = false) (h : Move (db.create s) db') :
    Move db db' := h.of_latest (Padded.of_create hs) (Db.latest_create_invalid hs) rfl

/-- 一つの有効な行を作り、その前後で snapshot を変えない一歩。 -/
theorem created {a : NewSnapshot} (herror : a.error = false)
    (hs : db'.snapshots = (createExecutionSnapshot a db₁).snapshots)
    (hs₁ : db₁.snapshots = db.snapshots) (ha : a.executionStatus ≠ .finished)
    (hresume : a.executionStatus = .suspended → a.checkpointId ≠ none) (hbefore : ¬ db.Ending) :
    Move db db' := by
  refine .advance { a.row with id := db₁.nextId } db.snapshots (.refl db) (hs.trans ?_) ?_ ha hresume
    hbefore
  · show _ :: db₁.snapshots = _
    rw [hs₁]
  · show (!a.error) = true
    rw [herror]
    rfl

theorem finished {a : NewSnapshot} (herror : a.error = false)
    (hs : db'.snapshots = (createExecutionSnapshot a db₁).snapshots)
    (hs₁ : db₁.snapshots = db.snapshots) (ha : a.executionStatus = .finished)
    (hbefore : db.status ≠ some .finished ∨ db.run.status.isFinalRunStatus = false)
    (hrun : db'.run.status.isFinalRunStatus = true) : Move db db' := by
  refine .finish { a.row with id := db₁.nextId } db.snapshots (.refl db) (hs.trans ?_) ?_ ha hbefore
    hrun
  · show _ :: db₁.snapshots = _
    rw [hs₁]
  · show (!a.error) = true
    rw [herror]
    rfl

end Move

/-- `withLatest` の一歩は、最新の snapshot があるときだけ調べればよい。 -/
theorem Move.withLatest {db : Db} {f : Snapshot → Result}
    (h : ∀ latest, db.latest = some latest → Move db (f latest).db) :
    Move db (withLatest db f).db := by
  unfold RunEngine.withLatest
  split
  · exact .refl db
  · next latest hlatest => exact h latest hlatest

/-! ## 各操作の一歩 -/

variable {config : Config} {db : Db}

theorem cancelRun_move (finalizeRun : Bool) : Move db (cancelRun finalizeRun db).db := by
  refine .withLatest fun latest hlatest => ?_
  have hstatus := Db.status_of_latest hlatest
  split
  · exact .refl db
  · next hfinished =>
    split
    · exact .refl db
    · next hpending =>
      dsimp only
      split
      · next hexecuting =>
        have hopen : ¬ db.Ending := by
          rw [Db.ending_iff hlatest]
          rintro (hs | hs) <;> rw [hs] at hexecuting <;> cases hexecuting
        exact .created rfl rfl rfl (by simp) (by simp) hopen
      · refine .finished rfl rfl rfl rfl (.inl ?_) rfl
        rw [hstatus]
        simpa using hfinished

theorem permanentlyFailRun_move {latest : Snapshot} (error : TaskRunError)
    (h : db.status ≠ some .finished) : Move db (permanentlyFailRun config latest error db).db :=
  .finished rfl rfl rfl rfl (.inl h) (isFinalRunStatus_runStatusFromError error config.environmentType)

theorem SystemError.not_retried (error : SystemError) (run : RetrySettings)
    (attemptNumber : Option ℕ) (retryUsingQueue : Bool) (retrySettings : Option ExecutionRetry)
    (now random : ℚ) :
    retryOutcomeFromCompletion run attemptNumber error.toError retryUsingQueue retrySettings now
      random = .failRun := by
  cases error <;> exact retryOutcome_failRun (by decide) rfl rfl ..

theorem attemptFailedWith_move {retryRun : Snapshot → RetryMethod → ExecutionRetry → Db → Result}
    {snapshotId : ℕ} {completion : FailedCompletion} {forceRequeue : Bool} {now random : ℚ}
    (hretry : ∀ latest method settings machine db₁, db.latest = some latest →
      latest.id = snapshotId → latest.executionStatus ≠ .finished →
      retryOutcomeFromCompletion db.run.settings latest.attemptNumber completion.error forceRequeue
        completion.retry now random = .retry method settings machine →
      db₁.snapshots = db.snapshots → db₁.run.status = db.run.status → db₁.message = db.message →
      Move db₁ (retryRun latest method settings db₁).db) :
    Move db
      (attemptFailedWith config retryRun snapshotId completion forceRequeue now random db).db := by
  refine .withLatest fun latest hlatest => ?_
  split
  · exact .refl db
  · next hid =>
    split
    · exact .refl db
    · next hfinished =>
      dsimp only
      split
      · refine Move.of_same ?_ ?_ (cancelRun_move true)
        · rfl
        · rfl
      · refine Move.of_same ?_ ?_ (permanentlyFailRun_move completion.error ?_)
        · rfl
        · rfl
        · show db.status ≠ _
          rw [Db.status_of_latest hlatest]
          simpa using hfinished
      · next method settings machine houtcome =>
        refine Move.of_same ?_ ?_ (hretry latest method settings machine _ hlatest
          (by simpa using hid) hfinished houtcome rfl rfl rfl)
        · rfl
        · rfl

theorem systemFailure_move (error : SystemError) (now random : ℚ) :
    Move db (systemFailure config error now random db).db := by
  refine .withLatest fun latest hlatest => ?_
  split
  · exact .refl db
  · refine attemptFailedWith_move fun latest method settings machine db₁ _ _ _ houtcome => ?_
    rw [error.not_retried] at houtcome
    cases houtcome

/-- message が戻るのは、attempt が上限に達していないときだけである。 -/
theorem nackMessage_cases (db : Db) (maxAttempts : ℕ) :
    db.nackMessage maxAttempts = (false, db) ∨
      ∃ message, db.nackMessage maxAttempts = (true, { db with message := message }) := by
  unfold Db.nackMessage
  split
  · exact .inl rfl
  · split
    · exact .inl rfl
    · exact .inr ⟨_, rfl⟩

/-- 戻せなかった message の run は失敗して終わる。 -/
theorem tryNackAndRequeue_move_of_failed {checkpointId : Option ℕ} {w : List IndexedWaitpoint}
    {batchId : Option String} {now random : ℚ}
    (h : (db.nackMessage config.queueMaxAttempts).1 = false) :
    Move db (tryNackAndRequeue config checkpointId w batchId now random db).db := by
  unfold tryNackAndRequeue
  rcases nackMessage_cases db config.queueMaxAttempts with hnack | ⟨message, hnack⟩
  · rw [hnack]
    exact systemFailure_move _ now random
  · rw [hnack] at h
    cases h

/-- 戻せた message の run は QUEUED になる。 -/
theorem tryNackAndRequeue_requeued {checkpointId : Option ℕ} {w : List IndexedWaitpoint}
    {batchId : Option String} {now random : ℚ}
    (h : (db.nackMessage config.queueMaxAttempts).1 = true) :
    ∃ r : Snapshot, (tryNackAndRequeue config checkpointId w batchId now random db).db.snapshots =
        r :: db.snapshots ∧ r.isValid = true ∧ r.executionStatus = .queued := by
  unfold tryNackAndRequeue
  rcases nackMessage_cases db config.queueMaxAttempts with hnack | ⟨message, hnack⟩
  · rw [hnack] at h
    cases h
  · rw [hnack]
    exact ⟨_, rfl, rfl, rfl⟩

theorem tryNackAndRequeue_move_of_open {checkpointId : Option ℕ} {w : List IndexedWaitpoint}
    {batchId : Option String} {now random : ℚ} (h : ¬ db.Ending) :
    Move db (tryNackAndRequeue config checkpointId w batchId now random db).db := by
  cases hnack : (db.nackMessage config.queueMaxAttempts).1 with
  | false => exact tryNackAndRequeue_move_of_failed hnack
  | true =>
    obtain ⟨r, hr, hvalid, hstatus⟩ := tryNackAndRequeue_requeued hnack
    refine .advance r db.snapshots (.refl db) hr hvalid ?_ ?_ h
    · rw [hstatus]
      simp
    · intro hsuspended
      rw [hstatus] at hsuspended
      cases hsuspended

/-- 再試行が run を queue へ戻す。 -/
def Requeues (config : Config) (forceRequeue : Bool) (method : RetryMethod)
    (settings : ExecutionRetry) : Prop :=
  forceRequeue = true ∨ method = .queue ∨ config.retryWarmStartThresholdMs.any (· ≤ settings.delay) = true

theorem retryRun_move_of_open {forceRequeue : Bool} {now random : ℚ} {latest : Snapshot}
    {method : RetryMethod} {settings : ExecutionRetry} (h : ¬ db.Ending) :
    Move db (retryRun config forceRequeue now random latest method settings db).db := by
  unfold retryRun
  split
  · exact tryNackAndRequeue_move_of_open h
  · exact .created rfl rfl rfl (by simp) (by simp) h

theorem retryRun_created {forceRequeue : Bool} {now random : ℚ} {latest : Snapshot}
    {method : RetryMethod} {settings : ExecutionRetry}
    (h : Requeues config forceRequeue method settings →
      (db.nackMessage config.queueMaxAttempts).1 = true) :
    ∃ r : Snapshot, (retryRun config forceRequeue now random latest method settings db).db.snapshots
        = r :: db.snapshots ∧ r.isValid = true ∧
      (r.executionStatus = .queued ∨ r.executionStatus = .executing) := by
  unfold retryRun
  split
  · next hrequeue =>
    obtain ⟨r, hsnapshots, hvalid, hstatus⟩ := tryNackAndRequeue_requeued
      (h (by simpa [Requeues, or_assoc] using hrequeue))
    exact ⟨r, hsnapshots, hvalid, .inl hstatus⟩
  · exact ⟨_, rfl, rfl, .inr rfl⟩

/-- PENDING_CANCEL の snapshot への報告が、run を再試行させる。 -/
def RetriesCanceled (config : Config) (snapshotId : ℕ) (completion : FailedCompletion)
    (forceRequeue : Bool) (now random : ℚ) (db : Db) : Prop :=
  ∃ latest method settings machine, db.latest = some latest ∧ latest.id = snapshotId ∧
    latest.executionStatus = .pendingCancel ∧
    retryOutcomeFromCompletion db.run.settings latest.attemptNumber completion.error forceRequeue
      completion.retry now random = .retry method settings machine ∧
    (Requeues config forceRequeue method settings →
      (db.nackMessage config.queueMaxAttempts).1 = true)

theorem Db.latest_congr {db₁ : Db} (h : db₁.snapshots = db.snapshots) : db₁.latest = db.latest := by
  unfold Db.latest
  rw [h]

theorem nackMessage_congr {db₁ : Db} (h : db₁.message = db.message) (maxAttempts : ℕ) :
    (db₁.nackMessage maxAttempts).1 = (db.nackMessage maxAttempts).1 := by
  unfold Db.nackMessage
  rw [h]
  cases db.message with
  | none => rfl
  | some attempt =>
    dsimp only
    split
    · rfl
    · rfl

theorem attemptFailed_move {snapshotId : ℕ} {completion : FailedCompletion} {forceRequeue : Bool}
    {now random : ℚ} (h : ¬ RetriesCanceled config snapshotId completion forceRequeue now random db) :
    Move db (attemptFailed config snapshotId completion forceRequeue now random db).db := by
  refine attemptFailedWith_move fun latest method settings machine db₁ hlatest hid hfinished houtcome
    hsnapshots _ hmessage => ?_
  have hlatest₁ : db₁.latest = some latest := (Db.latest_congr hsnapshots).trans hlatest
  by_cases hcancel : latest.executionStatus = .pendingCancel
  · have hrequeue : Requeues config forceRequeue method settings ∧
        (db.nackMessage config.queueMaxAttempts).1 = false := by
      by_contra hno
      refine h ⟨latest, method, settings, machine, hlatest, hid, hcancel, houtcome, fun hr => ?_⟩
      by_contra hnack
      exact hno ⟨hr, by simpa using hnack⟩
    unfold retryRun
    rw [if_pos (by simpa [Requeues, or_assoc] using hrequeue.1)]
    exact tryNackAndRequeue_move_of_failed ((nackMessage_congr hmessage _).trans hrequeue.2)
  · refine retryRun_move_of_open ?_
    rw [Db.ending_iff hlatest₁]
    exact fun h => h.elim hfinished hcancel

/-- 取り消し中の run を再試行すると、FINISHED でない有効な行が作られる。 -/
theorem attemptFailed_retried {snapshotId : ℕ} {completion : FailedCompletion} {forceRequeue : Bool}
    {now random : ℚ} (h : RetriesCanceled config snapshotId completion forceRequeue now random db) :
    ∃ r : Snapshot, (attemptFailed config snapshotId completion forceRequeue now random db).db.snapshots
        = r :: db.snapshots ∧ r.isValid = true ∧
      (r.executionStatus = .queued ∨ r.executionStatus = .executing) := by
  obtain ⟨latest, method, settings, machine, hlatest, hid, hcancel, houtcome, hnack⟩ := h
  unfold attemptFailed attemptFailedWith withLatest
  rw [hlatest]
  dsimp only
  rw [if_neg (by simpa using hid), if_neg (by simp [hcancel])]
  simp only [Db.clearBlockingWaitpoints]
  rw [houtcome]
  refine retryRun_created fun hrequeue => ?_
  rw [← hnack hrequeue]
  refine nackMessage_congr ?_ _
  rfl

theorem not_retriesCanceled {snapshotId : ℕ} {completion : FailedCompletion} {forceRequeue : Bool}
    {now random : ℚ} {latest : Snapshot} (hlatest : db.latest = some latest)
    (h : latest.executionStatus ≠ .pendingCancel) :
    ¬ RetriesCanceled config snapshotId completion forceRequeue now random db := by
  rintro ⟨latest', _, _, _, hlatest', _, hcancel, _⟩
  rw [hlatest] at hlatest'
  cases hlatest'
  exact h hcancel

theorem attemptSucceeded_move (snapshotId : ℕ) : Move db (attemptSucceeded snapshotId db).db := by
  refine .withLatest fun latest hlatest => ?_
  split
  · exact .refl db
  · split
    · exact .refl db
    · next hfinished =>
      refine .finished rfl rfl rfl rfl (.inl ?_) rfl
      rw [Db.status_of_latest hlatest]
      simpa using hfinished

theorem startRunAttempt_move (snapshotId : ℕ) (now random : ℚ) :
    Move db (startRunAttempt config snapshotId now random db).db := by
  refine .withLatest fun latest hlatest => ?_
  split
  · exact .refl db
  · split
    · exact .refl db
    · next hopen =>
      have hopen : latest.executionStatus.isFinishedOrPendingFinished = false := by simpa using hopen
      split
      · exact .refl db
      · dsimp only
        split
        · refine attemptFailed_move (not_retriesCanceled hlatest fun h => ?_)
          rw [h] at hopen
          cases hopen
        · exact .created rfl rfl rfl (by simp) (by simp) (Db.not_ending hlatest hopen)

theorem rescheduleDelayedRun_move (delayUntil : ℚ) : Move db (rescheduleDelayedRun delayUntil db).db := by
  refine .withLatest fun latest hlatest => ?_
  split
  · exact .refl db
  · next hinitial =>
    exact .created rfl rfl rfl (by simp) (by simp) (Db.not_ending_of hlatest hinitial rfl rfl)

theorem enqueueDelayedRun_move (now : ℚ) : Move db (enqueueDelayedRun now db).db := by
  refine .withLatest fun latest hlatest => ?_
  split
  · exact .refl db
  · next hinitial =>
    split
    · exact .refl db
    · exact .created rfl rfl rfl (by simp) (by simp) (Db.not_ending_of hlatest hinitial rfl rfl)

theorem expireRun_move : Move db (expireRun db).db := by
  refine .withLatest fun latest hlatest => ?_
  split
  · exact .refl db
  · split
    · exact .refl db
    · next hpending =>
      split
      · exact .refl db
      · refine .finished rfl rfl rfl rfl (.inr ?_) rfl
        have hpending : db.run.status = .pending := by simpa using hpending
        rw [hpending]
        rfl

theorem createCheckpoint_move (snapshotId checkpointId : ℕ) :
    Move db (createCheckpoint config snapshotId checkpointId db).db := by
  refine .withLatest fun latest hlatest => ?_
  split
  · exact .refl db
  · split
    · exact .refl db
    · next hcheckpointable =>
      have hopen : ¬ db.Ending := Db.not_ending_of hlatest hcheckpointable rfl rfl
      dsimp only
      split
      · exact .created rfl rfl rfl (by simp) (by simp) hopen
      · exact .created rfl rfl rfl (by simp) (by simp) hopen

theorem continueRunExecution_move (snapshotId : ℕ) :
    Move db (continueRunExecution config snapshotId db).db := by
  refine .withLatest fun latest hlatest => ?_
  split
  · exact .refl db
  · split
    · exact .refl db
    · next hpending =>
      exact .created rfl rfl rfl (by simp) (by simp) (Db.not_ending_of hlatest hpending rfl rfl)

theorem continueRunIfUnblocked_move : Move db (continueRunIfUnblocked db).db := by
  unfold continueRunIfUnblocked
  split
  · exact .refl db
  · refine .withLatest fun latest hlatest => ?_
    split
    · next hstatus =>
      refine .created rfl rfl rfl (by simp) (by simp) (Db.not_ending hlatest ?_)
      rw [hstatus]
      rfl
    · next hstatus =>
      split
      · exact .refl db
      · refine .created rfl rfl rfl (by simp) (by simp) (Db.not_ending hlatest ?_)
        rw [hstatus]
        rfl
    · exact .refl db

theorem dequeueFromWorkerQueue_move (target : DequeueTarget) (now random : ℚ) :
    Move db (dequeueFromWorkerQueue config target now random db).db := by
  unfold dequeueFromWorkerQueue
  split
  · exact .refl db
  · refine .withLatest fun latest hlatest => ?_
    split
    · split
      · exact .same rfl rfl
      · refine Move.of_invalid ?_ (systemFailure_move _ now random)
        rfl
    · next hdequeueable =>
      have hopen : ¬ db.Ending := Db.not_ending_of hlatest hdequeueable rfl rfl
      split
      · exact .created rfl rfl rfl (by simp) (by simp) hopen
      · split
        · exact .same rfl rfl
        · exact .same rfl rfl
        · exact .created rfl rfl rfl (by simp) (by simp) hopen
        · rcases nackMessage_cases db config.queueMaxAttempts with hnack | ⟨message, hnack⟩
          · rw [hnack]
            exact .refl db
          · rw [hnack]
            exact .same rfl rfl
        · exact .created rfl rfl rfl (by simp) (by simp) hopen

theorem handleStalledSnapshot_move (snapshotId : ℕ) (now random : ℚ) :
    Move db (handleStalledSnapshot config snapshotId now random db).db := by
  refine .withLatest fun latest hlatest => ?_
  split
  · exact .refl db
  · split
    · exact .refl db
    · exact .refl db
    · exact .refl db
    · next hstatus =>
      refine tryNackAndRequeue_move_of_open (Db.not_ending hlatest ?_)
      rw [hstatus]
      rfl
    · next hstatus => exact attemptFailed_move (not_retriesCanceled hlatest (by simp [hstatus]))
    · next hstatus => exact attemptFailed_move (not_retriesCanceled hlatest (by simp [hstatus]))
    · exact continueRunIfUnblocked_move
    · exact cancelRun_move true
    · exact .refl db
    · exact .refl db

/-! ## 一歩 -/

/-- 最新の状態を確かめずに snapshot か run の status を書く一歩。 -/
def Label.Unguarded (config : Config) (e : Engine) : Label → Prop
  | .triggerCreateSnapshot => e.trigger = .created
  | .pendingVersionUpdate => 0 < e.pendingVersionRead
  | .pendingVersionEnqueue => e.pendingVersionUpdated ≠ []
  | .blockRunWithWaitpoint _ _ => True
  | .tryNackAndRequeue _ _ => (e.db.nackMessage config.queueMaxAttempts).1 = true
  | .attemptFailed snapshotId completion forceRequeue now random =>
    RetriesCanceled config snapshotId completion forceRequeue now random e.db
  | _ => False

/-- 残りの一歩は `Move` である。 -/
theorem step_move {e : Engine} {l : Label} (h : ¬ l.Unguarded config e) :
    Move e.db (e.step config l).db := by
  cases l with
  | triggerCreateSnapshot =>
    have hstep : e.step config .triggerCreateSnapshot = e := if_neg h
    rw [hstep]
    exact .refl _
  | triggerEnqueueMessage =>
    show Move e.db (if _ then _ else _ : Engine).db
    split
    · exact .same rfl rfl
    · exact .refl _
  | dequeueFromWorkerQueue target now random => exact dequeueFromWorkerQueue_move target now random
  | startRunAttempt snapshotId now random => exact startRunAttempt_move snapshotId now random
  | attemptSucceeded snapshotId => exact attemptSucceeded_move snapshotId
  | attemptFailed snapshotId completion forceRequeue now random => exact attemptFailed_move h
  | cancelRun finalizeRun => exact cancelRun_move finalizeRun
  | expireRun => exact expireRun_move
  | createCheckpoint snapshotId checkpointId => exact createCheckpoint_move snapshotId checkpointId
  | continueRunExecution snapshotId => exact continueRunExecution_move snapshotId
  | blockRunWithWaitpoint waitpoints batch => exact absurd trivial h
  | completeWaitpoint id => exact .same rfl rfl
  | continueRunIfUnblocked => exact continueRunIfUnblocked_move
  | rescheduleDelayedRun delayUntil => exact rescheduleDelayedRun_move delayUntil
  | enqueueDelayedRun now => exact enqueueDelayedRun_move now
  | handleStalledSnapshot snapshotId now random => exact handleStalledSnapshot_move snapshotId now random
  | tryNackAndRequeue now random =>
    exact tryNackAndRequeue_move_of_failed (Bool.eq_false_iff.mpr h)
  | pendingVersionRead =>
    show Move e.db (if _ then _ else _ : Engine).db
    split
    · exact .refl _
    · exact .refl _
  | pendingVersionUpdate =>
    have hstep : e.step config .pendingVersionUpdate = e := if_neg h
    rw [hstep]
    exact .refl _
  | pendingVersionEnqueue =>
    have hnil : e.pendingVersionUpdated = [] := not_not.mp h
    show Move e.db (Engine.unlocked e .pendingVersionEnqueue).db
    unfold Engine.unlocked
    rw [hnil]
    exact .refl _

/-- `blockRunWithWaitpoint` が作る行。 -/
theorem blockRunWithWaitpoint_cases {latest : Snapshot} (hlatest : db.latest = some latest)
    (waitpoints : List String) (batch : Option (String × Option ℕ)) :
    (latest.executionStatus ∈ [.executingWithWaitpoints, .suspended] ∧
      (blockRunWithWaitpoint waitpoints batch db).db.snapshots = db.snapshots) ∨
    (latest.executionStatus = .executing ∧ ∃ r : Snapshot,
      (blockRunWithWaitpoint waitpoints batch db).db.snapshots = r :: db.snapshots ∧
      r.isValid = true ∧ r.executionStatus = .executingWithWaitpoints) ∨
    (latest.executionStatus ∉ [.executing, .executingWithWaitpoints, .suspended] ∧ ∃ r : Snapshot,
      (blockRunWithWaitpoint waitpoints batch db).db.snapshots = r :: db.snapshots ∧
      r.isValid = true ∧ r.executionStatus = .suspended ∧ r.checkpointId = none) := by
  unfold blockRunWithWaitpoint withLatest
  rw [hlatest]
  dsimp only
  by_cases hexecuting : latest.executionStatus.isExecuting = true
  · rw [if_pos hexecuting]
    split
    · next heq =>
      rw [← heq]
      exact .inl ⟨by simp, rfl⟩
    · next hne =>
      refine .inr (.inl ⟨?_, _, rfl, rfl, rfl⟩)
      simp only [ExecutionStatus.isExecuting, List.mem_cons, List.not_mem_nil, or_false,
        decide_eq_true_eq] at hexecuting
      exact hexecuting.resolve_right (Ne.symm hne)
  · rw [if_neg hexecuting]
    split
    · next heq =>
      rw [← heq]
      exact .inl ⟨by simp, rfl⟩
    · next hne =>
      refine .inr (.inr ⟨?_, _, rfl, rfl, rfl, rfl⟩)
      simp only [ExecutionStatus.isExecuting, List.mem_cons, List.not_mem_nil, or_false,
        decide_eq_true_eq, not_or] at hexecuting ⊢
      exact ⟨hexecuting.1, hexecuting.2, Ne.symm hne⟩

theorem blockRunWithWaitpoint_of_none (hlatest : db.latest = none) (waitpoints : List String)
    (batch : Option (String × Option ℕ)) : (blockRunWithWaitpoint waitpoints batch db).db = db := by
  unfold blockRunWithWaitpoint withLatest
  rw [hlatest]
  rfl

/-- 確かめずに snapshot を書く、`blockRunWithWaitpoint` 以外の一歩。 -/
theorem step_unguarded {e : Engine} {l : Label} (h : l.Unguarded config e)
    (hupdate : l ≠ .pendingVersionUpdate) (hblock : ∀ w b, l ≠ .blockRunWithWaitpoint w b) :
    ∃ r : Snapshot, (e.step config l).db.snapshots = r :: e.db.snapshots ∧ r.isValid = true ∧
      (r.executionStatus = .queued ∨ r.executionStatus = .executing) := by
  cases l with
  | triggerCreateSnapshot =>
    have hcreated : e.trigger = .created := h
    simp only [Engine.step, Label.locked, Engine.unlocked]
    rw [if_pos hcreated]
    exact ⟨_, rfl, rfl, .inl rfl⟩
  | tryNackAndRequeue now random =>
    obtain ⟨r, hs, hvalid, hr⟩ := tryNackAndRequeue_requeued h
    exact ⟨r, hs, hvalid, .inl hr⟩
  | attemptFailed snapshotId completion forceRequeue now random => exact attemptFailed_retried h
  | pendingVersionEnqueue =>
    simp only [Engine.step, Label.locked, Engine.unlocked]
    cases hupdated : e.pendingVersionUpdated with
    | nil => exact absurd hupdated h
    | cons attemptNumber rest => exact ⟨_, rfl, rfl, .inl rfl⟩
  | pendingVersionUpdate => exact absurd rfl hupdate
  | blockRunWithWaitpoint waitpoints batch => exact absurd rfl (hblock waitpoints batch)
  | _ => exact absurd h id

/-- 確かめずに書く一歩が作る行は、終わりの状態ではない。 -/
theorem step_unguarded_rows {e : Engine} {l : Label} (h : l.Unguarded config e) :
    (e.step config l).db.snapshots = e.db.snapshots ∨
      ∃ r : Snapshot, (e.step config l).db.snapshots = r :: e.db.snapshots ∧ r.isValid = true ∧
        r.executionStatus.isFinishedOrPendingFinished = false := by
  by_cases hupdate : l = .pendingVersionUpdate
  · subst hupdate
    simp only [Engine.step, Label.locked, Engine.unlocked]
    split
    · exact .inl rfl
    · exact .inl rfl
  · by_cases hblock : ∃ w b, l = .blockRunWithWaitpoint w b
    · obtain ⟨w, b, rfl⟩ := hblock
      cases hlatest : e.db.latest with
      | none => exact .inl (congrArg Db.snapshots (blockRunWithWaitpoint_of_none hlatest w b))
      | some latest =>
        rcases blockRunWithWaitpoint_cases hlatest w b with ⟨-, hs⟩ | ⟨-, r, hs, hvalid, hr⟩ |
          ⟨-, r, hs, hvalid, hr, -⟩
        · exact .inl hs
        · exact .inr ⟨r, hs, hvalid, by rw [hr]; rfl⟩
        · exact .inr ⟨r, hs, hvalid, by rw [hr]; rfl⟩
    · push Not at hblock
      obtain ⟨r, hs, hvalid, hr⟩ := step_unguarded h hupdate hblock
      refine .inr ⟨r, hs, hvalid, ?_⟩
      rcases hr with hr | hr <;> rw [hr] <;> rfl

/-- 終わった run に対して確かめずに書く一歩は、終わりでない有効な行を作る。 -/
theorem step_revives {e : Engine} {l : Label} (hending : e.db.Ending) (h : l.Unguarded config e)
    (hupdate : l ≠ .pendingVersionUpdate) :
    ∃ r : Snapshot, (e.step config l).db.snapshots = r :: e.db.snapshots ∧ r.isValid = true ∧
      r.executionStatus.isFinishedOrPendingFinished = false := by
  rcases step_unguarded_rows h with hsame | hrow
  · exfalso
    by_cases hblock : ∃ w b, l = .blockRunWithWaitpoint w b
    · obtain ⟨w, b, rfl⟩ := hblock
      obtain ⟨latest, hlatest, hs⟩ := hending
      rcases blockRunWithWaitpoint_cases hlatest w b with ⟨hmem, -⟩ | ⟨heq, -⟩ | ⟨-, r, hr, -⟩
      · simp only [List.mem_cons, List.not_mem_nil, or_false] at hmem
        rcases hmem with heq | heq <;> rw [heq] at hs <;> cases hs
      · rw [heq] at hs
        cases hs
      · exact List.cons_ne_self r _ (hr.symm.trans hsame)
    · push Not at hblock
      obtain ⟨r, hs, -⟩ := step_unguarded h hupdate hblock
      exact List.cons_ne_self r _ (hs.symm.trans hsame)
  · exact hrow

/-! ## FINISHED -/

/-- 後から作られた有効な行がどれも `Q` を満たす。 -/
def Extends (Q : Snapshot → Prop) (db db' : Db) : Prop :=
  ∃ new, db'.snapshots = new ++ db.snapshots ∧ ∀ s ∈ new, s.isValid = true → Q s

namespace Extends

variable {Q : Snapshot → Prop} {db₁ db₂ db₃ : Db}

theorem refl (db : Db) : Extends Q db db := ⟨[], rfl, by simp⟩

theorem trans (h : Extends Q db₁ db₂) (h' : Extends Q db₂ db₃) : Extends Q db₁ db₃ := by
  obtain ⟨new, hs, hnew⟩ := h
  obtain ⟨new', hs', hnew'⟩ := h'
  refine ⟨new' ++ new, by rw [hs', hs, List.append_assoc], fun s hmem => ?_⟩
  rcases List.mem_append.mp hmem with hmem | hmem
  · exact hnew' s hmem
  · exact hnew s hmem

theorem of_padded (h : Padded db₁ db₂.snapshots) : Extends Q db₁ db₂ := by
  obtain ⟨old, hold, hs⟩ := h
  refine ⟨old, hs, fun s hmem hvalid => ?_⟩
  rw [hold s hmem] at hvalid
  cases hvalid

theorem of_cons {r : Snapshot} {rest : List Snapshot} (hs : db₂.snapshots = r :: rest)
    (h : Padded db₁ rest) (hr : Q r) : Extends Q db₁ db₂ := by
  obtain ⟨old, hold, rfl⟩ := h
  refine ⟨r :: old, hs, fun s hmem hvalid => ?_⟩
  rcases List.mem_cons.mp hmem with rfl | hmem
  · exact hr
  · rw [hold s hmem] at hvalid
    cases hvalid

/-- 最新の有効な行は元のままか、`Q` を満たす。 -/
theorem latest (h : Extends Q db₁ db₂) :
    db₂.latest = db₁.latest ∨ ∃ s, db₂.latest = some s ∧ Q s := by
  obtain ⟨new, hs, hnew⟩ := h
  unfold Db.latest
  rw [hs, List.find?_append]
  cases hfind : new.find? (·.isValid) with
  | none => exact .inl rfl
  | some s =>
    exact .inr ⟨s, rfl, hnew s (List.mem_of_find?_eq_some hfind) (List.find?_some hfind)⟩

/-- `Q` を満たさない有効な行が足された列は、条件を満たさない。 -/
theorem not_of_cons {r : Snapshot} (hs : db₂.snapshots = r :: db₁.snapshots)
    (hvalid : r.isValid = true) (hr : ¬ Q r) : ¬ Extends Q db₁ db₂ := by
  rintro ⟨new, hnew, hQ⟩
  have hone : [r] = new := List.append_cancel_right (hs.symm.trans hnew)
  exact hr (hQ r (hone ▸ List.mem_singleton_self r) hvalid)

end Extends

/-- 最新の有効な snapshot が FINISHED である。 -/
def Engine.Finished (e : Engine) : Prop := e.db.status = some .finished

/-- 後の有効な snapshot はすべて FINISHED で、run の status は終わりの status のまま変わらない。 -/
def StaysFinished (e e' : Engine) : Prop :=
  Extends (·.executionStatus = .finished) e.db e'.db ∧ e'.db.run.status = e.db.run.status ∧
    e'.db.run.status.isFinalRunStatus = true

theorem Engine.Finished.ending {e : Engine} (h : e.Finished) : e.db.Ending := by
  obtain ⟨s, hs, hstatus⟩ := Option.map_eq_some_iff.mp h
  exact ⟨s, hs, by rw [hstatus]; rfl⟩

theorem StaysFinished.finished {e e' : Engine} (h : StaysFinished e e') (he : e.Finished) :
    e'.Finished := by
  rcases h.1.latest with hlatest | ⟨s, hs, hstatus⟩
  · unfold Engine.Finished Db.status
    rw [hlatest]
    exact he
  · exact (Db.status_of_latest hs).trans (congrArg some hstatus)

theorem StaysFinished.trans {a b c : Engine} (h : StaysFinished a b) (h' : StaysFinished b c) :
    StaysFinished a c := ⟨h.1.trans h'.1, h'.2.1.trans h.2.1, h'.2.2⟩

/-- FINISHED の run の status は終わりの status である。 -/
def Engine.Settled (e : Engine) : Prop := e.Finished → e.db.run.status.isFinalRunStatus = true

theorem staysFinished_iff {e : Engine} {l : Label} (hsettled : e.Settled) (h : e.Finished) :
    StaysFinished e (e.step config l) ↔ ¬ l.Unguarded config e := by
  constructor
  · intro hstays hunguarded
    by_cases hupdate : l = .pendingVersionUpdate
    · subst hupdate
      have hread : 0 < e.pendingVersionRead := hunguarded
      have hpending : (e.step config .pendingVersionUpdate).db.run.status = .pending := by
        simp only [Engine.step, Label.locked, Engine.unlocked]
        rw [if_pos hread]
        rfl
      have hfinal := hstays.2.2
      rw [hpending] at hfinal
      cases hfinal
    · obtain ⟨r, hs, hvalid, hr⟩ := step_revives h.ending hunguarded hupdate
      refine Extends.not_of_cons hs hvalid (fun hfinished => ?_) hstays.1
      rw [hfinished] at hr
      cases hr
  · intro hguarded
    cases step_move hguarded with
    | stay hold hrun => exact ⟨.of_padded hold, hrun, hrun ▸ hsettled h⟩
    | finish r rest hold hsnapshots hvalid hr hbefore hrun =>
      rcases hbefore with hbefore | hbefore
      · exact absurd h hbefore
      · rw [hsettled h] at hbefore
        cases hbefore
    | advance r rest hold hsnapshots hvalid hr hresume hbefore => exact absurd h.ending hbefore

/-- 終わっていない run が終わるとき、run の status も終わりの status になる。 -/
theorem settled_step {e : Engine} {l : Label} (hsettled : e.Settled)
    (h : e.Finished → ¬ l.Unguarded config e) : (e.step config l).Settled := by
  intro hafter
  by_cases hfinished : e.Finished
  · exact ((staysFinished_iff hsettled hfinished).mpr (h hfinished)).2.2
  · have hlatest : (e.step config l).db.latest ≠ e.db.latest := by
      intro heq
      unfold Engine.Finished Db.status at hafter hfinished
      rw [heq] at hafter
      exact hfinished hafter
    have hstatus : ∀ s, (e.step config l).db.latest = some s → s.executionStatus = .finished := by
      intro s hs
      rw [Engine.Finished, Db.status_of_latest hs] at hafter
      exact Option.some.inj hafter
    by_cases hunguarded : l.Unguarded config e
    · rcases step_unguarded_rows hunguarded with hsame | ⟨r, hs, hvalid, hr⟩
      · exact absurd (Db.latest_congr hsame) hlatest
      · rw [hstatus r (latest_of_head hvalid hs)] at hr
        cases hr
    · cases step_move hunguarded with
      | stay hold hrun => exact absurd hold.latest hlatest
      | finish r rest hold hsnapshots hvalid hr hbefore hrun => exact hrun
      | advance r rest hold hsnapshots hvalid hr hresume hbefore =>
        exact absurd (hstatus r (latest_of_head hvalid hsnapshots)) hr

theorem triggered_latest (delayUntil : Option ℚ) (batchId : Option String) (settings : RetrySettings) :
    ∃ s, (triggered delayUntil batchId settings).db.snapshots = [s] ∧
      s.executionStatus.isFinishedOrPendingFinished = false ∧ s.executionStatus ≠ .suspended := by
  refine ⟨_, rfl, ?_⟩
  show (if delayUntil.isSome then ExecutionStatus.delayed else .runCreated).isFinishedOrPendingFinished
    = false ∧ (if delayUntil.isSome then ExecutionStatus.delayed else .runCreated) ≠ .suspended
  split
  · exact ⟨rfl, by simp⟩
  · exact ⟨rfl, by simp⟩

theorem triggered_status {delayUntil : Option ℚ} {batchId : Option String} {settings : RetrySettings}
    {s : Snapshot} (h : (triggered delayUntil batchId settings).db.latest = some s) :
    s.executionStatus.isFinishedOrPendingFinished = false ∧ s.executionStatus ≠ .suspended := by
  obtain ⟨r, hs, hr⟩ := triggered_latest delayUntil batchId settings
  have hmem : s ∈ (triggered delayUntil batchId settings).db.snapshots := List.mem_of_find?_eq_some h
  rw [hs, List.mem_singleton] at hmem
  rw [hmem]
  exact hr

/--
**FINISHED になった run が終わったままでいるのは、その後のどの一歩も状態を確かめずに書かないときであり、そのときに
限る。** 確かめずに書くのは、`blockRunWithWaitpoint`、`trigger` の後半、`enqueueRunsForBackgroundWorker` の
書き込み、message を戻せた `tryNackAndRequeue` である。
-/
theorem finished_forever_iff (config : Config) (delayUntil : Option ℚ) (batchId : Option String)
    (settings : RetrySettings) (ls : List Label) :
    Forever (Engine.step config) Engine.Finished StaysFinished
        (triggered delayUntil batchId settings) ls ↔
      Along (Engine.step config) (fun e l => e.Finished → ¬ l.Unguarded config e)
        (triggered delayUntil batchId settings) ls := by
  refine forever_iff_along (I := Engine.Settled) (R := StaysFinished)
    (C := fun e (l : Label) => ¬ l.Unguarded config e) ?_ StaysFinished.trans StaysFinished.finished
    (fun e l => settled_step) (fun e l => staysFinished_iff) ?_
  · intro e hsettled h
    exact ⟨.refl _, rfl, hsettled h⟩
  · intro h
    obtain ⟨s, hs, hstatus⟩ := Option.map_eq_some_iff.mp h
    have hopen := (triggered_status hs).1
    rw [hstatus] at hopen
    cases hopen

def sampleConfig : Config where
  environmentType := .production
  retryWarmStartThresholdMs := some 30000
  treatProductionExecutionStallsAsOOM := false
  queueMaxAttempts := 12
  fetch := sampleFetch

def sampleSettings : RetrySettings := ⟨some 3, none, none⟩

/-- 一度目の attempt が始まるまで。 -/
def started : List Label :=
  [.triggerCreateSnapshot, .triggerEnqueueMessage,
    .dequeueFromWorkerQueue (.ready "task" none none "small-1x") 0 0, .startRunAttempt 2 0 0]

/-- 取り消されて終わった run が、子の trigger の後半によって SUSPENDED になる。 -/
theorem finished_revived :
    ¬ Forever (Engine.step sampleConfig) Engine.Finished StaysFinished
      (triggered none none sampleSettings)
      (started ++
        [Label.cancelRun false, .cancelRun true, .blockRunWithWaitpoint ["child"] none]) := by
  intro h
  have hfinished : (exec (Engine.step sampleConfig) (triggered none none sampleSettings)
      (started ++ [Label.cancelRun false, .cancelRun true])).Finished := by
    unfold Engine.Finished
    decide +kernel
  have hafter := (h _ [.blockRunWithWaitpoint ["child"] none] [] rfl hfinished).finished hfinished
  revert hafter
  unfold Engine.Finished
  decide +kernel

/-! ## PENDING_CANCEL -/

/-- `cancelRun` が run を PENDING_CANCEL にした。 -/
def Engine.CancelRequested (e : Engine) : Prop :=
  ∃ s ∈ e.db.snapshots, s.isValid = true ∧ s.executionStatus = .pendingCancel

/-- 後の有効な snapshot はすべて FINISHED である。 -/
def OnlyFinishes (e e' : Engine) : Prop := Extends (·.executionStatus = .finished) e.db e'.db

/-- 取り消しの後、最新の有効な snapshot は PENDING_CANCEL か FINISHED である。 -/
def Engine.Canceling (e : Engine) : Prop := e.CancelRequested → e.db.Ending

theorem onlyFinishes_iff {e : Engine} {l : Label} (hcanceling : e.Canceling)
    (h : e.CancelRequested) :
    OnlyFinishes e (e.step config l) ↔ (l.Unguarded config e → l = .pendingVersionUpdate) := by
  constructor
  · intro honly hunguarded
    by_contra hupdate
    obtain ⟨r, hs, hvalid, hr⟩ := step_revives (hcanceling h) hunguarded hupdate
    refine Extends.not_of_cons hs hvalid (fun hfinished => ?_) honly
    rw [hfinished] at hr
    cases hr
  · intro hguarded
    by_cases hunguarded : l.Unguarded config e
    · rw [hguarded hunguarded]
      refine .of_padded ⟨[], by simp, ?_⟩
      simp only [Engine.step, Label.locked, Engine.unlocked]
      split
      · rfl
      · rfl
    · cases step_move hunguarded with
      | stay hold hrun => exact .of_padded hold
      | finish r rest hold hsnapshots hvalid hr hbefore hrun => exact .of_cons hsnapshots hold hr
      | advance r rest hold hsnapshots hvalid hr hresume hbefore =>
        exact absurd (hcanceling h) hbefore

theorem OnlyFinishes.ending {e e' : Engine} (h : OnlyFinishes e e') (hending : e.db.Ending) :
    e'.db.Ending := by
  rcases Extends.latest h with hlatest | ⟨s, hs, hstatus⟩
  · unfold Db.Ending
    rw [hlatest]
    exact hending
  · exact (Db.ending_iff hs).mpr (.inl hstatus)

theorem OnlyFinishes.cancelRequested {e e' : Engine} (h : OnlyFinishes e e')
    (hcancel : e.CancelRequested) : e'.CancelRequested := by
  obtain ⟨new, hs, -⟩ := h
  obtain ⟨s, hmem, hvalid⟩ := hcancel
  exact ⟨s, by rw [hs]; exact List.mem_append_right new hmem, hvalid⟩

/-- 一歩の後の有効な行は、前からあるか、最新の行である。 -/
theorem mem_or_latest {e : Engine} {l : Label} {s : Snapshot} (hvalid : s.isValid = true)
    (hs : s ∈ (e.step config l).db.snapshots) :
    s ∈ e.db.snapshots ∨ (e.step config l).db.latest = some s := by
  have hpadded : ∀ {rest}, Padded e.db rest → s ∈ rest → s ∈ e.db.snapshots := by
    rintro _ ⟨old, hold, rfl⟩ hmem
    rcases List.mem_append.mp hmem with hmem | hmem
    · rw [hold s hmem] at hvalid
      cases hvalid
    · exact hmem
  have hcons : ∀ {r rest}, r.isValid = true → (e.step config l).db.snapshots = r :: rest →
      Padded e.db rest → s ∈ e.db.snapshots ∨ (e.step config l).db.latest = some s := by
    intro r rest hr hsnapshots hold
    rw [hsnapshots] at hs
    rcases List.mem_cons.mp hs with rfl | hmem
    · exact .inr (latest_of_head hr hsnapshots)
    · exact .inl (hpadded hold hmem)
  by_cases hunguarded : l.Unguarded config e
  · rcases step_unguarded_rows hunguarded with hsame | ⟨r, hsnapshots, hr, -⟩
    · exact .inl (hsame ▸ hs)
    · exact hcons hr hsnapshots (.refl _)
  · cases step_move hunguarded with
    | stay hold hrun => exact .inl (hpadded hold hs)
    | finish r rest hold hsnapshots hr => exact hcons hr hsnapshots hold
    | advance r rest hold hsnapshots hr => exact hcons hr hsnapshots hold

theorem canceling_step {e : Engine} {l : Label} (hcanceling : e.Canceling)
    (h : e.CancelRequested → l.Unguarded config e → l = .pendingVersionUpdate) :
    (e.step config l).Canceling := by
  rintro ⟨s, hmem, hvalid, hs⟩
  by_cases hbefore : e.CancelRequested
  · exact ((onlyFinishes_iff hcanceling hbefore).mpr (h hbefore)).ending (hcanceling hbefore)
  · rcases mem_or_latest hvalid hmem with hold | hlatest
    · exact absurd ⟨s, hold, hvalid, hs⟩ hbefore
    · exact (Db.ending_iff hlatest).mpr (.inr hs)

/--
**PENDING_CANCEL になった run に FINISHED だけが続くのは、その後のどの一歩も状態を確かめずに snapshot を書かない
ときであり、そのときに限る。** PENDING_CANCEL の snapshot への報告が run を再試行させる `attemptFailed` は、
確かめずに書く一歩に数える。
-/
theorem pendingCancel_forever_iff (config : Config) (delayUntil : Option ℚ)
    (batchId : Option String) (settings : RetrySettings) (ls : List Label) :
    Forever (Engine.step config) Engine.CancelRequested OnlyFinishes
        (triggered delayUntil batchId settings) ls ↔
      Along (Engine.step config)
        (fun e l => e.CancelRequested → l.Unguarded config e → l = .pendingVersionUpdate)
        (triggered delayUntil batchId settings) ls := by
  refine forever_iff_along (I := Engine.Canceling) (R := OnlyFinishes)
    (C := fun e (l : Label) => l.Unguarded config e → l = .pendingVersionUpdate)
    (fun e _ _ => .refl _) Extends.trans OnlyFinishes.cancelRequested (fun e l => canceling_step)
    (fun e l => onlyFinishes_iff) ?_
  rintro ⟨s, hmem, -, hs⟩
  obtain ⟨r, hsnapshots, hopen, -⟩ := triggered_latest delayUntil batchId settings
  rw [hsnapshots, List.mem_singleton] at hmem
  rw [← hmem, hs] at hopen
  cases hopen

/-- 取り消し中の attempt が再試行できる error を報告すると、run は EXECUTING に戻る。 -/
theorem pendingCancel_retried :
    ¬ Forever (Engine.step sampleConfig) Engine.CancelRequested OnlyFinishes
      (triggered none none sampleSettings)
      (started ++ [Label.cancelRun false,
        .attemptFailed 4 ⟨.builtInError "Error" "failed" "", some ⟨1000, 1000⟩⟩ false 0 0]) := by
  intro h
  have hcancel : (exec (Engine.step sampleConfig) (triggered none none sampleSettings)
      (started ++ [Label.cancelRun false])).CancelRequested := by
    unfold Engine.CancelRequested
    decide +kernel
  have hpending : (exec (Engine.step sampleConfig) (triggered none none sampleSettings)
      (started ++ [Label.cancelRun false])).db.Ending := by
    refine ⟨_, rfl, ?_⟩
    decide +kernel
  obtain ⟨s, hs, hending⟩ := (h _ [_] [] rfl hcancel).ending hpending
  have hafter := Db.status_of_latest hs
  have hexecuting : (exec (Engine.step sampleConfig) (triggered none none sampleSettings)
      (started ++ [Label.cancelRun false] ++ [Label.attemptFailed 4
        ⟨.builtInError "Error" "failed" "", some ⟨1000, 1000⟩⟩ false 0 0])).db.status
      = some .executing := by
    decide +kernel
  rw [hexecuting, Option.some.injEq] at hafter
  rw [← hafter] at hending
  cases hending

/-! ## SUSPENDED -/

/-- 最新の有効な snapshot が SUSPENDED なら checkpoint を持ち、`continueRunIfUnblocked` は再開に失敗しない。 -/
def Engine.Resumable (e : Engine) : Prop :=
  (∀ s, e.db.latest = some s → s.Resumable) ∧
    (continueRunIfUnblocked e.db).error ≠ some suspendedWithoutCheckpoint

/-- 実行中か、すでに止められている run だけを block する。 -/
def Label.BlocksRunning (e : Engine) : Label → Prop
  | .blockRunWithWaitpoint _ _ => ∀ s, e.db.latest = some s →
    s.executionStatus ∈ [.executing, .executingWithWaitpoints, .suspended]
  | _ => True

/-- checkpoint のある run の再開は、checkpoint が無いという error にならない。 -/
theorem resumable_iff {e : Engine} : e.Resumable ↔ ∀ s, e.db.latest = some s → s.Resumable := by
  refine ⟨And.left, fun h => ⟨h, ?_⟩⟩
  unfold continueRunIfUnblocked
  split
  · exact fun hno => nomatch hno
  · unfold withLatest
    split
    · show some "No execution snapshot found for TaskRun" ≠ _
      decide
    · next latest hlatest =>
      dsimp only
      split
      · exact fun hno => nomatch hno
      · next hsuspended =>
        split
        · next hnone => exact absurd hnone (h latest hlatest hsuspended)
        · exact fun hno => nomatch hno
      · exact fun hno => nomatch hno

theorem resumable_of_status {r : Snapshot} (h : r.executionStatus ≠ .suspended) : r.Resumable :=
  fun hs => absurd hs h

theorem Engine.resumable_of_head {e : Engine} {r : Snapshot} {rest : List Snapshot}
    (hvalid : r.isValid = true) (hs : e.db.snapshots = r :: rest) (hr : r.Resumable) : e.Resumable := by
  rw [resumable_iff]
  intro s hlatest
  rw [latest_of_head hvalid hs] at hlatest
  cases hlatest
  exact hr

theorem Engine.Resumable.congr {e e' : Engine} (h : e.Resumable) (hlatest : e'.db.latest = e.db.latest) :
    e'.Resumable := by
  rw [resumable_iff, hlatest]
  exact h.1

/-- 最新の状態を確かめる一歩と、QUEUED や EXECUTING を書く一歩は、再開できる run を保つ。 -/
theorem resumable_step {e : Engine} {l : Label} (h : e.Resumable)
    (hblock : ∀ w b, l ≠ .blockRunWithWaitpoint w b) : (e.step config l).Resumable := by
  by_cases hunguarded : l.Unguarded config e
  · by_cases hupdate : l = .pendingVersionUpdate
    · subst hupdate
      refine h.congr ?_
      simp only [Engine.step, Label.locked, Engine.unlocked]
      split
      · rfl
      · rfl
    · obtain ⟨r, hs, hvalid, hr⟩ := step_unguarded hunguarded hupdate hblock
      refine Engine.resumable_of_head hvalid hs (resumable_of_status ?_)
      rcases hr with hr | hr <;> rw [hr] <;> simp
  · cases step_move hunguarded with
    | stay hold hrun => exact h.congr hold.latest
    | finish r rest hold hsnapshots hvalid hr hbefore hrun =>
      refine Engine.resumable_of_head hvalid hsnapshots (resumable_of_status ?_)
      rw [hr]
      simp
    | advance r rest hold hsnapshots hvalid hr hresume hbefore =>
      exact Engine.resumable_of_head hvalid hsnapshots hresume

theorem resumable_block_iff {e : Engine} {w : List String} {b : Option (String × Option ℕ)}
    (h : e.Resumable) : (e.step config (.blockRunWithWaitpoint w b)).Resumable ↔
      Label.BlocksRunning e (.blockRunWithWaitpoint w b) := by
  unfold Label.BlocksRunning
  cases hlatest : e.db.latest with
  | none =>
    refine iff_of_true (h.congr ?_) (by simp)
    exact congrArg Db.latest (blockRunWithWaitpoint_of_none hlatest w b)
  | some latest =>
    simp only [Option.some.injEq, forall_eq']
    rcases blockRunWithWaitpoint_cases hlatest w b with ⟨hmem, hs⟩ | ⟨heq, r, hs, hvalid, hr⟩ |
      ⟨hmem, r, hs, hvalid, hr, hnone⟩
    · refine iff_of_true (h.congr (Db.latest_congr hs)) ?_
      simp only [List.mem_cons] at hmem ⊢
      exact .inr hmem
    · refine iff_of_true (Engine.resumable_of_head hvalid hs (resumable_of_status ?_)) (by simp [heq])
      rw [hr]
      simp
    · refine iff_of_false (fun hafter => ?_) hmem
      exact hafter.1 r (latest_of_head hvalid hs) hr hnone

theorem resumable_step_iff {e : Engine} {l : Label} (h : e.Resumable) :
    (e.step config l).Resumable ↔ l.BlocksRunning e := by
  by_cases hblock : ∃ w b, l = .blockRunWithWaitpoint w b
  · obtain ⟨w, b, rfl⟩ := hblock
    exact resumable_block_iff h
  · push Not at hblock
    refine iff_of_true (resumable_step h hblock) ?_
    cases l with
    | blockRunWithWaitpoint w b => exact absurd rfl (hblock w b)
    | _ => trivial

/--
**SUSPENDED の run がいつも再開できるのは、`blockRunWithWaitpoint` が EXECUTING、EXECUTING_WITH_WAITPOINTS、
SUSPENDED のときにだけ呼ばれるときであり、そのときに限る。**
-/
theorem resumable_throughout_iff (config : Config) (delayUntil : Option ℚ) (batchId : Option String)
    (settings : RetrySettings) (ls : List Label) :
    Throughout (Engine.step config) Engine.Resumable (triggered delayUntil batchId settings) ls ↔
      Along (Engine.step config) (fun e l => l.BlocksRunning e)
        (triggered delayUntil batchId settings) ls := by
  refine throughout_iff_along (I := fun _ => True) (fun _ _ _ => trivial)
    (fun e l _ => resumable_step_iff) trivial (resumable_iff.mpr fun s hs => ?_)
  exact resumable_of_status (triggered_status hs).2

/-- 取り消し中の親を子の trigger の後半が止めると、checkpoint の無い SUSPENDED になる。 -/
theorem suspended_without_checkpoint :
    ¬ Throughout (Engine.step sampleConfig) Engine.Resumable (triggered none none sampleSettings)
      (started ++ [Label.cancelRun false, .blockRunWithWaitpoint ["child"] none,
        .completeWaitpoint "child"]) := by
  intro h
  refine h.last.2 ?_
  decide +kernel

end RunEngine
