import Trigger.RunEngine.Lifecycle

/-!
# 完了した waitpoint の配達

runner は最後に受け取った snapshot より後の snapshot を繰り返し取りに行き、応答の最後の snapshot の
`completedWaitpoints` だけを task に渡す。`getExecutionSnapshotsSince` は、後の snapshot が前の snapshot の
waitpoint を引き継ぐことを当てにしている。

ここでは snapshot を作る操作を、引き継ぐもの（`Keeps`）と引き継がないもの（`Writes`）に分け、届いていない
waitpoint があるのに引き継がない snapshot を作る一歩だけが配達を失わせることを示す
（`delivery_throughout_iff`）。

`createdAt` は狭義に増えるので、それまでに作られた行の数で表す。
-/

namespace RunEngine

open Infra.Machine

/-! ## 引き継ぎ -/

/-- 有効な行を作らないか、最新の行の waitpoint を引き継ぐ行を作る。 -/
def Keeps (db db' : Db) : Prop :=
  Padded db db'.snapshots ∨ ∃ r rest, Padded db rest ∧ db'.snapshots = r :: rest ∧ r.isValid = true ∧
    ∀ s, db.latest = some s → ∀ w ∈ s.completedWaitpoints, w ∈ r.completedWaitpoints

/-- 引き継がずに、waitpoint が `ws` である有効な行を作る。 -/
def Writes (ws : List String) (db db' : Db) : Prop :=
  ∃ r rest, Padded db rest ∧ db'.snapshots = r :: rest ∧ r.isValid = true ∧ r.completedWaitpoints = ws

/-- 条件 `drops` の下でだけ、引き継がない行を作る。 -/
def Effect (drops : Prop) (ws : List String) (db db' : Db) : Prop :=
  (drops → Writes ws db db') ∧ (¬ drops → Keeps db db')

variable {db db₁ db' : Db} {ws : List String} {drops : Prop}

theorem Keeps.refl (db : Db) : Keeps db db := .inl (.refl db)

theorem Keeps.same (h : db'.snapshots = db.snapshots) : Keeps db db' :=
  .inl ⟨[], by simp, by simpa using h⟩

theorem Writes.of_same (hs : db₁.snapshots = db.snapshots) (h : Writes ws db₁ db') :
    Writes ws db db' := by
  obtain ⟨r, rest, hold, hr⟩ := h
  exact ⟨r, rest, hold.of_same hs, hr⟩

theorem Writes.of_invalid {s : Snapshot} (hs : s.isValid = false) (h : Writes ws (db.create s) db') :
    Writes ws db db' := by
  obtain ⟨r, rest, hold, hr⟩ := h
  exact ⟨r, rest, hold.of_create hs, hr⟩

theorem Keeps.of_invalid {s : Snapshot} (hs : s.isValid = false) (h : Keeps (db.create s) db') :
    Keeps db db' := by
  rcases h with hold | ⟨r, rest, hold, hr, hvalid, hcarried⟩
  · exact .inl (hold.of_create hs)
  · rw [Db.latest_create_invalid hs] at hcarried
    exact .inr ⟨r, rest, hold.of_create hs, hr, hvalid, hcarried⟩

theorem Writes.created {a : NewSnapshot} (herror : a.error = false)
    (hs : db'.snapshots = (createExecutionSnapshot a db₁).snapshots)
    (hs₁ : db₁.snapshots = db.snapshots) (hws : a.completedWaitpoints.map Prod.fst = ws) :
    Writes ws db db' := by
  refine ⟨{ a.row with id := db₁.nextId }, db.snapshots, .refl db, hs.trans ?_, ?_, hws⟩
  · show _ :: db₁.snapshots = _
    rw [hs₁]
  · show (!a.error) = true
    rw [herror]
    rfl

theorem Keeps.created {a : NewSnapshot} {latest : Snapshot} (hlatest : db.latest = some latest)
    (herror : a.error = false) (hs : db'.snapshots = (createExecutionSnapshot a db₁).snapshots)
    (hs₁ : db₁.snapshots = db.snapshots)
    (hws : ∀ w ∈ latest.completedWaitpoints, w ∈ a.completedWaitpoints.map Prod.fst) :
    Keeps db db' := by
  obtain ⟨r, rest, hold, hr, hvalid, hwaitpoints⟩ : Writes _ db db' := .created herror hs hs₁ rfl
  refine .inr ⟨r, rest, hold, hr, hvalid, fun s hs w hw => ?_⟩
  rw [hlatest] at hs
  cases hs
  rw [hwaitpoints]
  exact hws w hw

theorem Effect.keep (hdrops : ¬ drops) (h : Keeps db db') : Effect drops ws db db' :=
  ⟨fun hd => absurd hd hdrops, fun _ => h⟩

theorem Effect.write (hdrops : drops) (h : Writes ws db db') : Effect drops ws db db' :=
  ⟨fun _ => h, fun hd => absurd hdrops hd⟩

theorem Effect.congr {p q : Prop} (hpq : p ↔ q) (h : Effect p ws db db') : Effect q ws db db' :=
  ⟨fun hq => h.1 (hpq.mpr hq), fun hq => h.2 fun hp => hq (hpq.mp hp)⟩

/-- `withLatest` の一歩は、最新の snapshot があるときだけ調べればよい。 -/
theorem Effect.withLatest {f : Snapshot → Result} {g : Snapshot → Prop}
    (h : ∀ latest, db.latest = some latest → Effect (g latest) ws db (f latest).db) :
    Effect (∃ s, db.latest = some s ∧ g s) ws db (withLatest db f).db := by
  unfold RunEngine.withLatest
  split
  · next hnone =>
    refine .keep ?_ (.refl db)
    rintro ⟨s, hs, -⟩
    rw [hnone] at hs
    cases hs
  · next latest hlatest =>
    refine Effect.congr ?_ (h latest hlatest)
    simp [hlatest]

theorem mem_enhanced {fetch : Fetch} {s : Snapshot} {w : String} (h : w ∈ s.completedWaitpoints) :
    w ∈ (s.enhanced fetch).map Prod.fst := by
  have hread : w ∈ fetch.read s.completedWaitpoints := (fetch.mem_iff _ _).mpr h
  unfold Snapshot.enhanced enhanceWaitpoints
  rw [List.map_flatMap, List.mem_flatMap]
  refine ⟨w, hread, ?_⟩
  split
  · exact List.mem_singleton_self _
  · next indexes hne =>
    obtain ⟨i, rest, hcons⟩ := List.exists_cons_of_ne_nil hne
    rw [hcons]
    exact List.mem_cons_self

/-! ## 各操作の引き継ぎ -/

variable {config : Config}

theorem cancelRun_effect (finalizeRun : Bool) :
    Effect (∃ s, db.latest = some s ∧ s.executionStatus ≠ .finished ∧
      ¬ (s.executionStatus = .pendingCancel ∧ finalizeRun = false)) [] db
      (cancelRun finalizeRun db).db := by
  refine .withLatest fun latest hlatest => ?_
  split
  · next hfinished => exact .keep (fun h => h.1 hfinished) (.refl db)
  · next hfinished =>
    split
    · next hpending => exact .keep (fun h => h.2 hpending) (.refl db)
    · next hpending =>
      refine .write ⟨hfinished, hpending⟩ ?_
      dsimp only
      split
      · exact .created rfl rfl rfl rfl
      · exact .created rfl rfl rfl rfl

/-- 最新の行が終わっていない。 -/
def Db.Unfinished (db : Db) : Prop := ∃ s, db.latest = some s ∧ s.executionStatus ≠ .finished

/-- 最新の行への報告であり、その行は終わっていない。 -/
def Db.Completes (db : Db) (snapshotId : ℕ) : Prop :=
  ∃ s, db.latest = some s ∧ s.id = snapshotId ∧ s.executionStatus ≠ .finished

theorem attemptFailedWith_effect {retryRun : Snapshot → RetryMethod → ExecutionRetry → Db → Result}
    {snapshotId : ℕ} {completion : FailedCompletion} {forceRequeue : Bool} {now random : ℚ}
    (hretry : ∀ latest method settings machine db₁, db.latest = some latest →
      latest.executionStatus ≠ .finished →
      retryOutcomeFromCompletion db.run.settings latest.attemptNumber completion.error forceRequeue
        completion.retry now random = .retry method settings machine →
      db₁.snapshots = db.snapshots → Writes [] db₁ (retryRun latest method settings db₁).db) :
    Effect (db.Completes snapshotId) [] db
      (attemptFailedWith config retryRun snapshotId completion forceRequeue now random db).db := by
  refine .withLatest fun latest hlatest => ?_
  split
  · next hid => exact .keep (fun h => hid h.1) (.refl db)
  · next hid =>
    split
    · next hfinished => exact .keep (fun h => h.2 hfinished) (.refl db)
    · next hfinished =>
      refine .write ⟨by simpa using hid, hfinished⟩ ?_
      dsimp only
      split
      · refine Writes.of_same ?_ ((cancelRun_effect true).1 ⟨latest, hlatest, hfinished, by simp⟩)
        rfl
      · exact .created rfl rfl rfl rfl
      · next method settings machine houtcome =>
        refine Writes.of_same ?_
          (hretry latest method settings machine _ hlatest hfinished houtcome ?_)
        · rfl
        · rfl

theorem systemFailure_effect (error : SystemError) (now random : ℚ) :
    Effect db.Unfinished [] db (systemFailure config error now random db).db := by
  refine .withLatest fun latest hlatest => ?_
  split
  · next hfinished => exact .keep (fun h => h hfinished) (.refl db)
  · next hfinished =>
    refine .write hfinished ?_
    refine (attemptFailedWith_effect ?_).1 ⟨latest, hlatest, rfl, hfinished⟩
    intro latest method settings machine db₁ _ _ houtcome
    rw [error.not_retried] at houtcome
    cases houtcome

/-- error の行を作ってから失敗させる。 -/
theorem systemFailure_effect_of_error {a : NewSnapshot} (ha : a.error = true) (error : SystemError)
    (now random : ℚ) :
    Effect db.Unfinished [] db
      (systemFailure config error now random (createExecutionSnapshot a db)).db := by
  have hinvalid : a.row.isValid = false := by
    show (!a.error) = false
    rw [ha]
    rfl
  have hlatest : (createExecutionSnapshot a db).latest = db.latest := Db.latest_create_invalid hinvalid
  have heffect : Effect (createExecutionSnapshot a db).Unfinished [] (createExecutionSnapshot a db)
      (systemFailure config error now random (createExecutionSnapshot a db)).db :=
    systemFailure_effect error now random
  unfold Db.Unfinished at heffect ⊢
  rw [hlatest] at heffect
  exact ⟨fun h => (heffect.1 h).of_invalid hinvalid, fun h => (heffect.2 h).of_invalid hinvalid⟩

theorem tryNackAndRequeue_writes {checkpointId : Option ℕ} {w : List IndexedWaitpoint}
    {batchId : Option String} {now random : ℚ}
    (h : (db.nackMessage config.queueMaxAttempts).1 = true) :
    Writes (w.map Prod.fst) db (tryNackAndRequeue config checkpointId w batchId now random db).db := by
  unfold tryNackAndRequeue
  rcases nackMessage_cases db config.queueMaxAttempts with hnack | ⟨message, hnack⟩
  · rw [hnack] at h
    cases h
  · rw [hnack]
    exact .created rfl rfl rfl rfl

theorem tryNackAndRequeue_of_failed {checkpointId : Option ℕ} {w : List IndexedWaitpoint}
    {batchId : Option String} {now random : ℚ}
    (h : (db.nackMessage config.queueMaxAttempts).1 = false) :
    tryNackAndRequeue config checkpointId w batchId now random db =
      systemFailure config .dequeuedMaxRetries now random db := by
  unfold tryNackAndRequeue
  rcases nackMessage_cases db config.queueMaxAttempts with hnack | ⟨message, hnack⟩
  · rw [hnack]
  · rw [hnack] at h
    cases h

theorem tryNackAndRequeue_effect {checkpointId : Option ℕ} {batchId : Option String}
    (now random : ℚ) :
    Effect ((db.nackMessage config.queueMaxAttempts).1 = true ∨ db.Unfinished) [] db
      (tryNackAndRequeue config checkpointId [] batchId now random db).db := by
  cases hnack : (db.nackMessage config.queueMaxAttempts).1 with
  | true => exact .write (.inl rfl) (tryNackAndRequeue_writes hnack)
  | false =>
    rw [tryNackAndRequeue_of_failed hnack]
    refine ⟨fun h => ?_, fun h => ?_⟩
    · exact (systemFailure_effect _ now random).1 (h.resolve_left (by simp))
    · exact (systemFailure_effect _ now random).2 (fun hu => h (.inr hu))

theorem retryRun_writes {forceRequeue : Bool} {now random : ℚ} {latest : Snapshot}
    {method : RetryMethod} {settings : ExecutionRetry} (h : db.Unfinished) :
    Writes [] db (retryRun config forceRequeue now random latest method settings db).db := by
  unfold retryRun
  split
  · exact (tryNackAndRequeue_effect now random).1 (.inr h)
  · exact .created rfl rfl rfl rfl

theorem attemptFailed_effect {snapshotId : ℕ} {completion : FailedCompletion} {forceRequeue : Bool}
    {now random : ℚ} :
    Effect (db.Completes snapshotId) [] db
      (attemptFailed config snapshotId completion forceRequeue now random db).db := by
  refine attemptFailedWith_effect fun latest method settings machine db₁ hlatest hfinished _ hs => ?_
  exact retryRun_writes ⟨latest, (Db.latest_congr hs).trans hlatest, hfinished⟩

theorem attemptSucceeded_effect (snapshotId : ℕ) :
    Effect (db.Completes snapshotId) [] db (attemptSucceeded snapshotId db).db := by
  refine .withLatest fun latest hlatest => ?_
  split
  · next hid => exact .keep (fun h => hid h.1) (.refl db)
  · next hid =>
    split
    · next hfinished => exact .keep (fun h => h.2 hfinished) (.refl db)
    · next hfinished => exact .write ⟨by simpa using hid, hfinished⟩ (.created rfl rfl rfl rfl)

/-- attempt の上限に達した run を始めようとする。 -/
def Db.Exhausted (db : Db) (snapshotId : ℕ) : Prop :=
  ∃ s, db.latest = some s ∧ s.id = snapshotId ∧
    s.executionStatus.isFinishedOrPendingFinished = false ∧ db.run.lockedById ≠ none ∧
    maxTaskRunAttempts < db.run.attemptNumber.getD 0 + 1

theorem startRunAttempt_effect (snapshotId : ℕ) (now random : ℚ) :
    Effect (db.Exhausted snapshotId) [] db (startRunAttempt config snapshotId now random db).db := by
  refine .withLatest fun latest hlatest => ?_
  split
  · next hid => exact .keep (fun h => hid h.1) (.refl db)
  · next hid =>
    have hid : latest.id = snapshotId := by simpa using hid
    split
    · next hending => exact .keep (fun h => by rw [hending] at h; cases h.2.1) (.refl db)
    · next hopen =>
      have hopen : latest.executionStatus.isFinishedOrPendingFinished = false := by simpa using hopen
      split
      · next hlocked => exact .keep (fun h => h.2.2.1 hlocked) (.refl db)
      · next hlocked =>
        dsimp only
        split
        · next hmax =>
          refine .write ⟨hid, hopen, hlocked, hmax⟩ (attemptFailed_effect.1 ⟨latest, hlatest, hid, ?_⟩)
          intro hfinished
          rw [hfinished] at hopen
          cases hopen
        · next hmax =>
          exact .keep (fun h => hmax h.2.2.2)
            (.created hlatest rfl rfl rfl fun w hw => mem_enhanced hw)

theorem rescheduleDelayedRun_effect (delayUntil : ℚ) :
    Effect db.Initial [] db (rescheduleDelayedRun delayUntil db).db := by
  refine .withLatest fun latest hlatest => ?_
  split
  · next hinitial => exact .keep (by simp [hinitial]) (.refl db)
  · next hinitial => exact .write (by simpa using hinitial) (.created rfl rfl rfl rfl)

theorem enqueueDelayedRun_effect (now : ℚ) :
    Effect (∃ s, db.latest = some s ∧ s.executionStatus.isInitialState = true ∧
      db.run.delayUntil.any (now < ·) = false) [] db (enqueueDelayedRun now db).db := by
  refine .withLatest fun latest hlatest => ?_
  split
  · next hinitial => exact .keep (by simp [hinitial]) (.refl db)
  · next hinitial =>
    split
    · next hearly => exact .keep (by simp [hearly]) (.refl db)
    · next hdue => exact .write ⟨by simpa using hinitial, by simpa using hdue⟩ (.created rfl rfl rfl rfl)

theorem expireRun_effect :
    Effect (∃ s, db.latest = some s ∧ s.executionStatus.isExecuting = false ∧
      db.run.status = .pending ∧ db.run.lockedAt = none) [] db (expireRun db).db := by
  refine .withLatest fun latest hlatest => ?_
  split
  · next hexecuting => exact .keep (by simp [hexecuting]) (.refl db)
  · next hexecuting =>
    split
    · next hpending => exact .keep (fun h => hpending h.2.1) (.refl db)
    · next hpending =>
      split
      · next hlocked => exact .keep (fun h => hlocked h.2.2) (.refl db)
      · next hlocked =>
        exact .write ⟨by simpa using hexecuting, by simpa using hpending, by simpa using hlocked⟩
          (.created rfl rfl rfl rfl)

theorem createCheckpoint_keeps (snapshotId checkpointId : ℕ) :
    Keeps db (createCheckpoint config snapshotId checkpointId db).db := by
  unfold createCheckpoint withLatest
  split
  · exact .refl db
  · next latest hlatest =>
    dsimp only
    split
    · exact .refl db
    · split
      · exact .refl db
      · split
        · exact .created hlatest rfl rfl rfl fun w hw => mem_enhanced hw
        · exact .created hlatest rfl rfl rfl fun w hw => mem_enhanced hw

theorem continueRunExecution_keeps (snapshotId : ℕ) :
    Keeps db (continueRunExecution config snapshotId db).db := by
  unfold continueRunExecution withLatest
  split
  · exact .refl db
  · next latest hlatest =>
    dsimp only
    split
    · exact .refl db
    · split
      · exact .refl db
      · exact .created hlatest rfl rfl rfl fun w hw => mem_enhanced hw

theorem blockRunWithWaitpoint_effect (waitpoints : List String)
    (batch : Option (String × Option ℕ)) :
    Effect (∃ s, db.latest = some s ∧
      s.executionStatus ∉ [.executingWithWaitpoints, .suspended]) [] db
      (blockRunWithWaitpoint waitpoints batch db).db := by
  refine .withLatest fun latest hlatest => ?_
  dsimp only
  by_cases hexecuting : latest.executionStatus.isExecuting = true
  · rw [if_pos hexecuting]
    split
    · next hsame => exact .keep (fun hmem => hmem (by simp [← hsame])) (.same rfl)
    · next hne =>
      refine .write (fun hmem => ?_) (.created rfl rfl rfl rfl)
      simp only [List.mem_cons, List.not_mem_nil, or_false] at hmem
      rcases hmem with heq | heq
      · exact hne heq.symm
      · rw [heq] at hexecuting
        cases hexecuting
  · rw [if_neg hexecuting]
    split
    · next hsame => exact .keep (fun hmem => hmem (by simp [← hsame])) (.same rfl)
    · next hne =>
      refine .write (fun hmem => ?_) (.created rfl rfl rfl rfl)
      simp only [List.mem_cons, List.not_mem_nil, or_false] at hmem
      rcases hmem with heq | heq
      · rw [heq] at hexecuting
        exact hexecuting rfl
      · exact hne heq.symm

/-- `continueRunIfUnblocked` が run を続けさせ、行を消す。 -/
def Db.Continues (db : Db) : Prop :=
  (∀ row ∈ db.blockingWaitpoints, row.waitpointId ∈ db.completed) ∧
    ∃ s, db.latest = some s ∧ (s.executionStatus = .executingWithWaitpoints ∨
      (s.executionStatus = .suspended ∧ s.checkpointId ≠ none))

/-- run を止めている waitpoint。 -/
def Db.blocking (db : Db) : List String := db.blockingWaitpoints.map (·.waitpointId)

theorem map_completedPairs (db : Db) :
    (completedPairs db.blockingWaitpoints).map Prod.fst = db.blocking := by
  unfold completedPairs Db.blocking
  rw [List.map_map]
  rfl

theorem continueRunIfUnblocked_effect :
    Effect db.Continues db.blocking db (continueRunIfUnblocked db).db := by
  unfold continueRunIfUnblocked
  split
  · next hblocked =>
    refine .keep (fun h => ?_) (.refl db)
    obtain ⟨row, hmem, hrow⟩ := List.any_eq_true.mp hblocked
    exact (by simpa using hrow : row.waitpointId ∉ db.completed) (h.1 row hmem)
  · next hunblocked =>
    have hcompleted : ∀ row ∈ db.blockingWaitpoints, row.waitpointId ∈ db.completed := by
      simpa using hunblocked
    refine Effect.congr (p := ∃ s, db.latest = some s ∧
      (s.executionStatus = .executingWithWaitpoints ∨
        (s.executionStatus = .suspended ∧ s.checkpointId ≠ none))) ?_
      (.withLatest fun latest hlatest => ?_)
    · exact ⟨fun h => ⟨hcompleted, h⟩, And.right⟩
    · split
      · next hstatus =>
        exact .write (.inl hstatus) (.created rfl rfl rfl (map_completedPairs db))
      · next hstatus =>
        split
        · next hnone =>
          refine .keep (fun h => ?_) (.refl db)
          rcases h with h | h
          · rw [hstatus] at h
            cases h
          · exact h.2 hnone
        · next checkpointId hsome =>
          refine .write (.inr ⟨hstatus, ?_⟩) (.created rfl rfl rfl (map_completedPairs db))
          rw [hsome]
          simp
      · next hexecuting hsuspended =>
        refine .keep (fun h => ?_) (.refl db)
        rcases h with h | h
        · exact hexecuting h
        · exact hsuspended h.1

/-- 取り出した run を失敗させるか、version を待たせる。 -/
def Db.DequeueDrops (db : Db) (target : DequeueTarget) : Prop :=
  db.message ≠ none ∧ ∃ s, db.latest = some s ∧
    ((s.executionStatus.isDequeueableExecutionStatus = false ∧
        s.executionStatus ≠ .pendingExecuting ∧ s.executionStatus ≠ .finished) ∨
      (s.executionStatus = .queued ∧ target = .pendingVersion))

theorem dequeueFromWorkerQueue_effect (target : DequeueTarget) (now random : ℚ) :
    Effect (db.DequeueDrops target) [] db
      (dequeueFromWorkerQueue config target now random db).db := by
  unfold dequeueFromWorkerQueue
  split
  · next hnone => exact .keep (fun h => h.1 hnone) (.refl db)
  · next hmessage =>
    refine Effect.congr (p := ∃ s, db.latest = some s ∧ _) ⟨fun h => ⟨hmessage, h⟩, And.right⟩
      (.withLatest fun latest hlatest => ?_)
    split
    · next hstatus =>
      have hqueued : latest.executionStatus ≠ .queued := by
        intro h
        rw [h] at hstatus
        cases hstatus
      split
      · next hpending =>
        refine .keep (fun h => ?_) (.same rfl)
        exact h.elim (fun h => h.2.1 hpending) (fun h => hqueued h.1)
      · next hpending =>
        refine Effect.congr ?_ (systemFailure_effect_of_error rfl _ now random)
        unfold Db.Unfinished
        rw [hlatest]
        simp [hstatus, hpending, hqueued]
    · next hdequeueable =>
      have hdequeueable : latest.executionStatus.isDequeueableExecutionStatus = true := by
        simpa using hdequeueable
      have hnot : ∀ h : latest.executionStatus.isDequeueableExecutionStatus = false ∧
          latest.executionStatus ≠ .pendingExecuting ∧ latest.executionStatus ≠ .finished, False := by
        intro h
        rw [hdequeueable] at h
        cases h.1
      split
      · -- 実行中の run を取れば、知らされた waitpoint は次の snapshot に移る
        next hqueued =>
        refine .keep (fun h => h.elim hnot fun h => ?_)
          (.created hlatest rfl rfl rfl fun w hw => mem_enhanced hw)
        rw [hqueued] at h
        cases h.1
      · next hqueued =>
        have hstatus : latest.executionStatus = .queued := by
          simp only [ExecutionStatus.isDequeueableExecutionStatus, List.mem_cons, List.not_mem_nil,
            or_false, decide_eq_true_eq] at hdequeueable
          exact hdequeueable.resolve_right hqueued
        split
        · exact .keep (fun h => h.elim hnot fun h => DequeueTarget.noConfusion h.2) (.same rfl)
        · exact .keep (fun h => h.elim hnot fun h => DequeueTarget.noConfusion h.2) (.same rfl)
        · exact .write (.inr ⟨hstatus, rfl⟩) (.created rfl rfl rfl rfl)
        · refine .keep (fun h => h.elim hnot fun h => DequeueTarget.noConfusion h.2) (.same ?_)
          rcases nackMessage_cases db config.queueMaxAttempts with hnack | ⟨message, hnack⟩
          · rw [hnack]
            rfl
          · rw [hnack]
            rfl
        · exact .keep (fun h => h.elim hnot fun h => DequeueTarget.noConfusion h.2)
            (.created hlatest rfl rfl rfl fun w hw => mem_enhanced hw)

/-- 止まった snapshot の扱いのうち、引き継がない行を作るもの。 -/
def Db.DropsStalled (config : Config) (db : Db) : ExecutionStatus → Prop
  | .pendingExecuting => (db.nackMessage config.queueMaxAttempts).1 = false
  | .executing | .executingWithWaitpoints | .pendingCancel => True
  | .suspended => db.Continues
  | _ => False

def Db.StallDrops (config : Config) (db : Db) (snapshotId : ℕ) : Prop :=
  ∃ s, db.latest = some s ∧ s.id = snapshotId ∧ db.DropsStalled config s.executionStatus

/-- SUSPENDED の run の heartbeat は `continueRunIfUnblocked` を呼ぶ。 -/
def Db.stallLinks (db : Db) : List String := if db.status = some .suspended then db.blocking else []

theorem stallLinks_of_status {s : Snapshot} (h : db.latest = some s)
    (hs : s.executionStatus ≠ .suspended) : db.stallLinks = [] := by
  unfold Db.stallLinks
  rw [Db.status_of_latest h]
  exact if_neg fun heq => hs (Option.some.inj heq)

theorem handleStalledSnapshot_effect (snapshotId : ℕ) (now random : ℚ) :
    Effect (db.StallDrops config snapshotId) db.stallLinks db
      (handleStalledSnapshot config snapshotId now random db).db := by
  refine .withLatest fun latest hlatest => ?_
  split
  · next hid => exact .keep (fun h => hid h.1) (.refl db)
  · next hid =>
    have hid : latest.id = snapshotId := by simpa using hid
    -- block している waitpoint を知らせるのは、SUSPENDED の snapshot だけである
    have hlinks : latest.executionStatus ≠ .suspended → db.stallLinks = [] :=
      stallLinks_of_status hlatest
    have hunfinished : latest.executionStatus ≠ .finished → db.Unfinished :=
      fun h => ⟨latest, hlatest, h⟩
    split
    · next hs => exact .keep (fun h => by rw [hs] at h; exact h.2) (.refl db)
    · next hs => exact .keep (fun h => by rw [hs] at h; exact h.2) (.refl db)
    · next hs => exact .keep (fun h => by rw [hs] at h; exact h.2) (.refl db)
    · next hs =>
      rw [hlinks (by simp [hs])]
      cases hnack : (db.nackMessage config.queueMaxAttempts).1 with
      | true =>
        refine .keep (fun h => ?_) ?_
        · rw [hs] at h
          exact absurd (hnack.symm.trans h.2) (by simp)
        obtain ⟨r, rest, hold, hr, hvalid, hws⟩ := tryNackAndRequeue_writes hnack
        refine .inr ⟨r, rest, hold, hr, hvalid, fun s hlatest' w hw => ?_⟩
        rw [hlatest] at hlatest'
        cases hlatest'
        rw [hws]
        exact mem_enhanced hw
      | false =>
        refine .write ⟨hid, by rw [hs]; exact hnack⟩ ?_
        rw [tryNackAndRequeue_of_failed hnack]
        exact (systemFailure_effect _ now random).1 (hunfinished (by simp [hs]))
    · next hs =>
      rw [hlinks (by simp [hs])]
      refine .write ⟨hid, by rw [hs]; trivial⟩ (attemptFailed_effect.1 ⟨latest, hlatest, rfl, by simp [hs]⟩)
    · next hs =>
      rw [hlinks (by simp [hs])]
      refine .write ⟨hid, by rw [hs]; trivial⟩ (attemptFailed_effect.1 ⟨latest, hlatest, rfl, by simp [hs]⟩)
    · next hs =>
      have hsuspended : db.stallLinks = db.blocking := by
        unfold Db.stallLinks
        rw [Db.status_of_latest hlatest, hs, if_pos rfl]
      rw [hsuspended]
      refine Effect.congr ?_ continueRunIfUnblocked_effect
      rw [hs]
      exact ⟨fun h => ⟨hid, h⟩, And.right⟩
    · next hs =>
      rw [hlinks (by simp [hs])]
      refine .write ⟨hid, by rw [hs]; trivial⟩ ((cancelRun_effect true).1 ⟨latest, hlatest, ?_, by simp⟩)
      rw [hs]
      simp
    · next hs => exact .keep (fun h => by rw [hs] at h; exact h.2) (.refl db)
    · next hs => exact .keep (fun h => by rw [hs] at h; exact h.2) (.refl db)

/-! ## 一歩の引き継ぎ -/

/-- 引き継がない有効な行を作る一歩。 -/
def Label.Drops (config : Config) (e : Engine) : Label → Prop
  | .triggerCreateSnapshot => e.trigger = .created
  | .dequeueFromWorkerQueue target _ _ => e.db.DequeueDrops target
  | .startRunAttempt snapshotId _ _ => e.db.Exhausted snapshotId
  | .attemptSucceeded snapshotId => e.db.Completes snapshotId
  | .attemptFailed snapshotId _ _ _ _ => e.db.Completes snapshotId
  | .cancelRun finalizeRun => ∃ s, e.db.latest = some s ∧ s.executionStatus ≠ .finished ∧
    ¬ (s.executionStatus = .pendingCancel ∧ finalizeRun = false)
  | .expireRun => ∃ s, e.db.latest = some s ∧ s.executionStatus.isExecuting = false ∧
    e.db.run.status = .pending ∧ e.db.run.lockedAt = none
  | .blockRunWithWaitpoint _ _ => ∃ s, e.db.latest = some s ∧
    s.executionStatus ∉ [.executingWithWaitpoints, .suspended]
  | .continueRunIfUnblocked => e.db.Continues
  | .rescheduleDelayedRun _ => e.db.Initial
  | .enqueueDelayedRun now => ∃ s, e.db.latest = some s ∧ s.executionStatus.isInitialState = true ∧
    e.db.run.delayUntil.any (now < ·) = false
  | .handleStalledSnapshot snapshotId _ _ => e.db.StallDrops config snapshotId
  | .tryNackAndRequeue _ _ =>
    (e.db.nackMessage config.queueMaxAttempts).1 = true ∨ e.db.Unfinished
  | .pendingVersionEnqueue => e.pendingVersionUpdated ≠ []
  | .triggerEnqueueMessage | .createCheckpoint _ _ | .continueRunExecution _ | .completeWaitpoint _
  | .pendingVersionRead | .pendingVersionUpdate => False

/-- 引き継がない行に書かれる waitpoint。 -/
def Label.links (db : Db) : Label → List String
  | .continueRunIfUnblocked => db.blocking
  | .handleStalledSnapshot _ _ _ => db.stallLinks
  | _ => []

theorem step_effect (e : Engine) (l : Label) :
    Effect (l.Drops config e) (l.links e.db) e.db (e.step config l).db := by
  cases l with
  | triggerCreateSnapshot =>
    simp only [Engine.step, Label.locked, Engine.unlocked]
    split
    · next h => exact .write h (.created rfl rfl rfl rfl)
    · next h => exact .keep h (.refl _)
  | triggerEnqueueMessage =>
    simp only [Engine.step, Label.locked, Engine.unlocked]
    split
    · exact .keep id (.same rfl)
    · exact .keep id (.refl _)
  | dequeueFromWorkerQueue target now random => exact dequeueFromWorkerQueue_effect target now random
  | startRunAttempt snapshotId now random => exact startRunAttempt_effect snapshotId now random
  | attemptSucceeded snapshotId => exact attemptSucceeded_effect snapshotId
  | attemptFailed snapshotId completion forceRequeue now random => exact attemptFailed_effect
  | cancelRun finalizeRun => exact cancelRun_effect finalizeRun
  | expireRun => exact expireRun_effect
  | createCheckpoint snapshotId checkpointId =>
    exact .keep id (createCheckpoint_keeps snapshotId checkpointId)
  | continueRunExecution snapshotId => exact .keep id (continueRunExecution_keeps snapshotId)
  | blockRunWithWaitpoint waitpoints batch => exact blockRunWithWaitpoint_effect waitpoints batch
  | completeWaitpoint id => exact .keep (fun h => h) (.same rfl)
  | continueRunIfUnblocked => exact continueRunIfUnblocked_effect
  | rescheduleDelayedRun delayUntil => exact rescheduleDelayedRun_effect delayUntil
  | enqueueDelayedRun now => exact enqueueDelayedRun_effect now
  | handleStalledSnapshot snapshotId now random =>
    exact handleStalledSnapshot_effect snapshotId now random
  | tryNackAndRequeue now random => exact tryNackAndRequeue_effect now random
  | pendingVersionRead =>
    simp only [Engine.step, Label.locked, Engine.unlocked]
    split
    · exact .keep id (.same rfl)
    · exact .keep id (.refl _)
  | pendingVersionUpdate =>
    simp only [Engine.step, Label.locked, Engine.unlocked]
    split
    · exact .keep id (.same rfl)
    · exact .keep id (.refl _)
  | pendingVersionEnqueue =>
    simp only [Engine.step, Label.locked, Engine.unlocked]
    cases hupdated : e.pendingVersionUpdated with
    | nil => exact .keep (fun h => h hupdated) (.refl _)
    | cons attemptNumber rest =>
      exact .write (fun h => by rw [hupdated] at h; cases h) (.created rfl rfl rfl rfl)

/-! ## getExecutionSnapshotsSince -/

/-- 行と `createdAt`。 -/
def dated : List Snapshot → List (ℕ × Snapshot)
  | [] => []
  | s :: rest => (rest.length + 1, s) :: dated rest

/-- 応答に含まれる snapshot。 -/
structure RunExecutionData where
  createdAt : ℕ
  snapshot : Snapshot
  completedWaitpoints : List IndexedWaitpoint

/-- `getExecutionSnapshotsSince`。最新の snapshot にだけ waitpoint を付け、古い順に返す。 -/
def getExecutionSnapshotsSince (fetch : Fetch) (db : Db) (since : ℕ) : List RunExecutionData :=
  match ((dated db.snapshots).filter fun d => d.2.isValid && since < d.1).take 50 with
  | [] => []
  | latest :: previous =>
    (⟨latest.1, latest.2, latest.2.enhanced fetch⟩ :: previous.map fun d =>
      ⟨d.1, d.2, enhanceWaitpoints [] latest.2.completedWaitpointOrder⟩).reverse

/-- 最新の有効な行と、その `createdAt`。 -/
def latestDated (l : List Snapshot) : Option (ℕ × Snapshot) := (dated l).find? (·.2.isValid)

theorem dated_le {l : List Snapshot} {d : ℕ × Snapshot} (h : d ∈ dated l) : d.1 ≤ l.length := by
  induction l with
  | nil => cases h
  | cons s rest ih =>
    rcases List.mem_cons.mp h with rfl | hmem
    · exact Nat.le_refl _
    · exact Nat.le_succ_of_le (ih hmem)

theorem map_latestDated (l : List Snapshot) :
    (latestDated l).map Prod.snd = l.find? (·.isValid) := by
  unfold latestDated
  induction l with
  | nil => rfl
  | cons s rest ih =>
    unfold dated
    rw [List.find?_cons, List.find?_cons]
    cases hs : s.isValid with
    | true => rfl
    | false => exact ih

theorem latestDated_of_padded {db : Db} {l : List Snapshot} (h : Padded db l) :
    latestDated l = latestDated db.snapshots := by
  obtain ⟨old, hold, rfl⟩ := h
  unfold latestDated
  induction old with
  | nil => rfl
  | cons s old ih =>
    rw [List.cons_append, dated, List.find?_cons_of_neg (by simp [hold s])]
    exact ih fun t ht => hold t (List.mem_cons_of_mem _ ht)

theorem latestDated_cons {s : Snapshot} {rest : List Snapshot} (h : s.isValid = true) :
    latestDated (s :: rest) = some (rest.length + 1, s) := by
  unfold latestDated dated
  rw [List.find?_cons_of_pos (by exact h)]

/-- 応答の先頭になるのは、`since` より後に作られた最新の有効な行である。 -/
theorem filter_dated (l : List Snapshot) (since : ℕ) :
    ((dated l).filter fun d => d.2.isValid && since < d.1).head? =
      (latestDated l).filter fun d => since < d.1 := by
  induction l with
  | nil => rfl
  | cons s rest ih =>
    cases hs : s.isValid with
    | false =>
      have hpadded : latestDated (s :: rest) = latestDated rest := by
        unfold latestDated
        rw [dated, List.find?_cons_of_neg (by simp [hs])]
      rw [hpadded, ← ih, dated, List.filter_cons_of_neg (by simp [hs])]
    | true =>
      rw [latestDated_cons hs, dated]
      by_cases hlt : since < rest.length + 1
      · rw [List.filter_cons_of_pos (by simp [hs, hlt]), Option.filter_some_pos (by simpa using hlt)]
        rfl
      · rw [List.filter_cons_of_neg (by simp [hs, hlt]), Option.filter_some_neg (by simpa using hlt)]
        rw [List.head?_eq_none_iff, List.filter_eq_nil_iff]
        intro d hd
        have hle := dated_le hd
        simp only [Bool.and_eq_true, decide_eq_true_eq, not_and]
        omega

/-- 応答の最後の snapshot。 -/
theorem getLast?_getExecutionSnapshotsSince (fetch : Fetch) (db : Db) (since : ℕ) :
    (getExecutionSnapshotsSince fetch db since).getLast? =
      ((latestDated db.snapshots).filter fun d => since < d.1).map fun d =>
        ⟨d.1, d.2, d.2.enhanced fetch⟩ := by
  rw [← filter_dated]
  unfold getExecutionSnapshotsSince
  generalize (dated db.snapshots).filter (fun d => d.2.isValid && since < d.1) = rows
  cases rows with
  | nil => rfl
  | cons d rows =>
    rw [List.take_succ_cons]
    simp

/-! ## runner -/

/--
run と runner。`position` は最後に受け取った snapshot の `createdAt`、`linked` は `continueRunIfUnblocked` が
snapshot に付けて行を消した waitpoint である。
-/
structure Runner where
  engine : Engine
  position : ℕ
  responses : List (List RunExecutionData)
  linked : List String

/-- runner が最初の snapshot を受け取ったところ。 -/
def Runner.start (e : Engine) : Runner where
  engine := e
  position := ((latestDated e.db.snapshots).map Prod.fst).getD 0
  responses := []
  linked := []

inductive RunnerLabel
  | engine (l : Label)
  | poll

/-- 一歩。runner はいつでも続きを取りに行ける。 -/
def Runner.step (config : Config) (r : Runner) : RunnerLabel → Runner
  | .engine l =>
    let engine := r.engine.step config l
    { r with
      engine := engine
      linked := r.linked ++
        if engine.db.blockingWaitpoints = [] then l.links r.engine.db else [] }
  | .poll =>
    let response := getExecutionSnapshotsSince config.fetch r.engine.db r.position
    { r with
      position := (response.getLast?.map (·.createdAt)).getD r.position
      responses := r.responses ++ [response] }

/-- 応答の最後の snapshot に現れた。 -/
def Runner.Delivered (r : Runner) (w : String) : Prop :=
  ∃ response ∈ r.responses, ∃ d ∈ response.getLast?, w ∈ d.completedWaitpoints.map Prod.fst

/-- 次に取りに行けば、これまでに付けられた waitpoint はどれも届いている。 -/
def Runner.AllDelivered (config : Config) (r : Runner) : Prop :=
  ∀ w ∈ r.linked, (r.step config .poll).Delivered w

/-- 引き継がない行を作るときには、届いていない waitpoint がその行に含まれている。 -/
def RunnerLabel.Delivers (config : Config) (r : Runner) : RunnerLabel → Prop
  | .engine l => l.Drops config r.engine → ∀ w ∈ r.linked, r.Delivered w ∨ w ∈ l.links r.engine.db
  | .poll => True

/-- 最新の行に付いていて、まだ受け取っていない。 -/
def Runner.Waiting (r : Runner) (w : String) : Prop :=
  ∃ d, latestDated r.engine.db.snapshots = some d ∧ r.position < d.1 ∧ w ∈ d.2.completedWaitpoints

instance (r : Runner) (w : String) : Decidable (r.Delivered w) :=
  decidable_of_iff (r.responses.any fun response => response.getLast?.any fun d =>
    decide (w ∈ d.completedWaitpoints.map Prod.fst)) (by simp [Runner.Delivered, Option.any_eq_true])

theorem mem_enhanced_iff {fetch : Fetch} {s : Snapshot} {w : String} :
    w ∈ (s.enhanced fetch).map Prod.fst ↔ w ∈ s.completedWaitpoints := by
  refine ⟨fun h => ?_, mem_enhanced⟩
  unfold Snapshot.enhanced enhanceWaitpoints at h
  rw [List.map_flatMap, List.mem_flatMap] at h
  obtain ⟨w', hread, hw⟩ := h
  have heq : w = w' := by
    split at hw
    · exact List.mem_singleton.mp hw
    · simp only [List.map_map, List.mem_map, Function.comp_apply] at hw
      obtain ⟨i, -, heq⟩ := hw
      exact heq.symm
  rw [heq]
  exact (fetch.mem_iff _ _).mp hread

theorem delivered_poll_iff {r : Runner} {w : String} :
    (r.step config .poll).Delivered w ↔ r.Delivered w ∨ r.Waiting w := by
  unfold Runner.Delivered Runner.Waiting
  simp only [Runner.step, List.mem_append, List.mem_singleton]
  constructor
  · rintro ⟨response, hmem | rfl, d, hd, hw⟩
    · exact .inl ⟨response, hmem, d, hd, hw⟩
    · rw [getLast?_getExecutionSnapshotsSince, Option.mem_def, Option.map_eq_some_iff] at hd
      obtain ⟨row, hrow, rfl⟩ := hd
      obtain ⟨hlatest, hlt⟩ := Option.filter_eq_some_iff.mp hrow
      exact .inr ⟨row, hlatest, by simpa using hlt, mem_enhanced_iff.mp hw⟩
  · rintro (⟨response, hmem, d, hd, hw⟩ | ⟨row, hlatest, hlt, hw⟩)
    · exact ⟨response, .inl hmem, d, hd, hw⟩
    · refine ⟨_, .inr rfl, ⟨row.1, row.2, row.2.enhanced config.fetch⟩, ?_, mem_enhanced_iff.mpr hw⟩
      rw [getLast?_getExecutionSnapshotsSince, Option.mem_def, Option.map_eq_some_iff]
      exact ⟨row, Option.filter_eq_some_iff.mpr ⟨hlatest, by simpa using hlt⟩, rfl⟩

theorem allDelivered_iff {r : Runner} :
    r.AllDelivered config ↔ ∀ w ∈ r.linked, r.Delivered w ∨ r.Waiting w :=
  forall₂_congr fun _ _ => delivered_poll_iff

/-! ### 付けられた waitpoint -/

theorem continueRunIfUnblocked_cleared (h : db.Continues) :
    (continueRunIfUnblocked db).db.blockingWaitpoints = [] := by
  obtain ⟨hcompleted, latest, hlatest, hstatus⟩ := h
  unfold continueRunIfUnblocked withLatest
  rw [if_neg (by simpa using hcompleted), hlatest]
  rcases hstatus with hstatus | ⟨hstatus, hcheckpoint⟩
  · simp only [hstatus]
    rfl
  · obtain ⟨checkpointId, hcheckpoint⟩ := Option.ne_none_iff_exists'.mp hcheckpoint
    simp only [hstatus, hcheckpoint]
    rfl

theorem continueRunIfUnblocked_idle (h : ¬ db.Continues) : (continueRunIfUnblocked db).db = db := by
  unfold continueRunIfUnblocked
  split
  · rfl
  · next hunblocked =>
    have hcompleted : ∀ row ∈ db.blockingWaitpoints, row.waitpointId ∈ db.completed := by
      simpa using hunblocked
    unfold withLatest
    split
    · rfl
    · next latest hlatest =>
      dsimp only
      split
      · next hstatus => exact absurd ⟨hcompleted, latest, hlatest, .inl hstatus⟩ h
      · next hstatus =>
        split
        · rfl
        · next checkpointId hsome =>
          refine absurd ⟨hcompleted, latest, hlatest, .inr ⟨hstatus, ?_⟩⟩ h
          rw [hsome]
          simp
      · rfl

theorem stallLinks_eq_nil (h : db.blockingWaitpoints = []) : db.stallLinks = [] := by
  unfold Db.stallLinks Db.blocking
  rw [h]
  split
  · rfl
  · rfl

theorem handleStalledSnapshot_suspended {s : Snapshot} (hlatest : db.latest = some s)
    (hs : s.executionStatus = .suspended) (snapshotId : ℕ) (now random : ℚ) :
    (handleStalledSnapshot config snapshotId now random db).db =
      if s.id = snapshotId then (continueRunIfUnblocked db).db else db := by
  unfold handleStalledSnapshot withLatest
  rw [hlatest]
  dsimp only
  by_cases hid : s.id = snapshotId
  · rw [if_neg (by simpa using hid), if_pos hid]
    simp only [hs]
  · rw [if_pos hid, if_neg hid]
    rfl

theorem linked_of_drops {e : Engine} {l : Label} (h : l.Drops config e) :
    (if (e.step config l).db.blockingWaitpoints = [] then l.links e.db else []) = l.links e.db := by
  cases l with
  | continueRunIfUnblocked => exact if_pos (continueRunIfUnblocked_cleared h)
  | handleStalledSnapshot snapshotId now random =>
    obtain ⟨s, hlatest, hid, hdrops⟩ := h
    by_cases hs : s.executionStatus = .suspended
    · rw [hs] at hdrops
      refine if_pos ?_
      show (handleStalledSnapshot config snapshotId now random e.db).db.blockingWaitpoints = []
      rw [handleStalledSnapshot_suspended hlatest hs, if_pos hid]
      exact continueRunIfUnblocked_cleared hdrops
    · have hlinks : Label.links e.db (.handleStalledSnapshot snapshotId now random) = [] :=
        stallLinks_of_status hlatest hs
      rw [hlinks, ite_self]
  | _ => exact ite_self _

theorem linked_of_keeps {e : Engine} {l : Label} (h : ¬ l.Drops config e) :
    (if (e.step config l).db.blockingWaitpoints = [] then l.links e.db else []) = [] := by
  cases l with
  | continueRunIfUnblocked =>
    have hidle : (e.step config .continueRunIfUnblocked).db = e.db := continueRunIfUnblocked_idle h
    rw [hidle]
    split
    · next hnil =>
      show e.db.blocking = []
      unfold Db.blocking
      rw [hnil]
      rfl
    · rfl
  | handleStalledSnapshot snapshotId now random =>
    by_cases hs : e.db.status = some .suspended
    · obtain ⟨s, hlatest, hsuspended⟩ := Option.map_eq_some_iff.mp hs
      have hidle : (e.step config (.handleStalledSnapshot snapshotId now random)).db = e.db := by
        show (handleStalledSnapshot config snapshotId now random e.db).db = e.db
        rw [handleStalledSnapshot_suspended hlatest hsuspended]
        split
        · next hid =>
          refine continueRunIfUnblocked_idle fun hcontinues => h ⟨s, hlatest, hid, ?_⟩
          rw [hsuspended]
          exact hcontinues
        · rfl
      rw [hidle]
      split
      · next hnil => exact stallLinks_eq_nil hnil
      · rfl
    · have hlinks : Label.links e.db (.handleStalledSnapshot snapshotId now random) = [] := if_neg hs
      rw [hlinks, ite_self]
  | _ => exact ite_self _

/-! ### 配達 -/

/-- runner は作られていない snapshot を受け取っていない。 -/
def Runner.Behind (r : Runner) : Prop := r.position ≤ r.engine.db.snapshots.length

theorem latestDated_le {l : List Snapshot} {d : ℕ × Snapshot} (h : latestDated l = some d) :
    d.1 ≤ l.length := dated_le (List.mem_of_find?_eq_some h)

theorem Padded.length_le {db : Db} {l : List Snapshot} (h : Padded db l) :
    db.snapshots.length ≤ l.length := by
  obtain ⟨old, -, rfl⟩ := h
  rw [List.length_append]
  exact Nat.le_add_left _ _

theorem length_le_step (e : Engine) (l : Label) :
    e.db.snapshots.length ≤ (e.step config l).db.snapshots.length := by
  have heffect : Effect (l.Drops config e) (l.links e.db) e.db (e.step config l).db :=
    step_effect e l
  by_cases hdrops : l.Drops config e
  · obtain ⟨r, rest, hold, hr, -⟩ := heffect.1 hdrops
    rw [hr]
    exact Nat.le_succ_of_le hold.length_le
  · rcases heffect.2 hdrops with hold | ⟨r, rest, hold, hr, -⟩
    · exact hold.length_le
    · rw [hr]
      exact Nat.le_succ_of_le hold.length_le

theorem behind_step (r : Runner) (l : RunnerLabel) (h : r.Behind) : (r.step config l).Behind := by
  cases l with
  | engine l => exact Nat.le_trans h (length_le_step r.engine l)
  | poll =>
    show (_ : Option ℕ).getD r.position ≤ r.engine.db.snapshots.length
    rw [getLast?_getExecutionSnapshotsSince]
    cases hfresh : (latestDated r.engine.db.snapshots).filter (fun d => decide (r.position < d.1)) with
    | none => exact h
    | some d => exact latestDated_le (Option.filter_eq_some_iff.mp hfresh).1

/-- 引き継ぐ一歩の後も、待っている waitpoint は最新の行に付いている。 -/
theorem waiting_of_keeps {r : Runner} {l : Label} {w : String} (hbehind : r.Behind)
    (hkeeps : Keeps r.engine.db (r.engine.step config l).db) (h : r.Waiting w) :
    (r.step config (.engine l)).Waiting w := by
  obtain ⟨d, hlatest, hlt, hw⟩ := h
  rcases hkeeps with hold | ⟨s, rest, hold, hs, hvalid, hcarried⟩
  · exact ⟨d, (latestDated_of_padded hold).trans hlatest, hlt, hw⟩
  · have hlatest' : r.engine.db.latest = some d.2 := by
      unfold Db.latest
      rw [← map_latestDated, hlatest]
      rfl
    refine ⟨(rest.length + 1, s), ?_, ?_, hcarried d.2 hlatest' w hw⟩
    · show latestDated (r.engine.step config l).db.snapshots = _
      rw [hs]
      exact latestDated_cons hvalid
    · exact Nat.lt_succ_of_le (Nat.le_trans hbehind hold.length_le)

/-- 引き継がない行を作った後に待っているのは、その行に付いている waitpoint である。 -/
theorem waiting_of_writes {r : Runner} {l : Label} {ws : List String} {w : String}
    (hbehind : r.Behind) (hwrites : Writes ws r.engine.db (r.engine.step config l).db) :
    (r.step config (.engine l)).Waiting w ↔ w ∈ ws := by
  obtain ⟨s, rest, hold, hs, hvalid, hws⟩ := hwrites
  have hlatest : latestDated (r.engine.step config l).db.snapshots = some (rest.length + 1, s) := by
    rw [hs]
    exact latestDated_cons hvalid
  rw [← hws]
  constructor
  · rintro ⟨d, hd, -, hw⟩
    cases hlatest.symm.trans hd
    exact hw
  · intro hw
    exact ⟨_, hlatest, Nat.lt_succ_of_le (Nat.le_trans hbehind hold.length_le), hw⟩

theorem allDelivered_step_iff (r : Runner) (l : RunnerLabel) (hbehind : r.Behind)
    (h : r.AllDelivered config) : (r.step config l).AllDelivered config ↔ l.Delivers config r := by
  cases l with
  | poll =>
    refine iff_of_true (allDelivered_iff.mpr fun w hw => .inl ?_) trivial
    exact h w hw
  | engine l =>
    rw [allDelivered_iff] at h ⊢
    by_cases hdrops : l.Drops config r.engine
    · have hwrites := (step_effect r.engine l).1 hdrops
      have hlinked : (r.step config (.engine l)).linked = r.linked ++ l.links r.engine.db :=
        congrArg (r.linked ++ ·) (linked_of_drops hdrops)
      rw [hlinked]
      constructor
      · intro hafter _ w hw
        exact (hafter w (List.mem_append_left _ hw)).imp id (waiting_of_writes hbehind hwrites).mp
      · intro hclean w hw
        rcases List.mem_append.mp hw with hw | hw
        · exact (hclean hdrops w hw).imp id (waiting_of_writes hbehind hwrites).mpr
        · exact .inr ((waiting_of_writes hbehind hwrites).mpr hw)
    · have hlinked : (r.step config (.engine l)).linked = r.linked ++ [] :=
        congrArg (r.linked ++ ·) (linked_of_keeps hdrops)
      rw [hlinked, List.append_nil]
      refine iff_of_true (fun w hw => ?_) (fun hd => absurd hd hdrops)
      exact (h w hw).imp id (waiting_of_keeps hbehind ((step_effect r.engine l).2 hdrops))

/--
**付けられた waitpoint がいつも runner に届くのは、届いていない waitpoint があるのに引き継がない snapshot が
作られることがないときであり、そのときに限る。**
-/
theorem delivery_throughout_iff (config : Config) (e : Engine) (ls : List RunnerLabel) :
    Throughout (Runner.step config) (Runner.AllDelivered config) (Runner.start e) ls ↔
      Along (Runner.step config) (fun r l => l.Delivers config r) (Runner.start e) ls := by
  refine throughout_iff_along (I := Runner.Behind) behind_step allDelivered_step_iff ?_ ?_
  · show (_ : Option ℕ).getD 0 ≤ e.db.snapshots.length
    cases hlatest : latestDated e.db.snapshots with
    | none => exact Nat.zero_le _
    | some d => exact latestDated_le hlatest
  · intro w hw
    cases hw

/-- 続けて止められた run では、一つ目の waitpoint が runner に届かない。 -/
theorem delivery_skipped :
    ¬ Throughout (Runner.step sampleConfig) (Runner.AllDelivered sampleConfig)
      (Runner.start (exec (Engine.step sampleConfig) (triggered none none sampleSettings) started))
      [.engine (.blockRunWithWaitpoint ["a"] none), .engine (.completeWaitpoint "a"),
        .engine .continueRunIfUnblocked, .engine (.blockRunWithWaitpoint ["b"] none), .poll] := by
  intro h
  have hlast := h.last "a" (by decide +kernel)
  revert hlast
  decide +kernel

end RunEngine
