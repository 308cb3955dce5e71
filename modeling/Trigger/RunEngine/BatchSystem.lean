import Trigger.RunEngine.Lifecycle
import Trigger.Worker.Job

/-!
# batch の完了

`batchTriggerAndWait` の batch の waitpoint を完了させる `BatchSystem`。batch の run はそれぞれ run engine の
`Engine` であり、`#finalizeRun` と batch queue の完了 callback が `tryCompleteBatch` の job を入れる。

`#finalizeRun` を呼ばずに run を終える経路があるので、待っている run が起きないことがある。
-/

namespace RunEngine.BatchSystem

open Infra.Machine Worker

/-! ## 行 -/

/-- `BatchTaskRunStatus`。 -/
inductive BatchStatus
  | pending
  | processing
  | completed
  | partialFailed
  | aborted
deriving DecidableEq

/-- `BatchTaskRun`。 -/
structure BatchTaskRun where
  status : BatchStatus
  batchVersion : String
  runCount : ℕ
  processingJobsCount : ℕ
  successfulRunCount : Option ℕ
  failedRunCount : Option ℕ
deriving DecidableEq

/-- `#tryCompleteBatch` が数える処理済みの item。 -/
def BatchTaskRun.processedRunCount (batch : BatchTaskRun) : ℕ :=
  if batch.batchVersion = "runengine:v2" then
    batch.successfulRunCount.getD 0 + batch.failedRunCount.getD 0
  else batch.processingJobsCount

/-- batch の waitpoint の status。 -/
inductive WaitpointStatus
  | pending
  | completed
deriving DecidableEq

/-! ## 状態 -/

/-- batch の run。`finalizing` は、run を終えた操作が `#finalizeRun` をまだ済ませていないことを表す。 -/
structure Run where
  engine : Engine
  finalizing : Bool

/-- run の status は最終のものである。 -/
def Run.Final (r : Run) : Prop := r.engine.db.run.status.isFinalRunStatus = true

/-- run が終わっていないか、終えた操作が済んでいない。 -/
def Run.Open (r : Run) : Prop := ¬ r.Final ∨ r.finalizing = true

/-- 完了 callback の進み具合。 -/
inductive Callback
  | waiting
  | updated
  | returned
deriving DecidableEq

/-- `#tryCompleteBatch` の進み具合。`returning` の次が `ack` である。 -/
inductive Phase
  | dequeued
  | counted
  | allFinal
  | completed
  | returning
  | finished
deriving DecidableEq

/-- 取り出された `tryCompleteBatch` の job の handler。 -/
structure Handler where
  job : QueueItem String
  phase : Phase
deriving DecidableEq

/-- `successes` と `failures` は、batch queue が数えた item の結果である。 -/
structure State where
  worker : Worker.State String
  batch : BatchTaskRun
  waitpoint : Option WaitpointStatus
  runs : List Run
  successes : ℕ
  failures : ℕ
  callback : Callback
  handlers : List Handler

/-- batch の id と、run engine の設定と、worker の部品。 -/
structure Setup where
  batchId : String
  config : Config
  worker : Worker.Env String

/-- worker の部品について使う事実。job の JSON は cjson で読める。 -/
structure Setup.Lawful (c : Setup) : Prop where
  worker : c.worker.Lawful
  decodes : ∀ item, c.worker.cjson item ≠ none

/-! ## 操作 -/

section Step

variable (c : Setup)

def Setup.jobId : String := "tryCompleteBatch:" ++ c.batchId

/-- `scheduleCompleteBatch`。 -/
def scheduleCompleteBatch (now : ℚ) (s : State) : State :=
  { s with
    worker :=
      Worker.enqueue c.worker c.jobId "tryCompleteBatch" c.batchId none (now + 200) 30000 none s.worker }

/-- `setupBatchQueueCallbacks` の完了 callback が決める status。 -/
def callbackStatus (s : State) : BatchStatus :=
  if 0 < s.failures ∧ s.successes = 0 then .aborted
  else if 0 < s.failures then .partialFailed
  else .pending

/-- 完了 callback の一段。transaction の後、ABORTED でなければ `tryCompleteBatch` を呼ぶ。 -/
def completionCallback (now : ℚ) (s : State) : State :=
  match s.callback with
  | .waiting =>
    if s.successes + s.failures = s.batch.runCount then
      { s with
        batch :=
          { s.batch with
            status := callbackStatus s
            successfulRunCount := some s.successes
            failedRunCount := some s.failures }
        callback := .updated }
    else s
  | .updated =>
    let s := { s with callback := .returned }
    if callbackStatus s ≠ .aborted then scheduleCompleteBatch c now s else s
  | .returned => s

/-- `#tryCompleteBatch` と `processItem` の一段。 -/
def tryCompleteBatch (job : QueueItem String) (s : State) : Phase → Phase × State
  | .dequeued =>
    if s.batch.status = .completed then (.returning, s)
    else if s.batch.processedRunCount < s.batch.runCount then (.returning, s)
    else (.counted, s)
  | .counted =>
    if s.runs.all (·.engine.db.run.status.isFinalRunStatus) then (.allFinal, s) else (.returning, s)
  | .allFinal => (.completed, { s with batch := { s.batch with status := .completed } })
  | .completed => (.returning, { s with waitpoint := s.waitpoint.map fun _ => .completed })
  | .returning => (.finished, { s with worker := Worker.succeed c.worker job s.worker })
  | .finished => (.finished, s)

/-- 一段で `#finalizeRun` に達するか。run を FINISHED にする操作のうち、`expireRun` だけは呼ばない。 -/
def reachesFinalizeRun (e : Engine) : RunEngine.Label → Bool
  | .expireRun => false
  | l => e.db.status ≠ some .finished && (e.step c.config l).db.status = some .finished

/-- run への一段。`#finalizeRun` が済むまで run の lock は放されない。 -/
def Run.step (r : Run) (l : RunEngine.Label) : Run :=
  if r.finalizing && (l.locked c.config r.engine.db).isSome then r
  else ⟨r.engine.step c.config l, r.finalizing || reachesFinalizeRun c r.engine l⟩

/--
一段。`runCreated` は item の処理が作った run、`itemSucceeded` と `itemFailed` は batch queue が数えた結果、
`other` は他の job への worker の操作である。
-/
inductive Label
  | runCreated (delayUntil : Option ℚ) (settings : RetrySettings)
  | itemSucceeded
  | itemFailed
  | callback (now : ℚ)
  | run (i : ℕ) (l : RunEngine.Label)
  | finalizeRun (i : ℕ) (now : ℚ)
  | dequeue (now : ℚ) (count : Int)
  | handler (i : ℕ)
  | other (l : Worker.Label String)

/-- まだ処理していない item がある。 -/
def State.Processing (s : State) : Prop := s.successes + s.failures < s.batch.runCount

instance (s : State) : Decidable s.Processing :=
  inferInstanceAs (Decidable (s.successes + s.failures < s.batch.runCount))

/-- `i` 番目の run の `#finalizeRun`。 -/
def finalizeRun (i : ℕ) (now : ℚ) (s : State) : State :=
  match s.runs[i]? with
  | some ⟨engine, true⟩ => scheduleCompleteBatch c now { s with runs := s.runs.set i ⟨engine, false⟩ }
  | _ => s

/-- `i` 番目の run が進む。 -/
def advanceRun (i : ℕ) (l : RunEngine.Label) (s : State) : State :=
  match s.runs[i]? with
  | none => s
  | some r => { s with runs := s.runs.set i (r.step c l) }

/-- `i` 番目の handler が進む。 -/
def advanceHandler (i : ℕ) (s : State) : State :=
  match s.handlers[i]? with
  | none => s
  | some h =>
    let r := tryCompleteBatch c h.job s h.phase
    { r.2 with handlers := s.handlers.set i ⟨h.job, r.1⟩ }

def step (s : State) : Label → State
  | .runCreated delayUntil settings =>
    if s.Processing then
      { s with runs := s.runs ++ [⟨triggered delayUntil (some c.batchId) settings, false⟩] }
    else s
  | .itemSucceeded => if s.Processing then { s with successes := s.successes + 1 } else s
  | .itemFailed => if s.Processing then { s with failures := s.failures + 1 } else s
  | .callback now => completionCallback c now s
  | .run i l => advanceRun c i l s
  | .finalizeRun i now => finalizeRun c i now s
  | .dequeue now count =>
    { s with
      worker := Worker.dequeue c.worker now count s.worker
      handlers := s.handlers ++ (dequeuedJobs c.worker c.jobId now count s.worker).map (⟨·, .dequeued⟩) }
  | .handler i => advanceHandler c i s
  | .other l => if About c.jobId l then s else { s with worker := s.worker.step c.worker l }

theorem advanceHandler_of_some {i : ℕ} {s : State} {h : Handler} (hi : s.handlers[i]? = some h) :
    advanceHandler c i s =
      { (tryCompleteBatch c h.job s h.phase).2 with
        handlers := s.handlers.set i ⟨h.job, (tryCompleteBatch c h.job s h.phase).1⟩ } := by
  rw [advanceHandler, hi]

/-- `blockRunWithCreatedBatch` の直後。 -/
def created (runCount : ℕ) : State where
  worker := Worker.State.empty
  batch := ⟨.pending, "runengine:v2", runCount, 0, none, none⟩
  waitpoint := some .pending
  runs := []
  successes := 0
  failures := 0
  callback := .waiting
  handlers := []

end Step

/-! ## 性質 -/

section Property

variable (c : Setup) (s : State)

/-- callback が戻り、どの run も最終の status にあって、途中の操作が無い。 -/
structure Settled : Prop where
  returned : s.callback = .returned
  runs : ∀ r ∈ s.runs, r.Final ∧ r.finalizing = false
  handlers : ∀ h ∈ s.handlers, h.phase = .finished

/-- waitpoint が完了しているか、`tryCompleteBatch` の job が待っている。 -/
def CompletedOrPending : Prop := s.waitpoint = some .completed ∨
  (s.worker.store.items.get c.jobId).isSome ∧ (s.worker.store.queue.score? c.jobId).isSome

/-- 片付いた batch は、いずれ必ず完了する。 -/
def Completes : Prop := Settled s → CompletedOrPending c s

/-- queue にある job を取り出して run を読み終えた handler が無い。 -/
def Untaken : Prop := ∃ item ∈ s.worker.store.items.get c.jobId,
  ∀ h ∈ s.handlers, h.job.deduplicationKey = item.deduplicationKey →
    h.phase = .dequeued ∨ h.phase = .counted

/-- batch の完了を、これから誰かが試みる。 -/
def Attended : Prop := s.waitpoint = some .completed ∨ s.callback ≠ .returned ∨
  (∃ r ∈ s.runs, r.Open) ∨ (∃ h ∈ s.handlers, h.phase = .allFinal ∨ h.phase = .completed) ∨ Untaken c s

/-- run が `#finalizeRun` に達せずに最終の status になる。 -/
def Run.Forgets (r : Run) (l : RunEngine.Label) : Prop := ¬ r.Final ∧ ¬ (r.step c l).Open

/--
一段の条件。run が `#finalizeRun` に達せずに終わるのも、callback が batch を ABORTED にして戻るのも、
他に完了を試みるものが残るときだけである。
-/
def Minded : Label → Prop
  | .run i l => ∀ r ∈ s.runs[i]?, r.Forgets c l → Attended c { s with runs := s.runs.eraseIdx i }
  | .callback _ => s.callback = .updated → callbackStatus s = .aborted →
    Attended c { s with callback := .returned }
  | _ => True

instance (r : Run) : Decidable r.Final :=
  inferInstanceAs (Decidable (r.engine.db.run.status.isFinalRunStatus = true))

instance (r : Run) : Decidable r.Open := inferInstanceAs (Decidable (_ ∨ _))

instance (r : Run) (l : RunEngine.Label) : Decidable (r.Forgets c l) := inferInstanceAs (Decidable (_ ∧ _))

instance : Decidable (Untaken c s) :=
  inferInstanceAs (Decidable (∃ item ∈ s.worker.store.items.get c.jobId, ∀ h ∈ s.handlers,
    h.job.deduplicationKey = item.deduplicationKey → h.phase = .dequeued ∨ h.phase = .counted))

instance : Decidable (Attended c s) := inferInstanceAs (Decidable (_ ∨ _ ∨ _ ∨ _ ∨ _))

instance : Decidable (CompletedOrPending c s) := inferInstanceAs (Decidable (_ ∨ _ ∧ _))

instance : ∀ l, Decidable (Minded c s l)
  | .run i l => inferInstanceAs (Decidable (∀ r ∈ s.runs[i]?, r.Forgets c l → _))
  | .callback _ => inferInstanceAs (Decidable (_ → _ → _))
  | .runCreated .. | .itemSucceeded | .itemFailed | .finalizeRun .. | .dequeue .. | .handler _
  | .other _ => isTrue trivial

end Property

/-! ## 不変条件 -/

/-- `n` 回目より前の nanoid が作った key。 -/
def KeyIssued (c : Setup) (n : ℕ) (key : Option String) : Prop := ∃ k < n, key = some (c.worker.nanoid k)

/-- 一段ごとに保たれる性質。status が COMPLETED なら、waitpoint は完了しているか、これから完了する。 -/
structure Invariant (c : Setup) (s : State) : Prop where
  consistent : Consistent s.worker.store
  stored : ∀ item, s.worker.store.items.get c.jobId = some item →
    KeyIssued c s.worker.nanoids item.deduplicationKey
  handlers : ∀ h ∈ s.handlers, h.job.id = c.jobId ∧ KeyIssued c s.worker.nanoids h.job.deduplicationKey
  waitpoint : s.waitpoint ≠ none
  version : s.batch.batchVersion = "runengine:v2"
  counted : s.callback ≠ .waiting → s.batch.runCount ≤ s.batch.processedRunCount
  completed : s.batch.status = .completed →
    s.waitpoint = some .completed ∨ ∃ h ∈ s.handlers, h.phase = .completed
  attended : Attended c s

theorem Invariant.completes {c : Setup} {s : State} (hs : Invariant c s) : Completes c s := by
  intro hsettled
  rcases hs.attended with h | h | ⟨r, hr, hopen⟩ | ⟨h, hh, hphase⟩ | ⟨item, hget, -⟩
  · exact .inl h
  · exact absurd hsettled.returned h
  · obtain ⟨hfinal, hdone⟩ := hsettled.runs r hr
    rcases hopen with h | h
    · exact absurd hfinal h
    · rw [hdone] at h
      cases h
  · rw [hsettled.handlers h hh] at hphase
    rcases hphase with h | h <;> cases h
  · have hsome : (s.worker.store.items.get c.jobId).isSome := by rw [hget]; rfl
    exact .inr ⟨hsome, (hs.consistent.live c.jobId).mpr hsome⟩

variable {c : Setup} {s : State}

theorem KeyIssued.mono {n n' : ℕ} {key : Option String} (hn : n ≤ n') (h : KeyIssued c n key) :
    KeyIssued c n' key := by
  obtain ⟨k, hk, hkey⟩ := h
  exact ⟨k, hk.trans_le hn, hkey⟩

theorem invariant_created (c : Setup) (runCount : ℕ) : Invariant c (created runCount) where
  consistent := consistent_empty
  stored := fun item hget => by cases hget
  handlers := fun h hh => absurd hh List.not_mem_nil
  waitpoint := nofun
  version := rfl
  counted := fun h => absurd rfl h
  completed := nofun
  attended := .inr (.inl nofun)

/-- 最初の状態から変わらないものを除き、一段で変わるものだけを示せばよい。 -/
theorem Invariant.frame (hs : Invariant c s) {s' : State} (hconsistent : Consistent s'.worker.store)
    (hitems : s'.worker.store.items.get c.jobId = s.worker.store.items.get c.jobId)
    (hnanoids : s.worker.nanoids ≤ s'.worker.nanoids) (hhandlers : s'.handlers = s.handlers)
    (hbatch : s'.batch = s.batch) (hwaitpoint : s'.waitpoint = s.waitpoint)
    (hcallback : s'.callback ≠ .waiting → s.callback ≠ .waiting) (hattended : Attended c s') :
    Invariant c s' where
  consistent := hconsistent
  stored := fun item hget => (hs.stored item (hitems ▸ hget)).mono hnanoids
  handlers := by
    rw [hhandlers]
    exact fun h hh => ⟨(hs.handlers h hh).1, (hs.handlers h hh).2.mono hnanoids⟩
  waitpoint := hwaitpoint ▸ hs.waitpoint
  version := hbatch ▸ hs.version
  counted := hbatch ▸ fun h => hs.counted (hcallback h)
  completed := by
    rw [hbatch, hwaitpoint, hhandlers]
    exact hs.completed
  attended := hattended

/-- 試みるものは、run と job の他を変えない一段では残る。 -/
theorem Attended.mono {s' : State} (h : Attended c s)
    (hitems : s'.worker.store.items.get c.jobId = s.worker.store.items.get c.jobId)
    (hhandlers : s'.handlers = s.handlers) (hwaitpoint : s'.waitpoint = s.waitpoint)
    (hcallback : s'.callback = s.callback)
    (hruns : (∃ r ∈ s.runs, r.Open) → ∃ r ∈ s'.runs, r.Open) : Attended c s' := by
  unfold Attended Untaken
  rw [hitems, hhandlers, hwaitpoint, hcallback]
  rcases h with h | h | h | h | h
  · exact .inl h
  · exact .inr (.inl h)
  · exact .inr (.inr (.inl (hruns h)))
  · exact .inr (.inr (.inr (.inl h)))
  · exact .inr (.inr (.inr (.inr h)))

/-! ### job を入れる -/

/-- 入れたばかりの job は、まだ取り出されていない。 -/
theorem invariant_scheduleCompleteBatch (hc : c.Lawful) (hs : Invariant c s) {s' : State} (now : ℚ)
    (hworker : s'.worker = (scheduleCompleteBatch c now s).worker) (hhandlers : s'.handlers = s.handlers)
    (hbatch : s'.batch = s.batch) (hwaitpoint : s'.waitpoint = s.waitpoint)
    (hcallback : s'.callback ≠ .waiting → s.callback ≠ .waiting) : Invariant c s' := by
  have hset : s'.worker.store.items.get c.jobId =
      some ⟨"tryCompleteBatch", c.batchId, 30000, none, some (c.worker.nanoid s.worker.nanoids), none⟩ := by
    rw [hworker]
    exact Infra.JsMap.get_set_self ..
  have hnanoids : s'.worker.nanoids = s.worker.nanoids + 1 := by rw [hworker]; rfl
  refine ⟨?_, ?_, ?_, hwaitpoint ▸ hs.waitpoint, hbatch ▸ hs.version, ?_, ?_, ?_⟩
  · rw [hworker]
    exact consistent_enqueueItem hs.consistent
  · intro item hget
    obtain rfl := Option.some.inj (hset.symm.trans hget)
    exact ⟨s.worker.nanoids, by omega, rfl⟩
  · rw [hhandlers]
    exact fun h hh => ⟨(hs.handlers h hh).1, (hs.handlers h hh).2.mono (by omega)⟩
  · rw [hbatch]
    exact fun h => hs.counted (hcallback h)
  · rw [hbatch, hwaitpoint, hhandlers]
    exact hs.completed
  · refine .inr (.inr (.inr (.inr ⟨_, hset, fun h hh hkey => ?_⟩)))
    rw [hhandlers] at hh
    obtain ⟨k, hk, hkey'⟩ := (hs.handlers h hh).2
    have hnanoid := Option.some.inj (hkey'.symm.trans hkey)
    have := hc.worker.nanoid_injective hnanoid
    omega

/-- callback の一段。 -/
theorem invariant_callback (hc : c.Lawful) (hs : Invariant c s) {now : ℚ}
    (hminded : Minded c s (.callback now)) : Invariant c (completionCallback c now s) := by
  unfold completionCallback
  rcases hcallback : s.callback with _ | _ | _
  · simp only
    split
    · next hall =>
      refine ⟨hs.consistent, hs.stored, hs.handlers, hs.waitpoint, hs.version, ?_, ?_, .inr (.inl nofun)⟩
      · intro _
        unfold BatchTaskRun.processedRunCount
        rw [if_pos hs.version]
        exact hall.ge
      · intro hcompleted
        unfold callbackStatus at hcompleted
        dsimp only at hcompleted
        split at hcompleted
        · cases hcompleted
        · split at hcompleted <;> cases hcompleted
    · exact hs
  · simp only
    split
    · exact invariant_scheduleCompleteBatch (s := s) hc hs now rfl rfl rfl rfl
        fun _ => by rw [hcallback]; exact nofun
    · next haborted =>
      refine hs.frame hs.consistent rfl (le_refl _) rfl rfl rfl (fun _ => by rw [hcallback]; exact nofun) ?_
      exact hminded hcallback (not_not.mp haborted)
  · exact hs

/-- `#finalizeRun` の一段。 -/
theorem invariant_finalizeRun (hc : c.Lawful) (hs : Invariant c s) (i : ℕ) (now : ℚ) :
    Invariant c (finalizeRun c i now s) := by
  unfold finalizeRun
  split
  · exact invariant_scheduleCompleteBatch (s := s) hc hs now rfl rfl rfl rfl id
  · exact hs

/-! ### run -/

/-- run の一段。 -/
theorem invariant_advanceRun (hs : Invariant c s) {i : ℕ} {l : RunEngine.Label}
    (hminded : Minded c s (.run i l)) : Invariant c (advanceRun c i l s) := by
  unfold advanceRun
  rcases hi : s.runs[i]? with _ | r
  · exact hs
  · refine hs.frame hs.consistent rfl (le_refl _) rfl rfl rfl id ?_
    by_cases hforgets : r.Forgets c l
    · refine (hminded r hi hforgets).mono rfl rfl rfl rfl ?_
      rintro ⟨r', hr', hopen⟩
      obtain ⟨j, hj, hget⟩ := List.mem_eraseIdx_iff_getElem?.mp hr'
      exact ⟨r', List.mem_of_getElem? ((List.getElem?_set_ne (Ne.symm hj)).trans hget), hopen⟩
    · refine hs.attended.mono rfl rfl rfl rfl ?_
      rintro ⟨r', hr', hopen⟩
      by_cases hstep : (r.step c l).Open
      · exact ⟨r.step c l, Infra.mem_set_of_getElem? hi, hstep⟩
      · -- 終わっていたのに開いている run は、`#finalizeRun` を待っているので開いたままである
        have hfinal : r.Final := by
          by_contra h
          exact hforgets ⟨h, hstep⟩
        refine ⟨r', Infra.mem_set_of_ne hi hr' fun heq => hstep ?_, hopen⟩
        rw [heq] at hopen
        have hfinalizing : r.finalizing = true := hopen.resolve_left (not_not.mpr hfinal)
        refine .inr ?_
        unfold Run.step
        split
        · exact hfinalizing
        · rw [hfinalizing]
          rfl

/-! ### handler -/

/-- 取り出しの一段。 -/
theorem invariant_dequeue (hs : Invariant c s) (now : ℚ) (count : Int) :
    Invariant c (step c s (.dequeue now count)) := by
  have hitems : (step c s (.dequeue now count)).worker.store.items = s.worker.store.items :=
    items_dequeueLoop _
  have hold : ∀ h ∈ s.handlers, h ∈ (step c s (.dequeue now count)).handlers :=
    fun h hh => List.mem_append_left _ hh
  refine ⟨consistent_exec c.worker.cjson hs.consistent (.dequeueItems now count), ?_, ?_, hs.waitpoint,
    hs.version, hs.counted, ?_, ?_⟩
  · rw [hitems]
    exact hs.stored
  · intro h hh
    rcases List.mem_append.mp hh with hh | hh
    · exact hs.handlers h hh
    · obtain ⟨q, hq, rfl⟩ := List.mem_map.mp hh
      obtain ⟨hid, -, item, hget, hkey, -⟩ := mem_dequeuedJobs hq
      refine ⟨hid, ?_⟩
      change KeyIssued c s.worker.nanoids q.deduplicationKey
      rw [hkey]
      exact hs.stored item hget
  · intro hcompleted
    rcases hs.completed hcompleted with h | ⟨h, hh, hphase⟩
    · exact .inl h
    · exact .inr ⟨h, hold h hh, hphase⟩
  · rcases hs.attended with h | h | h | ⟨h, hh, hphase⟩ | ⟨item, hget, huntaken⟩
    · exact .inl h
    · exact .inr (.inl h)
    · exact .inr (.inr (.inl h))
    · exact .inr (.inr (.inr (.inl ⟨h, hold h hh, hphase⟩)))
    · refine .inr (.inr (.inr (.inr ⟨item, by rw [hitems]; exact hget, fun h hh hkey => ?_⟩)))
      rcases List.mem_append.mp hh with hh | hh
      · exact huntaken h hh hkey
      · obtain ⟨q, -, rfl⟩ := List.mem_map.mp hh
        exact .inl rfl

/-- 一つの handler が、queue を変えずに進む。 -/
theorem Invariant.advance (hs : Invariant c s) {i : ℕ} {h : Handler} (hi : s.handlers[i]? = some h)
    {s' : State} {phase : Phase} (hworker : s'.worker = s.worker)
    (hhandlers : s'.handlers = s.handlers.set i ⟨h.job, phase⟩) (hwaitpoint : s'.waitpoint ≠ none)
    (hversion : s'.batch.batchVersion = s.batch.batchVersion)
    (hcounted : s'.callback ≠ .waiting → s'.batch.runCount ≤ s'.batch.processedRunCount)
    (hcompleted : s'.batch.status = .completed →
      s'.waitpoint = some .completed ∨ ∃ h ∈ s'.handlers, h.phase = .completed)
    (hattended : Attended c s') : Invariant c s' where
  consistent := hworker ▸ hs.consistent
  stored := hworker ▸ hs.stored
  handlers := by
    rw [hhandlers, hworker]
    intro h' hh'
    rcases List.mem_or_eq_of_mem_set hh' with hh' | rfl
    · exact hs.handlers h' hh'
    · exact hs.handlers h (List.mem_of_getElem? hi)
  waitpoint := hwaitpoint
  version := hversion.trans hs.version
  counted := hcounted
  completed := hcompleted
  attended := hattended

/-- 新しい key の job は、古い job の handler の `ack` では消えない。 -/
theorem items_succeed (hc : c.Lawful) (hs : Invariant c s) {h : Handler} (hh : h ∈ s.handlers)
    {item : Item String} (hget : s.worker.store.items.get c.jobId = some item)
    (hkey : h.job.deduplicationKey ≠ item.deduplicationKey) :
    (Worker.succeed c.worker h.job s.worker).store.items.get c.jobId = some item := by
  obtain ⟨hid, k, -, hkey'⟩ := hs.handlers h hh
  obtain ⟨m, -, hkey''⟩ := hs.stored item hget
  have hne : m ≠ k := by
    rintro rfl
    exact hkey (hkey'.trans hkey''.symm)
  change (ackItem c.worker.cjson h.job.id (h.job.deduplicationKey.getD "") s.worker.store).2.items.get _ = _
  rw [hid, hkey', Option.getD_some, ackItem_of_ne hc.worker hget (hc.decodes item) hkey'' hne]
  exact hget

/-- `ack` の一段。run を読み終えた handler の job が最新の job なら、他に試みるものがある。 -/
theorem invariant_ack (hc : c.Lawful) (hs : Invariant c s) {i : ℕ} {h : Handler}
    (hi : s.handlers[i]? = some h) (hphase : h.phase = .returning) :
    Invariant c { s with
      worker := Worker.succeed c.worker h.job s.worker
      handlers := s.handlers.set i ⟨h.job, .finished⟩ } := by
  have hmem : h ∈ s.handlers := List.mem_of_getElem? hi
  have hother : ∀ h' ∈ s.handlers, h'.phase ≠ .returning → h' ∈ s.handlers.set i ⟨h.job, .finished⟩ :=
    fun h' hh' hne => Infra.mem_set_of_ne hi hh' fun heq => hne (heq ▸ hphase)
  refine ⟨consistent_exec c.worker.cjson hs.consistent (.ackItem ..), ?_, ?_, hs.waitpoint, hs.version,
    hs.counted, ?_, ?_⟩
  · exact fun item hget => hs.stored item (items_ackItem hget)
  · intro h' hh'
    rcases List.mem_or_eq_of_mem_set hh' with hh' | rfl
    · exact hs.handlers h' hh'
    · exact hs.handlers h hmem
  · intro hcompleted
    rcases hs.completed hcompleted with hw | ⟨h', hh', hphase'⟩
    · exact .inl hw
    · exact .inr ⟨h', hother h' hh' (by rw [hphase']; exact nofun), hphase'⟩
  · rcases hs.attended with hw | hcb | hruns | ⟨h', hh', hphase'⟩ | ⟨item, hget, huntaken⟩
    · exact .inl hw
    · exact .inr (.inl hcb)
    · exact .inr (.inr (.inl hruns))
    · refine .inr (.inr (.inr (.inl ⟨h', hother h' hh' ?_, hphase'⟩)))
      rcases hphase' with hphase' | hphase' <;> rw [hphase'] <;> exact nofun
    · have hkey : h.job.deduplicationKey ≠ item.deduplicationKey := by
        intro hkey
        have := huntaken h hmem hkey
        rw [hphase] at this
        rcases this with h | h <;> cases h
      refine .inr (.inr (.inr (.inr ⟨item, items_succeed hc hs hmem hget hkey, fun h' hh' hkey' => ?_⟩)))
      rcases List.mem_or_eq_of_mem_set hh' with hh' | rfl
      · exact huntaken h' hh' hkey'
      · exact absurd hkey' hkey

/-- handler の一段。 -/
theorem invariant_advanceHandler (hc : c.Lawful) (hs : Invariant c s) (i : ℕ) :
    Invariant c (advanceHandler c i s) := by
  rcases hi : s.handlers[i]? with _ | h
  · rw [advanceHandler, hi]
    exact hs
  have hset : ∀ phase, (⟨h.job, phase⟩ : Handler) ∈ s.handlers.set i ⟨h.job, phase⟩ :=
    fun phase => Infra.mem_set_of_getElem? hi
  have hother : ∀ phase, ∀ h' ∈ s.handlers, h'.phase ≠ h.phase → h' ∈ s.handlers.set i ⟨h.job, phase⟩ :=
    fun phase h' hh' hne => Infra.mem_set_of_ne hi hh' fun heq => hne (heq ▸ rfl)
  -- waitpoint をまだ完了させていない handler は、他の handler の `completed` を変えない
  have hcompleted : h.phase ≠ .completed → ∀ phase, s.batch.status = .completed →
      s.waitpoint = some .completed ∨
        ∃ h' ∈ s.handlers.set i ⟨h.job, phase⟩, h'.phase = .completed := by
    intro hne phase hstatus
    rcases hs.completed hstatus with hw | ⟨h', hh', hphase'⟩
    · exact .inl hw
    · exact .inr ⟨h', hother phase h' hh' (by rw [hphase']; exact Ne.symm hne), hphase'⟩
  rw [advanceHandler_of_some c hi]
  rcases hphase : h.phase with _ | _ | _ | _ | _ | _
  · have hcompleted := hcompleted (by rw [hphase]; exact nofun)
    unfold tryCompleteBatch
    dsimp only
    split
    · next hstatus =>
      refine hs.advance hi rfl rfl hs.waitpoint rfl hs.counted (hcompleted .returning) ?_
      rcases hcompleted .returning hstatus with hw | ⟨h', hh', hphase'⟩
      · exact .inl hw
      · exact .inr (.inr (.inr (.inl ⟨h', hh', .inr hphase'⟩)))
    · split
      · next hlt =>
        refine hs.advance hi rfl rfl hs.waitpoint rfl hs.counted (hcompleted .returning) (.inr (.inl ?_))
        intro hreturned
        have := hs.counted (by rw [show s.callback = _ from hreturned]; exact nofun)
        omega
      · refine hs.advance hi rfl rfl hs.waitpoint rfl hs.counted (hcompleted .counted) ?_
        rcases hs.attended with hw | hcb | hruns | ⟨h', hh', hphase'⟩ | ⟨item, hget, huntaken⟩
        · exact .inl hw
        · exact .inr (.inl hcb)
        · exact .inr (.inr (.inl hruns))
        · refine .inr (.inr (.inr (.inl ⟨h', hother .counted h' hh' ?_, hphase'⟩)))
          rw [hphase]
          rcases hphase' with hphase' | hphase' <;> rw [hphase'] <;> exact nofun
        · refine .inr (.inr (.inr (.inr ⟨item, hget, fun h' hh' hkey => ?_⟩)))
          rcases List.mem_or_eq_of_mem_set hh' with hh' | rfl
          · exact huntaken h' hh' hkey
          · exact .inr rfl
  · have hcompleted := hcompleted (by rw [hphase]; exact nofun)
    unfold tryCompleteBatch
    dsimp only
    split
    · refine hs.advance hi rfl rfl hs.waitpoint rfl hs.counted (hcompleted .allFinal) ?_
      exact .inr (.inr (.inr (.inl ⟨_, hset .allFinal, .inl rfl⟩)))
    · next hall =>
      refine hs.advance hi rfl rfl hs.waitpoint rfl hs.counted (hcompleted .returning) ?_
      simp only [List.all_eq_true, not_forall] at hall
      obtain ⟨r, hr, hfinal⟩ := hall
      exact .inr (.inr (.inl ⟨r, hr, .inl hfinal⟩))
  · refine hs.advance hi rfl rfl hs.waitpoint rfl hs.counted ?_ ?_
    · exact fun _ => .inr ⟨_, hset .completed, rfl⟩
    · exact .inr (.inr (.inr (.inl ⟨_, hset .completed, .inr rfl⟩)))
  · have hw : s.waitpoint.map (fun _ => WaitpointStatus.completed) = some .completed := by
      obtain ⟨status, hstatus⟩ := Option.ne_none_iff_exists'.mp hs.waitpoint
      rw [hstatus]
      rfl
    refine hs.advance hi rfl rfl ?_ rfl hs.counted (fun _ => .inl hw) (.inl hw)
    change s.waitpoint.map _ ≠ none
    rw [hw]
    exact nofun
  · exact invariant_ack hc hs hi hphase
  · have hsame : s.handlers.set i ⟨h.job, .finished⟩ = s.handlers := by
      rw [← hphase]
      exact Infra.set_of_getElem? hi
    change Invariant c { s with handlers := s.handlers.set i ⟨h.job, .finished⟩ }
    rw [hsame]
    exact hs

/-- **条件を満たす一段は、完了を試みるものを残す。** -/
theorem invariant_step (hc : c.Lawful) (s : State) (l : Label) (hs : Invariant c s)
    (hminded : Minded c s l) : Invariant c (step c s l) := by
  cases l with
  | runCreated delayUntil settings =>
    change Invariant c (if s.Processing then _ else s)
    split
    · refine hs.frame hs.consistent rfl (le_refl _) rfl rfl rfl id (hs.attended.mono rfl rfl rfl rfl ?_)
      exact fun ⟨r, hr, hopen⟩ => ⟨r, List.mem_append_left _ hr, hopen⟩
    · exact hs
  | itemSucceeded =>
    change Invariant c (if s.Processing then _ else s)
    split
    · exact hs.frame hs.consistent rfl (le_refl _) rfl rfl rfl id (hs.attended.mono rfl rfl rfl rfl id)
    · exact hs
  | itemFailed =>
    change Invariant c (if s.Processing then _ else s)
    split
    · exact hs.frame hs.consistent rfl (le_refl _) rfl rfl rfl id (hs.attended.mono rfl rfl rfl rfl id)
    · exact hs
  | callback now => exact invariant_callback hc hs hminded
  | run i l => exact invariant_advanceRun hs hminded
  | finalizeRun i now => exact invariant_finalizeRun hc hs i now
  | dequeue now count => exact invariant_dequeue hs now count
  | handler i => exact invariant_advanceHandler hc hs i
  | other l =>
    change Invariant c (if About c.jobId l then s else _)
    split
    · exact hs
    · next hl =>
      have hitems : (s.worker.step c.worker l).store.items.get c.jobId =
          s.worker.store.items.get c.jobId := items_other (Bool.not_eq_true _ ▸ hl)
      exact hs.frame (consistent_worker_step hs.consistent l) hitems (nanoids_le_step l) rfl rfl rfl id
        (hs.attended.mono hitems rfl rfl rfl id)

/-! ## 主定理 -/

/--
**完了を試みるものを残さずに終わる run や callback が無い実行では、片付いた batch の waitpoint は完了しているか、
`tryCompleteBatch` の job が待っている。**
-/
theorem batch_completes (hc : c.Lawful) (runCount : ℕ) {ls : List Label}
    (h : Along (step c) (Minded c) (created runCount) ls) :
    Throughout (step c) (Completes c) (created runCount) ls :=
  (throughout_of_along (invariant_step hc) (invariant_created c runCount) h).mono
    fun _ => Invariant.completes

/-- 一つの batch。 -/
def sampleSetup : Setup where
  batchId := "batch"
  config := sampleConfig
  worker :=
    { nanoid := (sampleEnv 12).nanoid, cjson := some, schema := fun _ payload => some payload
      retry := (sampleEnv 12).retry }

theorem sampleSetup_lawful : sampleSetup.Lawful where
  worker :=
    { nanoid_injective := (sampleEnv_lawful 12).nanoid_injective
      nanoid_ne_empty := (sampleEnv_lawful 12).nanoid_ne_empty
      cjson_key := fun _ _ h => by cases h; rfl }
  decodes := fun _ h => by cases h

/-- 一つの item から run が作られ、もう一つの item が失敗して、callback が戻る。 -/
def oneOfTwo : List Label :=
  [.runCreated none sampleSettings, .itemSucceeded, .itemFailed, .run 0 .triggerCreateSnapshot,
    .run 0 .triggerEnqueueMessage, .callback 0, .callback 0]

/-- 取り出された job が最後まで処理される。 -/
def processed (i : ℕ) (now : ℚ) : List Label := .dequeue now 1 :: List.replicate 6 (.handler i)

/-- 取り消された run は `#finalizeRun` に達し、もう一度の `tryCompleteBatch` が waitpoint を完了させる。 -/
theorem batch_completes_canceled :
    Throughout (step sampleSetup) (Completes sampleSetup) (created 2)
      (oneOfTwo ++ processed 0 1000 ++ [Label.run 0 (.cancelRun false), .finalizeRun 0 2000] ++
        processed 1 3000) :=
  batch_completes sampleSetup_lawful 2 (by decide +kernel)

/--
最後の run が TTL で終わるか、実行中に取り消されるか、どの item も失敗すると、batch は完了しない。
-/
theorem batch_forgotten :
    ¬ Throughout (step sampleSetup) (Completes sampleSetup) (created 2)
        (oneOfTwo ++ processed 0 1000 ++ [Label.run 0 .expireRun]) ∧
      ¬ Throughout (step sampleSetup) (Completes sampleSetup) (created 2)
        (oneOfTwo ++ processed 0 1000 ++
          [Label.run 0 (.dequeueFromWorkerQueue (.ready "task" none none "small-1x") 0 0),
            .run 0 (.cancelRun false)]) ∧
      ¬ Throughout (step sampleSetup) (Completes sampleSetup) (created 1)
        [.itemFailed, .callback 0, .callback 0] :=
  ⟨fun h => absurd (h.last ⟨by decide +kernel, by decide +kernel, by decide +kernel⟩) (by decide +kernel),
    fun h => absurd (h.last ⟨by decide +kernel, by decide +kernel, by decide +kernel⟩) (by decide +kernel),
    fun h => absurd (h.last ⟨by decide +kernel, by decide +kernel, by decide +kernel⟩) (by decide +kernel)⟩

end RunEngine.BatchSystem
