import Trigger.Infra.Machine
import Trigger.Worker.Job

/-!
# ScheduleEngine

一つの schedule instance についての `ScheduleEngine`。`registerNextTaskScheduleInstance` と `triggerScheduledTask` は
database と queue への操作ごとに一段とし、任意の順に進む。queue は redis-worker のそれ（`Worker.State`）である。
-/

namespace Schedule

open Infra.Machine Worker

/-! ## 時刻の計算 -/

/-- `calculateNextScheduledTimestamp`。`next` は cron の反復子、`now` は `Date.now()` である。 -/
def calculateNextScheduledTimestamp (next : ℕ → ℕ) (lastScheduledTimestamp now : ℕ) : ℕ :=
  if next lastScheduledTimestamp < now then next now else next lastScheduledTimestamp

/-- `next t` は、`t` より後の最初の時刻である。 -/
structure LeastAfter (occurs : ℕ → Prop) (next : ℕ → ℕ) : Prop where
  lt_next : ∀ t, t < next t
  occurs_next : ∀ t, occurs (next t)
  next_le : ∀ t u, t < u → occurs u → next t ≤ u

/-- `t` は、最後に記録した時刻より後である。 -/
def After (last : Option ℕ) (t : ℕ) : Prop := ∀ l ∈ last, l < t

/-- 計算した時刻は、必ず最後に記録した時刻より後である。 -/
theorem after_calculateNextScheduledTimestamp {next : ℕ → ℕ} (hnext : ∀ t, t < next t)
    (last : Option ℕ) (now : ℕ) :
    After last (calculateNextScheduledTimestamp next (last.getD now) now) := by
  intro l hl
  rw [Option.mem_def.mp hl, Option.getD_some]
  unfold calculateNextScheduledTimestamp
  have hlast := hnext l
  have hnow := hnext now
  split
  · omega
  · exact hlast

/-! ## 状態 -/

/-- job の payload。 -/
structure Payload where
  instanceId : String
  exactScheduleTime : ℕ
deriving DecidableEq

/-- environment について `triggerScheduledTask` が調べる値。 -/
structure Environment where
  organizationDeleted : Bool
  projectDeleted : Bool
  archived : Bool
  development : Bool
  connected : Bool
deriving DecidableEq

/-- `taskScheduleInstance` の行。`generator` は `generatorExpression` と `timezone` の組である。 -/
structure TaskScheduleInstance (C : Type) where
  active : Bool
  scheduleActive : Bool
  generator : C
  lastScheduledTimestamp : Option ℕ
  nextScheduledTimestamp : Option ℕ
  environment : Environment
deriving DecidableEq

section Instance

variable {C : Type} (row : TaskScheduleInstance C)

/-- `triggerScheduledTask` が登録せずに終わるか。 -/
def TaskScheduleInstance.skipped : Bool :=
  row.environment.organizationDeleted || row.environment.projectDeleted || row.environment.archived

def TaskScheduleInstance.shouldTrigger : Bool :=
  row.active && row.scheduleActive && row.nextScheduledTimestamp.isSome &&
    (!row.environment.development || row.environment.connected)

/-- 動いている schedule。 -/
structure TaskScheduleInstance.Live : Prop where
  active : row.active
  scheduleActive : row.scheduleActive
  organization : ¬ row.environment.organizationDeleted
  project : ¬ row.environment.projectDeleted
  environment : ¬ row.environment.archived
  connected : row.environment.development → row.environment.connected

end Instance

/-- `registerNextTaskScheduleInstance` の進み具合。`last` は読んだ `lastScheduledTimestamp` である。 -/
inductive Registration
  | called
  | found (last : Option ℕ) (next : ℕ)
  | updated (last : Option ℕ) (next : ℕ)
  | finished
deriving DecidableEq

/-- `triggerScheduledTask` の進み具合。`registering .finished` の次が `ack` である。 -/
inductive Phase (C : Type)
  | dequeued
  | found (row : TaskScheduleInstance C)
  | triggered
  | registering (registration : Registration)
  | finished
deriving DecidableEq

/-- 取り出された job の handler。 -/
structure Handler (C : Type) where
  job : QueueItem Payload
  phase : Phase C
deriving DecidableEq

/-- `triggered` は `onTriggerScheduledTask` に渡した時刻の列で、code は残さない。 -/
structure State (C : Type) where
  worker : Worker.State Payload
  row : TaskScheduleInstance C
  registrations : List Registration
  handlers : List (Handler C)
  triggered : List ℕ

/-- engine の設定と、src の外にある部品。`next` は cron-parser の反復子である。 -/
structure Engine (C : Type) where
  worker : Worker.Env Payload
  instanceId : String
  next : C → ℕ → ℕ
  calculateDistributedExecutionTime : ℕ → ℚ

/-- 部品について使う事実。job の JSON は cjson と zod で読め、読んでも変わらない。 -/
structure Engine.Lawful {C : Type} (e : Engine C) (occurs : C → ℕ → Prop) : Prop where
  worker : e.worker.Lawful
  decodes : ∀ item, e.worker.cjson item ≠ none
  parses : ∀ job payload payload', e.worker.schema job payload = some payload' → payload' = payload
  next : ∀ generator, LeastAfter (occurs generator) (e.next generator)

/-! ## 操作 -/

section Step

variable {C : Type} (e : Engine C)

def Engine.jobId : String := "scheduled-task-instance:" ++ e.instanceId

/-- `enqueueScheduledTask`。 -/
def enqueueScheduledTask (exactScheduleTime : ℕ) (s : State C) : State C :=
  { s with
    worker :=
      Worker.enqueue e.worker e.jobId "schedule.triggerScheduledTask" ⟨e.instanceId, exactScheduleTime⟩
        none (e.calculateDistributedExecutionTime exactScheduleTime) 60000 none s.worker }

/-- `registerNextTaskScheduleInstance` の一段。 -/
def registerNextTaskScheduleInstance (now : ℕ) (s : State C) : Registration → Registration × State C
  | .called =>
    let last := s.row.lastScheduledTimestamp
    (.found last (calculateNextScheduledTimestamp (e.next s.row.generator) (last.getD now) now), s)
  | .found last next =>
    (.updated last next, { s with row := { s.row with nextScheduledTimestamp := some next } })
  | .updated _ next => (.finished, enqueueScheduledTask e next s)
  | .finished => (.finished, s)

/-- `triggerScheduledTask` と `processItem` の一段。 -/
def triggerScheduledTask (now : ℕ) (job : QueueItem Payload) (s : State C) : Phase C → Phase C × State C
  | .dequeued => (.found s.row, s)
  | .found row =>
    if row.skipped then (.registering .finished, s)
    else if row.shouldTrigger then
      (.triggered, { s with triggered := s.triggered ++ [job.item.exactScheduleTime] })
    else (.triggered, s)
  | .triggered =>
    (.registering .called,
      { s with row := { s.row with lastScheduledTimestamp := some job.item.exactScheduleTime } })
  | .registering .finished => (.finished, { s with worker := Worker.succeed e.worker job s.worker })
  | .registering registration =>
    let r := registerNextTaskScheduleInstance e now s registration
    (.registering r.1, r.2)
  | .finished => (.finished, s)

/-- handler の外で呼ばれた `i` 番目の登録が一段進む。 -/
def advanceRegistration (i now : ℕ) (s : State C) : State C :=
  match s.registrations[i]? with
  | none => s
  | some registration =>
    let r := registerNextTaskScheduleInstance e now s registration
    { r.2 with registrations := s.registrations.set i r.1 }

/-- `i` 番目の handler が一段進む。 -/
def advanceHandler (i now : ℕ) (s : State C) : State C :=
  match s.handlers[i]? with
  | none => s
  | some h =>
    let r := triggerScheduledTask e now h.job s h.phase
    { r.2 with handlers := s.handlers.set i ⟨h.job, r.1⟩ }

/--
一段。`edit` は schedule の更新、`register` は作成と更新の後の `registerNextTaskScheduleInstance` の呼び出し、
`recover` は `recoverSchedulesInEnvironment`、`other` は他の job への worker の操作である。
-/
inductive Label (C : Type)
  | edit (generator : C)
  | register
  | recover
  | registration (i now : ℕ)
  | dequeue (now : ℚ) (count : Int)
  | handler (i now : ℕ)
  | other (l : Worker.Label Payload)

def step (s : State C) : Label C → State C
  | .edit generator => { s with row := { s.row with generator := generator } }
  | .register => { s with registrations := s.registrations ++ [.called] }
  | .recover =>
    match s.worker.store.items.get e.jobId with
    | some _ => s
    | none => { s with registrations := s.registrations ++ [.called] }
  | .registration i now => advanceRegistration e i now s
  | .dequeue now count =>
    { s with
      worker := Worker.dequeue e.worker now count s.worker
      handlers := s.handlers ++ (dequeuedJobs e.worker e.jobId now count s.worker).map (⟨·, .dequeued⟩) }
  | .handler i now => advanceHandler e i now s
  | .other l => if About e.jobId l then s else { s with worker := s.worker.step e.worker l }

theorem advanceRegistration_of_some {i now : ℕ} {s : State C} {r : Registration}
    (hi : s.registrations[i]? = some r) : advanceRegistration e i now s =
      { (registerNextTaskScheduleInstance e now s r).2 with
        registrations := s.registrations.set i (registerNextTaskScheduleInstance e now s r).1 } := by
  rw [advanceRegistration, hi]

theorem advanceHandler_of_some {i now : ℕ} {s : State C} {h : Handler C}
    (hi : s.handlers[i]? = some h) : advanceHandler e i now s =
      { (triggerScheduledTask e now h.job s h.phase).2 with
        handlers := s.handlers.set i ⟨h.job, (triggerScheduledTask e now h.job s h.phase).1⟩ } := by
  rw [advanceHandler, hi]

/-- instance を作った直後。最初の登録が呼ばれている。 -/
def initial (row : TaskScheduleInstance C) : State C := ⟨Worker.State.empty, row, [.called], [], []⟩

end Step

/-! ## 性質 -/

section Property

variable {C : Type} (e : Engine C) (s : State C)

/-- 途中の処理が無い。 -/
def Quiet : Prop := (∀ r ∈ s.registrations, r = .finished) ∧ ∀ h ∈ s.handlers, h.phase = .finished

/-- 次の job が worker の queue にある。 -/
def Queued : Prop :=
  (s.worker.store.items.get e.jobId).isSome ∧ (s.worker.store.queue.score? e.jobId).isSome

/-- trigger した時刻は狭義に増え、途中の処理が無ければ次の job がある。 -/
structure Once : Prop where
  increasing : s.triggered.Pairwise (· < ·)
  queued : Quiet s → Queued e s

/-- handler が次の job をまだ入れていない。 -/
def Phase.Busy : Phase C → Prop
  | .dequeued | .found _ | .triggered => True
  | .registering registration => registration ≠ .finished
  | .finished => False

/-- これから job を入れる登録が読んだ値は、今の値 `last` である。 -/
def Registration.Current (last : Option ℕ) : Registration → Prop
  | .updated last' _ => last' = last
  | .called | .found _ _ | .finished => True

/--
一段の条件。job が取り出されるのは、前の handler が次の job を入れた後である。そういう handler が無いときに外の登録が
job を入れるなら、読んだ `lastScheduledTimestamp` は今の値である。
-/
def Fresh : Label C → Prop
  | .dequeue now count =>
    (∃ d ∈ delivered e.worker.cjson now count s.worker.store, d.id = e.jobId) →
      ∀ h ∈ s.handlers, ¬ h.phase.Busy
  | .registration i _ => (∀ h ∈ s.handlers, ¬ h.phase.Busy) →
    ∀ r ∈ s.registrations[i]?, r.Current s.row.lastScheduledTimestamp
  | _ => True

instance : ∀ phase : Phase C, Decidable phase.Busy
  | .dequeued | .found _ | .triggered => isTrue trivial
  | .registering registration => inferInstanceAs (Decidable (registration ≠ .finished))
  | .finished => isFalse id

instance : ∀ (last : Option ℕ) (r : Registration), Decidable (r.Current last)
  | last, .updated last' _ => inferInstanceAs (Decidable (last' = last))
  | _, .called | _, .found _ _ | _, .finished => isTrue trivial

instance : ∀ l : Label C, Decidable (Fresh e s l)
  | .dequeue .. => inferInstanceAs (Decidable (_ → ∀ h ∈ s.handlers, ¬ h.phase.Busy))
  | .registration i _ =>
    inferInstanceAs (Decidable (_ → ∀ r ∈ s.registrations[i]?, r.Current s.row.lastScheduledTimestamp))
  | .edit _ | .register | .recover | .handler .. | .other _ => isTrue trivial

end Property

end Schedule
