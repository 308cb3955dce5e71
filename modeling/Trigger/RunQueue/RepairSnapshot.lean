import Trigger.RunEngine.Retrying
import Trigger.RunQueue.KeyRoles

/-!
# snapshot の修復と concurrency の集合

engine の `#handleRepairSnapshot` は、最新の snapshot が SUSPENDED か FINISHED の run について
`clearMessageFromConcurrencySets` を呼び、run の id を concurrency の集合から消す。集合の key は、message の
queue key ではなく database の `taskRun.queue` から作り直される。`taskRun` から読むのは queue 名だけなので、
concurrency key を持つ run の集合は、run が数えられているものとは別の集合になる。

消え残らない条件を、修復の前の集合について述べる（`repair_frees_iff`）。
-/

namespace RunQueue

open Infra.Text
open Infra.Redis Infra.Redis.Script

/-! ## 修復 -/

/-- 修復が読む、最新の execution snapshot。 -/
structure LatestSnapshot where
  id : String
  executionStatus : RunEngine.ExecutionStatus
  environmentId : String
  projectId : String
  organizationId : String

/-- snapshot の環境。 -/
def LatestSnapshot.env (s : LatestSnapshot) : EnvDescriptor :=
  ⟨s.organizationId, s.projectId, s.environmentId⟩

/-- run の行のうち、queue に関わるもの。 -/
structure TaskRunRow where
  id : String
  queue : String
  concurrencyKey : Option String

/-- `#handleRepairSnapshot` が `RunQueue` に対してすること。`taskRun` は run の行である。 -/
def Config.handleRepairSnapshot (cfg : Config) (runId snapshotId : String)
    (latestSnapshot : LatestSnapshot) (taskRun : Option TaskRunRow) (messageScore now : ℚ) :
    Script Stored Unit :=
  if latestSnapshot.id ≠ snapshotId then pure ()
  else
    match latestSnapshot.executionStatus with
    | .executing | .executingWithWaitpoints | .pendingCancel | .pendingExecuting | .queuedExecuting
    | .runCreated | .delayed => pure ()
    | .queued => do
      let _ ← cfg.nackMessage latestSnapshot.organizationId runId true messageScore now
      pure ()
    | .finished | .suspended =>
      match taskRun with
      | none => pure ()
      | some taskRun => callClearMessageFromConcurrencySets runId taskRun.queue latestSnapshot.env

/-- `enqueueRun` が run の行から作る message。 -/
def TaskRunRow.message (run : TaskRunRow) (env : Environment) (taskIdentifier : String)
    (timestamp : ℚ) : InputPayload where
  runId := run.id
  taskIdentifier := taskIdentifier
  orgId := env.organizationId
  projectId := env.projectId
  environmentId := env.id
  environmentType := env.type
  queue := run.queue
  concurrencyKey := run.concurrencyKey
  timestamp := timestamp
  attempt := 0

/-! ## 数えられている集合 -/

/-- message と環境の、concurrency の集合の key。 -/
def slotKeys (env : EnvDescriptor) (m : OutputPayload) : List String :=
  [queueCurrentConcurrencyKeyFromQueue m.queue, queueCurrentDequeuedKeyFromQueue m.queue,
    envCurrentConcurrencyKey env, envCurrentDequeuedKey env]

/-- run の id がどの集合にも無い。 -/
def Freed (env : EnvDescriptor) (m : OutputPayload) (s : State) : Prop :=
  ∀ k ∈ slotKeys env m, m.runId ∉ s.sets k

/-- concurrency key の付いた集合に run の id が無い。concurrency key が無ければ条件は無い。 -/
def NotHeldUnderKey (env : EnvDescriptor) (run : TaskRunRow) (s : State) : Prop :=
  ∀ k ∈ run.concurrencyKey, k ≠ "" →
    run.id ∉ s.sets (queueCurrentConcurrencyKey env run.queue (some k)) ∧
      run.id ∉ s.sets (queueCurrentDequeuedKey env run.queue (some k))

/-! ## `SREM` の後の集合 -/

theorem sets_srem {k m : String} {s s' : State} {u : Unit} (h : srem k m s = (.ok u, s'))
    (k' : String) :
    s'.sets k' = if k' = k then (s.sets k').erase m else s.sets k' := by
  unfold srem guarded at h
  split at h
  · cases h
    rw [Db.setS_sets]
    by_cases hk : k' = k
    · rw [if_pos hk, hk, Function.update_self]
    · rw [if_neg hk, Function.update_of_ne hk]
  · cases h

/-- `SREM` の四つ組は、並べた四つの集合からだけ id を消す。 -/
theorem sets_removeConcurrency {a b c d id : String} {s s' : State} {u : Unit}
    (h : removeConcurrency a b c d id s = (.ok u, s')) {k : String} (hk : k ∉ [a, b, c, d]) :
    s'.sets k = s.sets k := by
  simp only [List.mem_cons, List.not_mem_nil, or_false, not_or] at hk
  obtain ⟨ha, hb, hc, hd⟩ := hk
  obtain ⟨_, s₁, h₁, h⟩ := bind_eq_ok h
  obtain ⟨_, s₂, h₂, h⟩ := bind_eq_ok h
  obtain ⟨_, s₃, h₃, h₄⟩ := bind_eq_ok h
  rw [sets_srem h₄, if_neg hd, sets_srem h₃, if_neg hc, sets_srem h₂, if_neg hb, sets_srem h₁,
    if_neg ha]

/-- concurrency key のある queue の key に成分を足しても、無い queue の key に成分を足したものにはならない。 -/
theorem keyed_append_ne (env : EnvDescriptor) (queue : String) {k part part' : String} (hk : k ≠ "")
    (hp : NoColon part) (hp' : NoColon part') :
    queueKey env queue (some k) ++ ":" ++ part ≠ queueKey env queue none ++ ":" ++ part' := by
  intro h
  have hlast := congrArg lastPart h
  rw [lastPart_append _ hp, lastPart_append _ hp'] at hlast
  obtain rfl := Option.some.inj hlast
  have hkey := congrArg String.toList (append_right_cancel (append_right_cancel h))
  rw [toList_queueKey env queue (some k), List.append_right_eq_self, ckTail_some hk] at hkey
  cases hkey

/-- 環境の key でもない。 -/
theorem keyed_append_ne_env {env : EnvDescriptor} (h : env.NoColons) (queue : String)
    (ck : Option String) (part : String) {part' : String} (hp : NoColon part')
    (hne : part' ≠ "queue") :
    queueKey env queue ck ++ ":" ++ part ≠ envPartKey env part' := by
  intro he
  have hsig := congrArg signature he
  rw [signature_queueKey_append h, signature_envPartKey h hp] at hsig
  simp only [Prod.mk.injEq, Option.some.injEq, true_and] at hsig
  exact hne hsig.symm

/-- concurrency key のある集合の key は、修復が消す key のどれとも違う。 -/
theorem keyed_notMem_cleared {env : EnvDescriptor} (h : env.NoColons) (queue : String)
    {k part : String} (hk : k ≠ "") (hp : NoColon part) :
    queueKey env queue (some k) ++ ":" ++ part ∉
      [queueCurrentConcurrencyKey env queue none, envCurrentConcurrencyKey env,
        queueCurrentDequeuedKey env queue none, envCurrentDequeuedKey env] := by
  simp only [List.mem_cons, List.not_mem_nil, or_false, not_or]
  exact ⟨keyed_append_ne env queue hk hp (by decide),
    keyed_append_ne_env h queue _ part (by decide) (by decide),
    keyed_append_ne env queue hk hp (by decide),
    keyed_append_ne_env h queue _ part (by decide) (by decide)⟩

/-! ## 消え残らない条件 -/

/-- 空の concurrency key は、無いのと同じ queue key を与える。 -/
theorem queueKey_falsy (env : EnvDescriptor) (queue : String) {ck : Option String}
    (h : ∀ k ∈ ck, k = "") : queueKey env queue ck = queueKey env queue none := by
  rcases ck with _ | k
  · rfl
  · rw [h k rfl]
    rfl

section Repair

variable {cfg : Config} {env : Environment} {run : TaskRunRow} {snapshot : LatestSnapshot}
  {taskIdentifier workerQueue : String} {timestamp messageScore now : ℚ} {s s' : State}

/-- 数えられている集合の key は、concurrency key を含む元の成分から作る key である。 -/
theorem freed_iff : Freed env.descriptor
      (enqueuePayload env (run.message env taskIdentifier timestamp) workerQueue) s ↔
    (run.id ∉ s.sets (queueCurrentConcurrencyKey env.descriptor run.queue run.concurrencyKey) ∧
      run.id ∉ s.sets (queueCurrentDequeuedKey env.descriptor run.queue run.concurrencyKey)) ∧
    run.id ∉ s.sets (envCurrentConcurrencyKey env.descriptor) ∧
      run.id ∉ s.sets (envCurrentDequeuedKey env.descriptor) := by
  rw [← queueCurrentConcurrencyKeyFromQueue_queueKey, ← queueCurrentDequeuedKeyFromQueue_queueKey]
  constructor
  · intro h
    exact ⟨⟨h _ (by simp [slotKeys, enqueuePayload, TaskRunRow.message]),
      h _ (by simp [slotKeys, enqueuePayload, TaskRunRow.message])⟩, h _ (by simp [slotKeys]),
      h _ (by simp [slotKeys])⟩
  · rintro ⟨⟨hcc, hcd⟩, hec, hed⟩ k hk
    simp only [slotKeys, List.mem_cons, List.not_mem_nil, or_false] at hk
    rcases hk with rfl | rfl | rfl | rfl
    · exact hcc
    · exact hcd
    · exact hec
    · exact hed

/-- **修復の後に run がどの集合にも残らないのは、concurrency key の付いた集合に初めから無いとき、そのときに限る。**
concurrency key が無い（または空の）run では、いつも残らない。message は `enqueueRun` が入れたもので、snapshot の
環境は run の環境である。 -/
theorem repair_frees_iff (henv : env.descriptor.NoColons)
    (hstatus : snapshot.executionStatus = .suspended ∨ snapshot.executionStatus = .finished)
    (hsame : snapshot.env = env.descriptor)
    (hrun : cfg.handleRepairSnapshot run.id snapshot.id snapshot (some run) messageScore now s
      = (.ok (), s')) :
    Freed env.descriptor (enqueuePayload env (run.message env taskIdentifier timestamp) workerQueue)
        s' ↔ NotHeldUnderKey env.descriptor run s := by
  have hclear : removeConcurrency (queueCurrentConcurrencyKey env.descriptor run.queue none)
      (envCurrentConcurrencyKey env.descriptor)
      (queueCurrentDequeuedKey env.descriptor run.queue none)
      (envCurrentDequeuedKey env.descriptor) run.id s = (.ok (), s') := by
    unfold Config.handleRepairSnapshot at hrun
    -- `SUSPENDED` と `FINISHED` は、どちらも同じ四つの `SREM` に進む。
    rw [if_neg (not_not.mpr rfl)] at hrun
    rcases hstatus with h | h
    · rw [h] at hrun
      rw [← hsame]
      exact hrun
    · rw [h] at hrun
      rw [← hsame]
      exact hrun
  have hremoved : ∀ k ∈ [queueCurrentConcurrencyKey env.descriptor run.queue none,
      envCurrentConcurrencyKey env.descriptor,
      queueCurrentDequeuedKey env.descriptor run.queue none,
      envCurrentDequeuedKey env.descriptor], run.id ∉ s'.sets k :=
    fun k hk => removes_removeConcurrency hk s () s' hclear
  rw [freed_iff, and_iff_left (⟨hremoved _ (by simp), hremoved _ (by simp)⟩ : _ ∧ _)]
  -- concurrency key を持つ run の集合は、修復の四つの key のどれでもない。
  by_cases hck : ∃ k, run.concurrencyKey = some k ∧ k ≠ ""
  · obtain ⟨k, hck, hk⟩ := hck
    have hkept : ∀ part, NoColon part →
        s'.sets (queueKey env.descriptor run.queue (some k) ++ ":" ++ part)
          = s.sets (queueKey env.descriptor run.queue (some k) ++ ":" ++ part) :=
      fun part hp => sets_removeConcurrency hclear (keyed_notMem_cleared henv run.queue hk hp)
    have hcc := hkept "currentConcurrency" (by decide)
    have hcd := hkept "currentDequeued" (by decide)
    unfold NotHeldUnderKey
    rw [hck]
    simp only [Option.mem_some_iff, forall_eq', ne_eq, hk, not_false_eq_true, forall_const]
    unfold queueCurrentConcurrencyKey queueCurrentDequeuedKey
    simp only [joinColon]
    rw [hcc, hcd]
  · have hfalsy : ∀ k ∈ run.concurrencyKey, k = "" := by
      intro k hk
      by_contra hne
      exact hck ⟨k, hk, hne⟩
    have hkey := queueKey_falsy env.descriptor run.queue hfalsy
    constructor
    · intro _ k hk hne
      exact absurd (hfalsy k hk) hne
    · intro _
      unfold queueCurrentConcurrencyKey queueCurrentDequeuedKey
      rw [hkey]
      exact ⟨hremoved _ (List.mem_cons_self ..), hremoved _ (by simp [queueCurrentDequeuedKey])⟩

end Repair

/-! ## 消え残る例 -/

namespace RepairSnapshot

def cfg : Config where
  shardOf _ := 0
  defaultEnvConcurrency := 10
  defaultEnvConcurrencyBurstFactor := none
  mul a b := a * b
  maxAttempts := 12
  overrides := none

def env : Environment := ⟨"env", .production, "proj", "org", 10, 1⟩

def suspended : LatestSnapshot := ⟨"snapshot_1", .suspended, "env", "proj", "org"⟩

def run (concurrencyKey : Option String) : TaskRunRow := ⟨"run_1", "tasks", concurrencyKey⟩

/-- 取り出されて、queue と環境の集合に数えられている run。 -/
def dequeued (concurrencyKey : Option String) : State :=
  ((do
    sadd (queueCurrentConcurrencyKey env.descriptor "tasks" concurrencyKey) "run_1"
    sadd (envCurrentConcurrencyKey env.descriptor) "run_1" : Script Stored Unit) Db.empty).2

/-- 修復の後の状態。 -/
def repaired (concurrencyKey : Option String) : State :=
  (cfg.handleRepairSnapshot "run_1" "snapshot_1" suspended (some (run concurrencyKey)) 0 0
    (dequeued concurrencyKey)).2

/-- 修復は error にならず、concurrency key のある run は、その key の集合に残る。 -/
theorem repair_runs : (∀ concurrencyKey ∈ [none, some "user-1"],
      (cfg.handleRepairSnapshot "run_1" "snapshot_1" suspended (some (run concurrencyKey)) 0 0
        (dequeued concurrencyKey)).1 = .ok ()) ∧
    "run_1" ∈ (repaired (some "user-1")).sets
      (queueCurrentConcurrencyKey env.descriptor "tasks" (some "user-1")) := by
  decide +kernel

theorem repair_ok {concurrencyKey : Option String} (h : concurrencyKey ∈ [none, some "user-1"]) :
    cfg.handleRepairSnapshot "run_1" "snapshot_1" suspended (some (run concurrencyKey)) 0 0
      (dequeued concurrencyKey) = (.ok (), repaired concurrencyKey) :=
  Prod.ext (repair_runs.1 concurrencyKey h) rfl

/-- concurrency key の無い run は、どの集合からも消える。 -/
theorem repair_frees_plain : Freed env.descriptor
    (enqueuePayload env ((run none).message env "task" 0) "main") (repaired none) :=
  (repair_frees_iff (by decide) (.inl rfl) rfl (repair_ok (by simp))).mpr
    fun k hk => by cases hk

/-- concurrency key のある run は、その集合に残る。 -/
theorem repair_leaks : ¬ ∀ (cfg : Config) (env : Environment) (run : TaskRunRow)
    (snapshot : LatestSnapshot) (s s' : State), env.descriptor.NoColons →
    snapshot.executionStatus = .suspended → snapshot.env = env.descriptor →
    cfg.handleRepairSnapshot run.id snapshot.id snapshot (some run) 0 0 s = (.ok (), s') →
    Freed env.descriptor (enqueuePayload env (run.message env "task" 0) "main") s' := by
  intro h
  have hfreed := h cfg env (run (some "user-1")) suspended (dequeued (some "user-1")) _ (by decide)
    rfl rfl (repair_ok (by simp))
  exact (freed_iff.mp hfreed).1.1 repair_runs.2

end RepairSnapshot

end RunQueue
