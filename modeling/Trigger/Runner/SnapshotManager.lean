import Mathlib.Order.Defs.LinearOrder
import Trigger.Infra.Machine
import Trigger.RunEngine.Retrying

/-!
# runner の SnapshotManager

`packages/cli-v3/src/entryPoints/managed/snapshot.ts` の `SnapshotManager`。

method の呼び出しと、`await` の後の再開を、それぞれ一つの label とする状態機械である。`processQueue` は
`await` で止まるたびに、何を待っているか（`Await`）を残す。
`promises`・`settled`・`invocations` は code が残さない記録（返した promise の数、決着した promise、handler の呼び出し）で
ある。`stop` と log は含めない。
-/

namespace Runner

open RunEngine (ExecutionStatus)

variable {I : Type}

/-! ## データ -/

/-- `RunExecutionData` のうち、ここで読む欄。 -/
structure RunExecutionData (I : Type) where
  runFriendlyId : String
  friendlyId : I
  executionStatus : ExecutionStatus
  createdAt : ℤ

structure SnapshotState (I : Type) where
  id : I
  status : ExecutionStatus

/-- `QueuedChange`。`id` は `crypto.randomUUID()` の代わりの番号で、返した promise の番号でもある。 -/
inductive QueuedChange (I : Type)
  | snapshot (id : ℕ) (snapshots : List (RunExecutionData I))
  | suspendable (id : ℕ) (value : Bool)

namespace QueuedChange

def id : QueuedChange I → ℕ
  | snapshot id _ => id
  | suspendable id _ => id

/-- suspendable の変更の値。 -/
def value? : QueuedChange I → Option Bool
  | snapshot _ _ => none
  | suspendable _ value => some value

def isSuspendable (change : QueuedChange I) : Bool := change.value?.isSome

end QueuedChange

/-- `processQueue` が待っているもの。 -/
inductive Await (I : Type)
  | hasBeenRestored (id : ℕ) (latest : RunExecutionData I) (deprecatedIds : List I)
  | onSnapshotChange (id : ℕ) (latest : RunExecutionData I)
  | onSuspendable (id : ℕ)
  /-- `applyChange` は終わり、promise の決着と次の変更を待つ。 -/
  | applied (id : ℕ) (error : Bool)

def Await.id : Await I → ℕ
  | hasBeenRestored id _ _ => id
  | onSnapshotChange id _ => id
  | onSuspendable id => id
  | applied id _ => id

/-- `onSnapshotChange` の呼び出し。`currentId` は、状態を更新する前の snapshot である。 -/
structure Invocation (I : Type) where
  snapshot : RunExecutionData I
  deprecated : Bool
  currentId : I

structure SnapshotManagerOptions (I : Type) where
  runFriendlyId : String
  runnerId : String
  initialSnapshotId : I
  initialStatus : ExecutionStatus
  /-- `metadataClient` がある。 -/
  metadataClient : Bool

structure SnapshotManager (I : Type) where
  runnerId : String
  state : SnapshotState I
  isSuspendable : Bool := false
  changeQueue : List (QueuedChange I) := []
  isProcessingQueue : Bool := false
  seenDeprecatedSnapshotIds : List I := []
  /-- 止まっている `processQueue`。 -/
  processors : List (Await I) := []
  promises : ℕ := 0
  settled : List ℕ := []
  invocations : List (Invocation I) := []

/-- constructor の後の状態。 -/
def SnapshotManagerOptions.initial (o : SnapshotManagerOptions I) : SnapshotManager I where
  runnerId := o.runnerId
  state := ⟨o.initialSnapshotId, o.initialStatus⟩

def maxSeenDeprecatedSnapshotIds : ℕ := 50

/-! ## 順番 -/

/-- `changeQueue.sort` の比較。 -/
def compareChanges : QueuedChange I → QueuedChange I → ℤ
  | .suspendable _ _, .snapshot _ _ => 1
  | .snapshot _ _, .suspendable _ _ => -1
  | .snapshot _ snapshotsA, .snapshot _ snapshotsB =>
    match snapshotsA.getLast?, snapshotsB.getLast? with
    | some snapshotA, some snapshotB => snapshotA.createdAt - snapshotB.createdAt
    | _, _ => 0
  | .suspendable _ _, .suspendable _ _ => 0

def sortQueue (queue : List (QueuedChange I)) : List (QueuedChange I) :=
  queue.mergeSort fun a b => compareChanges a b ≤ 0

theorem sortQueue_perm (queue : List (QueuedChange I)) : (sortQueue queue).Perm queue :=
  List.mergeSort_perm _ _

/-! ## 変更の適用 -/

section Methods

variable [LinearOrder I] (o : SnapshotManagerOptions I)

/-- `statusCheck`。 -/
def statusCheck (s : SnapshotManager I) (snapshots : List (RunExecutionData I)) : Bool :=
  match snapshots.getLast? with
  | none => false
  | some latestSnapshot =>
    if latestSnapshot.runFriendlyId ≠ o.runFriendlyId then false
    else if latestSnapshot.friendlyId < s.state.id then false
    else if latestSnapshot.friendlyId = s.state.id then false
    else true

/-- `updateSnapshot`。 -/
def updateSnapshot (snapshotId : I) (status : ExecutionStatus) (s : SnapshotManager I) :
    SnapshotManager I :=
  if snapshotId < s.state.id then s else { s with state := ⟨snapshotId, status⟩ }

/-- `checkSuspendableState` が `onSuspendable` を待つか、何もせずに終わる。 -/
def checkSuspendableState (id : ℕ) (s : SnapshotManager I) : Await I :=
  if s.isSuspendable ∧
      (s.state.status = .executingWithWaitpoints ∨ s.state.status = .queuedExecuting) then
    .onSuspendable id
  else .applied id false

/-- 状態を更新して `onSnapshotChange` を呼ぶ。 -/
def executeHandler (id : ℕ) (latestSnapshot : RunExecutionData I) (deprecated : Bool)
    (s : SnapshotManager I) : Await I × SnapshotManager I :=
  (.onSnapshotChange id latestSnapshot,
    { updateSnapshot latestSnapshot.friendlyId latestSnapshot.executionStatus s with
      invocations := s.invocations ++ [⟨latestSnapshot, deprecated, s.state.id⟩] })

/-- 初めて見る QUEUED・SUSPENDED の snapshot。 -/
def deprecatedSnapshots (s : SnapshotManager I) (previousSnapshots : List (RunExecutionData I)) :
    List (RunExecutionData I) :=
  previousSnapshots.filter fun snap =>
    decide (snap.executionStatus = .queued ∨ snap.executionStatus = .suspended) &&
      !decide (snap.friendlyId ∈ s.seenDeprecatedSnapshotIds)

/-- `applyChange` の、最初の `await` まで。 -/
def applyChange (change : QueuedChange I) (s : SnapshotManager I) : Await I × SnapshotManager I :=
  match change with
  | .snapshot id snapshots =>
    if statusCheck o s snapshots then
      match snapshots.getLast? with
      | none => (.applied id false, s)
      | some latestSnapshot =>
        match deprecatedSnapshots s snapshots.dropLast with
        | [] => executeHandler id latestSnapshot false s
        | deprecated => (.hasBeenRestored id latestSnapshot (deprecated.map (·.friendlyId)), s)
    else (.applied id false, s)
  | .suspendable id value =>
    let s := { s with isSuspendable := value }
    (checkSuspendableState id s, s)

/-- `processQueue` の loop の先頭。queue が空なら `finally` で終わる。 -/
def processNext (s : SnapshotManager I) : Option (Await I) × SnapshotManager I :=
  match s.changeQueue with
  | [] => (none, { s with isProcessingQueue := false })
  | change :: changeQueue =>
    let (await, s) := applyChange o change { s with changeQueue := changeQueue }
    (some await, s)

/-- `processQueue`。 -/
def processQueue (s : SnapshotManager I) : SnapshotManager I :=
  if s.isProcessingQueue then s
  else
    let (await, s) := processNext o { s with isProcessingQueue := true }
    { s with processors := s.processors ++ await.toList }

/-- 前の suspendable の変更は、後のものに置き換えられて決着する。 -/
def supersede (s : SnapshotManager I) : SnapshotManager I :=
  let pendingSuspendable := s.changeQueue.filter (·.isSuspendable)
  let resolvedIds := pendingSuspendable.map (·.id)
  { s with
    settled := s.settled ++ resolvedIds
    changeQueue := s.changeQueue.filter fun item => item.id ∉ resolvedIds }

/-- `enqueueSnapshotChange`。 -/
def enqueueSnapshotChange (change : QueuedChange I) (s : SnapshotManager I) : SnapshotManager I :=
  let s := if change.isSuspendable then supersede s else s
  processQueue o { s with changeQueue := sortQueue (s.changeQueue ++ [change]) }

/-- `setSuspendable`。 -/
def setSuspendable (suspendable : Bool) (s : SnapshotManager I) : SnapshotManager I :=
  let promise := s.promises
  let s := { s with promises := promise + 1 }
  if s.isSuspendable = suspendable then { s with settled := s.settled ++ [promise] }
  else enqueueSnapshotChange o (.suspendable promise suspendable) s

/-- `handleSnapshotChanges`。 -/
def handleSnapshotChanges (snapshots : List (RunExecutionData I)) (s : SnapshotManager I) :
    SnapshotManager I :=
  let promise := s.promises
  let s := { s with promises := promise + 1 }
  if statusCheck o s snapshots then enqueueSnapshotChange o (.snapshot promise snapshots) s
  else { s with settled := s.settled ++ [promise] }

/-! ## 再開 -/

/-- 待っていたものの結果。`overrides` は `getEnvOverrides` の `TRIGGER_RUNNER_ID` で、error のときも `none` である。 -/
structure Outcome where
  error : Bool := false
  overrides : Option String := none

/-- `hasBeenRestored`。 -/
def hasBeenRestored (overrides : Option String) (s : SnapshotManager I) :
    Bool × SnapshotManager I :=
  if !o.metadataClient then (false, s)
  else
    match overrides with
    | none => (false, s)
    | some runnerId =>
      if runnerId = "" then (false, s)
      else if runnerId = s.runnerId then (false, s)
      else (true, { s with runnerId := runnerId })

/-- `seenDeprecatedSnapshotIds` に加え、新しい 50 個だけを残す。 -/
def seeDeprecated (deprecatedIds : List I) (s : SnapshotManager I) : SnapshotManager I :=
  let seen := s.seenDeprecatedSnapshotIds ++ deprecatedIds
  { s with
    seenDeprecatedSnapshotIds :=
      if maxSeenDeprecatedSnapshotIds < seen.length then
        seen.drop (seen.length - maxSeenDeprecatedSnapshotIds)
      else seen }

/-- 待っていたものが終わった後の、次の `await` まで。 -/
def resume (outcome : Outcome) :
    Await I → SnapshotManager I → Option (Await I) × SnapshotManager I
  | .hasBeenRestored id latestSnapshot deprecatedIds, s =>
    let (restored, s) := hasBeenRestored o outcome.overrides s
    let (await, s) := executeHandler id latestSnapshot (!restored) (seeDeprecated deprecatedIds s)
    (some await, s)
  | .onSnapshotChange id _, s =>
    (some (if outcome.error then .applied id true else checkSuspendableState id s), s)
  | .onSuspendable id, s => (some (.applied id outcome.error), s)
  | .applied id _, s => processNext o { s with settled := s.settled ++ [id] }

/-! ## 一段 -/

/-- method の呼び出しと、止まっている `processQueue` の再開。 -/
inductive Label (I : Type)
  | setSuspendable (suspendable : Bool)
  | handleSnapshotChanges (snapshots : List (RunExecutionData I))
  | updateSnapshot (snapshotId : I) (status : ExecutionStatus)
  | resume (i : ℕ) (outcome : Outcome)

def SnapshotManager.step (s : SnapshotManager I) : Label I → SnapshotManager I
  | .setSuspendable suspendable => Runner.setSuspendable o suspendable s
  | .handleSnapshotChanges snapshots => Runner.handleSnapshotChanges o snapshots s
  | .updateSnapshot snapshotId status => Runner.updateSnapshot snapshotId status s
  | .resume i outcome =>
    match s.processors[i]? with
    | none => s
    | some await =>
      match Runner.resume o outcome await s with
      | (some next, s) => { s with processors := s.processors.set i next }
      | (none, s) => { s with processors := s.processors.eraseIdx i }

end Methods

end Runner
