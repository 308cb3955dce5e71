import Mathlib.Data.List.Dedup
import Mathlib.Data.List.Sort
import Trigger.RunEngine.Retrying

/-!
# 一つの run の行

run engine が一つの run について読み書きする行をまとめる。`TaskRunExecutionSnapshot` は作成順に新しいものを
先頭に置き、id は作成順の番号とする（`createdAt` は狭義に増える）。
-/

namespace RunEngine

/-! ## completedWaitpoints の保存と復元 -/

/-- waitpoint の id と batch の中の index。 -/
abbrev IndexedWaitpoint := String × Option ℕ

/-- index を持つものだけを残す。 -/
def definedPairs (l : List IndexedWaitpoint) : List (String × ℕ) :=
  l.filterMap fun w => w.2.map (w.1, ·)

/-- `completedWaitpointOrder`。index で安定に整列した id の列で、index そのものは保存されない。 -/
def waitpointOrder (l : List IndexedWaitpoint) : List String :=
  ((definedPairs l).insertionSort (fun a b => a.2 ≤ b.2)).map Prod.fst

/-- `completedWaitpointOrder` の中で id が現れる位置。 -/
def indexesOf (order : List String) (id : String) : List ℕ :=
  (List.range order.length).filter fun i => order[i]? = some id

/-- `enhanceExecutionSnapshotWithWaitpoints` の `completedWaitpoints`。位置を index として復元する。 -/
def enhanceWaitpoints (waitpoints order : List String) : List IndexedWaitpoint :=
  waitpoints.flatMap fun w =>
    match indexesOf order w with
    | [] => [(w, none)]
    | indexes => indexes.map fun i => (w, some i)

/-! ## 行 -/

/-- `TaskRunExecutionSnapshot`。 -/
structure Snapshot where
  id : ℕ
  executionStatus : ExecutionStatus
  runStatus : RunStatus
  attemptNumber : Option ℕ
  previousSnapshotId : Option ℕ
  batchId : Option String
  checkpointId : Option ℕ
  completedWaitpoints : List String
  completedWaitpointOrder : List String
  isValid : Bool
deriving DecidableEq

/-- `TaskRun`。 -/
structure TaskRun where
  status : RunStatus
  attemptNumber : Option ℕ
  lockedById : Option String
  lockedAt : Option ℚ
  delayUntil : Option ℚ
  batchId : Option String
  settings : RetrySettings

/-- `TaskRunWaitpoint`。 -/
structure WaitpointRow where
  waitpointId : String
  batchId : Option String
  batchIndex : Option ℕ
deriving DecidableEq

/--
一つの run に関わる行と、run queue にある message の attempt。`completed` は status が COMPLETED の
waitpoint の id である。
-/
structure Db where
  run : TaskRun
  snapshots : List Snapshot
  blockingWaitpoints : List WaitpointRow
  completed : List String
  message : Option ℕ
  nextId : ℕ

namespace Db

/-- `getLatestExecutionSnapshot` の検索条件。 -/
def latest (db : Db) : Option Snapshot := db.snapshots.find? (·.isValid)

/-- 最新の有効な snapshot の executionStatus。 -/
def status (db : Db) : Option ExecutionStatus := db.latest.map (·.executionStatus)

/-- まだ始まっていない。 -/
def Initial (db : Db) : Prop := ∃ s, db.latest = some s ∧ s.executionStatus.isInitialState = true

def updateRun (db : Db) (f : TaskRun → TaskRun) : Db := { db with run := f db.run }

/-- `acknowledgeMessage`。 -/
def acknowledgeMessage (db : Db) : Db := { db with message := none }

/-- `enqueueMessage`。 -/
def enqueueMessage (db : Db) : Db := { db with message := some 0 }

/-- `clearBlockingWaitpoints`。 -/
def clearBlockingWaitpoints (db : Db) : Db := { db with blockingWaitpoints := [] }

/-- `nackMessage`。attempt が上限に達した message は dead letter queue へ移り、戻されない。 -/
def nackMessage (maxAttempts : ℕ) (db : Db) : Bool × Db :=
  match db.message with
  | none => (false, db)
  | some attempt =>
    if maxAttempts ≤ attempt + 1 then (false, db)
    else (true, { db with message := some (attempt + 1) })

/-- snapshot の行を一つ作る。 -/
def create (db : Db) (s : Snapshot) : Db :=
  { db with snapshots := { s with id := db.nextId } :: db.snapshots, nextId := db.nextId + 1 }

end Db

/-- `createExecutionSnapshot` の引数。 -/
structure NewSnapshot where
  runStatus : RunStatus
  attemptNumber : Option ℕ
  executionStatus : ExecutionStatus
  previousSnapshotId : Option ℕ := none
  batchId : Option String := none
  checkpointId : Option ℕ := none
  completedWaitpoints : List IndexedWaitpoint := []
  error : Bool := false

/-- 作られる行。run の status が DEQUEUED のときは PENDING と書く。 -/
def NewSnapshot.row (a : NewSnapshot) : Snapshot where
  id := 0
  executionStatus := a.executionStatus
  runStatus := if a.runStatus = .dequeued then .pending else a.runStatus
  attemptNumber := a.attemptNumber
  previousSnapshotId := a.previousSnapshotId
  batchId := a.batchId
  checkpointId := a.checkpointId
  completedWaitpoints := a.completedWaitpoints.map Prod.fst
  completedWaitpointOrder := waitpointOrder a.completedWaitpoints
  isValid := !a.error

/-- `createExecutionSnapshot`。 -/
def createExecutionSnapshot (a : NewSnapshot) (db : Db) : Db := db.create a.row

/-- 関連の表から waitpoint を読む。重複は無く、順序は database が決める。 -/
structure Fetch where
  read : List String → List String
  nodup : ∀ l, (read l).Nodup
  mem_iff : ∀ l id, id ∈ read l ↔ id ∈ l

/-- 関連の表を重複なく読む。 -/
def sampleFetch : Fetch where
  read := List.dedup
  nodup := List.nodup_dedup
  mem_iff := fun _ _ => List.mem_dedup

/-- `enhanceExecutionSnapshot` の `completedWaitpoints`。 -/
def Snapshot.enhanced (fetch : Fetch) (s : Snapshot) : List IndexedWaitpoint :=
  enhanceWaitpoints (fetch.read s.completedWaitpoints) s.completedWaitpointOrder

/-! ## 最新の snapshot -/

namespace Db

variable {db : Db}

theorem latest_create_valid {s : Snapshot} (h : s.isValid = true) :
    (db.create s).latest = some { s with id := db.nextId } := by
  unfold latest create
  rw [List.find?_cons_of_pos (by exact h)]

theorem latest_create_invalid {s : Snapshot} (h : s.isValid = false) :
    (db.create s).latest = db.latest := by
  unfold latest create
  rw [List.find?_cons_of_neg (by simp [h])]

@[simp] theorem latest_updateRun (f : TaskRun → TaskRun) : (db.updateRun f).latest = db.latest := rfl

@[simp] theorem latest_acknowledgeMessage : db.acknowledgeMessage.latest = db.latest := rfl

@[simp] theorem latest_enqueueMessage : db.enqueueMessage.latest = db.latest := rfl

@[simp] theorem latest_clearBlockingWaitpoints : db.clearBlockingWaitpoints.latest = db.latest := rfl

end Db

end RunEngine
