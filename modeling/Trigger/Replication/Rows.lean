import Mathlib.Algebra.Group.Nat.Defs
import Mathlib.Data.Rat.Defs
import Mathlib.Data.List.Basic
import Trigger.Infra.Text

/-!
# ClickHouse の行

`runsReplicationService.server.ts` が TaskRun の変更から作る行（`#prepareRunInserts`）と、挿入前の並べ替え。

JSON の値の型 `J` と、その構文解析 `parsePacketAsJson`・`detectBadJsonStrings` は引数である。
-/

namespace Replication

open Infra.Text

/-! ## LSN -/

/-- LSN。32 bit の数二つからなる。 -/
structure Lsn where
  upper : Fin (2 ^ 32)
  lower : Fin (2 ^ 32)
deriving DecidableEq

instance neZero_two_pow : @NeZero Nat Zero.ofOfNat0 (2 ^ 32) := ⟨by decide⟩

/-- `toString(16).toUpperCase()`。 -/
def hexText (n : Nat) : String := String.ofList ((Nat.toDigits 16 n).map Char.toUpper)

/-- `padStart(8, "0")`。 -/
def padHex (s : String) : String := String.ofList (List.replicate (8 - s.length) '0') ++ s

/-- pgoutput の `readLsn` が返す文字列。 -/
def Lsn.padded (l : Lsn) : String := padHex (hexText l.upper) ++ "/" ++ padHex (hexText l.lower)

/-- keepalive の LSN の文字列。0 を詰めない。 -/
def Lsn.plain (l : Lsn) : String := hexText l.upper ++ "/" ++ hexText l.lower

/-- `lsnToUInt64`。 -/
def lsnToUInt64 (l : Lsn) : Nat := (l.upper.val <<< 32) ||| l.lower.val

theorem lsnToUInt64_eq (l : Lsn) : lsnToUInt64 l = l.upper * 2 ^ 32 + l.lower := by
  unfold lsnToUInt64
  rw [← Nat.shiftLeft_add_eq_or_of_lt l.lower.isLt, Nat.shiftLeft_eq]

/-- 版の順は LSN の順である。 -/
theorem lsnToUInt64_lt_iff {a b : Lsn} :
    lsnToUInt64 a < lsnToUInt64 b ↔ a.upper < b.upper ∨ a.upper = b.upper ∧ a.lower < b.lower := by
  rw [lsnToUInt64_eq, lsnToUInt64_eq, Fin.lt_def, Fin.lt_def, Fin.ext_iff]
  have ha := a.lower.isLt
  have hb := b.lower.isLt
  omega

/-! ## TaskRun の変更 -/

/-- 変更の種類（`TransactionEvent.tag`）。 -/
inductive Tag
  | insert | update | delete
deriving DecidableEq

def Tag.text : Tag → String
  | .insert => "insert"
  | .update => "update"
  | .delete => "delete"

/-- `PostgresTaskRun` のうち複製が読む列。日時は epoch からのミリ秒である。 -/
structure PostgresTaskRun (J : Type) where
  id : String
  runtimeEnvironmentId : String
  environmentType : Option String
  organizationId : Option String
  projectId : String
  updatedAt : Int
  createdAt : Int
  status : String
  friendlyId : String
  attemptNumber : Option Int
  engine : String
  taskIdentifier : String
  queue : String
  scheduleId : Option String
  batchId : Option String
  completedAt : Option Int
  startedAt : Option Int
  executedAt : Option Int
  delayUntil : Option Int
  queuedAt : Option Int
  expiredAt : Option Int
  usageDurationMs : Int
  costInCents : ℚ
  baseCostInCents : ℚ
  output : Option String
  outputType : String
  error : Option J
  runTags : List String
  taskVersion : Option String
  sdkVersion : Option String
  cliVersion : Option String
  machinePreset : Option String
  rootTaskRunId : Option String
  parentTaskRunId : Option String
  depth : Int
  spanId : String
  traceId : String
  idempotencyKey : Option String
  /-- `idempotencyKeyOptions` の `key` と `scope`。 -/
  idempotencyKeyOptions : Option (Option String × Option String)
  ttl : Option String
  isTest : Bool
  concurrencyKey : Option String
  bulkActionGroupIds : List String
  masterQueue : Option String
  maxDurationInSeconds : Option Int
  payload : Option String
  payloadType : String

/-- `TaskRunInsert`。 -/
structure TaskRunInsert (J : Type) where
  version : Nat
  run : PostgresTaskRun J
  event : Tag

/-! ## 行 -/

/-- `TaskRunInsertArray`（`TASK_RUN_COLUMNS` の順）。 -/
structure TaskRunRow (J : Type) where
  environmentId : String
  organizationId : String
  projectId : String
  runId : String
  updatedAt : Int
  createdAt : Int
  status : String
  environmentType : String
  friendlyId : String
  attempt : Int
  engine : String
  taskIdentifier : String
  queue : String
  scheduleId : String
  batchId : String
  completedAt : Option Int
  startedAt : Option Int
  executedAt : Option Int
  delayUntil : Option Int
  queuedAt : Option Int
  expiredAt : Option Int
  usageDurationMs : Int
  costInCents : ℚ
  baseCostInCents : ℚ
  output : Option J
  error : Option J
  tags : List String
  taskVersion : String
  sdkVersion : String
  cliVersion : String
  machinePreset : String
  rootRunId : String
  parentRunId : String
  depth : Int
  spanId : String
  traceId : String
  idempotencyKey : String
  idempotencyKeyUser : String
  idempotencyKeyScope : String
  expirationTtl : String
  isTest : Bool
  version : Nat
  isDeleted : Nat
  concurrencyKey : String
  bulkActionGroupIds : List String
  workerQueue : String
  maxDurationInSeconds : Option Int

/-- `PayloadInsertArray`。 -/
structure PayloadRow (J : Type) where
  runId : String
  createdAt : Int
  payload : Option J

/-- `RunsReplicationServiceOptions` のうち、結果に関わるもの。 -/
structure Options (J : Type) where
  flushBatchSize : Nat := 50
  maxFlushConcurrency : Nat := 100
  insertMaxRetries : Nat := 3
  acknowledgeTimeoutMs : Int := 1000
  disablePayloadInsert : Bool := false
  detectBadJsonStrings : String → Bool
  /-- 例外になれば `none`。引数は data と dataType。 -/
  parsePacketAsJson : String → String → Option J

variable {J : Type}

/-- `#prepareJson`。 -/
def prepareJson (o : Options J) (data : Option String) (dataType : String) : Option J :=
  match data with
  | none => none
  | some data =>
    if data = "" then none
    else if dataType ≠ "application/json" ∧ dataType ≠ "application/super+json" then none
    else if o.detectBadJsonStrings data then none
    else o.parsePacketAsJson data dataType

/-- `unsafeExtractIdempotencyKeyUser`。 -/
def extractIdempotencyKeyUser (run : PostgresTaskRun J) : Option String :=
  run.idempotencyKeyOptions.bind Prod.fst

/-- `unsafeExtractIdempotencyKeyScope`。 -/
def extractIdempotencyKeyScope (run : PostgresTaskRun J) : Option String :=
  run.idempotencyKeyOptions.bind Prod.snd

/-- `#prepareTaskRunInsert`。 -/
def prepareTaskRunInsert (o : Options J) (run : PostgresTaskRun J)
    (organizationId environmentType : String) (event : Tag) (version : Nat) : TaskRunRow J where
  environmentId := run.runtimeEnvironmentId
  organizationId := organizationId
  projectId := run.projectId
  runId := run.id
  updatedAt := run.updatedAt
  createdAt := run.createdAt
  status := run.status
  environmentType := environmentType
  friendlyId := run.friendlyId
  attempt := run.attemptNumber.getD 1
  engine := run.engine
  taskIdentifier := run.taskIdentifier
  queue := run.queue
  scheduleId := run.scheduleId.getD ""
  batchId := run.batchId.getD ""
  completedAt := run.completedAt
  startedAt := run.startedAt
  executedAt := run.executedAt
  delayUntil := run.delayUntil
  queuedAt := run.queuedAt
  expiredAt := run.expiredAt
  usageDurationMs := run.usageDurationMs
  costInCents := run.costInCents
  baseCostInCents := run.baseCostInCents
  output := prepareJson o run.output run.outputType
  error := run.error
  tags := run.runTags
  taskVersion := run.taskVersion.getD ""
  sdkVersion := run.sdkVersion.getD ""
  cliVersion := run.cliVersion.getD ""
  machinePreset := run.machinePreset.getD ""
  rootRunId := run.rootTaskRunId.getD ""
  parentRunId := run.parentTaskRunId.getD ""
  depth := run.depth
  spanId := run.spanId
  traceId := run.traceId
  idempotencyKey := run.idempotencyKey.getD ""
  idempotencyKeyUser := (extractIdempotencyKeyUser run).getD ""
  idempotencyKeyScope := (extractIdempotencyKeyScope run).getD ""
  expirationTtl := run.ttl.getD ""
  isTest := run.isTest
  version := version
  isDeleted := if event = .delete then 1 else 0
  concurrencyKey := run.concurrencyKey.getD ""
  bulkActionGroupIds := run.bulkActionGroupIds
  workerQueue := run.masterQueue.getD ""
  maxDurationInSeconds := run.maxDurationInSeconds

/-- `#preparePayloadInsert`。 -/
def preparePayloadInsert (o : Options J) (run : PostgresTaskRun J) : PayloadRow J where
  runId := run.id
  createdAt := run.createdAt
  payload := prepareJson o run.payload run.payloadType

/-- 複製される変更の環境の種類と organization。どちらかが無ければ変更は読み飛ばされる。 -/
def recordedIn (run : PostgresTaskRun J) : Option (String × String) :=
  match run.environmentType.filter (· ≠ ""), run.organizationId.filter (· ≠ "") with
  | some environmentType, some organizationId => some (environmentType, organizationId)
  | _, _ => none

/-- `#prepareRunInserts` の `taskRunInsert`。 -/
def taskRunInsertOf (o : Options J) (x : TaskRunInsert J) : Option (TaskRunRow J) :=
  (recordedIn x.run).map fun r => prepareTaskRunInsert o x.run r.2 r.1 x.event x.version

/-- `#prepareRunInserts` の `payloadInsert`。 -/
def payloadInsertOf (o : Options J) (x : TaskRunInsert J) : Option (PayloadRow J) :=
  (recordedIn x.run).bind fun _ =>
    if x.event = .insert ∧ o.disablePayloadInsert = false then some (preparePayloadInsert o x.run)
    else none

/-! ## 並べ替え -/

/-- `a < b ? -1 : 1`。 -/
def compareText (a b : String) : Int := if utf16 a < utf16 b then -1 else 1

/-- `taskRunInserts` の比較関数。 -/
def compareRows (a b : TaskRunRow J) : Int :=
  if a.organizationId ≠ b.organizationId then compareText a.organizationId b.organizationId
  else if a.projectId ≠ b.projectId then compareText a.projectId b.projectId
  else if a.environmentId ≠ b.environmentId then compareText a.environmentId b.environmentId
  else if a.createdAt ≠ b.createdAt then a.createdAt - b.createdAt
  else if a.runId = b.runId then 0
  else compareText a.runId b.runId

/-- `payloadInserts` の比較関数。 -/
def comparePayloads (a b : PayloadRow J) : Int :=
  if a.runId = b.runId then 0 else compareText a.runId b.runId

/-- 一つの batch から作る行。 -/
def taskRunInserts (o : Options J) (batch : List (TaskRunInsert J)) : List (TaskRunRow J) :=
  (batch.filterMap (taskRunInsertOf o)).mergeSort fun a b => compareRows a b ≤ 0

def payloadInserts (o : Options J) (batch : List (TaskRunInsert J)) : List (PayloadRow J) :=
  (batch.filterMap (payloadInsertOf o)).mergeSort fun a b => comparePayloads a b ≤ 0

theorem mem_taskRunInserts {o : Options J} {batch : List (TaskRunInsert J)} {r : TaskRunRow J} :
    r ∈ taskRunInserts o batch ↔ ∃ x ∈ batch, taskRunInsertOf o x = some r := by
  unfold taskRunInserts
  rw [(List.mergeSort_perm _ _).mem_iff, List.mem_filterMap]

theorem mem_payloadInserts {o : Options J} {batch : List (TaskRunInsert J)} {r : PayloadRow J} :
    r ∈ payloadInserts o batch ↔ ∃ x ∈ batch, payloadInsertOf o x = some r := by
  unfold payloadInserts
  rw [(List.mergeSort_perm _ _).mem_iff, List.mem_filterMap]

/-! ## 行の表す状態 -/

/-- 値が無ければ `default` を入れる列。 -/
def Shows {α : Type} (default : α) (field : Option α) (column : α) : Prop :=
  (∀ a, field = some a → column = a) ∧ (field = none → column = default)

theorem shows_getD {α : Type} (default : α) (field : Option α) :
    Shows default field (field.getD default) := by
  refine ⟨fun a ha => ?_, fun hnone => ?_⟩
  · rw [ha, Option.getD_some]
  · rw [hnone, Option.getD_none]

/-- JSON の列。種類が JSON で、退けられずに読める文面だけが値になる。 -/
def ShowsJson (o : Options J) (data : Option String) (dataType : String) (column : Option J) :
    Prop :=
  ∀ j, column = some j ↔ ∃ text, data = some text ∧ text ≠ "" ∧
    (dataType = "application/json" ∨ dataType = "application/super+json") ∧
    o.detectBadJsonStrings text = false ∧ o.parsePacketAsJson text dataType = some j

theorem showsJson_prepareJson (o : Options J) (data : Option String) (dataType : String) :
    ShowsJson o data dataType (prepareJson o data dataType) := by
  intro j
  cases data with
  | none => exact ⟨fun h => (by cases h), fun ⟨text, h, _⟩ => (by cases h)⟩
  | some text =>
    constructor
    · intro h
      simp only [prepareJson] at h
      split at h
      · cases h
      · next hempty =>
        split at h
        · cases h
        · next htype =>
          split at h
          · cases h
          · next hbad => exact ⟨text, rfl, hempty, by tauto, Bool.eq_false_iff.mpr hbad, h⟩
    · rintro ⟨_, ⟨⟩, hempty, htype, hbad, hparse⟩
      have hjson : ¬(dataType ≠ "application/json" ∧ dataType ≠ "application/super+json") := by
        tauto
      simp only [prepareJson]
      rw [if_neg hempty, if_neg hjson, hbad, if_neg Bool.false_ne_true, hparse]

/-- 行が変更の run の状態を、その版で表すこと。 -/
structure Carries (o : Options J) (x : TaskRunInsert J) (row : TaskRunRow J) : Prop where
  version : row.version = x.version
  runId : row.runId = x.run.id
  environmentId : row.environmentId = x.run.runtimeEnvironmentId
  environmentType : x.run.environmentType = some row.environmentType
  organizationId : x.run.organizationId = some row.organizationId
  projectId : row.projectId = x.run.projectId
  friendlyId : row.friendlyId = x.run.friendlyId
  engine : row.engine = x.run.engine
  taskIdentifier : row.taskIdentifier = x.run.taskIdentifier
  queue : row.queue = x.run.queue
  spanId : row.spanId = x.run.spanId
  traceId : row.traceId = x.run.traceId
  depth : row.depth = x.run.depth
  isTest : row.isTest = x.run.isTest
  status : row.status = x.run.status
  updatedAt : row.updatedAt = x.run.updatedAt
  createdAt : row.createdAt = x.run.createdAt
  completedAt : row.completedAt = x.run.completedAt
  startedAt : row.startedAt = x.run.startedAt
  executedAt : row.executedAt = x.run.executedAt
  delayUntil : row.delayUntil = x.run.delayUntil
  queuedAt : row.queuedAt = x.run.queuedAt
  expiredAt : row.expiredAt = x.run.expiredAt
  maxDurationInSeconds : row.maxDurationInSeconds = x.run.maxDurationInSeconds
  usageDurationMs : row.usageDurationMs = x.run.usageDurationMs
  costInCents : row.costInCents = x.run.costInCents
  baseCostInCents : row.baseCostInCents = x.run.baseCostInCents
  tags : row.tags = x.run.runTags
  bulkActionGroupIds : row.bulkActionGroupIds = x.run.bulkActionGroupIds
  error : row.error = x.run.error
  output : ShowsJson o x.run.output x.run.outputType row.output
  attempt : Shows 1 x.run.attemptNumber row.attempt
  scheduleId : Shows "" x.run.scheduleId row.scheduleId
  batchId : Shows "" x.run.batchId row.batchId
  taskVersion : Shows "" x.run.taskVersion row.taskVersion
  sdkVersion : Shows "" x.run.sdkVersion row.sdkVersion
  cliVersion : Shows "" x.run.cliVersion row.cliVersion
  machinePreset : Shows "" x.run.machinePreset row.machinePreset
  rootRunId : Shows "" x.run.rootTaskRunId row.rootRunId
  parentRunId : Shows "" x.run.parentTaskRunId row.parentRunId
  idempotencyKey : Shows "" x.run.idempotencyKey row.idempotencyKey
  idempotencyKeyUser :
    Shows "" (x.run.idempotencyKeyOptions.bind Prod.fst) row.idempotencyKeyUser
  idempotencyKeyScope :
    Shows "" (x.run.idempotencyKeyOptions.bind Prod.snd) row.idempotencyKeyScope
  expirationTtl : Shows "" x.run.ttl row.expirationTtl
  concurrencyKey : Shows "" x.run.concurrencyKey row.concurrencyKey
  workerQueue : Shows "" x.run.masterQueue row.workerQueue

/-- `#prepareRunInserts` の行は、run の状態を表す。 -/
theorem carries_of_taskRunInsertOf {o : Options J} {x : TaskRunInsert J} {row : TaskRunRow J}
    (h : taskRunInsertOf o x = some row) : Carries o x row := by
  unfold taskRunInsertOf at h
  obtain ⟨r, hr, rfl⟩ := Option.map_eq_some_iff.mp h
  unfold recordedIn at hr
  split at hr
  · next environmentType organizationId henv horg =>
    cases hr
    constructor
    case environmentType => exact (Option.filter_eq_some_iff.mp henv).1
    case organizationId => exact (Option.filter_eq_some_iff.mp horg).1
    case output => exact showsJson_prepareJson o x.run.output x.run.outputType
    -- 残りの列は、そのまま写るか、無い値を既定値にしたものである
    all_goals first | rfl | exact shows_getD _ _
  · cases hr

/-- `_is_deleted` は、変更が delete であることを表す。 -/
theorem isDeleted_of_taskRunInsertOf {o : Options J} {x : TaskRunInsert J} {row : TaskRunRow J}
    (h : taskRunInsertOf o x = some row) : row.isDeleted = 1 ↔ x.event = .delete := by
  unfold taskRunInsertOf at h
  obtain ⟨r, -, rfl⟩ := Option.map_eq_some_iff.mp h
  unfold prepareTaskRunInsert
  by_cases hdelete : x.event = .delete <;> simp [hdelete]

end Replication
