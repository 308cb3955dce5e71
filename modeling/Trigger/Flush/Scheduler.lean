import Mathlib.Data.List.Basic
import Trigger.Infra.Machine

/-!
# DynamicFlushScheduler

`addToBatch` の項目は `currentBatch`、`batchQueue`、limiter に渡した task の順に移り、callback に渡る。timer、
callback の成否、再試行、`allSettled` の継続、shutdown の巡回をそれぞれ一つの event とし、任意の順に起きるものと
する。

項目には受け取った順の番号を付ける。`kept` と `dropped` は、受け取った項目と捨てた項目の記録である。
-/

namespace Flush

/-! ## 設定 -/

/-- constructor に渡す設定。省いた欄には既定値が入る。 -/
structure DynamicFlushSchedulerConfig (T : Type) where
  batchSize : Nat
  flushInterval : Nat
  minConcurrency : Option Nat := none
  maxConcurrency : Option Nat := none
  maxBatchSize : Option Nat := none
  memoryPressureThreshold : Option Nat := none
  loadSheddingThreshold : Option Nat := none
  loadSheddingEnabled : Option Bool := none
  isDroppableEvent : Option (T → Bool) := none

/-- scheduler の変わらない欄。`pLimit` は正の並列数しか受け付けない。 -/
structure Settings (T : Type) where
  BATCH_SIZE : Nat
  FLUSH_INTERVAL : Nat
  minConcurrency : Nat
  maxConcurrency : Nat
  maxBatchSize : Nat
  memoryPressureThreshold : Nat
  loadSheddingThreshold : Nat
  loadSheddingEnabled : Bool
  isDroppableEvent : Option (T → Bool)
  /-- `BATCH_SIZE * (1 + queuePressure)` の切り捨て。浮動小数点の計算なので、件数の関数として受け取る。 -/
  scaledBatchSize : Int → Nat
  pLimit_accepts : 0 < minConcurrency

variable {T : Type}

/-- constructor が欄を埋める。`pLimit(minConcurrency)` が投げれば scheduler はできない。 -/
def DynamicFlushSchedulerConfig.settings (config : DynamicFlushSchedulerConfig T)
    (scaledBatchSize : Int → Nat) : Option (Settings T) :=
  if h : 0 < config.minConcurrency.getD 1 then
    some
      { BATCH_SIZE := config.batchSize
        FLUSH_INTERVAL := config.flushInterval
        minConcurrency := config.minConcurrency.getD 1
        maxConcurrency := config.maxConcurrency.getD 10
        maxBatchSize := config.maxBatchSize.getD (config.batchSize * 5)
        memoryPressureThreshold := config.memoryPressureThreshold.getD (config.batchSize * 20)
        loadSheddingThreshold := config.loadSheddingThreshold.getD (config.batchSize * 50)
        loadSheddingEnabled := config.loadSheddingEnabled.getD true
        isDroppableEvent := config.isDroppableEvent
        scaledBatchSize := scaledBatchSize
        pLimit_accepts := h }
  else none

/-! ## 状態 -/

/-- limiter に渡した task の段階。`sleeping` は再試行を待つ間で、limiter はまだ実行中と数える。 -/
inductive TaskStatus where
  | waiting
  | running
  | sleeping
  | flushed
  | givenUp
deriving DecidableEq

/-- limiter に渡した batch。項目は番号と組にして持つ。 -/
structure Task (T : Type) where
  batch : List (T × Nat)
  limiter : Nat
  status : TaskStatus
  attempt : Nat

namespace Task

/-- まだ書き出しも諦めもしていない。 -/
def unfinished (t : Task T) : Bool := t.status ≠ .flushed ∧ t.status ≠ .givenUp

/-- callback が動いている。 -/
def running (t : Task T) : Bool := t.status = .running

/-- limiter `l` が実行中と数える。 -/
def activeIn (l : Nat) (t : Task T) : Bool :=
  t.limiter = l ∧ (t.status = .running ∨ t.status = .sleeping)

/-- limiter `l` で始まりを待つ。 -/
def waitingIn (l : Nat) (t : Task T) : Bool := t.limiter = l ∧ t.status = .waiting

/-- callback に渡された。 -/
def passed (t : Task T) : Bool := t.status ≠ .waiting

end Task

/-- 捨てた項目と、そのときの `totalQueuedItems` と、実際に残っていた項目の数。 -/
structure Drop (T : Type) where
  item : T
  totalQueuedItems : Int
  pending : Nat

/--
scheduler の状態。

limiter は作った順に番号を持つ。`replaced` は取り替えられた limiter の並列数の列で、今の limiter の番号は
`replaced.length`、並列数は `concurrency` である。`groups` は、まだ `allSettled` の継続が走っていない task の区間
（始まりと個数）である。`polling` は loop で待つ shutdown の、`resolved` は決着した shutdown の、呼び出し時点の
`kept` の長さである。
-/
structure State (T : Type) where
  batchQueue : List (List (T × Nat))
  currentBatch : List (T × Nat)
  flushTimer : Bool
  currentBatchSize : Nat
  totalQueuedItems : Int
  consecutiveFlushFailures : Nat
  lastFlushTime : Int
  lastConcurrencyAdjustment : Int
  isShuttingDown : Bool
  isLoadShedding : Bool
  replaced : List Nat
  concurrency : Nat
  tasks : List (Task T)
  groups : List (Nat × Nat)
  polling : Option Nat
  resolved : List Nat
  kept : List T
  dropped : List (Drop T)

/-- constructor の直後。 -/
def State.init (cfg : Settings T) (now : Int) : State T where
  batchQueue := []
  currentBatch := []
  flushTimer := true
  currentBatchSize := cfg.BATCH_SIZE
  totalQueuedItems := 0
  consecutiveFlushFailures := 0
  lastFlushTime := now
  lastConcurrencyAdjustment := now
  isShuttingDown := false
  isLoadShedding := false
  replaced := []
  concurrency := cfg.minConcurrency
  tasks := []
  groups := []
  polling := none
  resolved := []
  kept := []
  dropped := []

namespace State

/-- 今の limiter の番号。 -/
def limiter (s : State T) : Nat := s.replaced.length

/-- limiter `l` の並列数。 -/
def concurrencyOf (s : State T) (l : Nat) : Nat := s.replaced.getD l s.concurrency

/-- limiter `l` の `activeCount`。 -/
def activeCount (s : State T) (l : Nat) : Nat := s.tasks.countP (Task.activeIn l)

/-- 動いている callback の数。 -/
def running (s : State T) : Nat := s.tasks.countP Task.running

/-- `p` の task と、`batchQueue` と、`currentBatch` にある項目。 -/
def held (p : Task T → Bool) (s : State T) : List (T × Nat) :=
  (s.tasks.filter p).flatMap Task.batch ++ s.batchQueue.flatten ++ s.currentBatch

/-- scheduler が受け持ったすべての項目。 -/
def entries (s : State T) : List (T × Nat) := s.held fun _ => true

/-- まだ終わっていない項目。 -/
def pending (s : State T) : List (T × Nat) := s.held Task.unfinished

/-- callback に渡した項目。 -/
def passed (s : State T) : List (T × Nat) := (s.tasks.filter Task.passed).flatMap Task.batch

end State

/-! ## batch の受け渡し -/

/-- 今の limiter の並列数までの batch を、今の limiter に渡す。 -/
def flushBatches (s : State T) : State T :=
  let batchesToFlush := s.batchQueue.take s.concurrency
  if batchesToFlush.isEmpty then s
  else
    { s with
      batchQueue := s.batchQueue.drop s.concurrency
      tasks := s.tasks ++ batchesToFlush.map fun batch => ⟨batch, s.limiter, .waiting, 1⟩
      groups := s.groups ++ [(s.tasks.length, batchesToFlush.length)] }

/-- timer を止め、shutdown の途中でなければ張り直す。 -/
def resetFlushTimer (s : State T) : State T := { s with flushTimer := !s.isShuttingDown }

def createBatch (s : State T) : State T :=
  if s.currentBatch.isEmpty then s
  else
    resetFlushTimer <| flushBatches
      { s with batchQueue := s.batchQueue ++ [s.currentBatch], currentBatch := [] }

def checkAndFlush (s : State T) : State T :=
  flushBatches (if 0 < s.currentBatch.length then createBatch s else s)

/-! ## 並列数の調整 -/

/-- 次の並列数。`queuePressure` との比較は、両辺に分母を掛けて行う。 -/
def newConcurrency (cfg : Settings T) (backOff : Bool) (now : Int) (s : State T) : Nat :=
  if backOff then max cfg.minConcurrency (s.concurrency * 3 / 4)
  else if 5 * s.totalQueuedItems > 4 * cfg.memoryPressureThreshold ∨
      now - s.lastFlushTime > cfg.FLUSH_INTERVAL * 2 then
    min cfg.maxConcurrency (s.concurrency + 2)
  else if 5 * s.totalQueuedItems < cfg.memoryPressureThreshold ∧
      s.concurrency > cfg.minConcurrency then
    max cfg.minConcurrency (s.concurrency - 1)
  else s.concurrency

/-- 負荷に応じた batch の大きさ。 -/
def adjustedBatchSize (cfg : Settings T) (s : State T) : Nat :=
  if s.totalQueuedItems > cfg.memoryPressureThreshold then
    min cfg.maxBatchSize (cfg.scaledBatchSize s.totalQueuedItems)
  else cfg.BATCH_SIZE

/--
並列数が変われば limiter を取り替える。古い limiter の task はそのまま残る。`pLimit(0)` は投げるので、limiter は
変わらない。
-/
def adjustConcurrency (cfg : Settings T) (backOff : Bool) (now : Int) (s : State T) : State T :=
  if !backOff && now - s.lastConcurrencyAdjustment < 1000 then s
  else
    let next := newConcurrency cfg backOff now s
    let s := { s with currentBatchSize := adjustedBatchSize cfg s }
    if next ≠ s.concurrency ∧ 0 < next then
      { s with replaced := s.replaced ++ [s.concurrency], concurrency := next }
    else s

/-! ## 項目の追加 -/

/-- 残す項目と捨てる項目。 -/
def applyLoadShedding (cfg : Settings T) (items : List T) : List T × List T :=
  match cfg.isDroppableEvent with
  | none => (items, [])
  | some isDroppableEvent => (items.filter (!isDroppableEvent ·), items.filter isDroppableEvent)

/-- load shedding をする状態か。 -/
def overThreshold (cfg : Settings T) (s : State T) : Bool :=
  cfg.loadSheddingEnabled && (cfg.loadSheddingThreshold ≤ s.totalQueuedItems : Bool)

/-- `addToBatch` の前半。項目を選び、`currentBatch` に足す。 -/
def acceptItems (cfg : Settings T) (items : List T) (s : State T) : State T :=
  let shed := if overThreshold cfg s then applyLoadShedding cfg items else (items, [])
  { s with
    isLoadShedding :=
      if overThreshold cfg s then s.isLoadShedding || !shed.2.isEmpty
      else s.isLoadShedding && !(5 * s.totalQueuedItems < 4 * cfg.loadSheddingThreshold : Bool)
    currentBatch := s.currentBatch ++ shed.1.zipIdx s.kept.length
    totalQueuedItems := s.totalQueuedItems + shed.1.length
    kept := s.kept ++ shed.1
    dropped := s.dropped ++ shed.2.map fun item => ⟨item, s.totalQueuedItems, s.pending.length⟩ }

def addToBatch (cfg : Settings T) (items : List T) (now : Int) (s : State T) : State T :=
  let s := acceptItems cfg items s
  adjustConcurrency cfg false now
    (if s.currentBatchSize ≤ s.currentBatch.length ∨ s.isShuttingDown then createBatch s else s)

/-! ## task の進行 -/

/-- `i` 番目の task が `status` の段階にあるときだけ `f` を行う。 -/
def withTask (i : Nat) (status : TaskStatus) (f : Task T → State T → State T) (s : State T) :
    State T :=
  match s.tasks[i]? with
  | some t => if t.status = status then f t s else s
  | none => s

/-- `i` 番目の task を書き換える。 -/
def setTask (i : Nat) (t : Task T) (s : State T) : State T := { s with tasks := s.tasks.set i t }

/-- limiter `l` が次に始める task。先に渡された task から始める。 -/
def nextTask (l : Nat) (s : State T) : Option Nat :=
  if s.activeCount l < s.concurrencyOf l then s.tasks.findIdx? (Task.waitingIn l) else none

/-- limiter `l` が、待っている task を一つ始める。 -/
def start (l : Nat) (s : State T) : State T :=
  match nextTask l s with
  | some i => withTask i .waiting (fun t => setTask i { t with status := .running }) s
  | none => s

/-- callback が成功する。 -/
def succeeded (i : Nat) (now : Int) : State T → State T :=
  withTask i .running fun t s =>
    { setTask i { t with status := .flushed } s with
      totalQueuedItems := s.totalQueuedItems - t.batch.length
      consecutiveFlushFailures := 0
      lastFlushTime := now }

/-- callback が失敗する。三回目までは再試行を待ち、四回目には諦める。 -/
def failed (cfg : Settings T) (i : Nat) (now : Int) : State T → State T :=
  withTask i .running fun t s =>
    let s := { s with consecutiveFlushFailures := s.consecutiveFlushFailures + 1 }
    let s := if s.consecutiveFlushFailures > 5 then adjustConcurrency cfg true now s else s
    setTask i { t with status := if t.attempt ≤ 3 then .sleeping else .givenUp } s

/-- 待ち終えた task が、次の試行を始める。 -/
def retry (i : Nat) : State T → State T :=
  withTask i .sleeping fun t => setTask i { t with status := .running, attempt := t.attempt + 1 }

/-- `k` 番目の組の task がすべて終わり、`allSettled` の継続が走る。 -/
def settled (k : Nat) (s : State T) : State T :=
  match s.groups[k]? with
  | some (first, count) =>
    if ((s.tasks.drop first).take count).all (!·.unfinished) then
      let s := { s with groups := s.groups.eraseIdx k }
      if !s.batchQueue.isEmpty && (s.consecutiveFlushFailures < 3 || s.isShuttingDown) then
        flushBatches s
      else s
    else s
  | none => s

/-! ## shutdown -/

/-- 待つ loop の条件が偽になった。 -/
def drained (s : State T) : Bool := s.batchQueue.isEmpty && s.activeCount s.limiter == 0

/-- 待っている shutdown が条件を調べ、偽なら決着する。 -/
def poll (s : State T) : State T :=
  match s.polling with
  | some mark =>
    if drained s then { s with polling := none, resolved := mark :: s.resolved } else s
  | none => s

def shutdown (s : State T) : State T :=
  if s.isShuttingDown then { s with resolved := s.kept.length :: s.resolved }
  else
    let s := { s with isShuttingDown := true, flushTimer := false }
    let s := if 0 < s.currentBatch.length then createBatch s else s
    poll { s with polling := some s.kept.length }

/-! ## 実行 -/

/-- 起きることの一つ。時刻はその時の時計の値である。 -/
inductive Event (T : Type) where
  | addToBatch (items : List T) (now : Int)
  | tick
  | start (l : Nat)
  | succeeded (i : Nat) (now : Int)
  | failed (i : Nat) (now : Int)
  | retry (i : Nat)
  | settled (k : Nat)
  | shutdown
  | poll

/-- 一歩。timer は張られている間だけ鳴る。 -/
def step (cfg : Settings T) (s : State T) : Event T → State T
  | .addToBatch items now => addToBatch cfg items now s
  | .tick => if s.flushTimer then checkAndFlush s else s
  | .start l => start l s
  | .succeeded i now => succeeded i now s
  | .failed i now => failed cfg i now s
  | .retry i => retry i s
  | .settled k => settled k s
  | .shutdown => shutdown s
  | .poll => poll s

end Flush
