import Mathlib.Data.List.Infix
import Trigger.Worker.Generations

/-!
# run engine の状態名と再試行の判断

`engine/statuses.ts`、`engine/errors.ts`、`engine/retrying.ts` と、それらが使う
`packages/core/src/v3/errors.ts` の分類を写す。`retryOutcomeFromCompletion` は error と run の設定から、
run を取り消すか、失敗させるか、再試行するかを決める。
-/

namespace RunEngine

/-! ## 状態 -/

/-- `TaskRunExecutionStatus`。 -/
inductive ExecutionStatus
  | runCreated
  | delayed
  | queued
  | queuedExecuting
  | pendingExecuting
  | executing
  | executingWithWaitpoints
  | suspended
  | pendingCancel
  | finished
deriving DecidableEq, Repr

namespace ExecutionStatus

def isDequeueableExecutionStatus (status : ExecutionStatus) : Bool :=
  status ∈ [queued, queuedExecuting]

def isExecuting (status : ExecutionStatus) : Bool := status ∈ [executing, executingWithWaitpoints]

def isPendingExecuting (status : ExecutionStatus) : Bool := status ∈ [pendingExecuting]

def isCheckpointable (status : ExecutionStatus) : Bool :=
  status ∈ [runCreated, queued, executing, executingWithWaitpoints, queuedExecuting]

def isFinishedOrPendingFinished (status : ExecutionStatus) : Bool :=
  status ∈ [finished, pendingCancel]

def isInitialState (status : ExecutionStatus) : Bool := status ∈ [runCreated, delayed]

end ExecutionStatus

/-- `TaskRunStatus`。 -/
inductive RunStatus
  | delayed
  | pending
  | pendingVersion
  | waitingForDeploy
  | dequeued
  | executing
  | waitingToResume
  | retryingAfterFailure
  | paused
  | canceled
  | interrupted
  | completedSuccessfully
  | completedWithErrors
  | systemFailure
  | crashed
  | expired
  | timedOut
deriving DecidableEq, Repr

/-- `isFinalRunStatus`。 -/
def RunStatus.isFinalRunStatus (status : RunStatus) : Bool :=
  status ∈ [canceled, interrupted, completedSuccessfully, completedWithErrors, systemFailure, crashed,
    expired, timedOut]

/-- `RuntimeEnvironmentType`。 -/
inductive EnvironmentType
  | production
  | staging
  | development
  | preview
deriving DecidableEq

/-! ## error -/

/-- `TaskRunErrorCodes`。 -/
inductive ErrorCode
  | couldNotFindExecutor
  | couldNotFindTask
  | couldNotImportTask
  | configuredIncorrectly
  | taskAlreadyRunning
  | taskExecutionFailed
  | taskExecutionAborted
  | taskProcessExitedWithNonZeroCode
  | taskProcessSigkillTimeout
  | taskProcessSigsegv
  | taskProcessSigterm
  | taskProcessOomKilled
  | taskProcessMaybeOomKilled
  | taskRunCancelled
  | taskInputError
  | taskOutputError
  | taskMiddlewareError
  | handleErrorError
  | gracefulExitTimeout
  | taskRunHeartbeatTimeout
  | taskRunCrashed
  | maxDurationExceeded
  | diskSpaceExceeded
  | podEvicted
  | podUnknownError
  | taskHasN0ExecutionSnapshot
  | taskDequeuedInvalidState
  | taskDequeuedQueueNotFound
  | taskRunDequeuedMaxRetries
  | taskRunStalledExecuting
  | taskRunStalledExecutingWithWaitpoints
  | outdatedSdkVersion
  | taskDidConcurrentWait
  | recursiveWaitDeadlock
deriving DecidableEq

/-- `TaskRunError`。 -/
inductive TaskRunError
  | builtInError (name message stackTrace : String)
  | customError (raw : String)
  | stringError (raw : String)
  | internalError (code : ErrorCode) (message stackTrace : Option String)
deriving DecidableEq

/-- `text.includes(part)`。 -/
def includes (text part : String) : Bool := part.toList <:+: text.toList

/-- `text.startsWith(start)`。 -/
def startsWith (text start : String) : Bool := start.toList.isPrefixOf text.toList

namespace TaskRunError

def isManualOutOfMemoryError : TaskRunError → Bool
  | .builtInError _ message _ => message == "MANUAL_OOM_KILL_ERROR"
  | _ => false

/-- heap が尽きたことを示す V8 の文言。 -/
def oomIndicators : List String :=
  ["JavaScript heap out of memory", "Reached heap limit",
    "FATAL ERROR: Reached heap limit Allocation failed"]

/-- `isOOMRunError`。SIGKILL や heap 不足で落ちた process も OOM と見なす。 -/
def isOOMRunError : TaskRunError → Bool
  | .internalError .taskProcessOomKilled _ _ => true
  | .internalError .taskProcessMaybeOomKilled _ _ => true
  | .internalError .taskProcessExitedWithNonZeroCode (some message) stackTrace =>
    includes message "-1" &&
      (includes message "SIGKILL" ||
        (includes message "SIGABRT" &&
          stackTrace.any fun trace => oomIndicators.any (includes trace)))
  | .builtInError name message stackTrace =>
    includes message "ffmpeg was killed with signal SIGKILL" ||
      (builtInError name message stackTrace).isManualOutOfMemoryError
  | _ => false

/-- `findSignalInMessage`。先頭の 100 文字だけを見る。 -/
def findSignalInMessage (message : String) : Option String :=
  let trunc := String.ofList (message.toList.take 100)
  ["SIGTERM", "SIGSEGV", "SIGKILL", "SIGABRT"].find? (includes trunc)

/-- signal に応じた code。signal が無ければ終了 code の error のままである。 -/
def codeFromSignal (message : String) : ErrorCode :=
  match findSignalInMessage message with
  | some "SIGTERM" => .taskProcessSigterm
  | some "SIGSEGV" => .taskProcessSigsegv
  | some "SIGKILL" => .taskProcessMaybeOomKilled
  | some "SIGABRT" => .taskProcessMaybeOomKilled
  | _ => .taskProcessExitedWithNonZeroCode

/--
`taskRunErrorEnhancer`。この後の判断は `type` と `code` しか読まないので、結果が INTERNAL_ERROR のときの
code だけを返す。
-/
def taskRunErrorEnhancer : TaskRunError → Option ErrorCode
  | .builtInError name message stackTrace =>
    if name = "UnexpectedExitError" ∧ startsWith message "Unexpected exit with code -1" then
      some (codeFromSignal stackTrace)
    else if name = "Error" ∧ message = "ffmpeg was killed with signal SIGKILL" then
      some .taskProcessOomKilled
    else if (builtInError name message stackTrace).isManualOutOfMemoryError then
      some .taskProcessOomKilled
    else none
  | .internalError .taskProcessExitedWithNonZeroCode message _ =>
    some (codeFromSignal (message.getD ""))
  | .internalError code _ _ => some code
  | .customError _ | .stringError _ => none

end TaskRunError

/-- `shouldRetryError`。INTERNAL_ERROR でない error は再試行される。 -/
def shouldRetryError : Option ErrorCode → Bool
  | none => true
  | some code => code ∈ [.taskRunStalledExecuting, .taskRunStalledExecutingWithWaitpoints,
      .gracefulExitTimeout, .handleErrorError, .taskInputError, .taskOutputError,
      .taskMiddlewareError, .podEvicted, .podUnknownError, .taskExecutionAborted,
      .taskExecutionFailed, .taskRunCrashed, .taskProcessExitedWithNonZeroCode,
      .taskProcessSigterm]

/-- `shouldLookupRetrySettings`。 -/
def shouldLookupRetrySettings : Option ErrorCode → Bool
  | none => false
  | some code => code ∈ [.taskProcessExitedWithNonZeroCode, .taskProcessSigterm, .taskProcessSigsegv]

/-- `runStatusFromError`。 -/
def runStatusFromError (error : TaskRunError) (environmentType : EnvironmentType) : RunStatus :=
  match error with
  | .internalError code _ _ =>
    match code with
    | .recursiveWaitDeadlock | .taskInputError | .taskOutputError | .taskMiddlewareError =>
      .completedWithErrors
    | .taskRunCancelled => .canceled
    | .maxDurationExceeded => .timedOut
    | .taskRunStalledExecuting | .taskRunStalledExecutingWithWaitpoints =>
      if environmentType = .development then .canceled else .completedWithErrors
    | .taskProcessOomKilled | .taskProcessMaybeOomKilled | .taskProcessSigsegv | .diskSpaceExceeded
    | .outdatedSdkVersion | .handleErrorError | .taskRunCrashed
    | .taskProcessExitedWithNonZeroCode => .crashed
    | .couldNotFindExecutor | .couldNotFindTask | .couldNotImportTask | .configuredIncorrectly
    | .taskAlreadyRunning | .taskProcessSigkillTimeout | .taskRunHeartbeatTimeout
    | .taskDequeuedInvalidState | .taskDequeuedQueueNotFound | .taskRunDequeuedMaxRetries
    | .taskHasN0ExecutionSnapshot | .gracefulExitTimeout | .podEvicted | .podUnknownError
    | .taskExecutionAborted | .taskExecutionFailed | .taskProcessSigterm
    | .taskDidConcurrentWait => .systemFailure
  | _ => .completedWithErrors

/-- 失敗した run の status は終わりの status である。 -/
theorem isFinalRunStatus_runStatusFromError (error : TaskRunError) (t : EnvironmentType) :
    (runStatusFromError error t).isFinalRunStatus = true := by
  cases error with
  | internalError code message stackTrace =>
    cases code <;> first | rfl | (cases t <;> rfl)
  | builtInError name message stackTrace => rfl
  | customError raw => rfl
  | stringError raw => rfl

/-! ## 再試行 -/

/-- `RetryOptions` に `outOfMemory.machine` を足したもの。 -/
structure RetryConfig where
  options : Worker.RetryOptions
  outOfMemoryMachine : Option String

/-- `retryOutcomeFromCompletion` が読む run の列。`lockedRetryConfig` は schema に合わなければ `some none` とする。 -/
structure RetrySettings where
  maxAttempts : Option ℕ
  lockedRetryConfig : Option (Option RetryConfig)
  machinePreset : Option String

/-- `completion.retry`。 -/
structure ExecutionRetry where
  timestamp : ℚ
  delay : ℚ

inductive RetryMethod
  | queue
  | immediate
deriving DecidableEq

/-- `RetryOutcome`。 -/
inductive RetryOutcome
  | cancelRun (reason : Option String)
  | failRun
  | retry (method : RetryMethod) (settings : ExecutionRetry) (machine : Option String)

/-- `MAX_TASK_RUN_ATTEMPTS`。 -/
def maxTaskRunAttempts : ℕ := 250

/-- 0 を偽と見る JavaScript の条件。 -/
def truthyNumber (o : Option ℚ) : Option ℚ := o.filter (· ≠ 0)

/-- `retryOOMOnMachine`。 -/
def retryOOMOnMachine (run : RetrySettings) : Option (String × RetryConfig) :=
  match run.lockedRetryConfig, run.machinePreset with
  | some (some config), some preset =>
    match config.outOfMemoryMachine with
    | some machine => if preset = machine then none else some (machine, config)
    | none => none
  | _, _ => none

/-- `retryOutcomeFromCompletion`。`now` と `random` は `Date.now()` と `Math.random()` の値である。 -/
def retryOutcomeFromCompletion (run : RetrySettings) (attemptNumber : Option ℕ)
    (error : TaskRunError) (retryUsingQueue : Bool) (retrySettings : Option ExecutionRetry)
    (now random : ℚ) : RetryOutcome :=
  match error with
  | .internalError .taskRunCancelled message _ => .cancelRun message
  | _ =>
    if error.isOOMRunError then
      match retryOOMOnMachine run with
      | none => .failRun
      | some (machine, config) =>
        match truthyNumber
          (Worker.calculateNextRetryDelay config.options random (attemptNumber.getD 1)) with
        | none => .failRun
        | some delay => .retry .queue ⟨now + delay, delay⟩ (some machine)
    else if !shouldRetryError error.taskRunErrorEnhancer then .failRun
    else if attemptNumber.any (maxTaskRunAttempts < ·) then .failRun
    else
      match run.maxAttempts.filter (· ≠ 0) with
      | none => .failRun
      | some maxAttempts =>
        if attemptNumber.any (maxAttempts ≤ ·) then .failRun
        else
          match retrySettings with
          | some settings =>
            .retry (if retryUsingQueue then .queue else .immediate) settings none
          | none =>
            if !shouldLookupRetrySettings error.taskRunErrorEnhancer then .failRun
            else
              match run.lockedRetryConfig with
              | some (some config) =>
                match truthyNumber
                  (Worker.calculateNextRetryDelay config.options random (attemptNumber.getD 1)) with
                | none => .failRun
                | some delay => .retry .queue ⟨now + delay, delay⟩ none
              | _ => .failRun

/-- 再試行しない code の error は、設定によらず run を失敗させる。 -/
theorem retryOutcome_failRun {code : ErrorCode} {message stackTrace : Option String}
    (hcancel : code ≠ .taskRunCancelled)
    (hoom : (TaskRunError.internalError code message stackTrace).isOOMRunError = false)
    (hretry : shouldRetryError
      (TaskRunError.internalError code message stackTrace).taskRunErrorEnhancer = false)
    (run : RetrySettings) (attemptNumber : Option ℕ) (retryUsingQueue : Bool)
    (retrySettings : Option ExecutionRetry) (now random : ℚ) :
    retryOutcomeFromCompletion run attemptNumber (.internalError code message stackTrace)
      retryUsingQueue retrySettings now random = .failRun := by
  unfold retryOutcomeFromCompletion
  split
  · next heq =>
    cases heq
    exact absurd rfl hcancel
  · rw [hoom, hretry]
    rfl

end RunEngine
