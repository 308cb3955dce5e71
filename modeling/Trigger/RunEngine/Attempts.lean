import Mathlib.Algebra.Order.Floor.Ring
import Trigger.Infra.Machine
import Trigger.RunEngine.Retrying

/-!
# 試みの回数

`startRunAttempt` と、失敗した完了（`attemptFailed`）の繰り返し。

`maxAttempts` は初めての dequeue で run の行に決まる。`retryOutcomeFromCompletion` は error の道ではこれを見るが、
OOM の道では `lockedRetryConfig` の `maxAttempts` だけを見る。
-/

namespace RunEngine.Attempts

open Infra.Machine

/-! ## 状態 -/

/-- run の設定。 -/
structure AttemptConfig where
  maxAttempts : ℕ
  lockedRetryConfig : Option (Option RetryConfig)

/-- run の試みの状態。`startable` は、最新の snapshot からまだ試みが始まっていないことを表す。 -/
structure AttemptState where
  attemptNumber : Option ℕ := none
  machinePreset : Option String
  startable : Bool := true
  finished : Bool := false

/-- 判断が読む列。 -/
def AttemptState.settings (c : AttemptConfig) (s : AttemptState) : RetrySettings :=
  ⟨some c.maxAttempts, c.lockedRetryConfig, s.machinePreset⟩

/-- 失敗した完了。`requeued` は、queue に戻せたかどうかである。 -/
structure Failure where
  error : TaskRunError
  forceRequeue : Bool := false
  retry : Option ExecutionRetry := none
  requeued : Bool := true
  now : ℚ
  random : ℚ

/-! ## 一段 -/

def attemptFailed (c : AttemptConfig) (f : Failure) (s : AttemptState) : AttemptState :=
  if s.finished then s
  else
    match retryOutcomeFromCompletion (s.settings c) s.attemptNumber f.error f.forceRequeue f.retry f.now
      f.random with
    | .cancelRun _ => { s with finished := true }
    | .failRun => { s with finished := true }
    | .retry method _ machine =>
      let s := { s with machinePreset := machine.or s.machinePreset, startable := true }
      if (f.forceRequeue ∨ method = .queue) ∧ f.requeued = false then { s with finished := true } else s

/-- `MAX_TASK_RUN_ATTEMPTS` を超える試みの error。 -/
def maxAttemptsReached : TaskRunError :=
  .internalError .taskRunCrashed (some "Max attempts reached.") none

def startRunAttempt (c : AttemptConfig) (now random : ℚ) (s : AttemptState) : AttemptState :=
  if s.finished then s
  else
    let nextAttemptNumber := s.attemptNumber.getD 0 + 1
    if maxTaskRunAttempts < nextAttemptNumber then
      attemptFailed c { error := maxAttemptsReached, now := now, random := random } s
    else { s with attemptNumber := some nextAttemptNumber, startable := false }

inductive AttemptLabel
  | startRunAttempt (now random : ℚ)
  | attemptFailed (f : Failure)
  /-- 再び dequeue され、machine が決め直される。 -/
  | dequeue (machinePreset : String)

def attemptStep (c : AttemptConfig) (s : AttemptState) : AttemptLabel → AttemptState
  | .startRunAttempt now random => Attempts.startRunAttempt c now random s
  | .attemptFailed f => Attempts.attemptFailed c f s
  | .dequeue machinePreset => { s with machinePreset := some machinePreset }

/-! ## 条件 -/

/--
一段の条件。試みは、まだ始まっていない snapshot からか、回数が残るときに始まる。別の machine で再試行される OOM は、
回数が残るときか、`lockedRetryConfig` の回数が尽きたときに起こる。
-/
def WithinMax (c : AttemptConfig) (s : AttemptState) : AttemptLabel → Prop
  | .startRunAttempt _ _ => s.startable = true ∨ s.attemptNumber.getD 0 < c.maxAttempts
  | .attemptFailed f => f.error.isOOMRunError = true →
    ∀ machine config, retryOOMOnMachine (s.settings c) = some (machine, config) →
      s.attemptNumber.getD 0 < c.maxAttempts ∨
        config.options.maxAttempts ≤ s.attemptNumber.getD 1
  | .dequeue _ => True

/-- まるめる前の待ち時間。 -/
def retryTimeout (opts : Worker.RetryOptions) (random : ℚ) (attempt : ℕ) : ℚ :=
  min opts.maxTimeoutInMs
    ((if opts.randomize then random + 1 else 1) * opts.minTimeoutInMs * opts.factor ^ (attempt - 1))

/-- 設定の回数が残り、まるめた待ち時間が 0 でない。 -/
def DelayRemains (config : RetryConfig) (random : ℚ) (attempt : ℕ) : Prop :=
  attempt < config.options.maxAttempts ∧
    (retryTimeout config.options random attempt < -1 / 2 ∨
      1 / 2 ≤ retryTimeout config.options random attempt)

/-- 再試行の設定がある run の、再試行できる error が再試行される条件。 -/
def Retries (run : RetrySettings) (config : RetryConfig) (attemptNumber : Option ℕ) (f : Failure) : Prop :=
  if f.error.isOOMRunError then
    (∃ preset machine, run.machinePreset = some preset ∧ config.outOfMemoryMachine = some machine ∧
      preset ≠ machine) ∧ DelayRemains config f.random (attemptNumber.getD 1)
  else
    attemptNumber.getD 0 ≤ maxTaskRunAttempts ∧
      (f.retry.isSome = true ∨
        shouldLookupRetrySettings f.error.taskRunErrorEnhancer = true ∧
          DelayRemains config f.random (attemptNumber.getD 1))

/-! ## 判断 -/

theorem truthyNumber_intCast_iff (z : ℤ) : truthyNumber (some (z : ℚ)) ≠ none ↔ z ≠ 0 := by
  unfold truthyNumber
  by_cases hz : z = 0
  · subst hz
    exact ⟨fun h => absurd rfl h, fun h => absurd rfl h⟩
  · rw [Option.filter_some_pos (by simpa using hz)]
    exact ⟨fun _ => hz, fun _ => Option.some_ne_none _⟩

theorem truthyNumber_delay_iff {config : RetryConfig} {random : ℚ} {attempt : ℕ} :
    truthyNumber (Worker.calculateNextRetryDelay config.options random attempt) ≠ none ↔
      DelayRemains config random attempt := by
  unfold truthyNumber Worker.calculateNextRetryDelay DelayRemains
  by_cases hmax : config.options.maxAttempts ≤ attempt
  · rw [if_pos hmax]
    exact ⟨fun h => absurd rfl h, fun h => absurd h.1 (not_lt.mpr hmax)⟩
  · rw [if_neg hmax]
    have hfloor : ⌊retryTimeout config.options random attempt + 1 / 2⌋ = 0 ↔
        -1 / 2 ≤ retryTimeout config.options random attempt ∧
          retryTimeout config.options random attempt < 1 / 2 := by
      rw [Int.floor_eq_zero_iff, Set.mem_Ico]
      constructor
      · rintro ⟨h₁, h₂⟩
        constructor <;> linarith
      · rintro ⟨h₁, h₂⟩
        constructor <;> linarith
    refine (truthyNumber_intCast_iff _).trans ?_
    change ¬ ⌊retryTimeout config.options random attempt + 1 / 2⌋ = 0 ↔ _
    rw [hfloor, not_and_or, not_le, not_lt]
    exact ⟨fun h => ⟨not_le.mp hmax, h⟩, fun h => h.2⟩

theorem retry_of_truthyNumber {delay : Option ℚ} {f : ℚ → RetryOutcome}
    (hf : ∀ d, ∃ method settings machine, f d = .retry method settings machine) :
    (∃ method settings machine, (match truthyNumber delay with
      | none => RetryOutcome.failRun
      | some d => f d) = .retry method settings machine) ↔ truthyNumber delay ≠ none := by
  cases truthyNumber delay with
  | none => exact ⟨fun ⟨_, _, _, h⟩ => (by cases h), fun h => absurd rfl h⟩
  | some d => exact ⟨fun _ => Option.some_ne_none d, fun _ => hf d⟩

/-- 別の machine が設定されている。 -/
theorem retryOOMOnMachine_eq_some_iff {run : RetrySettings} {config config' : RetryConfig}
    {machine : String} (hconfig : run.lockedRetryConfig = some (some config)) :
    retryOOMOnMachine run = some (machine, config') ↔
      config' = config ∧ ∃ preset, run.machinePreset = some preset ∧
        config.outOfMemoryMachine = some machine ∧ preset ≠ machine := by
  unfold retryOOMOnMachine
  rw [hconfig]
  cases hpreset : run.machinePreset with
  | none => exact ⟨fun h => (by cases h), fun ⟨_, _, h, _⟩ => (by cases h)⟩
  | some preset =>
    simp only
    cases hmachine : config.outOfMemoryMachine with
    | none => exact ⟨fun h => (by cases h), fun ⟨_, _, _, h, _⟩ => (by cases h)⟩
    | some machine' =>
      simp only
      by_cases hne : preset = machine'
      · rw [if_pos hne]
        refine ⟨fun h => (by cases h), ?_⟩
        rintro ⟨-, preset', hp, hm, hdiff⟩
        cases hp
        cases hm
        exact absurd hne hdiff
      · rw [if_neg hne]
        constructor
        · intro h
          cases h
          exact ⟨rfl, preset, rfl, rfl, hne⟩
        · rintro ⟨rfl, preset', -, hm, -⟩
          cases hm
          rfl

/-- **再試行できる error が再試行されるのは、条件を満たすとき、そのときに限る。** -/
theorem retries_iff {run : RetrySettings} {config : RetryConfig} {m : ℕ}
    (hconfig : run.lockedRetryConfig = some (some config)) (hmax : run.maxAttempts = some m)
    {attemptNumber : Option ℕ} (hbelow : attemptNumber.getD 0 < m) {f : Failure}
    (hretriable : shouldRetryError f.error.taskRunErrorEnhancer = true) :
    (∃ method settings machine, retryOutcomeFromCompletion run attemptNumber f.error f.forceRequeue
      f.retry f.now f.random = .retry method settings machine) ↔ Retries run config attemptNumber f := by
  unfold retryOutcomeFromCompletion Retries
  split
  · next message stackTrace herror =>
    rw [herror] at hretriable
    exact absurd hretriable (by simp [TaskRunError.taskRunErrorEnhancer, shouldRetryError])
  · -- memory 不足の error は、大きな machine があるときだけ再試行される
    by_cases hoom : f.error.isOOMRunError = true
    · rw [if_pos hoom, if_pos hoom]
      cases hmachine : retryOOMOnMachine run with
      | none =>
        refine ⟨fun ⟨_, _, _, h⟩ => (by cases h), ?_⟩
        rintro ⟨⟨preset, machine, hpreset, hm, hne⟩, -⟩
        have hiff : retryOOMOnMachine run = some (machine, config) ↔ _ :=
          retryOOMOnMachine_eq_some_iff hconfig
        rw [hmachine] at hiff
        cases hiff.mpr ⟨rfl, preset, hpreset, hm, hne⟩
      | some p =>
        obtain ⟨machine, config'⟩ := p
        obtain ⟨rfl, preset, hpreset, hm, hne⟩ := (retryOOMOnMachine_eq_some_iff hconfig).mp hmachine
        simp only
        refine (retry_of_truthyNumber fun d => ⟨_, _, _, rfl⟩).trans (truthyNumber_delay_iff.trans ?_)
        exact ⟨fun h => ⟨⟨preset, machine, hpreset, hm, hne⟩, h⟩, fun h => h.2⟩
    · rw [if_neg hoom, if_neg hoom, hretriable]
      simp only [Bool.not_true, Bool.false_eq_true, if_false]
      by_cases hlimit : attemptNumber.getD 0 ≤ maxTaskRunAttempts
      · have hany : attemptNumber.any (maxTaskRunAttempts < ·) = false := by
          cases attemptNumber with
          | none => rfl
          | some a => exact decide_eq_false (not_lt.mpr hlimit)
        have hleft : attemptNumber.any (m ≤ ·) = false := by
          cases attemptNumber with
          | none => rfl
          | some a => exact decide_eq_false (not_le.mpr hbelow)
        have hm : run.maxAttempts.filter (· ≠ 0) = some m := by
          rw [hmax]
          exact Option.filter_some_pos (decide_eq_true (by omega))
        simp only [hany, hm, hleft, Bool.false_eq_true, if_false]
        cases f.retry with
        | some settings => exact ⟨fun _ => ⟨hlimit, .inl rfl⟩, fun _ => ⟨_, _, _, rfl⟩⟩
        | none =>
          simp only
          by_cases hlookup : shouldLookupRetrySettings f.error.taskRunErrorEnhancer = true
          · rw [hlookup, hconfig]
            simp only [Bool.not_true, Bool.false_eq_true, if_false]
            refine (retry_of_truthyNumber fun d => ⟨_, _, _, rfl⟩).trans
              (truthyNumber_delay_iff.trans ?_)
            simp [hlimit]
          · rw [Bool.not_eq_true] at hlookup
            simp [hlookup]
      · have hany : attemptNumber.any (maxTaskRunAttempts < ·) = true := by
          cases attemptNumber with
          | none => exact absurd (Nat.zero_le _) hlimit
          | some a => exact decide_eq_true (not_le.mp hlimit)
        rw [if_pos hany]
        exact ⟨fun ⟨_, _, _, h⟩ => (by cases h), fun h => absurd h.1 hlimit⟩

/-! ## 回数の上限 -/

/-- 再試行と判断されたなら、回数が残るか、OOM の別の machine での再試行である。 -/
theorem retry_cases {run : RetrySettings} {m : ℕ} (hmax : run.maxAttempts = some m)
    {attemptNumber : Option ℕ} {f : Failure} {method : RetryMethod} {settings : ExecutionRetry}
    {machine : Option String}
    (h : retryOutcomeFromCompletion run attemptNumber f.error f.forceRequeue f.retry f.now f.random =
      .retry method settings machine) :
    attemptNumber.getD 0 < m ∨ f.error.isOOMRunError = true ∧
      ∃ target config, retryOOMOnMachine run = some (target, config) ∧
        attemptNumber.getD 1 < config.options.maxAttempts := by
  unfold retryOutcomeFromCompletion at h
  split at h
  · cases h
  · split at h
    · next hoom =>
      cases hmachine : retryOOMOnMachine run with
      | none =>
        rw [hmachine] at h
        cases h
      | some p =>
        obtain ⟨target, config⟩ := p
        refine .inr ⟨hoom, target, config, rfl, ?_⟩
        rw [hmachine] at h
        simp only at h
        exact (truthyNumber_delay_iff.mp
          ((retry_of_truthyNumber fun d => ⟨_, _, _, rfl⟩).mp ⟨_, _, _, h⟩)).1
    · refine .inl ?_
      split at h
      · cases h
      split at h
      · cases h
      cases hm : run.maxAttempts.filter (· ≠ 0) with
      | none =>
        rw [hm] at h
        cases h
      | some m' =>
        rw [hm] at h
        simp only at h
        obtain ⟨heq, hpos⟩ := Option.filter_eq_some_iff.mp hm
        rw [hmax] at heq
        cases heq
        split at h
        · cases h
        · next hany =>
          cases attemptNumber with
          | none => exact Nat.pos_of_ne_zero (of_decide_eq_true hpos)
          | some a =>
            have : ¬ m ≤ a := fun hle => hany (decide_eq_true hle)
            exact Nat.lt_of_not_le this

/-- 回数の上限の不変条件。試みを始められるのは、回数が残るときである。 -/
structure Bounded (c : AttemptConfig) (s : AttemptState) : Prop where
  le : s.attemptNumber.getD 0 ≤ c.maxAttempts
  startable : s.startable = true → s.finished = false → s.attemptNumber.getD 0 < c.maxAttempts

theorem Bounded.attemptFailed {c : AttemptConfig} {s : AttemptState} (h : Bounded c s) {f : Failure}
    (hwithin : WithinMax c s (.attemptFailed f)) : Bounded c (attemptFailed c f s) := by
  unfold Attempts.attemptFailed
  split
  · exact h
  · split
    · exact ⟨h.le, fun _ hf => by cases hf⟩
    · exact ⟨h.le, fun _ hf => by cases hf⟩
    · next method settings machine houtcome =>
      have hbelow : s.attemptNumber.getD 0 < c.maxAttempts := by
        rcases retry_cases (m := c.maxAttempts) rfl houtcome with hbelow | ⟨hoom, target, config, hm, hlt⟩
        · exact hbelow
        · rcases hwithin hoom target config hm with hbelow | hle
          · exact hbelow
          · omega
      simp only
      split
      · exact ⟨h.le, fun _ hf => by cases hf⟩
      · exact ⟨h.le, fun _ _ => hbelow⟩

theorem not_oom_maxAttemptsReached : maxAttemptsReached.isOOMRunError = false := rfl

theorem Bounded.step {c : AttemptConfig} (s : AttemptState) (l : AttemptLabel) (h : Bounded c s)
    (hwithin : WithinMax c s l) : Bounded c (attemptStep c s l) := by
  cases l with
  | startRunAttempt now random =>
    simp only [attemptStep, startRunAttempt]
    split
    · exact h
    · next hfinished =>
      split
      · refine h.attemptFailed fun hoom => ?_
        rw [not_oom_maxAttemptsReached] at hoom
        cases hoom
      · have hbelow : s.attemptNumber.getD 0 < c.maxAttempts := by
          rcases hwithin with hstartable | hbelow
          · exact h.startable hstartable (Bool.not_eq_true _ ▸ hfinished)
          · exact hbelow
        exact ⟨hbelow, fun hs => by cases hs⟩
  | attemptFailed f => exact h.attemptFailed hwithin
  | dequeue machinePreset => exact ⟨h.le, h.startable⟩

/--
**条件の下の実行では、試みの回数は `maxAttempts` を超えない。** 回数が残る間、再試行の設定がある run の再試行できる
error が再試行されるのは、`Retries` のとき、そのときに限る。
-/
theorem attempts_respect_max (c : AttemptConfig) (hc : 0 < c.maxAttempts) :
    (∀ machinePreset ls, Along (attemptStep c) (WithinMax c) { machinePreset := machinePreset } ls →
      Throughout (attemptStep c) (fun s => s.attemptNumber.getD 0 ≤ c.maxAttempts)
        { machinePreset := machinePreset } ls) ∧
    ∀ config, c.lockedRetryConfig = some (some config) → ∀ (s : AttemptState) (f : Failure),
      s.attemptNumber.getD 0 < c.maxAttempts →
      shouldRetryError f.error.taskRunErrorEnhancer = true →
      ((∃ method settings machine, retryOutcomeFromCompletion (s.settings c) s.attemptNumber f.error
        f.forceRequeue f.retry f.now f.random = .retry method settings machine) ↔
          Retries (s.settings c) config s.attemptNumber f) := by
  refine ⟨fun machinePreset ls hls => ?_, fun config hconfig s f hbelow hretriable => ?_⟩
  · refine (throughout_of_along (I := Bounded c) Bounded.step ?_ hls).mono fun s hs => hs.le
    exact ⟨Nat.zero_le _, fun _ _ => hc⟩
  · exact retries_iff hconfig rfl hbelow hretriable

/-- 三回まで、OOM のときは `large-2x` で再試行する設定。 -/
def largeOnOOM (maxAttempts : ℕ) (minTimeoutInMs : ℚ) : AttemptConfig :=
  ⟨maxAttempts, some (some ⟨⟨3, 2, minTimeoutInMs, 60000, false⟩, some "large-2x"⟩)⟩

/-- OOM の失敗。 -/
def oomFailure : Failure :=
  { error := .internalError .taskProcessOomKilled none none, now := 0, random := 0 }

/-- 設定の無い SIGTERM の失敗。 -/
def sigtermFailure : Failure :=
  { error := .internalError .taskProcessSigterm none none, now := 0, random := 0 }

/-- 回数の残る間の OOM は上限を守る。 -/
theorem attempts_within_two : Throughout (attemptStep (largeOnOOM 2 1000))
    (fun s => s.attemptNumber.getD 0 ≤ 2) { machinePreset := some "small-1x" }
    [.startRunAttempt 0 0, .attemptFailed oomFailure, .startRunAttempt 0 0] := by
  refine (attempts_respect_max (largeOnOOM 2 1000) (by decide)).1 (some "small-1x") _
    ⟨.inl rfl, ?_, .inl (by decide +kernel), trivial⟩
  intro _ machine config h
  exact .inl (by decide)

/-- 一回までの run も OOM で二回目の試みを始め、待ち時間が 0 なら回数が残っても失敗する。 -/
theorem attempts_exceed_max :
    ¬ Throughout (attemptStep (largeOnOOM 1 1000)) (fun s => s.attemptNumber.getD 0 ≤ 1)
      { machinePreset := some "small-1x" }
      [.startRunAttempt 0 0, .attemptFailed oomFailure, .startRunAttempt 0 0] ∧
    ¬ ∃ method settings machine, retryOutcomeFromCompletion
      ⟨some 3, (largeOnOOM 3 0).lockedRetryConfig, some "small-1x"⟩ (some 1) sigtermFailure.error
      false none 0 0 = .retry method settings machine := by
  constructor
  · intro h
    exact absurd h.last (by decide +kernel)
  · intro h
    have hiff : _ ↔ Retries ⟨some 3, (largeOnOOM 3 0).lockedRetryConfig, some "small-1x"⟩
        ⟨⟨3, 2, 0, 60000, false⟩, some "large-2x"⟩ (some 1) sigtermFailure :=
      retries_iff rfl rfl (by decide) (by decide)
    have hretries := hiff.mp h
    have hdelay : DelayRemains ⟨⟨3, 2, 0, 60000, false⟩, some "large-2x"⟩ 0 1 := by
      rcases hretries.2 with hretry | ⟨-, hdelay⟩
      · exact absurd hretry (by decide)
      · exact hdelay
    exact absurd hdelay.2 (by norm_num [retryTimeout])

end RunEngine.Attempts
