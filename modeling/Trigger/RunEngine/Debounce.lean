import Trigger.Infra.Machine
import Trigger.RunEngine.Retrying

/-!
# debounce の key を奪い合う trigger

一つの debounce key に対して、いくつもの server が同時に `trigger` を呼ぶ。Redis の命令と database の呼び出しの
一つずつを一歩とし、`handleDebounce` とその四つの補助関数を、次に実行する命令（`Pc`）で表す。run の lock は互いに
排他であり、key は失効しないとする。

key を消す二つの枝は、前に読んだ run だけを見て無条件に `DEL` する。

* 終わった run を片付ける `DEL` は、その間に登録された別の run への対応を消すことがある（`window_split`）
* 最大の遅延を超えた trigger は claim を持たずに run を作り、key を上書きする

`DEL` のとき key がまだその run を指し、claim を持たない trigger が登録を終えるまで誰も key を取らなければ、key の
run は高々一つである（`debounce_throughout`）。
-/

namespace RunEngine.Debounce

open Infra.Machine

/-! ## 状態 -/

/-- key の値。`pending:<claimId>` か run の id である。 -/
inductive KeyValue
  | pending (claimId : ℕ)
  | runId (runId : ℕ)
deriving DecidableEq

/--
`trigger` の引数。`delay` と `maxDelay` は文字列を読んだ結果で、読めない文字列は `none` である。`maxDelay` は
省略できる。
-/
structure TriggerParams where
  delay : Option ℕ
  maxDelay : Option (Option ℕ)
  delayUntil : Option ℕ

/-- key で作られた run。 -/
structure Run where
  status : ExecutionStatus
  createdAt : ℕ
  delayUntil : Option ℕ
deriving DecidableEq

inductive DebounceResult
  | new (claimId : ℕ)
  | existing (runId : ℕ)
  | maxDurationExceeded
deriving DecidableEq

/-- trigger が次に実行する命令。 -/
inductive Pc
  /-- `claimDebounceKey` の `SET NX`。 -/
  | claim
  /-- 取れなかったときの `GET`。 -/
  | readExisting
  /-- `waitForExistingRun` の繰り返しの `GET`。 -/
  | wait (attempt : ℕ)
  /-- 待ちきれなかったときの `conditionallyDeletePendingKey`。 -/
  | giveUp
  /-- `handleExistingRun` の `runLock.lock`。 -/
  | lock (runId : ℕ)
  | readSnapshot (runId : ℕ)
  | readRun (runId : ℕ)
  /-- 遅延していない run を指す key の `DEL`。 -/
  | cleanUp (runId : ℕ)
  /-- 最大の遅延を超える run を指す key の `DEL`。 -/
  | closeWindow (runId newDelayUntil : ℕ)
  | reschedule (runId newDelayUntil : ℕ)
  /-- lock を内側から順に放して `handleDebounce` から戻る。`none` は例外である。 -/
  | unlock (result : Option DebounceResult)
  | createRun (claimId : Option ℕ)
  /-- `registerDebouncedRun`。 -/
  | register (runId : ℕ) (claimId : Option ℕ)
  | done
deriving DecidableEq

/-- 一回の `trigger` の呼び出し。`locks` は取った lock で、先頭が最も内側である。 -/
structure Proc where
  params : TriggerParams
  pc : Pc
  locks : List ℕ

/--
一つの key に関わる状態。`claims` はこれまでに作られた `claimId` の数、`closed` は最大の遅延を超えたとされて key から
外された run である。
-/
structure Cluster where
  key : Option KeyValue
  runs : List Run
  procs : List Proc
  claims : ℕ
  closed : List ℕ

def Cluster.initial : Cluster := ⟨none, [], [], 0, []⟩

/-! ## 一歩 -/

/-- `leave` は、queue に入る、取り消されるなどして run が遅延の状態から出る一歩である。 -/
inductive Label
  | trigger (params : TriggerParams)
  | server (p now : ℕ)
  | leave (runId : ℕ) (status : ExecutionStatus)

/-- どれかの trigger が run の lock を持つ。 -/
def Cluster.Locked (e : Cluster) (runId : ℕ) : Prop := ∃ q ∈ e.procs, runId ∈ q.locks

instance (e : Cluster) (runId : ℕ) : Decidable (e.Locked runId) :=
  inferInstanceAs (Decidable (∃ q ∈ e.procs, runId ∈ q.locks))

/-- `maxDelay` が読めればそれを、そうでなければ全体の設定を使う。 -/
def TriggerParams.maxDurationMs (maxDebounceDurationMs : ℕ) (params : TriggerParams) : ℕ :=
  match params.maxDelay with
  | some (some parsedMaxDelay) => parsedMaxDelay
  | _ => maxDebounceDurationMs

/-- `MAX_CLAIM_RETRIES`。 -/
def maxClaimRetries : ℕ := 10

/-- `handleExistingRun` が run の行を読んだ後に選ぶ枝。 -/
def existingRun (maxDebounceDurationMs now runId : ℕ) (params : TriggerParams) (run : Run) : Pc :=
  match params.delay with
  | none => .claim
  | some delay =>
    if run.createdAt + params.maxDurationMs maxDebounceDurationMs < now + delay then
      .closeWindow runId (now + delay)
    else if run.delayUntil.all (· < now + delay) then .reschedule runId (now + delay)
    else .unlock (some (.existing runId))

/-- trigger `p` を、次の命令へ進める。 -/
def Cluster.goto (e : Cluster) (p : ℕ) (q : Proc) (pc : Pc) : Cluster :=
  { e with procs := e.procs.set p { q with pc := pc } }

/-- trigger `p` が次の命令を一つ実行する。 -/
def Cluster.serve (maxDebounceDurationMs now : ℕ) (e : Cluster) (p : ℕ) (q : Proc) : Cluster :=
  match q.pc with
  | .claim =>
    let e' := { e with claims := e.claims + 1 }
    match e.key with
    | none => { e' with key := some (.pending e.claims) }.goto p q (.unlock (some (.new e.claims)))
    | some _ => e'.goto p q .readExisting
  | .readExisting =>
    match e.key with
    | some (.runId runId) => e.goto p q (.lock runId)
    | _ => e.goto p q (.wait 0)
  | .wait attempt =>
    match e.key with
    | none => e.goto p q .claim
    | some (.runId runId) => e.goto p q (.lock runId)
    | some (.pending _) =>
      e.goto p q (if attempt + 1 < maxClaimRetries then .wait (attempt + 1) else .giveUp)
  | .giveUp =>
    match e.key with
    | some (.runId runId) => e.goto p q (.lock runId)
    | _ => { e with key := none }.goto p q .claim
  | .lock runId =>
    -- 最も内側の lock が同じ run のものなら、取り直さずに進む。
    if q.locks.head? = some runId then e.goto p q (.readSnapshot runId)
    else if e.Locked runId then e
    else e.goto p { q with locks := runId :: q.locks } (.readSnapshot runId)
  | .readSnapshot runId =>
    match e.runs[runId]? with
    | none => e.goto p q (.cleanUp runId)
    | some run =>
      e.goto p q (if run.status.isInitialState then .readRun runId else .cleanUp runId)
  | .readRun runId =>
    match e.runs[runId]? with
    | none => e.goto p q (.cleanUp runId)
    | some run => e.goto p q (existingRun maxDebounceDurationMs now runId q.params run)
  | .cleanUp _ => { e with key := none }.goto p q .claim
  | .closeWindow runId _ =>
    { e with key := none, closed := runId :: e.closed }.goto p q
      (.unlock (some .maxDurationExceeded))
  | .reschedule runId newDelayUntil =>
    match e.runs[runId]? with
    | none => e.goto p q (.unlock none)
    | some run =>
      if run.status.isInitialState then
        { e with
          runs := e.runs.set runId
            { run with status := .delayed, delayUntil := some newDelayUntil } }.goto p q
          (.unlock (some (.existing runId)))
      else e.goto p q (.unlock none)
  | .unlock result =>
    match q.locks with
    | _ :: locks => e.goto p { q with locks := locks } (.unlock result)
    | [] =>
      match result with
      | some (.new claimId) => e.goto p q (.createRun (some claimId))
      | some .maxDurationExceeded => e.goto p q (.createRun none)
      | some (.existing _) | none => e.goto p q .done
  | .createRun claimId =>
    let run : Run :=
      ⟨if q.params.delayUntil.isSome then .delayed else .runCreated, now, q.params.delayUntil⟩
    { e with runs := e.runs ++ [run] }.goto p q
      (if q.params.delayUntil.isSome then .register e.runs.length claimId else .done)
  | .register runId (some claimId) =>
    if e.key = some (.pending claimId) then { e with key := some (.runId runId) }.goto p q .done
    else e.goto p q .done
  | .register runId none => { e with key := some (.runId runId) }.goto p q .done
  | .done => e

/-- lock の外で、遅延した run の状態が先へ進む。 -/
def Cluster.leave (e : Cluster) (runId : ℕ) (status : ExecutionStatus) : Cluster :=
  match e.runs[runId]? with
  | none => e
  | some run =>
    if e.Locked runId ∨ status.isInitialState then e
    else { e with runs := e.runs.set runId { run with status := status } }

def step (maxDebounceDurationMs : ℕ) (e : Cluster) : Label → Cluster
  | .trigger params => { e with procs := e.procs ++ [⟨params, .claim, []⟩] }
  | .server p now =>
    match e.procs[p]? with
    | none => e
    | some q => e.serve maxDebounceDurationMs now p q
  | .leave runId status => e.leave runId status

/-! ## 一つの窓に一つの run -/

/-- 遅延していて、まだ別の窓に取って代わられていない run。 -/
def Cluster.Live (e : Cluster) (runId : ℕ) : Prop :=
  ∃ run, e.runs[runId]? = some run ∧ run.status = .delayed ∧ runId ∉ e.closed

/-- そのような run は高々一つである。 -/
def Cluster.OneLive (e : Cluster) : Prop := ∀ r s, e.Live r → e.Live s → r = s

/--
遅延した run への対応は、その run が最大の遅延を超えると知った trigger だけが外す。claim は、それを持つ trigger が
run を登録するときにだけ外れる。
-/
def WindowKept (maxDebounceDurationMs : ℕ) (e : Cluster) (l : Label) : Prop :=
  (∀ runId run, e.key = some (.runId runId) → e.runs[runId]? = some run → run.status = .delayed →
    (step maxDebounceDurationMs e l).key ≠ e.key →
    ∃ p now q newDelayUntil, l = .server p now ∧ e.procs[p]? = some q ∧
      q.pc = .closeWindow runId newDelayUntil ∧
      run.createdAt + q.params.maxDurationMs maxDebounceDurationMs < newDelayUntil) ∧
  ∀ claimId, e.key = some (.pending claimId) → (step maxDebounceDurationMs e l).key ≠ e.key →
    ∃ p now q runId, l = .server p now ∧ e.procs[p]? = some q ∧
      q.pc = .register runId (some claimId) ∧
      (step maxDebounceDurationMs e l).key = some (.runId runId)

/-- 一歩を進める trigger。 -/
def Cluster.actor (e : Cluster) : Label → Option Proc
  | .server p _ => e.procs[p]?
  | _ => none

/-- `waitForExistingRun` が待ちきれなくなることはない。 -/
def Patient (e : Cluster) (l : Label) : Prop := ∀ q ∈ e.actor l, q.pc ≠ .giveUp

/--
key についての持ち分。claim を持つ trigger は `pending` の key に、最大の遅延を超えて claim を持たない trigger は空の
key に依っている。
-/
def Pc.stake : Pc → Option (Option KeyValue)
  | .unlock (some (.new claimId)) => some (some (.pending claimId))
  | .createRun (some claimId) => some (some (.pending claimId))
  | .register _ (some claimId) => some (some (.pending claimId))
  | .unlock (some .maxDurationExceeded) => some none
  | .createRun none => some none
  | .register _ none => some none
  | _ => none

/--
片付ける `DEL` のとき、key は空かその run を指す。窓を閉じる `DEL` のとき、key はまだその run を指す。claim を持たない
trigger が登録を終えるまで、`SET NX` は key を取らない。
-/
def Pc.Clean (e : Cluster) : Pc → Prop
  | .cleanUp runId => e.key = none ∨ e.key = some (.runId runId)
  | .closeWindow runId _ => e.key = some (.runId runId)
  | .claim => e.key = none → ∀ q ∈ e.procs, q.pc.stake ≠ some none
  | _ => True

def Clean (e : Cluster) (l : Label) : Prop := ∀ q ∈ e.actor l, q.pc.Clean e

instance (e : Cluster) (l : Label) : Decidable (Patient e l) :=
  inferInstanceAs (Decidable (∀ q ∈ e.actor l, q.pc ≠ .giveUp))

instance (e : Cluster) : DecidablePred (Pc.Clean e)
  | .claim => inferInstanceAs (Decidable (e.key = none → ∀ q ∈ e.procs, q.pc.stake ≠ some none))
  | .cleanUp runId => inferInstanceAs (Decidable (e.key = none ∨ e.key = some (.runId runId)))
  | .closeWindow runId _ => inferInstanceAs (Decidable (e.key = some (.runId runId)))
  | .readExisting | .wait _ | .giveUp | .lock _ | .readSnapshot _ | .readRun _ | .reschedule _ _
  | .unlock _ | .createRun _ | .register _ _ | .done => isTrue trivial

instance (e : Cluster) (l : Label) : Decidable (Clean e l) :=
  inferInstanceAs (Decidable (∀ q ∈ e.actor l, q.pc.Clean e))

/-! ## run の表 -/

/-- run は消えず、`createdAt` は変わらず、遅延の状態に戻らない。 -/
def Later (runs runs' : List Run) : Prop :=
  ∀ (runId : ℕ) run, runs[runId]? = some run → ∃ run', runs'[runId]? = some run' ∧
    run'.createdAt = run.createdAt ∧ (run'.status = .delayed → run.status = .delayed) ∧
    (run'.status = .runCreated → run.status = .runCreated)

/-- `delayUntil` とともに作られた run。 -/
def Known (runs : List Run) (runId : ℕ) : Prop :=
  ∃ run, runs[runId]? = some run ∧ run.status ≠ .runCreated

theorem concat_cases {α : Type} {xs : List α} {a b : α} {i : ℕ} (h : (xs ++ [a])[i]? = some b) :
    xs[i]? = some b ∨ (i = xs.length ∧ b = a) := by
  by_cases hlt : i < xs.length
  · rw [List.getElem?_append_left hlt] at h
    exact .inl h
  · rw [List.getElem?_append_right (Nat.le_of_not_lt hlt), List.getElem?_singleton] at h
    split at h
    · next hzero => exact .inr ⟨by omega, (Option.some.inj h).symm⟩
    · cases h

theorem Later.refl (runs : List Run) : Later runs runs :=
  fun _ run h => ⟨run, h, rfl, id, id⟩

theorem later_append (runs : List Run) (run : Run) : Later runs (runs ++ [run]) := by
  intro runId run' h
  obtain ⟨hlt, _⟩ := List.getElem?_eq_some_iff.mp h
  exact ⟨run', by rw [List.getElem?_append_left hlt, h], rfl, id, id⟩

theorem later_set {runs : List Run} {runId : ℕ} {run run' : Run} (h : runs[runId]? = some run)
    (hcreated : run'.createdAt = run.createdAt)
    (hdelayed : run'.status = .delayed → run.status = .delayed)
    (hnew : run'.status = .runCreated → run.status = .runCreated) :
    Later runs (runs.set runId run') := by
  intro r x hx
  by_cases hr : runId = r
  · subst hr
    obtain ⟨hlt, _⟩ := List.getElem?_eq_some_iff.mp h
    obtain rfl : run = x := Option.some.inj (h.symm.trans hx)
    exact ⟨run', List.getElem?_set_self hlt, hcreated, hdelayed, hnew⟩
  · exact ⟨x, by rw [List.getElem?_set_ne hr, hx], rfl, id, id⟩

variable {maxMs : ℕ} {e e' : Cluster} {p : ℕ} {q : Proc}

theorem Known.later {runs runs' : List Run} {runId : ℕ} (h : Known runs runId)
    (hlater : Later runs runs') : Known runs' runId := by
  obtain ⟨run, hrun, hstatus⟩ := h
  obtain ⟨run', hrun', _, _, hnew⟩ := hlater runId run hrun
  exact ⟨run', hrun', fun hs => hstatus (hnew hs)⟩

/-- 最初の状態にある `Known` の run は、遅延している。 -/
theorem Known.delayed {runs : List Run} {runId : ℕ} {run : Run} (h : Known runs runId)
    (hrun : runs[runId]? = some run) (hinitial : run.status.isInitialState) :
    run.status = .delayed := by
  obtain ⟨run', hrun', hstatus⟩ := h
  obtain rfl : run = run' := Option.some.inj (hrun.symm.trans hrun')
  cases hs : run.status with
  | delayed => rfl
  | runCreated => exact absurd hs hstatus
  | _ => rw [hs] at hinitial; cases hinitial

/-- 同じ位置の run を、遅延でない状態か、もとの状態の run に置き換えても、`Live` な run は増えない。 -/
theorem live_of_set {runId r : ℕ} {run run' : Run} (h : e.runs[runId]? = some run)
    (hdelayed : run'.status = .delayed → run.status = .delayed)
    (hlive : { e with runs := e.runs.set runId run' }.Live r) : e.Live r := by
  obtain ⟨x, hx, hstatus, hclosed⟩ := hlive
  by_cases hr : runId = r
  · subst hr
    obtain ⟨hlt, _⟩ := List.getElem?_eq_some_iff.mp h
    obtain rfl : run' = x := Option.some.inj ((List.getElem?_set_self hlt).symm.trans hx)
    exact ⟨run, h, hdelayed hstatus, hclosed⟩
  · exact ⟨x, (List.getElem?_set_ne hr).symm.trans hx, hstatus, hclosed⟩

/-! ## 不変条件 -/

/-- 次の命令までに読んだこと。 -/
def Pc.Facts (maxMs : ℕ) (runs : List Run) (params : TriggerParams) : Pc → Prop
  | .lock runId => Known runs runId
  | .readSnapshot runId => Known runs runId
  | .readRun runId => Known runs runId
  | .reschedule runId _ => Known runs runId
  | .register runId _ => Known runs runId
  | .cleanUp runId => ∃ run, runs[runId]? = some run ∧ run.status ≠ .delayed
  | .closeWindow runId newDelayUntil =>
    ∃ run, runs[runId]? = some run ∧ run.createdAt + params.maxDurationMs maxMs < newDelayUntil
  | _ => True

theorem Pc.Facts.later {runs runs' : List Run} {params : TriggerParams} {pc : Pc}
    (h : pc.Facts maxMs runs params) (hlater : Later runs runs') : pc.Facts maxMs runs' params := by
  cases pc with
  | lock | readSnapshot | readRun | reschedule | register => exact Known.later h hlater
  | cleanUp runId =>
    obtain ⟨run, hrun, hstatus⟩ := h
    obtain ⟨run', hrun', _, hdelayed, _⟩ := hlater runId run hrun
    exact ⟨run', hrun', fun hs => hstatus (hdelayed hs)⟩
  | closeWindow runId newDelayUntil =>
    obtain ⟨run, hrun, hlt⟩ := h
    obtain ⟨run', hrun', hcreated, _⟩ := hlater runId run hrun
    exact ⟨run', hrun', by rw [hcreated]; exact hlt⟩
  | _ => trivial

/--
持ち分のある trigger は高々一つで、key はその持ち分の値である。`Live` な run は、key が指しているか、これから登録
される。
-/
structure Inv (maxMs : ℕ) (e : Cluster) : Prop where
  known : ∀ runId, e.key = some (.runId runId) → Known e.runs runId
  facts : ∀ (p : ℕ) q, e.procs[p]? = some q → q.pc.Facts maxMs e.runs q.params
  held : ∀ (p : ℕ) q v, e.procs[p]? = some q → q.pc.stake = some v → e.key = v
  sole : ∀ (p p' : ℕ) q q', e.procs[p]? = some q → e.procs[p']? = some q' → q.pc.stake ≠ none →
    q'.pc.stake ≠ none → p = p'
  live : ∀ runId, e.Live runId → e.key = some (.runId runId) ∨
    ∃ (p : ℕ) (q : Proc) (claimId : Option ℕ), e.procs[p]? = some q ∧ q.pc = .register runId claimId

theorem inv_initial : Inv maxMs Cluster.initial where
  known := fun _ h => by cases h
  facts := fun _ _ h => by cases h
  held := fun _ _ _ h => by cases h
  sole := fun _ _ _ _ h => by cases h
  live := fun _ h => by
    obtain ⟨_, hrun, _⟩ := h
    cases hrun

theorem stake_register (runId : ℕ) (claimId : Option ℕ) :
    (Pc.register runId claimId).stake = some (claimId.map .pending) := by
  cases claimId <;> rfl

/-- 持ち分は run の id ではない。 -/
theorem stake_ne_runId (pc : Pc) (runId : ℕ) : pc.stake ≠ some (some (.runId runId)) := by
  unfold Pc.stake
  split <;> simp

/-- key が run を指すとき、持ち分のある trigger は無い。 -/
theorem Inv.stake_none {runId : ℕ} (h : Inv maxMs e) (hkey : e.key = some (.runId runId))
    (hp : e.procs[p]? = some q) : q.pc.stake = none := by
  cases hs : q.pc.stake with
  | none => rfl
  | some v =>
    have hv := h.held p q v hp hs
    rw [← hv, hkey] at hs
    exact absurd hs (stake_ne_runId _ _)

theorem set_cases {procs : List Proc} {i : ℕ} {q' x : Proc} (h : (procs.set p q')[i]? = some x) :
    (i = p ∧ x = q') ∨ (i ≠ p ∧ procs[i]? = some x) := by
  by_cases hi : p = i
  · subst hi
    rw [List.getElem?_set_self'] at h
    obtain ⟨_, _, rfl⟩ := Option.map_eq_some_iff.mp h
    exact .inl ⟨rfl, rfl⟩
  · rw [List.getElem?_set_ne hi] at h
    exact .inr ⟨fun h' => hi h'.symm, h⟩

theorem set_self {procs : List Proc} (hp : procs[p]? = some q) (q' : Proc) :
    (procs.set p q')[p]? = some q' := by
  obtain ⟨hlt, _⟩ := List.getElem?_eq_some_iff.mp hp
  exact List.getElem?_set_self hlt

/-- 一つの trigger が進む一歩は、他の trigger の持ち分に触れなければ不変条件を保つ。 -/
theorem Inv.update (h : Inv maxMs e) (hp : e.procs[p]? = some q) {q' : Proc}
    (hprocs : e'.procs = e.procs.set p q') (hlater : Later e.runs e'.runs)
    (hknown : ∀ runId, e'.key = some (.runId runId) → Known e'.runs runId)
    (hfacts : q'.pc.Facts maxMs e'.runs q'.params)
    (hheld : ∀ v, q'.pc.stake = some v → e'.key = v)
    (hothers : ∀ (i : ℕ) x, i ≠ p → e.procs[i]? = some x → x.pc.stake ≠ none →
      e'.key = e.key ∧ q'.pc.stake = none)
    (hlive : ∀ runId, e'.Live runId → e'.key = some (.runId runId) ∨
      (∃ claimId, q'.pc = .register runId claimId) ∨
      ∃ (i : ℕ) (x : Proc) (claimId : Option ℕ), i ≠ p ∧ e.procs[i]? = some x ∧
        x.pc = .register runId claimId) :
    Inv maxMs e' := by
  refine ⟨hknown, fun i x hi => ?_, fun i x v hi hs => ?_, fun i j x y hi hj hx hy => ?_,
    fun r hr => ?_⟩
  · rw [hprocs] at hi
    rcases set_cases hi with ⟨_, rfl⟩ | ⟨_, hi⟩
    · exact hfacts
    · exact (h.facts i x hi).later hlater
  · rw [hprocs] at hi
    rcases set_cases hi with ⟨_, rfl⟩ | ⟨hne, hi⟩
    · exact hheld v hs
    · rw [(hothers i x hne hi (by rw [hs]; nofun)).1]
      exact h.held i x v hi hs
  · rw [hprocs] at hi hj
    rcases set_cases hi with ⟨rfl, rfl⟩ | ⟨hine, hi'⟩
    · rcases set_cases hj with ⟨rfl, _⟩ | ⟨hjne, hj'⟩
      · rfl
      · exact absurd (hothers j y hjne hj' hy).2 hx
    · rcases set_cases hj with ⟨rfl, rfl⟩ | ⟨hjne, hj'⟩
      · exact absurd (hothers i x hine hi' hx).2 hy
      · exact h.sole i j x y hi' hj' hx hy
  · rw [hprocs]
    rcases hlive r hr with hkey | ⟨claimId, hpc⟩ | ⟨i, x, claimId, hne, hi, hpc⟩
    · exact .inl hkey
    · exact .inr ⟨p, q', claimId, set_self hp q', hpc⟩
    · exact .inr ⟨i, x, claimId, by rw [List.getElem?_set_ne hne.symm, hi], hpc⟩

/-- 登録の途中でない trigger から見ると、`Live` な run は key が指しているか、他の trigger が登録する。 -/
theorem Inv.live_other {r : ℕ} {pc : Pc} (h : Inv maxMs e) (hp : e.procs[p]? = some q)
    (hpc : q.pc = pc) (hregister : ∀ runId claimId, pc ≠ .register runId claimId) (hr : e.Live r) :
    e.key = some (.runId r) ∨ ∃ (i : ℕ) (x : Proc) (claimId : Option ℕ), i ≠ p ∧
      e.procs[i]? = some x ∧ x.pc = .register r claimId := by
  rcases h.live r hr with hkey | ⟨i, x, claimId, hi, hx⟩
  · exact .inl hkey
  · refine .inr ⟨i, x, claimId, ?_, hi, hx⟩
    rintro rfl
    obtain rfl : q = x := Option.some.inj (hp.symm.trans hi)
    exact hregister r claimId (hpc.symm.trans hx)

/-- 持ち分のある trigger が進むとき、他の trigger に持ち分は無い。 -/
theorem Inv.others_none (h : Inv maxMs e) (hp : e.procs[p]? = some q) (hq : q.pc.stake ≠ none)
    {i : ℕ} {x : Proc} (hne : i ≠ p) (hi : e.procs[i]? = some x) : x.pc.stake = none := by
  by_contra hx
  exact hne (h.sole i p x q hi hp hx hq)

/-- key と run の表を変えずに進む一歩。持ち分は捨てるか、そのまま持つ。 -/
theorem Inv.goto {x : Proc} {pc pc' : Pc} (h : Inv maxMs e) (hp : e.procs[p]? = some q)
    (hpc : q.pc = pc) (hregister : ∀ runId claimId, pc ≠ .register runId claimId)
    (hfacts : pc'.Facts maxMs e.runs x.params) (hstake : pc'.stake = none ∨ pc'.stake = pc.stake) :
    Inv maxMs (e.goto p x pc') := by
  subst hpc
  refine h.update hp rfl (.refl _) h.known hfacts (fun v hv => ?_) (fun i y hne hi hy => ?_)
    (fun r hr => ?_)
  · rcases hstake with hnone | hsame
    · exact absurd (hnone.symm.trans hv) nofun
    · exact h.held p q v hp (hsame ▸ hv)
  · refine ⟨rfl, hstake.elim id fun hsame => ?_⟩
    by_contra hpc
    exact hy (h.others_none hp (fun hq => hpc (hsame.trans hq)) hne hi)
  · exact (h.live_other hp rfl hregister hr).imp_right .inr

/-- run の表だけが進む一歩。 -/
theorem Inv.runs {runs : List Run} (h : Inv maxMs e) (hlater : Later e.runs runs)
    (hlive : ∀ r, { e with runs := runs }.Live r → e.Live r) : Inv maxMs { e with runs := runs } where
  known := fun r hkey => (h.known r hkey).later hlater
  facts := fun p q hp => (h.facts p q hp).later hlater
  held := h.held
  sole := h.sole
  live := fun r hr => h.live r (hlive r hr)

theorem Inv.claims (h : Inv maxMs e) (claims : ℕ) : Inv maxMs { e with claims := claims } :=
  ⟨h.known, h.facts, h.held, h.sole, h.live⟩

/-! ## 一歩が不変条件を保つこと -/

variable {now : ℕ}

/-- `SET NX` が key を取るとき、持ち分のある trigger は無い。 -/
theorem inv_claim (h : Inv maxMs e) (hp : e.procs[p]? = some q) (hpc : q.pc = .claim)
    (hclean : q.pc.Clean e) : Inv maxMs (e.serve maxMs now p q) := by
  rw [hpc] at hclean
  unfold Cluster.serve
  rw [hpc]
  dsimp only
  split
  · next hkey =>
    refine h.update hp rfl (.refl _) nofun trivial (fun v hv => Option.some.inj hv)
      (fun i x _ hi hx => ?_) (fun r hr => ?_)
    · obtain ⟨v, hv⟩ := Option.ne_none_iff_exists'.mp hx
      have hnone : none = v := hkey ▸ h.held i x v hi hv
      exact absurd (hnone ▸ hv) (hclean hkey x (List.mem_of_getElem? hi))
    · rcases h.live_other hp hpc nofun hr with hlive | hlive
      · rw [hkey] at hlive
        cases hlive
      · exact .inr (.inr hlive)
  · refine (h.claims (e.claims + 1)).goto hp hpc nofun ?_ ?_
    · trivial
    · exact .inl rfl

/-- 片付ける `DEL` は、key が遅延していない run を指しているときにだけ key を変える。 -/
theorem inv_cleanUp {runId : ℕ} (h : Inv maxMs e) (hp : e.procs[p]? = some q)
    (hpc : q.pc = .cleanUp runId) (hclean : q.pc.Clean e) :
    Inv maxMs (e.serve maxMs now p q) := by
  have hfacts := h.facts p q hp
  rw [hpc] at hclean hfacts
  unfold Cluster.serve
  rw [hpc]
  refine h.update hp rfl (.refl _) nofun trivial nofun (fun i x _ hi hx => ?_) (fun r hr => ?_)
  · rcases hclean with hkey | hkey
    · exact ⟨hkey.symm, rfl⟩
    · exact absurd (h.stake_none hkey hi) hx
  · rcases h.live_other hp hpc nofun hr with hlive | hlive
    · rcases hclean with hkey | hkey
      · exact absurd (hkey.symm.trans hlive) nofun
      · obtain rfl : runId = r := by simpa using hkey.symm.trans hlive
        obtain ⟨run, hrun, hstatus⟩ := hfacts
        obtain ⟨run', hrun', hdelayed, _⟩ := hr
        obtain rfl : run = run' := Option.some.inj (hrun.symm.trans hrun')
        exact absurd hdelayed hstatus
    · exact .inr (.inr hlive)

/-- 窓を閉じる `DEL` の後、その run は `Live` でない。 -/
theorem inv_closeWindow {runId newDelayUntil : ℕ} (h : Inv maxMs e) (hp : e.procs[p]? = some q)
    (hpc : q.pc = .closeWindow runId newDelayUntil) (hclean : q.pc.Clean e) :
    Inv maxMs (e.serve maxMs now p q) := by
  rw [hpc] at hclean
  have hkey : e.key = some (.runId runId) := hclean
  unfold Cluster.serve
  rw [hpc]
  refine h.update hp rfl (.refl _) nofun trivial (fun v hv => Option.some.inj hv)
    (fun i x _ hi hx => absurd (h.stake_none hkey hi) hx) (fun r hr => ?_)
  obtain ⟨run, hrun, hdelayed, hclosed⟩ := hr
  have hopen : r ∉ e.closed := fun hmem => hclosed (List.mem_cons_of_mem _ hmem)
  rcases h.live_other hp hpc nofun ⟨run, hrun, hdelayed, hopen⟩ with hlive | hlive
  · obtain rfl : runId = r := by simpa using hkey.symm.trans hlive
    exact absurd List.mem_cons_self hclosed
  · exact .inr (.inr hlive)

theorem stake_createRun (claimId : Option ℕ) :
    (Pc.createRun claimId).stake = some (claimId.map .pending) := by
  cases claimId <;> rfl

/-- 作られたばかりの run は、作った trigger が登録する。 -/
theorem inv_createRun {claimId : Option ℕ} (h : Inv maxMs e) (hp : e.procs[p]? = some q)
    (hpc : q.pc = .createRun claimId) : Inv maxMs (e.serve maxMs now p q) := by
  have hstake : q.pc.stake = some (claimId.map .pending) := by rw [hpc, stake_createRun]
  have hkey : e.key = claimId.map .pending := h.held p q _ hp hstake
  unfold Cluster.serve
  rw [hpc]
  refine h.update hp rfl (later_append _ _) (fun r hr => ?_) ?_ (fun v hv => ?_)
    (fun i x hne hi hx => ?_) (fun r hr => ?_)
  · exact (h.known r hr).later (later_append _ _)
  · dsimp only
    split
    · exact ⟨_, List.getElem?_concat_length, nofun⟩
    · trivial
  · dsimp only at hv
    split at hv
    · rw [stake_register] at hv
      exact hkey.trans (Option.some.inj hv)
    · cases hv
  · exact absurd (h.others_none hp (by rw [hstake]; nofun) hne hi) hx
  · obtain ⟨run, hrun, hdelayed, hclosed⟩ := hr
    rcases concat_cases hrun with hold | ⟨rfl, rfl⟩
    · exact (h.live_other hp hpc nofun ⟨run, hold, hdelayed, hclosed⟩).imp_right .inr
    · -- 新しい run が遅延しているのは `delayUntil` があるときだけで、そのとき次の命令は登録である。
      have hsome : q.params.delayUntil.isSome := by
        by_contra hno
        rw [if_neg hno] at hdelayed
        cases hdelayed
      exact .inr (.inl ⟨claimId, if_pos hsome⟩)

/-- 登録する trigger は key についての持ち分を持つので、登録は必ず key を書き換える。 -/
theorem serve_register {runId : ℕ} {claimId : Option ℕ} (h : Inv maxMs e)
    (hp : e.procs[p]? = some q) (hpc : q.pc = .register runId claimId) :
    e.serve maxMs now p q = { e with key := some (.runId runId) }.goto p q .done := by
  have hstake : q.pc.stake = some (claimId.map .pending) := by rw [hpc, stake_register]
  have hkey : e.key = claimId.map .pending := h.held p q _ hp hstake
  unfold Cluster.serve
  rw [hpc]
  cases claimId with
  | none => rfl
  | some claimId => exact if_pos hkey

theorem inv_register {runId : ℕ} {claimId : Option ℕ} (h : Inv maxMs e)
    (hp : e.procs[p]? = some q) (hpc : q.pc = .register runId claimId) :
    Inv maxMs (e.serve maxMs now p q) := by
  have hstake : q.pc.stake = some (claimId.map .pending) := by rw [hpc, stake_register]
  have hkey : e.key = claimId.map .pending := h.held p q _ hp hstake
  have hothers : ∀ {i : ℕ} {x : Proc}, i ≠ p → e.procs[i]? = some x → x.pc.stake = none :=
    h.others_none hp (by rw [hstake]; nofun)
  have hfacts := h.facts p q hp
  rw [hpc] at hfacts
  rw [serve_register h hp hpc]
  refine h.update hp rfl (.refl _) (fun r hr => ?_) trivial nofun
    (fun i x hne hi hx => absurd (hothers hne hi) hx) (fun r hr => ?_)
  · obtain rfl : runId = r := KeyValue.runId.inj (Option.some.inj hr)
    exact hfacts
  · rcases h.live r hr with hlive | ⟨i, x, claimId', hi, hx⟩
    · rw [hkey] at hlive
      cases claimId <;> cases hlive
    · by_cases hi' : i = p
      · subst hi'
        obtain rfl : q = x := Option.some.inj (hp.symm.trans hi)
        obtain ⟨rfl, _⟩ : runId = r ∧ claimId = claimId' := by simpa [hpc] using hx
        exact .inl rfl
      · have hnone := hothers hi' hi
        rw [hx, stake_register] at hnone
        cases hnone

/-- reschedule は、遅延した run の `delayUntil` を動かすだけである。 -/
theorem inv_reschedule {runId newDelayUntil : ℕ} (h : Inv maxMs e) (hp : e.procs[p]? = some q)
    (hpc : q.pc = .reschedule runId newDelayUntil) : Inv maxMs (e.serve maxMs now p q) := by
  have hfacts := h.facts p q hp
  rw [hpc] at hfacts
  unfold Cluster.serve
  rw [hpc]
  dsimp only
  split
  · exact h.goto hp hpc nofun trivial (.inl rfl)
  · next run hrun =>
    split
    · next hinitial =>
      have hdelayed : run.status = .delayed := Known.delayed hfacts hrun hinitial
      have hlater : Later e.runs (e.runs.set runId
          { run with status := .delayed, delayUntil := some newDelayUntil }) :=
        later_set hrun rfl (fun _ => hdelayed) nofun
      have hruns := h.runs hlater fun r hr => live_of_set hrun (fun _ => hdelayed) hr
      exact hruns.goto hp hpc nofun trivial (.inl rfl)
    · exact h.goto hp hpc nofun trivial (.inl rfl)

theorem inv_readExisting (h : Inv maxMs e) (hp : e.procs[p]? = some q)
    (hpc : q.pc = .readExisting) : Inv maxMs (e.serve maxMs now p q) := by
  unfold Cluster.serve
  rw [hpc]
  dsimp only
  split
  · next runId hkey => exact h.goto hp hpc nofun (h.known runId hkey) (.inl rfl)
  · exact h.goto hp hpc nofun trivial (.inl rfl)

theorem inv_wait {attempt : ℕ} (h : Inv maxMs e) (hp : e.procs[p]? = some q)
    (hpc : q.pc = .wait attempt) : Inv maxMs (e.serve maxMs now p q) := by
  unfold Cluster.serve
  rw [hpc]
  dsimp only
  split
  · exact h.goto hp hpc nofun trivial (.inl rfl)
  · next runId hkey => exact h.goto hp hpc nofun (h.known runId hkey) (.inl rfl)
  · split
    · exact h.goto hp hpc nofun trivial (.inl rfl)
    · exact h.goto hp hpc nofun trivial (.inl rfl)

theorem inv_lock {runId : ℕ} (h : Inv maxMs e) (hp : e.procs[p]? = some q)
    (hpc : q.pc = .lock runId) : Inv maxMs (e.serve maxMs now p q) := by
  have hfacts := h.facts p q hp
  rw [hpc] at hfacts
  unfold Cluster.serve
  rw [hpc]
  dsimp only
  split
  · exact h.goto hp hpc nofun hfacts (.inl rfl)
  · split
    · exact h
    · exact h.goto hp hpc nofun hfacts (.inl rfl)

theorem inv_readSnapshot {runId : ℕ} (h : Inv maxMs e) (hp : e.procs[p]? = some q)
    (hpc : q.pc = .readSnapshot runId) : Inv maxMs (e.serve maxMs now p q) := by
  have hknown := h.facts p q hp
  rw [hpc] at hknown
  obtain ⟨run, hrun, hstatus⟩ := id hknown
  unfold Cluster.serve
  rw [hpc]
  dsimp only
  rw [hrun]
  dsimp only
  split
  · exact h.goto hp hpc nofun hknown (.inl rfl)
  · next hno =>
    refine h.goto hp hpc nofun ⟨run, hrun, fun hs => hno ?_⟩ (.inl rfl)
    rw [hs]
    rfl

theorem facts_existingRun {runId : ℕ} {run : Run} (params : TriggerParams)
    (hknown : Known e.runs runId) (hrun : e.runs[runId]? = some run) :
    (existingRun maxMs now runId params run).Facts maxMs e.runs params := by
  unfold existingRun
  split
  · trivial
  · split
    · next hlt => exact ⟨run, hrun, hlt⟩
    · split
      · exact hknown
      · trivial

theorem stake_existingRun (runId : ℕ) (params : TriggerParams) (run : Run) :
    (existingRun maxMs now runId params run).stake = none := by
  unfold existingRun
  split
  · rfl
  · split
    · rfl
    · split <;> rfl

theorem inv_readRun {runId : ℕ} (h : Inv maxMs e) (hp : e.procs[p]? = some q)
    (hpc : q.pc = .readRun runId) : Inv maxMs (e.serve maxMs now p q) := by
  have hknown := h.facts p q hp
  rw [hpc] at hknown
  obtain ⟨run, hrun, hstatus⟩ := id hknown
  unfold Cluster.serve
  rw [hpc]
  dsimp only
  rw [hrun]
  exact h.goto hp hpc nofun (facts_existingRun q.params hknown hrun)
    (.inl (stake_existingRun runId q.params run))

/-- lock を放す間も、戻った後も、持ち分は変わらない。 -/
theorem inv_unlock {result : Option DebounceResult} (h : Inv maxMs e)
    (hp : e.procs[p]? = some q) (hpc : q.pc = .unlock result) :
    Inv maxMs (e.serve maxMs now p q) := by
  unfold Cluster.serve
  rw [hpc]
  dsimp only
  split
  · exact h.goto hp hpc nofun trivial (.inr rfl)
  · split
    · exact h.goto hp hpc nofun trivial (.inr rfl)
    · exact h.goto hp hpc nofun trivial (.inr rfl)
    · exact h.goto hp hpc nofun trivial (.inl rfl)
    · exact h.goto hp hpc nofun trivial (.inl rfl)

theorem inv_serve (h : Inv maxMs e) (hp : e.procs[p]? = some q) (hpatient : q.pc ≠ .giveUp)
    (hclean : q.pc.Clean e) : Inv maxMs (e.serve maxMs now p q) := by
  cases hpc : q.pc with
  | claim => exact inv_claim h hp hpc hclean
  | readExisting => exact inv_readExisting h hp hpc
  | wait => exact inv_wait h hp hpc
  | giveUp => exact absurd hpc hpatient
  | lock => exact inv_lock h hp hpc
  | readSnapshot => exact inv_readSnapshot h hp hpc
  | readRun => exact inv_readRun h hp hpc
  | cleanUp => exact inv_cleanUp h hp hpc hclean
  | closeWindow => exact inv_closeWindow h hp hpc hclean
  | reschedule => exact inv_reschedule h hp hpc
  | unlock => exact inv_unlock h hp hpc
  | createRun => exact inv_createRun h hp hpc
  | register => exact inv_register h hp hpc
  | done =>
    unfold Cluster.serve
    rw [hpc]
    exact h

theorem inv_leave (h : Inv maxMs e) (runId : ℕ) (status : ExecutionStatus) :
    Inv maxMs (e.leave runId status) := by
  unfold Cluster.leave
  split
  · exact h
  · next run hrun =>
    split
    · exact h
    · next hno =>
      have hinitial : ¬ status.isInitialState := fun hs => hno (.inr hs)
      have hdelayed : status ≠ .delayed := by
        rintro rfl
        exact hinitial rfl
      have hnew : status ≠ .runCreated := by
        rintro rfl
        exact hinitial rfl
      have hlater : Later e.runs (e.runs.set runId { run with status := status }) :=
        later_set hrun rfl (fun hs => absurd hs hdelayed) (fun hs => absurd hs hnew)
      exact h.runs hlater fun r hr => live_of_set hrun (fun hs => absurd hs hdelayed) hr

/-- 新しい trigger は、まだ何も持たない。 -/
theorem inv_trigger (h : Inv maxMs e) (params : TriggerParams) :
    Inv maxMs { e with procs := e.procs ++ [⟨params, .claim, []⟩] } := by
  refine ⟨h.known, fun i x hi => ?_, fun i x v hi hs => ?_, fun i j x y hi hj hx hy => ?_,
    fun r hr => ?_⟩
  · rcases concat_cases hi with hi | ⟨_, rfl⟩
    · exact h.facts i x hi
    · trivial
  · rcases concat_cases hi with hi | ⟨_, rfl⟩
    · exact h.held i x v hi hs
    · cases hs
  · rcases concat_cases hi with hi | ⟨_, rfl⟩
    · rcases concat_cases hj with hj | ⟨_, rfl⟩
      · exact h.sole i j x y hi hj hx hy
      · exact absurd rfl hy
    · exact absurd rfl hx
  · rcases h.live r hr with hkey | ⟨i, x, claimId, hi, hx⟩
    · exact .inl hkey
    · obtain ⟨hlt, _⟩ := List.getElem?_eq_some_iff.mp hi
      exact .inr ⟨i, x, claimId, (List.getElem?_append_left hlt).trans hi, hx⟩

theorem inv_step (e : Cluster) (l : Label) (h : Inv maxMs e) (hok : Patient e l ∧ Clean e l) :
    Inv maxMs (step maxMs e l) := by
  cases l with
  | trigger params => exact inv_trigger h params
  | server p now =>
    simp only [step]
    split
    · exact h
    · next q hp => exact inv_serve h hp (hok.1 q hp) (hok.2 q hp)
  | leave runId status => exact inv_leave h runId status

/-! ## key を変える命令 -/

/-- key を変える命令は五つだけである。 -/
theorem key_serve (hkey : (e.serve maxMs now p q).key ≠ e.key) :
    (q.pc = .claim ∧ e.key = none) ∨ q.pc = .giveUp ∨ (∃ runId, q.pc = .cleanUp runId) ∨
      (∃ runId newDelayUntil, q.pc = .closeWindow runId newDelayUntil) ∨
      ∃ runId claimId, q.pc = .register runId claimId := by
  cases hpc : q.pc with
  | claim =>
    cases hnone : e.key with
    | none => exact .inl ⟨rfl, rfl⟩
    | some v => simp [Cluster.serve, hpc, hnone, Cluster.goto] at hkey
  | giveUp => exact .inr (.inl rfl)
  | cleanUp runId => exact .inr (.inr (.inl ⟨runId, rfl⟩))
  | closeWindow runId newDelayUntil => exact .inr (.inr (.inr (.inl ⟨runId, newDelayUntil, rfl⟩)))
  | register runId claimId => exact .inr (.inr (.inr (.inr ⟨runId, claimId, rfl⟩)))
  | done => simp [Cluster.serve, hpc] at hkey
  | _ =>
    refine absurd ?_ hkey
    unfold Cluster.serve
    rw [hpc]
    dsimp only
    repeat' split
    all_goals rfl

theorem key_step {l : Label} (hkey : (step maxMs e l).key ≠ e.key) :
    ∃ p now q, l = .server p now ∧ e.procs[p]? = some q ∧
      (step maxMs e l).key = (e.serve maxMs now p q).key := by
  cases l with
  | trigger => exact absurd rfl hkey
  | leave runId status =>
    refine absurd ?_ hkey
    simp only [step, Cluster.leave]
    split
    · rfl
    · split <;> rfl
  | server p now =>
    simp only [step] at hkey ⊢
    cases hp : e.procs[p]? with
    | none =>
      rw [hp] at hkey
      exact absurd rfl hkey
    | some q => exact ⟨p, now, q, rfl, hp, rfl⟩

/-- 遅延した run への対応は、窓を閉じる trigger だけが外す。 -/
theorem Inv.mapping_kept {l : Label} {runId : ℕ} {run : Run} (h : Inv maxMs e)
    (hpatient : Patient e l) (hclean : Clean e l) (hkey : e.key = some (.runId runId))
    (hrun : e.runs[runId]? = some run) (hdelayed : run.status = .delayed)
    (hne : (step maxMs e l).key ≠ e.key) :
    ∃ p now q newDelayUntil, l = .server p now ∧ e.procs[p]? = some q ∧
      q.pc = .closeWindow runId newDelayUntil ∧
      run.createdAt + q.params.maxDurationMs maxMs < newDelayUntil := by
  obtain ⟨p, now, q, rfl, hp, hserve⟩ := key_step hne
  have hok : q.pc.Clean e := hclean q hp
  have hfacts := h.facts p q hp
  rw [hserve] at hne
  rcases key_serve hne with ⟨_, hnone⟩ | hpc | ⟨r, hpc⟩ | ⟨r, delay, hpc⟩ | ⟨r, claimId, hpc⟩
  · exact absurd (hkey.symm.trans hnone) nofun
  · exact absurd hpc (hpatient q hp)
  · rw [hpc] at hok hfacts
    rcases hok with hnone | hsame
    · exact absurd (hkey.symm.trans hnone) nofun
    · obtain rfl : runId = r := by simpa using hkey.symm.trans hsame
      obtain ⟨run', hrun', hstatus⟩ := hfacts
      obtain rfl : run = run' := Option.some.inj (hrun.symm.trans hrun')
      exact absurd hdelayed hstatus
  · rw [hpc] at hok hfacts
    obtain rfl : runId = r := by simpa using hkey.symm.trans hok
    obtain ⟨run', hrun', hlt⟩ := hfacts
    obtain rfl : run = run' := Option.some.inj (hrun.symm.trans hrun')
    exact ⟨p, now, q, delay, rfl, hp, hpc, hlt⟩
  · have hnone := h.stake_none hkey hp
    rw [hpc, stake_register] at hnone
    cases hnone

/-- claim は、それを持つ trigger の登録だけが外す。 -/
theorem Inv.claim_kept {l : Label} {claimId : ℕ} (h : Inv maxMs e) (hpatient : Patient e l)
    (hclean : Clean e l) (hkey : e.key = some (.pending claimId))
    (hne : (step maxMs e l).key ≠ e.key) :
    ∃ p now q runId, l = .server p now ∧ e.procs[p]? = some q ∧
      q.pc = .register runId (some claimId) ∧ (step maxMs e l).key = some (.runId runId) := by
  obtain ⟨p, now, q, rfl, hp, hserve⟩ := key_step hne
  have hok : q.pc.Clean e := hclean q hp
  rw [hserve] at hne ⊢
  rcases key_serve hne with ⟨_, hnone⟩ | hpc | ⟨r, hpc⟩ | ⟨r, delay, hpc⟩ | ⟨r, claimId', hpc⟩
  · exact absurd (hkey.symm.trans hnone) nofun
  · exact absurd hpc (hpatient q hp)
  · rw [hpc] at hok
    rcases hok with hnone | hother
    · exact absurd (hkey.symm.trans hnone) nofun
    · exact absurd (hkey.symm.trans hother) nofun
  · rw [hpc] at hok
    exact absurd (hkey.symm.trans hok) nofun
  · have hheld : e.key = claimId'.map .pending :=
      h.held p q _ hp (by rw [hpc, stake_register])
    obtain rfl : claimId' = some claimId := by
      cases claimId' with
      | none => exact absurd (hkey.symm.trans hheld) nofun
      | some c => simpa using hheld.symm.trans hkey
    exact ⟨p, now, q, r, rfl, hp, hpc, by rw [serve_register h hp hpc]; rfl⟩

/-- 登録する trigger は高々一つで、登録されるまで key は run を指さない。 -/
theorem Inv.oneLive (h : Inv maxMs e) : e.OneLive := by
  intro r s hr hs
  rcases h.live r hr with hkey | ⟨i, x, claimId, hi, hx⟩
  · rcases h.live s hs with hkey' | ⟨j, y, claimId, hj, hy⟩
    · simpa using hkey.symm.trans hkey'
    · have hnone := h.stake_none hkey hj
      rw [hy, stake_register] at hnone
      cases hnone
  · have hstake : x.pc.stake ≠ none := by rw [hx, stake_register]; nofun
    rcases h.live s hs with hkey' | ⟨j, y, claimId', hj, hy⟩
    · exact absurd (h.stake_none hkey' hi) hstake
    · obtain rfl : i = j := h.sole i j x y hi hj hstake (by rw [hy, stake_register]; nofun)
      obtain rfl : x = y := Option.some.inj (hi.symm.trans hj)
      exact (Pc.register.inj (hx.symm.trans hy)).1

/--
**待ちきれない trigger が無く、`DEL` のとき key がまだ調べた run を指し、claim を持たない trigger が登録を終えるまで
key が取られないなら、server がどう入り組んでも、遅延した run への対応と claim は守られ、key の run は高々一つで
ある。**
-/
theorem debounce_throughout (maxDebounceDurationMs : ℕ) (ls : List Label)
    (hpatient : Along (step maxDebounceDurationMs) Patient .initial ls)
    (hclean : Along (step maxDebounceDurationMs) Clean .initial ls) :
    Along (step maxDebounceDurationMs) (WindowKept maxDebounceDurationMs) .initial ls ∧
      Throughout (step maxDebounceDurationMs) Cluster.OneLive .initial ls := by
  have hboth := hpatient.and hclean
  constructor
  · exact Along.of_invariant inv_step (fun e l h hok =>
      ⟨fun _ _ hkey hrun hdelayed hne => h.mapping_kept hok.1 hok.2 hkey hrun hdelayed hne,
        fun _ hkey hne => h.claim_kept hok.1 hok.2 hkey hne⟩) inv_initial hboth
  · exact (throughout_of_along inv_step inv_initial hboth).mono fun _ => Inv.oneLive

/-- 時刻 `delayUntil` まで遅延させる trigger。key の遅延は 5 である。 -/
def sampleParams (delayUntil : ℕ) : TriggerParams := ⟨some 5, none, some delayUntil⟩

/-- 一つ目の trigger が run を作り、二つ目がそれを延ばし、queue に入った後で三つ目が新しい run を作る。 -/
def sampleRun : List Label :=
  Label.trigger (sampleParams 5) :: List.replicate 4 (Label.server 0 0) ++
  Label.trigger (sampleParams 7) :: List.replicate 8 (Label.server 1 2) ++
  Label.leave 0 .queued :: .trigger (sampleParams 15) :: List.replicate 10 (Label.server 2 10)

/-- 三つの trigger が重ならずに動く。 -/
theorem debounce_sequential :
    Along (step 1000) (WindowKept 1000) .initial sampleRun ∧
      Throughout (step 1000) Cluster.OneLive .initial sampleRun :=
  debounce_throughout 1000 sampleRun (by decide +kernel) (by decide +kernel)

/--
二つの trigger が、終わった run 0 の id を同じ key から読む。一つ目が key を片付けて run 1 を作り登録した後で、二つ目が
run 0 の状態を読む。
-/
def splitRun : List Label :=
  Label.trigger (sampleParams 5) :: List.replicate 4 (Label.server 0 0) ++
  [Label.leave 0 .queued, .trigger (sampleParams 11), .trigger (sampleParams 12), .server 1 6,
    .server 1 6, .server 2 6, .server 2 6] ++
  List.replicate 8 (Label.server 1 6) ++ List.replicate 2 (Label.server 2 7)

/-- 二つ目の `DEL` は、遅延した run 1 への対応を消す。続いて作られる run 2 も、run 1 とともに遅延している。 -/
theorem window_split :
    Along (step 1000) Patient .initial (splitRun ++ List.replicate 5 (Label.server 2 7)) ∧
      ¬ Along (step 1000) (WindowKept 1000) .initial
        (splitRun ++ List.replicate 5 (Label.server 2 7)) ∧
      ¬ (exec (step 1000) .initial (splitRun ++ List.replicate 5 (Label.server 2 7))).OneLive ∧
      ∀ run ∈ (exec (step 1000) .initial (splitRun ++ List.replicate 5 (Label.server 2 7))).runs,
        ∀ delayUntil ∈ run.delayUntil, delayUntil ≤ run.createdAt + 1000 := by
  refine ⟨by decide +kernel, fun h => ?_, fun h => ?_, by decide +kernel⟩
  · obtain ⟨_, hlast, _⟩ := Along.append.mp h
    obtain ⟨p, now, q, newDelayUntil, hl, hp, hpc, _⟩ :=
      hlast.1 1 ⟨.delayed, 6, some 11⟩ (by decide +kernel) (by decide +kernel) rfl
        (by decide +kernel)
    obtain ⟨rfl, rfl⟩ := Label.server.inj hl
    have hactual : ((exec (step 1000) .initial splitRun).procs[2]?.map (·.pc)) =
        some (.cleanUp 0) := by decide +kernel
    rw [hp, Option.map_some, hpc] at hactual
    cases hactual
  · have heq : 1 = 2 := h 1 2 ⟨⟨.delayed, 6, some 11⟩, by decide +kernel⟩
      ⟨⟨.delayed, 7, some 12⟩, by decide +kernel⟩
    cases heq

/--
最大の遅延を超えた trigger が run を登録する前に、別の trigger が空の key を取る場合も、遅延した run が二つになる。
-/
example : ¬ (exec (step 10) .initial
    (Label.trigger (sampleParams 5) :: List.replicate 4 (Label.server 0 0) ++
      Label.trigger (sampleParams 13) :: List.replicate 9 (Label.server 1 8) ++
      Label.trigger (sampleParams 13) :: List.replicate 3 (Label.server 2 8))).OneLive := by
  intro h
  have heq : 1 = 2 := h 1 2 ⟨⟨.delayed, 8, some 13⟩, by decide +kernel⟩
    ⟨⟨.delayed, 8, some 13⟩, by decide +kernel⟩
  cases heq

end RunEngine.Debounce
