import Trigger.RunQueue.Invariant
import Trigger.RunQueue.KeyAgreement
import Trigger.RunQueue.Limits

/-!
# queue の報告

`engine/index.ts` の `generateEnvironmentReport` と `analyzeQueue`。報告は Lua の取り出しの判定を
TypeScript で写したもので、上限・既定値・切り捨て・期限の来た件数を別々に計算し直す。

計算は一致する。違うのは読む key で、報告は環境と queue 名から組み立てた key を、取り出しは
queue key から読み戻した key を使う。両者が一致するのは `LimitsReadable` のときであり、それが
報告が取り出しを言い当てる必要十分条件になる（`report_predicts_iff`）。`sanitizeQueueName` を通った queue 名では
いつも一致する（`report_predicts`）。
-/

namespace RunQueue

open Infra Infra.Text
open Infra.Redis Infra.Redis.Script

/-! ## JavaScript の数 -/

/-- JavaScript の数。`none` は `NaN` である。 -/
abbrev JsNumber := Option ℚ

namespace JsNumber

/-- `Math.min`。 -/
def min : JsNumber → JsNumber → JsNumber
  | some a, some b => some (Min.min a b)
  | _, _ => none

/-- `Math.max`。 -/
def max : JsNumber → JsNumber → JsNumber
  | some a, some b => some (Max.max a b)
  | _, _ => none

def sub : JsNumber → JsNumber → JsNumber
  | some a, some b => some (a - b)
  | _, _ => none

/-- `a > 0`。`NaN` との比較は偽である。 -/
def pos : JsNumber → Bool
  | some a => 0 < a
  | none => false

/-- `a <= 0`。 -/
def nonpos : JsNumber → Bool
  | some a => a ≤ 0
  | none => false

end JsNumber

/-! ## Redis の読み出し -/

/-- `getQueueConcurrencyLimit`。 -/
def getQueueConcurrencyLimit (env : Environment) (queue : String) :
    Script Stored (Option JsNumber) := do
  let result ← get (queueConcurrencyLimitKey env.descriptor queue)
  pure (result.map Stored.toNumber)

/-- `getEnvConcurrencyLimit`。 -/
def Config.getEnvConcurrencyLimit (cfg : Config) (env : Environment) : Script Stored JsNumber :=
  getNumberOr (envConcurrencyLimitKey env.descriptor) cfg.defaultEnvConcurrency

/-- `getEnvConcurrencyBurstFactor`。 -/
def Config.getEnvConcurrencyBurstFactor (cfg : Config) (env : Environment) :
    Script Stored JsNumber :=
  getNumberOr (envConcurrencyLimitBurstFactorKey env.descriptor)
    (cfg.defaultEnvConcurrencyBurstFactor.getD 1)

/-- `getEnvConcurrencyLimitWithBurstFactor`。 -/
def Config.getEnvConcurrencyLimitWithBurstFactor (cfg : Config) (env : Environment) :
    Script Stored JsNumber := do
  let burstFactor ← cfg.getEnvConcurrencyBurstFactor env
  let limit ← cfg.getEnvConcurrencyLimit env
  pure (match limit, burstFactor with
    | some l, some b => some (⌊cfg.mul l b⌋ : Int)
    | _, _ => none)

/-- `currentConcurrencyOfEnvironment`（表示用の `currentDequeued`）。 -/
def currentConcurrencyOfEnvironment (env : Environment) : Script Stored Nat :=
  scard (envCurrentDequeuedKey env.descriptor)

/-- `operationalCurrentConcurrencyOfEnvironment`。 -/
def operationalCurrentConcurrencyOfEnvironment (env : Environment) : Script Stored Nat :=
  scard (envCurrentConcurrencyKey env.descriptor)

/-- `currentConcurrencyOfQueue`。 -/
def currentConcurrencyOfQueue (env : Environment) (queue : String) (ck : Option String) :
    Script Stored Nat := scard (queueCurrentConcurrencyKey env.descriptor queue ck)

/-- `currentDequeuedOfQueue`。 -/
def currentDequeuedOfQueue (env : Environment) (queue : String) (ck : Option String) :
    Script Stored Nat := scard (queueCurrentDequeuedKey env.descriptor queue ck)

/-- `lengthOfQueueAvailableMessages`。 -/
def lengthOfQueueAvailableMessages (env : Environment) (queue : String) (currentTime : ℚ)
    (ck : Option String) : Script Stored Nat := zcount (queueKey env.descriptor queue ck) currentTime

/-! ## 分析 -/

/-- `EnvInputs`。 -/
structure EnvInputs where
  envCurrent : Nat
  envLimit : JsNumber
  envLimitWithBurst : JsNumber
  burstFactor : JsNumber

/-- 取り出せない理由。文に埋め込まれる数を持つ。 -/
inductive Reason
  | paused
  | envLimitReached (envCurrent : Nat) (envLimitWithBurst : JsNumber)
  | queueLimitReached (queueCurrent : Nat) (effectiveQueueLimit : JsNumber)
  | noDueMessages
deriving DecidableEq

/-- 理由の文。`fmt` は数の文字列化である。 -/
def Reason.text (fmt : JsNumber → String) : Reason → String
  | .paused => "Queue is paused."
  | .envLimitReached c l => "Environment concurrency (" ++ fmt (some c)
      ++ ") has reached the limit with burst (" ++ fmt l ++ ")."
  | .queueLimitReached c l => "Queue concurrency (" ++ fmt (some c)
      ++ ") has reached the effective queue limit (" ++ fmt l ++ ")."
  | .noDueMessages => "No due messages in the queue (nothing scored ≤ now)."

structure EnvAnalysis where
  canDequeue : Bool
  reasons : List Reason
  envAvailableCapacity : JsNumber

/-- `analyzeEnvironment`。 -/
def analyzeEnvironment (inputs : EnvInputs) : EnvAnalysis :=
  let envAvailableCapacity :=
    JsNumber.max (some 0) (JsNumber.sub inputs.envLimitWithBurst (some inputs.envCurrent))
  let canDequeue := envAvailableCapacity.pos
  { canDequeue := canDequeue
    reasons := if canDequeue then [] else [.envLimitReached inputs.envCurrent inputs.envLimitWithBurst]
    envAvailableCapacity := envAvailableCapacity }

/-- `QueueInputs`。 -/
structure QueueInputs where
  paused : Bool
  envLimit : JsNumber
  envLimitWithBurst : JsNumber
  queueLimit : Option JsNumber
  queueCurrent : Nat
  envCurrent : Nat
  dueCount : Option Nat

structure QueueAnalysis where
  canDequeue : Bool
  reasons : List Reason
  effectiveQueueLimit : JsNumber
  queueAvailableCapacity : JsNumber
  messagesDueCount : Option Nat

/-- `analyzeQueue`。 -/
def analyzeQueue (inputs : QueueInputs) : QueueAnalysis :=
  let queueLimitCapped : JsNumber := inputs.queueLimit.getD (some 1000000)
  let effectiveQueueLimit := JsNumber.min queueLimitCapped inputs.envLimit
  let envAvailable :=
    JsNumber.max (some 0) (JsNumber.sub inputs.envLimitWithBurst (some inputs.envCurrent))
  let queueAvailable :=
    JsNumber.max (some 0) (JsNumber.sub effectiveQueueLimit (some inputs.queueCurrent))
  let hasCapacity := envAvailable.pos && queueAvailable.pos
  let reasons := (if inputs.paused then [Reason.paused] else [])
    ++ (if envAvailable.nonpos then [.envLimitReached inputs.envCurrent inputs.envLimitWithBurst] else [])
    ++ (if queueAvailable.nonpos then [.queueLimitReached inputs.queueCurrent effectiveQueueLimit] else [])
    ++ (if inputs.dueCount = some 0 then [.noDueMessages] else [])
  let canDequeue := !inputs.paused && hasCapacity &&
    (match inputs.dueCount with
      | some n => 0 < n
      | none => true)
  { canDequeue := canDequeue
    reasons := if canDequeue then [] else reasons
    effectiveQueueLimit := effectiveQueueLimit
    queueAvailableCapacity := queueAvailable
    messagesDueCount := inputs.dueCount }

/-! ## 報告 -/

/-- `ReportableQueue` のうち、分析が読むもの。 -/
structure ReportableQueue where
  name : String
  paused : Bool

structure QueueReport where
  name : String
  paused : Bool
  key : String
  analysis : QueueAnalysis
  concurrencyLimit : Option JsNumber
  currentConcurrency : Nat
  currentDequeued : Nat

/-- `#generateReportForQueue`。 -/
def generateReportForQueue (environment : Environment) (queue : ReportableQueue)
    (envMetrics : EnvInputs) (currentTime : ℚ) : Script Stored QueueReport := do
  let currentConcurrency ← currentConcurrencyOfQueue environment queue.name none
  let currentDequeued ← currentDequeuedOfQueue environment queue.name none
  let concurrencyLimit ← getQueueConcurrencyLimit environment queue.name
  let messagesDueCount ← lengthOfQueueAvailableMessages environment queue.name currentTime none
  pure
    { name := queue.name
      paused := queue.paused
      key := queueKey environment.descriptor queue.name none
      analysis := analyzeQueue
        { paused := queue.paused
          envLimit := envMetrics.envLimit
          envLimitWithBurst := envMetrics.envLimitWithBurst
          queueLimit := concurrencyLimit
          queueCurrent := currentConcurrency
          envCurrent := envMetrics.envCurrent
          dueCount := some messagesDueCount }
      concurrencyLimit := concurrencyLimit
      currentConcurrency := currentConcurrency
      currentDequeued := currentDequeued }

structure EnvironmentReport where
  concurrencyLimit : JsNumber
  concurrencyLimitWithBurstFactor : JsNumber
  currentDequeued : Nat
  currentConcurrency : Nat
  analysis : EnvAnalysis
  queues : List QueueReport

/-- queue ごとの報告を順に作る。 -/
def generateQueueReports (environment : Environment) (envMetrics : EnvInputs) (currentTime : ℚ) :
    List ReportableQueue → Script Stored (List QueueReport)
  | [] => pure []
  | queue :: queues => do
    let report ← generateReportForQueue environment queue envMetrics currentTime
    let rest ← generateQueueReports environment envMetrics currentTime queues
    pure (report :: rest)

/-- `generateEnvironmentReport`。 -/
def Config.generateEnvironmentReport (cfg : Config) (environment : Environment)
    (queues : List ReportableQueue) (currentTime : ℚ) : Script Stored EnvironmentReport := do
  let concurrencyLimit ← cfg.getEnvConcurrencyLimit environment
  let concurrencyLimitWithBurstFactor ← cfg.getEnvConcurrencyLimitWithBurstFactor environment
  let currentDequeued ← currentConcurrencyOfEnvironment environment
  let currentConcurrency ← operationalCurrentConcurrencyOfEnvironment environment
  let burstFactor ← cfg.getEnvConcurrencyBurstFactor environment
  let envMetrics : EnvInputs :=
    { envCurrent := currentConcurrency
      envLimit := concurrencyLimit
      envLimitWithBurst := concurrencyLimitWithBurstFactor
      burstFactor := burstFactor }
  let queueReports ← generateQueueReports environment envMetrics currentTime queues
  pure
    { concurrencyLimit := concurrencyLimit
      concurrencyLimitWithBurstFactor := concurrencyLimitWithBurstFactor
      currentDequeued := currentDequeued
      currentConcurrency := currentConcurrency
      analysis := analyzeEnvironment envMetrics
      queues := queueReports }

/-- 止まっていない queue の報告が `canDequeue` と言う。 -/
def Config.ReportsCanDequeue (cfg : Config) (env : Environment) (queue : String) (t : ℚ)
    (s : State) : Prop :=
  ∃ report, (cfg.generateEnvironmentReport env [⟨queue, false⟩] t s).1 = .ok report ∧
    ∃ q ∈ report.queues, q.analysis.canDequeue = true

/-- 取り出しが少なくとも一件を返す。 -/
def Config.DequeuesSome (cfg : Config) (env : Environment) (queue : String) (shard : Nat)
    (t maxCount : ℚ) (s : State) : Prop :=
  ∃ entries, (cfg.callDequeueMessagesFromQueue (queueKey env.descriptor queue none) shard t
    maxCount s).1 = .ok (some entries) ∧ entries ≠ []

/-! ## 報告の値 -/

/-- 報告と取り出しが前提とする状態。表現不変条件を満たし、どの queue の id にも payload があり、
読む key の型が合い、上限は数（件数は整数）である。 -/
structure Reportable (D : Deployment) (env : Environment) (queue : String) (s : State) : Prop where
  representation : Representation D s
  payload : ∀ (h : Home) r, (s.zsets (D.key h)).score? r ≠ none →
    s.strs (messageKey (D.desc h.envId).orgId r) ≠ none
  typed : Typed s
  queueZset : s.ZTyped (queueKey env.descriptor queue none)
  queueSet : s.STyped (queueCurrentConcurrencyKey env.descriptor queue none)
  queueDequeued : s.STyped (queueCurrentDequeuedKey env.descriptor queue none)
  envLimit : s.StrTyped (envConcurrencyLimitKey env.descriptor)
  burst : s.StrTyped (envConcurrencyLimitBurstFactorKey env.descriptor)
  queueLimit : s.StrTyped (queueConcurrencyLimitKey env.descriptor queue)
  limits : ∃ (envLimit queueLimit : Int) (burst : ℚ),
    D.cfg.configuredLimits s env.descriptor queue = some ⟨envLimit, burst, queueLimit⟩

section Value

variable {cfg : Config} {env : Environment} {queue : String} {s : State} {t : ℚ}

/-- 成功した読み出しは状態を変えず、決まった値を返す。 -/
def Reads {α : Type} (c : Script Stored α) (s : State) (a : α) : Prop := c s = (.ok a, s)

theorem Reads.bind {α β : Type} {c : Script Stored α} {f : α → Script Stored β} {a : α} {b : β}
    (hc : Reads c s a) (hf : Reads (f a) s b) : Reads (c >>= f) s b := by
  change Script.bind c f s = _
  unfold Script.bind
  rw [hc]
  exact hf

theorem reads_pure {α : Type} (a : α) : Reads (pure a) s a := rfl

theorem reads_get {k : String} (h : s.StrTyped k) : Reads (get k) s (s.strs k) := dif_pos h

theorem reads_scard {k : String} (h : s.STyped k) : Reads (scard k) s (s.sets k).card := dif_pos h

theorem reads_zcount {k : String} {x : ℚ} (h : s.ZTyped k) :
    Reads (zcount k x) s ((s.zsets k).rangeByScore x).length := dif_pos h

theorem reads_getNumberOr {k : String} {d : ℚ} (h : s.StrTyped k) :
    Reads (getNumberOr k d) s (numberAt s k d) := by
  unfold numberAt getNumberOr
  refine (reads_get h).bind ?_
  rcases s.strs k with _ | v <;> exact reads_pure _

theorem reads_queueReport {D : Deployment} (h : Reportable D env queue s) (m : EnvInputs) (t : ℚ) :
    ∃ report, Reads (generateReportForQueue env ⟨queue, false⟩ m t) s report ∧
      report.analysis = analyzeQueue
        { paused := false
          envLimit := m.envLimit
          envLimitWithBurst := m.envLimitWithBurst
          queueLimit := (s.strs (queueConcurrencyLimitKey env.descriptor queue)).map Stored.toNumber
          queueCurrent := (s.sets (queueCurrentConcurrencyKey env.descriptor queue none)).card
          envCurrent := m.envCurrent
          dueCount := some
            ((s.zsets (queueKey env.descriptor queue none)).rangeByScore t).length } := by
  have hlimit : Reads (getQueueConcurrencyLimit env queue) s
      ((s.strs (queueConcurrencyLimitKey env.descriptor queue)).map Stored.toNumber) :=
    (reads_get h.queueLimit).bind (reads_pure _)
  refine ⟨_, (reads_scard h.queueSet).bind ((reads_scard h.queueDequeued).bind
    (hlimit.bind ((reads_zcount h.queueZset).bind (reads_pure _)))), ?_⟩
  rfl

theorem getD_map_toNumber (k : String) (d : ℚ) :
    ((s.strs k).map Stored.toNumber).getD (some d) = numberAt s k d := by
  unfold numberAt
  rcases s.strs k with _ | v <;> rfl

/-- `Math.max(0, a) > 0` は `a > 0` である。 -/
theorem pos_max_zero (a : ℚ) : JsNumber.pos (JsNumber.max (some 0) (some a)) = decide (0 < a) := by
  simp [JsNumber.pos, JsNumber.max]

/-- 止まっていない queue の判定。 -/
theorem analyzeQueue_canDequeue {envLimit envLimitWithBurst queueLimit : ℚ}
    {o : Option JsNumber} (ho : o.getD (some 1000000) = some queueLimit)
    {queueCurrent envCurrent due : Nat} :
    (analyzeQueue ⟨false, some envLimit, some envLimitWithBurst, o, queueCurrent, envCurrent,
      some due⟩).canDequeue = true ↔
      0 < envLimitWithBurst - envCurrent ∧ 0 < min queueLimit envLimit - queueCurrent ∧
        0 < due := by
  unfold analyzeQueue
  rw [ho]
  change (true && ((JsNumber.pos (JsNumber.max (some 0) (some (envLimitWithBurst - envCurrent)))) &&
    (JsNumber.pos (JsNumber.max (some 0) (some (min queueLimit envLimit - queueCurrent)))))
    && decide (0 < due)) = true ↔ _
  rw [pos_max_zero, pos_max_zero]
  simp [and_assoc]

/-- **報告の値。** 一件でも取り出せる上限の空きがあり、期限の来た id がある。 -/
theorem reportsCanDequeue_iff {D : Deployment} (h : Reportable D env queue s)
    (hn : env.descriptor.NoColons) {l : Limits}
    (hl : D.cfg.configuredLimits s env.descriptor queue = some l) :
    D.cfg.ReportsCanDequeue env queue t s ↔
      0 < D.cfg.availableCount s env.descriptor queue none l 1 ∧
        (s.zsets (queueKey env.descriptor queue none)).rangeByScore t ≠ [] := by
  obtain ⟨hL, hB, hQ⟩ := Config.configuredLimits_eq_some.mp hl
  have hlimit : Reads (D.cfg.getEnvConcurrencyLimit env) s (some l.envLimit) :=
    hL ▸ reads_getNumberOr h.envLimit
  have hburst : Reads (D.cfg.getEnvConcurrencyBurstFactor env) s (some l.burst) :=
    hB ▸ reads_getNumberOr h.burst
  have hwith : Reads (D.cfg.getEnvConcurrencyLimitWithBurstFactor env) s
      (some (⌊D.cfg.mul l.envLimit l.burst⌋ : Int)) := hburst.bind (hlimit.bind (reads_pure _))
  have henvCD := h.typed.set _ (kindOf_envCurrentDequeuedKey hn)
  have henvCC := h.typed.set _ (kindOf_envCurrentConcurrencyKey hn)
  set m : EnvInputs :=
    { envCurrent := (s.sets (envCurrentConcurrencyKey env.descriptor)).card
      envLimit := some l.envLimit
      envLimitWithBurst := some (⌊D.cfg.mul l.envLimit l.burst⌋ : Int)
      burstFactor := some l.burst } with hm
  obtain ⟨q, hq, hqa⟩ := reads_queueReport h m t
  have hnil : Reads (generateQueueReports env m t []) s [] := reads_pure []
  have hqs : Reads (generateQueueReports env m t [⟨queue, false⟩]) s [q] :=
    hq.bind (hnil.bind (reads_pure [q]))
  obtain ⟨report, hr, hqs⟩ : ∃ report,
      Reads (D.cfg.generateEnvironmentReport env [⟨queue, false⟩] t) s report ∧
        report.queues = [q] := by
    refine ⟨_, hlimit.bind (hwith.bind ((reads_scard henvCD).bind ((reads_scard henvCC).bind
      (hburst.bind (hqs.bind (reads_pure _)))))), ?_⟩
    rfl
  -- この報告は、尋ねた queue の一つだけを持つ
  have hiff : D.cfg.ReportsCanDequeue env queue t s ↔ q.analysis.canDequeue = true := by
    unfold Config.ReportsCanDequeue
    rw [hr]
    constructor
    · rintro ⟨report', hr', q', hq', hc⟩
      obtain rfl : report = report' := Except.ok.inj hr'
      rw [hqs, List.mem_singleton] at hq'
      exact hq' ▸ hc
    · intro hc
      exact ⟨report, rfl, q, by simp [hqs], hc⟩
  rw [hiff, hqa, hm, analyzeQueue_canDequeue ((getD_map_toNumber _ _).trans hQ)]
  unfold Config.availableCount dequeueCount
  rw [List.length_pos_iff, lt_min_iff, lt_min_iff]
  push_cast
  simp [and_assoc]

end Value

/-! ## 取り出しの値 -/

section Dequeue

variable {D : Deployment} {cfg : Config} {env : EnvDescriptor} {queue : String} {ck : Option String}
  {s s' : State} {t maxCount : ℚ} {shard : Nat} {l : Limits}

/-- どの id にも payload があれば、調べた id は全て返される。 -/
theorem collect_ne_nil_iff {p : String} {messages : List (String × ℚ)}
    (h : ∀ e ∈ messages, s.strs (p ++ e.1) ≠ none) : collect s p messages ≠ [] ↔ messages ≠ [] := by
  rcases messages with _ | ⟨e, messages⟩
  · simp [collect]
  · obtain ⟨v, hv⟩ := Option.ne_none_iff_exists'.mp (h e List.mem_cons_self)
    simp [collect, hv]

theorem firstDue_ne_nil_iff {k : String} {count : ℚ} (hint : count.den = 1) :
    firstDue s k t count ≠ [] ↔ 0 < count ∧ (s.zsets k).rangeByScore t ≠ [] := by
  unfold firstDue
  rw [Ne, List.take_eq_nil_iff, not_or]
  refine and_congr_left fun _ => ?_
  rcases le_or_gt count 0 with hle | hpos
  · simp [max_eq_left hle, not_lt.mpr hle]
  · have hfloor : ⌊max 0 count⌋ = count.num := by
      rw [max_eq_right hpos.le, ← Rat.coe_int_num_of_den_eq_one hint]
      simp
    rw [hfloor]
    simp [hpos]

/-- 成功した取り出しが一件でも返すのは、空きがあり期限の来た id があるときである。 -/
theorem CallSpec.returns_iff {r : Except Error (Option (List DequeuedEntry))}
    (h : CallSpec cfg env queue ck t maxCount l s r s') (hok : ∃ o, r = .ok o)
    (hint : (cfg.availableCount s env queue ck l maxCount).den = 1)
    (hp : ∀ id, (s.zsets (queueKey env queue ck)).score? id ≠ none →
      s.strs (messageKey env.orgId id) ≠ none) :
    (∃ entries, r = .ok (some entries) ∧ entries ≠ []) ↔
      0 < cfg.availableCount s env queue ck l maxCount ∧
        (s.zsets (queueKey env queue ck)).rangeByScore t ≠ [] := by
  obtain ⟨o, rfl⟩ := hok
  have hret := h.returned o rfl
  have hall : ∀ e ∈ firstDue s (queueKey env queue ck) t
      (cfg.availableCount s env queue ck l maxCount),
      s.strs (orgKeySection env.orgId ++ ":message:" ++ e.1) ≠ none := by
    rintro ⟨id, x⟩ he
    have hs := SortedSet.mem_rangeByScore.mp (List.mem_of_mem_take he)
    rw [messageKeyPrefix_append]
    exact hp id (by simp [hs.1])
  rw [← firstDue_ne_nil_iff hint, ← collect_ne_nil_iff hall, ← hret]
  rcases o with _ | entries
  · simp
  · simp

theorem availableCount_den {envLimit queueLimit : Int} {burst : ℚ} {n : Nat} :
    (cfg.availableCount s env queue ck ⟨envLimit, burst, queueLimit⟩ n).den = 1 := by
  unfold Config.availableCount dequeueCount
  have h : ∃ z : Int, min (n : ℚ) (min ((⌊cfg.mul envLimit burst⌋
      - ((s.sets (envCurrentConcurrencyKey env)).card : Int) : Int) : ℚ)
      (min (queueLimit : ℚ) envLimit - (s.sets (queueCurrentConcurrencyKey env queue ck)).card))
      = z := by
    refine ⟨min (n : Int) (min (⌊cfg.mul envLimit burst⌋
      - ((s.sets (envCurrentConcurrencyKey env)).card : Int))
      (min queueLimit envLimit - (s.sets (queueCurrentConcurrencyKey env queue ck)).card)), ?_⟩
    push_cast
    rfl
  obtain ⟨z, hz⟩ := h
  rw [hz]
  exact Rat.den_intCast z

theorem availableCount_pos_iff {n : Nat} (hn : 1 ≤ n) :
    0 < cfg.availableCount s env queue ck l n ↔ 0 < cfg.availableCount s env queue ck l 1 := by
  unfold Config.availableCount dequeueCount
  have hn' : (0 : ℚ) < n := by exact_mod_cast hn
  rw [lt_min_iff, lt_min_iff (b := (1 : ℚ))]
  simp [hn']

end Dequeue

/-! ## 条件の十分性 -/

section Sufficient

variable {D : Deployment} {env : Environment} {queue : String} {s : State} {t : ℚ} {shard n : Nat}

theorem Reportable.callTyped (h : Reportable D env queue s) (hn : env.descriptor.NoColons)
    {envLimit queueLimit : Int} {burst : ℚ} :
    CallTyped D.cfg env.descriptor queue none shard n ⟨envLimit, burst, queueLimit⟩ s where
  envLimit := h.envLimit
  burst := h.burst
  queueLimit := h.queueLimit
  queueZset := h.queueZset
  envQueueZset := h.typed.zset _ (kindOf_envQueueKey hn)
  queueSet := h.queueSet
  envSet := h.typed.set _ (kindOf_envCurrentConcurrencyKey hn)
  message id := h.typed.str _ (kindOf_messageKey hn.org id)
  master := h.typed.zset _ (kindOf_masterQueueKeyForShard shard)
  integral := availableCount_den

theorem Reportable.queue_payload (h : Reportable D env queue s)
    (hD : D.desc env.id = env.descriptor) (hn : env.descriptor.NoColons) (id : String)
    (hid : (s.zsets (queueKey env.descriptor queue none)).score? id ≠ none) :
    s.strs (messageKey env.descriptor.orgId id) ≠ none := by
  have := h.payload ⟨env.id, queue, none, hn.env⟩ id
  rw [Deployment.key, hD] at this
  exact this hid

/-- queue の上限が `queueLimit` と読まれるときの取り出しの値。 -/
theorem dequeuesSome_iff_of_read (h : Reportable D env queue s)
    (hD : D.desc env.id = env.descriptor) (hn : env.descriptor.NoColons)
    (ho : stripOrg env.descriptor.orgId = env.descriptor.orgId) (hn1 : 1 ≤ n)
    {envLimit queueLimit queueLimit' : Int} {burst : ℚ}
    (hl : D.cfg.configuredLimits s env.descriptor queue = some ⟨envLimit, burst, queueLimit'⟩)
    (hQ : numberAt s (queueConcurrencyLimitKeyFromQueue (queueKey env.descriptor queue none)) 1000000
      = some (queueLimit : ℚ))
    (hT : s.StrTyped (queueConcurrencyLimitKeyFromQueue (queueKey env.descriptor queue none))) :
    D.cfg.DequeuesSome env queue shard t n s ↔
      0 < D.cfg.availableCount s env.descriptor queue none ⟨envLimit, burst, queueLimit⟩ 1 ∧
        (s.zsets (queueKey env.descriptor queue none)).rangeByScore t ≠ [] := by
  obtain ⟨hL, hB, _⟩ := Config.configuredLimits_eq_some.mp hl
  obtain ⟨hspec, hok⟩ := callDequeue_spec (l := ⟨envLimit, burst, queueLimit⟩) shard t n hn ho
    hL hB hQ
  rw [← availableCount_pos_iff hn1]
  exact hspec.returns_iff (hok (h.callTyped hn) hT) availableCount_den (h.queue_payload hD hn)

theorem report_predicts_of_readable (h : Reportable D env queue s)
    (hD : D.desc env.id = env.descriptor) (hn : env.descriptor.NoColons)
    (hr : LimitsReadable env.descriptor queue none) (hn1 : 1 ≤ n) :
    D.cfg.ReportsCanDequeue env queue t s ↔ D.cfg.DequeuesSome env queue shard t n s := by
  obtain ⟨envLimit, queueLimit, burst, hl⟩ := h.limits
  have hkey := hr.queueConcurrencyLimitKey
  obtain ⟨_, _, hQ⟩ := Config.configuredLimits_eq_some.mp hl
  rw [reportsCanDequeue_iff h hn hl, dequeuesSome_iff_of_read h hD hn hr.org hn1 hl (hkey ▸ hQ)
    (hkey ▸ h.queueLimit)]

end Sufficient

/-! ## 条件の必要性

run を一つだけ持つ状態 `probe` で、報告と取り出しが食い違うことを見る。 -/

section Probe

variable (D : Deployment) (env : Environment) (queue : String) (limit : Option Int)

/-- `probe` の run の payload。 -/
def probeMessage : OutputPayload :=
  { runId := "run_1"
    taskIdentifier := "hello"
    orgId := env.organizationId
    projectId := env.projectId
    environmentId := env.id
    environmentType := env.type
    queue := queueKey env.descriptor queue none
    concurrencyKey := none
    timestamp := 0
    attempt := 0
    version := .v2 "us-east-1" }

def probeStrs (k : String) : Option Stored :=
  if k = messageKey env.descriptor.orgId "run_1" then some (.message (probeMessage env queue))
  else if k = envConcurrencyLimitKey env.descriptor then some (.number 10)
  else if k = envConcurrencyLimitBurstFactorKey env.descriptor then some (.number 1)
  else if k = queueConcurrencyLimitKey env.descriptor queue then
    limit.map fun n => .number n
  else none

def probeZsets (k : String) : ZSet :=
  if k = queueKey env.descriptor queue none then SortedSet.add ∅ "run_1" 0
  else if k = D.envQ env.id then SortedSet.add ∅ "run_1" 0
  else if k = D.master env.id then SortedSet.add ∅ (queueKey env.descriptor queue none) 0
  else ∅

/-- 環境の上限は 10、queue の上限は `limit` で、run が一つ queue にある状態。 -/
def probe : State where
  strs := probeStrs env queue limit
  zsets k := if probeStrs env queue limit k = none then probeZsets D env queue k else ∅
  sets _ := ∅
  lists _ := []
  str_excl _ h := ⟨if_neg h, rfl, rfl⟩
  zset_excl _ _ := ⟨rfl, rfl⟩
  set_excl := (Db.empty : State).set_excl

variable {D env queue limit}

theorem queueKey_ne_limitKey :
    queueKey env.descriptor queue none ≠ queueConcurrencyLimitKey env.descriptor queue := by
  intro h
  have := congrArg (fun x : String => x.toList.length) h
  simp [queueConcurrencyLimitKey, joinColon] at this

section Keys

variable (hn : env.descriptor.NoColons) {k : String}
include hn

/-- 役割の決まった key のうち、payload の他に文字列は無い。 -/
theorem probeStrs_of_kind {c : Kind} (hk : kindOf k = some c) (hc : c ≠ .str) :
    probeStrs env queue limit k = none := by
  obtain ⟨h₁, h₂, h₃⟩ := kindOf_limitKeys hn queue
  have hne : ∀ {k'}, kindOf k' = none → k ≠ k' := fun h => ne_of_kindOf (by simp [hk, h])
  have hmsg : k ≠ messageKey env.descriptor.orgId "run_1" :=
    ne_of_kindOf (by simp [hk, kindOf_messageKey hn.org, hc])
  simp [probeStrs, hmsg, hne h₁, hne h₂, hne h₃]

theorem queueKey_ne_limitKeys (hk : (signature k).2.2 = some "queue") :
    k ≠ envConcurrencyLimitKey env.descriptor ∧
      k ≠ envConcurrencyLimitBurstFactorKey env.descriptor := by
  constructor <;> rintro rfl
  · rw [envConcurrencyLimitKey, signature_envPartKey hn (by decide)] at hk
    simp at hk
  · rw [envConcurrencyLimitBurstFactorKey, signature_envPartKey hn (by decide)] at hk
    simp at hk

/-- queue 側の key のうち、上限の key の他に文字列は無い。 -/
theorem probeStrs_of_queue (hk : (signature k).2.2 = some "queue") (hkind : kindOf k = none)
    (hq : k ≠ queueConcurrencyLimitKey env.descriptor queue) :
    probeStrs env queue limit k = none := by
  obtain ⟨h₁, h₂⟩ := queueKey_ne_limitKeys hn hk
  have hmsg : k ≠ messageKey env.descriptor.orgId "run_1" :=
    ne_of_kindOf (by simp [hkind, kindOf_messageKey hn.org])
  simp [probeStrs, hmsg, h₁, h₂, hq]

theorem kindOf_probe_envQ : kindOf (D.envQ env.id) = some .zset := Deployment.kindOf_envQ hn.env

theorem probeStrs_queueKey : probeStrs env queue limit (queueKey env.descriptor queue none) = none :=
  probeStrs_of_queue hn (by simp [hn]) (kindOf_queueKey hn _ _) queueKey_ne_limitKey

/-- queue に付く `currentConcurrency` と `currentDequeued` は空である。 -/
theorem probe_styped_of_queuePart {part : String} (hp : NoColon part) (hne : part ≠ "concurrency") :
    (probe D env queue limit).STyped (queueKey env.descriptor queue none ++ ":" ++ part) := by
  have hkind := kindOf_queueKey_append hn queue none part
  have hq : queueKey env.descriptor queue none ++ ":" ++ part ≠ queueKey env.descriptor queue none := by
    intro h
    have := congrArg (fun x : String => x.toList.length) h
    simp at this
  refine ⟨probeStrs_of_queue hn (by simp [hn]) hkind (ne_of_lastPart ?_), ?_, rfl⟩
  · rw [lastPart_append _ hp, queueConcurrencyLimitKey,
      show joinColon [queueKey env.descriptor queue none, "concurrency"]
        = queueKey env.descriptor queue none ++ ":" ++ "concurrency" from rfl,
      lastPart_append _ (by decide)]
    simpa using hne
  · have h₁ : queueKey env.descriptor queue none ++ ":" ++ part ≠ D.envQ env.id :=
      ne_of_kindOf (by rw [hkind, kindOf_probe_envQ hn]; simp)
    have h₂ : queueKey env.descriptor queue none ++ ":" ++ part ≠ D.master env.id :=
      ne_of_kindOf (by rw [hkind, Deployment.kindOf_master]; simp)
    simp [probe, probeZsets, hq, h₁, h₂]

/-- 整列集合でない役割の key に、整列集合は無い。 -/
theorem probe_zsets_of_kind (hk : kindOf k ≠ none) (hz : kindOf k ≠ some .zset) :
    (probe D env queue limit).zsets k = ∅ := by
  have hq : k ≠ queueKey env.descriptor queue none := ne_of_kindOf (by simpa [kindOf_queueKey hn])
  have h₁ : k ≠ D.envQ env.id := ne_of_kindOf (by rwa [kindOf_probe_envQ hn])
  have h₂ : k ≠ D.master env.id := ne_of_kindOf (by rwa [Deployment.kindOf_master])
  simp [probe, probeZsets, hq, h₁, h₂]

theorem probe_typed : Typed (probe D env queue limit) := by
  constructor
  · intro k hk
    exact ⟨probe_zsets_of_kind hn (by simp [hk]) (by simp [hk]), rfl, rfl⟩
  · intro k hk
    exact ⟨probeStrs_of_kind hn hk (by decide), rfl, rfl⟩
  · intro k hk
    exact ⟨probeStrs_of_kind hn hk (by decide), probe_zsets_of_kind hn (by simp [hk]) (by simp [hk]),
      rfl⟩
  · intro k hk
    exact ⟨probeStrs_of_kind hn hk (by decide), probe_zsets_of_kind hn (by simp [hk]) (by simp [hk]),
      rfl⟩

theorem probe_queue : (probe D env queue limit).zsets (queueKey env.descriptor queue none)
    = SortedSet.add ∅ "run_1" 0 := by
  simp [probe, probeZsets, probeStrs_queueKey hn]

theorem probe_envQ {e : String} (he : NoColon e) : (probe D env queue limit).zsets (D.envQ e)
    = if e = env.id then SortedSet.add ∅ "run_1" 0 else ∅ := by
  have hkind := Deployment.kindOf_envQ (D := D) he
  have hs : probeStrs env queue limit (D.envQ e) = none := probeStrs_of_kind hn hkind (by decide)
  have hq : D.envQ e ≠ queueKey env.descriptor queue none :=
    ne_of_kindOf (by simp [hkind, kindOf_queueKey hn])
  have hm : D.envQ e ≠ D.master env.id := (Deployment.master_ne_envQ he).symm
  by_cases hid : e = env.id
  · subst hid
    simp [probe, probeZsets, hs, hq]
  · have hne : D.envQ e ≠ D.envQ env.id := fun h => hid (Deployment.envQ_inj he hn.env h)
    simp [probe, probeZsets, hs, hq, hm, hne, hid]

theorem probe_master (e : String) : (probe D env queue limit).zsets (D.master e)
    = if D.master e = D.master env.id then SortedSet.add ∅ (queueKey env.descriptor queue none) 0
      else ∅ := by
  have hkind := Deployment.kindOf_master (D := D) e
  have hs : probeStrs env queue limit (D.master e) = none := probeStrs_of_kind hn hkind (by decide)
  have hq : D.master e ≠ queueKey env.descriptor queue none :=
    ne_of_kindOf (by simp [hkind, kindOf_queueKey hn])
  have hm : D.master e ≠ D.envQ env.id := Deployment.master_ne_envQ hn.env
  simp [probe, probeZsets, hs, hq, hm]

theorem probe_key (h : Home) : (probe D env queue limit).zsets (D.key h)
    = if D.key h = queueKey env.descriptor queue none then SortedSet.add ∅ "run_1" 0 else ∅ := by
  by_cases hk : D.key h = queueKey env.descriptor queue none
  · rw [if_pos hk, hk, probe_queue hn]
  · have h₁ : D.key h ≠ D.envQ env.id :=
      ne_of_kindOf (by rw [Deployment.kindOf_key, kindOf_probe_envQ hn]; simp)
    have h₂ : D.key h ≠ D.master env.id :=
      ne_of_kindOf (by rw [Deployment.kindOf_key, Deployment.kindOf_master]; simp)
    simp [probe, probeZsets, hk, h₁, h₂]

/-- `probe` は表現不変条件を満たす。 -/
theorem probe_representation (hD : D.desc env.id = env.descriptor) :
    Representation D (probe D env queue limit) := by
  have hkey : D.key ⟨env.id, queue, none, hn.env⟩ = queueKey env.descriptor queue none := by
    rw [Deployment.key, hD]
  have henv : ∀ h : Home, D.key h = queueKey env.descriptor queue none → h.envId = env.id := by
    intro h hk
    exact Deployment.key_envId (hk.trans hkey.symm)
  have hscore : ∀ (h : Home) r, ((probe D env queue limit).zsets (D.key h)).score? r
      = if D.key h = queueKey env.descriptor queue none ∧ r = "run_1" then some 0 else none := by
    intro h r
    rw [probe_key hn]
    by_cases hk : D.key h = queueKey env.descriptor queue none <;> simp [hk]
  constructor
  · intro e he r x
    simp only [hscore, probe_envQ hn he]
    constructor
    · intro h
      have hid : e = env.id := by
        by_contra hne
        simp [hne] at h
      exact ⟨⟨env.id, queue, none, hn.env⟩, hid.symm, by simpa [hid, hkey] using h⟩
    · rintro ⟨h, rfl, hx⟩
      have hk : D.key h = queueKey env.descriptor queue none := by
        by_contra hne
        simp [hne] at hx
      simpa [henv h hk, hk] using hx
  · intro h h' r hr hr'
    rw [hscore] at hr hr'
    have hk : D.key h = queueKey env.descriptor queue none := by
      by_contra hne
      simp [hne] at hr
    have hk' : D.key h' = queueKey env.descriptor queue none := by
      by_contra hne
      simp [hne] at hr'
    rw [hk, hk']
  · intro h r _
    exact ⟨fun _ => Finset.notMem_empty r, fun _ _ => Finset.notMem_empty r⟩
  · intro e _ r
    refine ⟨fun h => absurd h (Finset.notMem_empty r), ?_⟩
    rintro ⟨h, _, hr⟩
    exact absurd hr (Finset.notMem_empty r)
  · intro h
    rw [probe_master hn]
    by_cases hk : D.key h = queueKey env.descriptor queue none
    · rw [henv h hk, if_pos rfl, SortedSet.score?_add, if_pos hk]
      refine ⟨⟨"run_1", by rw [hscore, if_pos ⟨hk, rfl⟩]⟩, fun r y hr => ?_⟩
      rw [hscore] at hr
      by_cases hr' : D.key h = queueKey env.descriptor queue none ∧ r = "run_1"
      · rw [if_pos hr'] at hr
        exact le_of_eq (Option.some.inj hr)
      · rw [if_neg hr'] at hr
        exact absurd hr (by simp)
    · have hnone : (if D.master h.envId = D.master env.id then
          SortedSet.add ∅ (queueKey env.descriptor queue none) 0 else (∅ : ZSet)).score? (D.key h)
          = none := by
        split <;> simp [hk]
      rw [hnone]
      intro r
      simp [hscore, hk]

theorem probe_limits (cfg : Config) :
    cfg.configuredLimits (probe D env queue limit) env.descriptor queue
      = some ⟨((10 : Int) : ℚ), 1, ((limit.getD 1000000 : Int) : ℚ)⟩ := by
  obtain ⟨h₁, h₂, h₃⟩ := kindOf_limitKeys hn queue
  have hmsg : ∀ {k'}, kindOf k' = none → k' ≠ messageKey env.descriptor.orgId "run_1" :=
    fun h => ne_of_kindOf (by simp [h, kindOf_messageKey hn.org])
  have hbl : envConcurrencyLimitBurstFactorKey env.descriptor ≠ envConcurrencyLimitKey env.descriptor :=
    ne_of_lastPart (by
      rw [envConcurrencyLimitBurstFactorKey, envConcurrencyLimitKey,
        lastPart_envPartKey _ (by decide), lastPart_envPartKey _ (by decide)]
      decide)
  have hql := queueKey_ne_limitKeys hn (k := queueConcurrencyLimitKey env.descriptor queue)
    (by simp [queueConcurrencyLimitKey, joinColon, signature_queueKey_append hn])
  refine Config.configuredLimits_eq_some.mpr ⟨?_, ?_, ?_⟩
  · simp [numberAt, probe, probeStrs, hmsg h₁, Stored.toNumber]
  · simp [numberAt, probe, probeStrs, hmsg h₂, hbl, Stored.toNumber]
  · rcases limit with _ | n <;>
      simp [numberAt, probe, probeStrs, hmsg h₃, hql.1, hql.2, Stored.toNumber]

theorem probe_reportable (hD : D.desc env.id = env.descriptor) :
    Reportable D env queue (probe D env queue limit) := by
  obtain ⟨h₁, h₂, h₃⟩ := kindOf_limitKeys hn queue
  have hstr : ∀ {k'}, k' ≠ queueKey env.descriptor queue none → kindOf k' = none →
      (probe D env queue limit).StrTyped k' := by
    intro k' hq hk
    have hE : k' ≠ D.envQ env.id := ne_of_kindOf (by rw [hk, kindOf_probe_envQ hn]; simp)
    have hM : k' ≠ D.master env.id := ne_of_kindOf (by rw [hk, Deployment.kindOf_master]; simp)
    exact ⟨by simp [probe, probeZsets, hq, hE, hM], rfl, rfl⟩
  have hq := queueKey_ne_limitKeys hn (k := queueKey env.descriptor queue none) (by simp [hn])
  refine ⟨probe_representation hn hD, ?_, probe_typed hn, ⟨probeStrs_queueKey hn, rfl, rfl⟩,
    probe_styped_of_queuePart hn (by decide) (by decide),
    probe_styped_of_queuePart hn (by decide) (by decide), hstr hq.1.symm h₁, hstr hq.2.symm h₂,
    hstr queueKey_ne_limitKey.symm h₃, ⟨10, limit.getD 1000000, 1, probe_limits hn _⟩⟩
  intro h r hr
  rw [probe_key hn] at hr
  have hk : D.key h = queueKey env.descriptor queue none := by
    by_contra hne
    simp [hne] at hr
  obtain rfl : r = "run_1" := by
    by_contra hne
    simp [hk, hne] at hr
  have henv : D.desc h.envId = env.descriptor :=
    queueKey_env_inj (Deployment.home_noColons h) hn hk
  simp [henv, probe, probeStrs]

end Keys

end Probe

section Necessary

variable {D : Deployment} {env : Environment} {queue : String} {limit : Option Int}

theorem probe_due (hn : env.descriptor.NoColons) :
    ((probe D env queue limit).zsets (queueKey env.descriptor queue none)).rangeByScore 0 ≠ [] := by
  rw [probe_queue hn]
  decide +kernel

theorem probe_availableCount {cfg : Config} (hmul : ∀ x, cfg.mul x 1 = x) (q : Int) :
    0 < cfg.availableCount (probe D env queue limit) env.descriptor queue none
      ⟨((10 : Int) : ℚ), 1, (q : ℚ)⟩ 1 ↔ 0 < q := by
  unfold Config.availableCount dequeueCount
  simp only [hmul]
  simp [probe]

/-- 空きのある `probe` では、報告は queue の上限が正かどうかで決まる。 -/
theorem probe_reports_iff (hn : env.descriptor.NoColons) (hD : D.desc env.id = env.descriptor)
    (hmul : ∀ x, D.cfg.mul x 1 = x) :
    D.cfg.ReportsCanDequeue env queue 0 (probe D env queue limit) ↔ 0 < limit.getD 1000000 := by
  rw [reportsCanDequeue_iff (probe_reportable hn hD) hn (probe_limits hn _),
    probe_availableCount hmul]
  exact and_iff_left (probe_due hn)

theorem lastPart_messageKey (o : String) {id : String} (h : NoColon id) :
    lastPart (messageKey o id) = some id := by
  rw [← messageKeyPrefix_append, show (":message:" : String) = ":message" ++ ":" from rfl,
    ← String.append_assoc]
  exact lastPart_append _ h

theorem lastPart_queueConcurrencyLimitKeyFromQueue (k : String) :
    lastPart (queueConcurrencyLimitKeyFromQueue k) = some "concurrency" := by
  rw [queueConcurrencyLimitKeyFromQueue, show (":concurrency" : String) = ":" ++ "concurrency" from rfl,
    ← String.append_assoc]
  exact lastPart_append _ (by decide)

/-- payload の他の文字列は数である。 -/
theorem probe_numberAt {k : String} (hk : k ≠ messageKey env.descriptor.orgId "run_1") (d : ℚ) :
    ∃ q, numberAt (probe D env queue limit) k d = some q := by
  simp only [numberAt, probe, probeStrs, if_neg hk]
  split_ifs
  · exact ⟨10, rfl⟩
  · exact ⟨1, rfl⟩
  · rcases limit with _ | m
    · exact ⟨d, rfl⟩
    · exact ⟨m, rfl⟩
  · exact ⟨d, rfl⟩

/-- 別の organization の payload は無い。 -/
theorem probe_message_none (hn : env.descriptor.NoColons) {o : String} (ho : NoColon o)
    (hne : o ≠ env.descriptor.orgId) (id : String) :
    (probe D env queue limit).strs (messageKey o id) = none := by
  obtain ⟨h₁, h₂, h₃⟩ := kindOf_limitKeys hn queue
  have hlimit : ∀ {k}, kindOf k = none → messageKey o id ≠ k :=
    fun h => ne_of_kindOf (by simp [h, kindOf_messageKey ho])
  have hmsg : messageKey o id ≠ messageKey env.descriptor.orgId "run_1" := by
    intro h
    have := congrArg splitColon h
    rw [splitColon_messageKey ho, splitColon_messageKey hn.org] at this
    simp only [List.cons.injEq, true_and] at this
    exact hne (append_brace_inj this.1)
  simp [probe, probeStrs, hmsg, hlimit h₁, hlimit h₂, hlimit h₃]

/-- organization の id が変わると、payload が見つからず何も返らない。 -/
theorem probe_not_dequeued (hn : env.descriptor.NoColons)
    (ho : stripOrg env.descriptor.orgId ≠ env.descriptor.orgId) {shard n : Nat} :
    ¬ D.cfg.DequeuesSome env queue shard 0 n (probe D env queue limit) := by
  have hs := hn.stripped
  -- `probe` では、上限としてどの key を読んでも数になる。
  have hread : ∀ k d, lastPart k ≠ some "run_1" →
      ∃ q, numberAt (probe D env queue limit) k d = some q :=
    fun k d hk => probe_numberAt (ne_of_lastPart (by
      rw [lastPart_messageKey _ (by decide)]
      exact hk)) d
  obtain ⟨envLimit, hL⟩ := hread (envConcurrencyLimitKey env.descriptor.stripped)
    D.cfg.defaultEnvConcurrency (by
      rw [envConcurrencyLimitKey, lastPart_envPartKey _ (by decide)]
      decide)
  obtain ⟨burst, hB⟩ := hread (envConcurrencyLimitBurstFactorKey env.descriptor.stripped)
    (D.cfg.defaultEnvConcurrencyBurstFactor.getD 1) (by
      rw [envConcurrencyLimitBurstFactorKey, lastPart_envPartKey _ (by decide)]
      decide)
  obtain ⟨queueLimit, hQ⟩ := hread
    (queueConcurrencyLimitKeyFromQueue (queueKey env.descriptor queue none)) 1000000 (by
      rw [lastPart_queueConcurrencyLimitKeyFromQueue]
      decide)
  let keys : LoopKeys :=
    { queue := queueKey env.descriptor queue none
      envQueue := envQueueKey env.descriptor.stripped
      queueSet := queueCurrentConcurrencyKey env.descriptor queue none
      envSet := envCurrentConcurrencyKey env.descriptor.stripped
      messagePrefix := orgKeySection (stripOrg env.descriptor.orgId) ++ ":message:"
      queue_ne := ne_of_kindOf (by simp [kindOf_queueKey hn, kindOf_envQueueKey hs])
      set_ne := ne_of_kindOf (by
        rw [queueCurrentConcurrencyKey, kindOf_envCurrentConcurrencyKey hs]
        simp [joinColon, kindOf_queueKey_append hn]) }
  have hnone : ∀ messages, collect (probe D env queue limit) keys.messagePrefix messages = [] := by
    intro messages
    refine List.filterMap_eq_nil_iff.mpr fun e _ => ?_
    rw [messageKeyPrefix_append, probe_message_none hn (noColon_stripOrg hn.org) ho]
    rfl
  unfold Config.DequeuesSome
  rw [callDequeueMessagesFromQueue_stripped hn]
  change wp (dequeueMessagesFromQueueLua _ _ _ _ _ _ _ _ _ _ _ _ _ _ _)
    (fun r _ => ¬ ∃ entries, r = .ok (some entries) ∧ entries ≠ []) (probe D env queue limit)
  refine wp_dequeueMessagesFromQueueLua hL hB hQ rfl (fun _ => by simp) (fun _ _ => by simp)
    (fun _ _ => ?_)
  refine wp_bind (wp_mono (wp_loop (k := keys) _ _) fun res s₁ ⟨_, hdone⟩ => ?_)
  rcases res with e | rs
  · simp
  have hrs : rs = [] := (hdone rs rfl).results.trans (hnone _)
  refine wp_bind (wp_mono wp_rebalance_frame fun res s₂ _ => ?_)
  rcases res with e | ⟨⟩
  · simp
  · exact wp_pure.mpr (by simp [hrs])

/-- 正規表現が当たる queue key は、`:ck:` の手前で切られる。 -/
theorem queueKey_split_of_not_ckReadable {d : EnvDescriptor} (h : ¬ CkReadable d queue none) :
    ∃ b, queueKey d queue none
      = stripConcurrencyKey (queueKey d queue none) ++ ":" ++ ("ck" ++ ":" ++ b) := by
  have hcut : cutAt ckMatchHere (queueKey d queue none).toList ≠ (queueKey d queue none).toList := by
    intro hself
    refine h ⟨fun i hi => ?_, fun hne => absurd rfl hne⟩
    exact cutAt_eq_self_iff.mp hself _ _ (List.take_append_drop i _).symm (by simpa using hi)
  obtain ⟨u, hu, hmatch⟩ := cutAt_split hcut
  have hpre : ":ck:".toList <+: u := by
    unfold ckMatchHere at hmatch
    simp only [Bool.and_eq_true, List.isPrefixOf_iff_prefix] at hmatch
    exact hmatch.1.1
  obtain ⟨b, rfl⟩ := hpre
  refine ⟨String.ofList b, String.toList_inj.mp ?_⟩
  unfold stripConcurrencyKey
  simpa using hu

/-- 正規表現が当たるときに読まれる key は、queue key でも queue の上限の key でもなく、
環境の queue や master queue の key でもない。 -/
theorem readLimitKey_ne {d : EnvDescriptor} (h : d.NoColons) (hck : ¬ CkReadable d queue none) :
    queueConcurrencyLimitKeyFromQueue (queueKey d queue none) ≠ queueKey d queue none ∧
      queueConcurrencyLimitKeyFromQueue (queueKey d queue none) ≠ queueConcurrencyLimitKey d queue ∧
      queueConcurrencyLimitKeyFromQueue (queueKey d queue none) ≠ envQueueKey d ∧
      (signature (queueConcurrencyLimitKeyFromQueue (queueKey d queue none))).1 = some "\x7borg" := by
  obtain ⟨b, hb⟩ := queueKey_split_of_not_ckReadable hck
  have hread : queueConcurrencyLimitKeyFromQueue (queueKey d queue none)
      = stripConcurrencyKey (queueKey d queue none) ++ ":" ++ "concurrency" := by
    rw [queueConcurrencyLimitKeyFromQueue, show (":concurrency" : String) = ":" ++ "concurrency"
      from rfl, ← String.append_assoc]
  have hparts := splitColon_queueKey h queue none
  rw [hread]
  generalize stripConcurrencyKey (queueKey d queue none) = cut at hb
  rw [hb, splitColon_append, splitColon_cons (by decide)] at hparts
  have hsplit : splitColon (cut ++ ":" ++ "concurrency") = splitColon cut ++ ["concurrency"] := by
    rw [splitColon_append, splitColon_noColon (show NoColon "concurrency" by decide)]
  refine ⟨fun e => ?_, fun e => ?_, fun e => ?_, ?_⟩
  · have hcancel := append_left_cancel (e.trans hb)
    have hchar := congrArg (fun x : String => x.toList[1]?) hcancel
    simp only [String.toList_append] at hchar
    exact absurd hchar (by simp)
  · have hcancel : cut ++ ":" = queueKey d queue none ++ ":" := append_right_cancel e
    have hlen := congrArg (fun x : String => x.toList.length) hb
    rw [append_right_cancel hcancel] at hlen
    simp at hlen
  · have hs := congrArg splitColon e
    rw [hsplit, splitColon_envQueueKey h] at hs
    -- 三つ目の成分は、queue key では `proj`、環境の queue では `env` である。
    have hs' : splitColon cut ++ ["concurrency"]
        = ["\x7borg", d.orgId ++ "\x7d", "env"] ++ [d.envId] := hs
    have hcut : splitColon cut = ["\x7borg", d.orgId ++ "\x7d", "env"] := (List.append_inj' hs' rfl).1
    rw [hcut] at hparts
    simp [envParts] at hparts
  · unfold signature
    rw [hsplit]
    rcases hc : splitColon cut with _ | ⟨x, rest⟩
    · exact absurd hc (splitColon_ne_nil cut)
    · rw [hc] at hparts
      exact congrArg some (List.cons.inj hparts).1

/-- 正規表現が当たると、queue の上限は読まれず、一件が返る。 -/
theorem probe_dequeued (hn : env.descriptor.NoColons) (hD : D.desc env.id = env.descriptor)
    (hmul : ∀ x, D.cfg.mul x 1 = x) (ho : stripOrg env.descriptor.orgId = env.descriptor.orgId)
    (hck : ¬ CkReadable env.descriptor queue none) {shard : Nat} :
    D.cfg.DequeuesSome env queue shard 0 (1 : Nat) (probe D env queue (some 0)) := by
  obtain ⟨hK, hlimit, hE, hsig⟩ := readLimitKey_ne hn hck
  have hlast := lastPart_queueConcurrencyLimitKeyFromQueue (queueKey env.descriptor queue none)
  generalize hk : queueConcurrencyLimitKeyFromQueue (queueKey env.descriptor queue none) = k
    at hK hlimit hE hsig hlast
  have hmaster : k ≠ D.master env.id := (Deployment.master_ne (by simp [hsig])).symm
  have henvQ : k ≠ D.envQ env.id := by
    rwa [Deployment.envQ, hD, stripped_eq_self ho]
  have hT : (probe D env queue (some 0)).StrTyped k :=
    ⟨by simp [probe, probeZsets, hK, henvQ, hmaster], rfl, rfl⟩
  have hmsg : k ≠ messageKey env.descriptor.orgId "run_1" :=
    ne_of_lastPart (by rw [hlast, lastPart_messageKey _ (by decide)]; decide)
  have hburst : k ≠ envConcurrencyLimitBurstFactorKey env.descriptor :=
    ne_of_lastPart (by
      rw [hlast, envConcurrencyLimitBurstFactorKey, lastPart_envPartKey _ (by decide)]
      decide)
  -- 読まれる key にあるのは、環境の上限か、無い key の既定値である。
  obtain ⟨q, hq, hQ⟩ : ∃ q : Int, 0 < q ∧
      numberAt (probe D env queue (some 0)) k 1000000 = some (q : ℚ) := by
    by_cases hel : k = envConcurrencyLimitKey env.descriptor
    · exact ⟨10, by decide, by simp [numberAt, probe, probeStrs, hmsg, ← hel, Stored.toNumber]⟩
    · exact ⟨1000000, by decide, by simp [numberAt, probe, probeStrs, hmsg, hel, hburst, hlimit]⟩
  rw [dequeuesSome_iff_of_read (probe_reportable hn hD) hD hn ho le_rfl (probe_limits hn _)
    (hk.symm ▸ hQ) (hk.symm ▸ hT)]
  exact ⟨(probe_availableCount hmul q).mpr hq, probe_due hn⟩

end Necessary

/-! ## 結論 -/

/-- 報告は、どの状態・時刻・件数でも取り出しを言い当てる。 -/
def ReportPredicts (D : Deployment) (env : Environment) (queue : String) : Prop :=
  ∀ (s : State) (t : ℚ) (shard n : Nat), Reportable D env queue s → 1 ≤ n →
    (D.cfg.ReportsCanDequeue env queue t s ↔ D.cfg.DequeuesSome env queue shard t n s)

/-- **報告が取り出しを言い当てるのは、取り出しが読む key が環境と queue 名の key であるとき、
そのときに限る。** -/
theorem report_predicts_iff (D : Deployment) (env : Environment) (queue : String)
    (hD : D.desc env.id = env.descriptor) (hn : env.descriptor.NoColons)
    (hmul : ∀ x, D.cfg.mul x 1 = x) :
    ReportPredicts D env queue ↔ LimitsReadable env.descriptor queue none := by
  refine ⟨fun h => ?_, fun hr s t shard n hs hn1 => report_predicts_of_readable hs hD hn hr hn1⟩
  -- organization の id が変わる環境では、payload が見つからず、取り出しだけが空になる。
  have ho : stripOrg env.descriptor.orgId = env.descriptor.orgId := by
    by_contra ho
    have hreport : D.cfg.ReportsCanDequeue env queue 0 (probe D env queue none) :=
      (probe_reports_iff hn hD hmul).mpr (by decide)
    exact probe_not_dequeued hn ho ((h _ 0 0 1 (probe_reportable hn hD) le_rfl).mp hreport)
  refine ⟨ho, ?_⟩
  -- 正規表現が当たる queue 名では、上限の 0 が読まれず、取り出しだけが一件を返す。
  by_contra hck
  have hdequeue : D.cfg.DequeuesSome env queue 0 0 (1 : Nat) (probe D env queue (some 0)) :=
    probe_dequeued hn hD hmul ho hck
  have hreport := (h _ 0 0 1 (probe_reportable hn hD) le_rfl).mpr hdequeue
  exact absurd ((probe_reports_iff hn hD hmul).mp hreport) (by decide)

/-- `sanitizeQueueName` を通った queue 名では、正規表現は queue key のどこにも当たらない。 -/
theorem limitsReadable_sanitizeQueueName {d : EnvDescriptor} (h : d.Plain)
    (hproj : d.projectId ≠ "ck") (henv : d.envId ≠ "ck") (name : String) :
    LimitsReadable d (sanitizeQueueName name) none := by
  have hnone := (noneWithin_queueKey_nil h.noColons (noColon_sanitizeQueueName name)
    (noLineTerminator_sanitizeQueueName name)).mpr ⟨fun hck => absurd hck hproj, henv⟩
  refine ⟨h.org.stripOrg, fun i hi => ?_, fun hne => absurd rfl hne⟩
  have hmatch := hnone _ _ (List.take_append_drop i _).symm (by simpa using hi)
  rwa [List.append_nil] at hmatch

/--
**`sanitizeQueueName` を通った queue 名では、報告は取り出しを言い当てる。** 環境の id は `:` も波括弧も含まず、`ck` でもない。
-/
theorem report_predicts (D : Deployment) (env : Environment) (name : String)
    (hD : D.desc env.id = env.descriptor) (hplain : env.descriptor.Plain)
    (hproj : env.projectId ≠ "ck") (henv : env.id ≠ "ck") (hmul : ∀ x, D.cfg.mul x 1 = x) :
    ReportPredicts D env (sanitizeQueueName name) :=
  (report_predicts_iff D env _ hD hplain.noColons hmul).mpr
    (limitsReadable_sanitizeQueueName hplain hproj henv name)

/-- `sampleDeployment` の環境。 -/
def sampleEnvironment : Environment where
  id := "e1"
  type := .production
  projectId := "p1"
  organizationId := "o1"
  maximumConcurrencyLimit := 10
  concurrencyLimitBurstFactor := 1

/-- queue の上限が `limit` の、期限の来た run が一つある状態。 -/
def sampleProbe (limit : Option Int) : State :=
  probe sampleDeployment sampleEnvironment (sanitizeQueueName "task/hello") limit

/-- queue `task/hello` では、報告も取り出しも run を一つ見つけ、queue の上限が 0 なら、どちらも見つけない。 -/
theorem report_predicts_sample :
    ReportPredicts sampleDeployment sampleEnvironment (sanitizeQueueName "task/hello") ∧
      (sampleDeployment.cfg.ReportsCanDequeue sampleEnvironment (sanitizeQueueName "task/hello") 0
          (sampleProbe none) ∧
        sampleDeployment.cfg.DequeuesSome sampleEnvironment (sanitizeQueueName "task/hello") 1 0
          (1 : Nat) (sampleProbe none)) ∧
      ¬ sampleDeployment.cfg.ReportsCanDequeue sampleEnvironment (sanitizeQueueName "task/hello") 0
          (sampleProbe (some 0)) ∧
        ¬ sampleDeployment.cfg.DequeuesSome sampleEnvironment (sanitizeQueueName "task/hello") 1 0
          (1 : Nat) (sampleProbe (some 0)) := by
  have hn : sampleEnvironment.descriptor.NoColons := by decide
  have hmul : ∀ x, sampleDeployment.cfg.mul x 1 = x := mul_one
  have hpredicts := report_predicts sampleDeployment sampleEnvironment "task/hello" rfl (by decide)
    (by decide) (by decide) hmul
  have hiff (limit : Option Int) : sampleDeployment.cfg.ReportsCanDequeue sampleEnvironment
      (sanitizeQueueName "task/hello") 0 (sampleProbe limit) ↔
        sampleDeployment.cfg.DequeuesSome sampleEnvironment (sanitizeQueueName "task/hello") 1 0
          (1 : Nat) (sampleProbe limit) :=
    hpredicts _ 0 1 1 (probe_reportable hn rfl) le_rfl
  have hsome : sampleDeployment.cfg.ReportsCanDequeue sampleEnvironment
      (sanitizeQueueName "task/hello") 0 (sampleProbe none) :=
    (probe_reports_iff hn rfl hmul).mpr (by decide)
  have hnone : ¬ sampleDeployment.cfg.ReportsCanDequeue sampleEnvironment
      (sanitizeQueueName "task/hello") 0 (sampleProbe (some 0)) :=
    fun h => absurd ((probe_reports_iff hn rfl hmul).mp h) (by decide)
  exact ⟨hpredicts, ⟨hsome, (hiff none).mp hsome⟩, hnone, fun h => hnone ((hiff (some 0)).mpr h)⟩

end RunQueue
