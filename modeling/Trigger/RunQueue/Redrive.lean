import Trigger.RunQueue.Representation

/-!
# dead letter queue からの再投入

`enqueueMessage` は queue 名を queue key に置き換えて payload に保存する。`handleRedriveMessage` は
保存された payload をそのまま `enqueueMessage` に渡すので、queue key がもう一度 queue 名として
扱われ、run は `…:queue:{org:…}:proj:…` という入れ子の queue に入る。

入れ子の key は必ず元の key より長い（`queueKey_ne_self`）。したがって、どの run についても
再投入は元の queue に戻さない（`redrive_never_restores`）。
-/

namespace RunQueue

open Infra Infra.Text
open Infra.Redis Infra.Redis.Script

/-- queue key は、queue 名より必ず長い。 -/
theorem queueKey_ne_self (env : EnvDescriptor) (queue : String) (ck : Option String) :
    queueKey env queue ck ≠ queue := by
  intro h
  have hpre : queue.toList <+: (queueTail queue ck).toList := by
    unfold queueTail
    rcases concurrencyKeySections ck with _ | ⟨c, cs⟩
    · exact List.prefix_refl _
    · simp [joinColon]
  have hlen := congrArg (fun t : String => t.toList.length) h
  rw [queueKey_eq_envHead] at hlen
  simp only [String.toList_append, List.length_append] at hlen
  have hqueue : 0 < (":queue:".toList).length := by decide
  have := hpre.length_le
  omega

/-! ## payload と元の queue への影響 -/

/-- 文字列と、整列集合 `k` を変えない遷移。 -/
def Untouched (k : String) (s s' : State) : Prop := s'.strs = s.strs ∧ s'.zsets k = s.zsets k

section Untouched

variable {k : String}

theorem Untouched.refl (s : State) : Untouched k s s := ⟨rfl, rfl⟩

theorem Untouched.trans {s s₁ s' : State} (h : Untouched k s s₁) (h' : Untouched k s₁ s') :
    Untouched k s s' := ⟨h'.1.trans h.1, h'.2.trans h.2⟩

theorem untouched_bind {α β : Type} {c : Script Stored α} {f : α → Script Stored β}
    (hc : c.Respects (Untouched k)) (hf : ∀ a, (f a).Respects (Untouched k)) :
    (c >>= f).Respects (Untouched k) := Respects.bind (R := Untouched k) Untouched.trans hc hf

theorem untouched_pure {α : Type} (a : α) : (pure a : Script Stored α).Respects (Untouched k) :=
  fun s => Untouched.refl s

theorem untouched_zadd {j : String} (hj : k ≠ j) (x : ℚ) (m : String) :
    (zadd j x m : Script Stored Unit).Respects (Untouched k) :=
  respects_guarded Untouched.refl fun s h => ⟨rfl, by simp [hj]⟩

theorem untouched_zrem {j : String} (hj : k ≠ j) (m : String) :
    (zrem j m : Script Stored Nat).Respects (Untouched k) :=
  respects_guarded Untouched.refl fun s h => ⟨rfl, by simp [hj]⟩

theorem untouched_srem (j m : String) : (srem j m : Script Stored Unit).Respects (Untouched k) :=
  respects_guarded Untouched.refl fun _ _ => ⟨rfl, rfl⟩

theorem untouched_rebalance {masterQueueKey : String} (hj : k ≠ masterQueueKey)
    (queueKey queueName : String) :
    (rebalance masterQueueKey queueKey queueName).Respects (Untouched k) := by
  refine untouched_bind (respects_guarded Untouched.refl fun s _ => Untouched.refl s) fun o => ?_
  rcases o with _ | ⟨_, x⟩
  · exact untouched_bind (untouched_zrem hj _) fun _ => untouched_pure ()
  · exact untouched_zadd hj _ _

theorem untouched_removeConcurrency (a b c d r : String) :
    (removeConcurrency a b c d r).Respects (Untouched k) :=
  untouched_bind (untouched_srem _ _) fun _ => untouched_bind (untouched_srem _ _) fun _ =>
    untouched_bind (untouched_srem _ _) fun _ => untouched_srem _ _

end Untouched

/-! ## 再投入 -/

/-- `env` の run として送られた message。 -/
structure SentFrom (env : Environment) (message : InputPayload) : Prop where
  org : message.orgId = env.organizationId
  project : message.projectId = env.projectId
  env : message.environmentId = env.id

/-- 再投入後の状態。引数は `redriveMessage(env, runId)` が送るものである。 -/
def Config.afterRedrive (cfg : Config) (env : Environment) (runId : String) (s : State) : State :=
  (cfg.handleRedriveMessage runId env.id env.projectId env.organizationId s).2

/-- 再投入が run を元の queue に戻した。 -/
structure RedriveRestores (env : Environment) (message : InputPayload) (s' : State) : Prop where
  queue : (s'.zsets (queueKey env.descriptor message.queue message.concurrencyKey)).score?
    message.runId ≠ none
  envQueue : (s'.zsets (envQueueKey env.descriptor)).score? message.runId ≠ none
  deadLetter : (s'.zsets (deadLetterQueueKey env.descriptor)).score? message.runId = none
  payload : ∃ m, s'.strs (messageKey env.organizationId message.runId) = some (.message m) ∧
    m.attempt = 0 ∧ m.queue = queueKey env.descriptor message.queue message.concurrencyKey

section Redrive

variable {cfg : Config} {s : State}

/-- `enqueueMessage` は payload を置き、自分の queue でない queue key `k` には触れない。 -/
theorem wp_callEnqueueMessage_untouched {m : OutputPayload} {d : EnvDescriptor} {q k : String}
    {ck : Option String} (hd : d.NoColons) (hm : m.queue = queueKey d q ck) (hk : kindOf k = none)
    (hne : k ≠ queueKey d q ck) (horg : NoColon m.orgId) :
    wp (cfg.callEnqueueMessage m) (fun _ s' => s'.zsets k = s.zsets k ∧
      s'.strs (messageKey m.orgId m.runId) = some (.message m)) s := by
  have hmsg : k ≠ messageKey m.orgId m.runId :=
    ne_of_kindOf (by simp [hk, kindOf_messageKey horg])
  have henvQ : k ≠ envQueueKey d.stripped :=
    ne_of_kindOf (by simp [hk, kindOf_envQueueKey hd.stripped])
  have hmaster : k ≠ cfg.masterQueueKeyForEnvironment m.environmentId :=
    ne_of_kindOf (by simp [hk, Config.masterQueueKeyForEnvironment, kindOf_masterQueueKeyForShard])
  unfold Config.callEnqueueMessage
  rw [hm, envCurrentConcurrencyKeyFromQueue_queueKey hd, envCurrentDequeuedKeyFromQueue_queueKey hd,
    envQueueKeyFromQueue_queueKey hd]
  simp only [key_some, pure_script_bind]
  refine wp_bind (wp_set ?_)
  set s₁ := s.setStr (messageKey m.orgId m.runId) (some (.message m)) with hs₁
  have hrest := (untouched_bind (untouched_zadd hne m.timestamp m.runId) fun _ =>
    untouched_bind (untouched_zadd henvQ m.timestamp m.runId) fun _ =>
    untouched_bind (untouched_rebalance hmaster (queueKey d q ck) (queueKey d q ck)) fun _ =>
    untouched_removeConcurrency (queueCurrentConcurrencyKeyFromQueue (queueKey d q ck))
      (envCurrentConcurrencyKey d.stripped) (queueCurrentDequeuedKeyFromQueue (queueKey d q ck))
      (envCurrentDequeuedKey d.stripped) m.runId) s₁
  refine ⟨hrest.2.trans ?_, (congrFun hrest.1 _).trans ?_⟩
  · simp [hs₁, hmsg]
  · simp [hs₁]

/-- payload が読み戻す環境。 -/
def OutputPayload.env (m : OutputPayload) : EnvDescriptor :=
  ⟨m.orgId, m.projectId, m.environmentId⟩

/-- 再投入は、payload の queue を入れ子の key にし、他の queue key `k` には触れない。 -/
theorem wp_handleRedriveMessage (cfg : Config) {m : OutputPayload} {k : String} (hd : m.env.NoColons)
    (hstored : s.strs (messageKey m.orgId m.runId) = some (.message m)) (hk : kindOf k = none)
    (hne : k ≠ queueKey m.env m.queue m.concurrencyKey) :
    wp (cfg.handleRedriveMessage m.runId m.environmentId m.projectId m.orgId) (fun _ s' =>
      s'.zsets k = s.zsets k ∧ ∃ m', s'.strs (messageKey m.orgId m.runId) = some (.message m') ∧
        m'.queue = queueKey m.env m.queue m.concurrencyKey) s := by
  have htyped : s.StrTyped (messageKey m.orgId m.runId) := s.str_excl _ (by simp [hstored])
  have hdlq : k ≠ deadLetterQueueKey m.env :=
    ne_of_kindOf (by simp [hk, kindOf_deadLetterQueueKey hd])
  refine wp_bind (wp_bind (wp_get (fun _ => ?_) (fun h => absurd htyped h)))
  rw [hstored]
  refine wp_pure.mpr (wp_bind (wp_mono
    (wp_callEnqueueMessage_untouched (d := m.env) hd rfl hk hne hd.org) ?_))
  rintro res s₁ ⟨hz, hp⟩
  rcases res with e | ⟨⟩
  · exact ⟨hz, _, hp, rfl⟩
  · refine wp_bind (wp_zrem (fun ht => wp_pure.mpr ⟨?_, _, hp, rfl⟩) (fun _ => ⟨hz, _, hp, rfl⟩))
    exact (Function.update_of_ne hdlq _ _).trans hz

/-- **再投入は、どの run も元の queue に戻さない。** 保存された payload の queue は元の key でなく
なり、dead letter queue に移っていた run は、元の queue の整列集合にも入らない。 -/
theorem redrive_never_restores (cfg : Config) (env : Environment) (message : InputPayload)
    (workerQueue : String) (attempt : Nat) (s : State) (hn : env.descriptor.NoColons)
    (hsent : SentFrom env message)
    (hstored : s.strs (messageKey env.organizationId message.runId) =
      some (.message { enqueuePayload env message workerQueue with attempt := attempt })) :
    ¬ RedriveRestores env message (cfg.afterRedrive env message.runId s) ∧
      (∀ m, (cfg.afterRedrive env message.runId s).strs
          (messageKey env.organizationId message.runId) = some (.message m) →
        m.queue ≠ queueKey env.descriptor message.queue message.concurrencyKey) ∧
      ((s.zsets (queueKey env.descriptor message.queue message.concurrencyKey)).score?
          message.runId = none →
        ((cfg.afterRedrive env message.runId s).zsets
          (queueKey env.descriptor message.queue message.concurrencyKey)).score?
          message.runId = none) := by
  set k := queueKey env.descriptor message.queue message.concurrencyKey with hk
  set m : OutputPayload := { enqueuePayload env message workerQueue with attempt := attempt } with hm
  have henv : m.env = env.descriptor := by
    simp only [hm, OutputPayload.env, enqueuePayload, Environment.descriptor, hsent.org,
      hsent.project, hsent.env]
  have hne : k ≠ queueKey m.env m.queue m.concurrencyKey := (queueKey_ne_self _ k _).symm
  have horg : m.orgId = env.organizationId := hsent.org
  have hwp := wp_handleRedriveMessage cfg (k := k) (henv ▸ hn) (horg ▸ hstored)
    (kindOf_queueKey hn _ _) hne
  rw [show m.environmentId = env.id from hsent.env, show m.projectId = env.projectId from
    hsent.project, horg] at hwp
  obtain ⟨hz, m', hm', hq'⟩ := hwp
  have hqueue : ∀ m'', (cfg.afterRedrive env message.runId s).strs
      (messageKey env.organizationId message.runId) = some (.message m'') → m''.queue ≠ k := by
    intro m'' hm'' h
    obtain rfl : m' = m'' := by
      have := hm'.symm.trans hm''
      simpa using this
    exact hne (h.symm.trans hq')
  refine ⟨fun h => ?_, hqueue, fun h => ?_⟩
  · obtain ⟨m'', hm'', _, hq⟩ := h.payload
    exact hqueue m'' hm'' hq
  · exact (congrArg (fun z : ZSet => z.score? message.runId) hz).trans h

end Redrive

/-! ## 失敗する run -/

/-- 一度の失敗で dead letter queue に移る設定。 -/
def oneAttemptConfig : Config where
  shardOf _ := 1
  defaultEnvConcurrency := 10
  defaultEnvConcurrencyBurstFactor := none
  mul := (· * ·)
  maxAttempts := 1
  overrides := none

def redriveEnv : Environment where
  id := "e1"
  type := .production
  projectId := "p1"
  organizationId := "o1"
  maximumConcurrencyLimit := 10
  concurrencyLimitBurstFactor := 2

def redriveMessage : InputPayload where
  runId := "run_1"
  taskIdentifier := "hello"
  orgId := "o1"
  projectId := "p1"
  environmentId := "e1"
  environmentType := .production
  queue := "q"
  concurrencyKey := none
  timestamp := 5
  attempt := 0

/-- 投入した run が失敗し、dead letter queue に移った状態。 -/
def deadLettered : State :=
  (oneAttemptConfig.nackMessage "o1" "run_1" true 9 8
    (oneAttemptConfig.enqueueMessage redriveEnv redriveMessage "us-east-1" Db.empty).2).2

theorem redrive_never_restores_sample :
    (deadLettered.zsets (deadLetterQueueKey redriveEnv.descriptor)).score? "run_1" = some 8 ∧
      ¬ RedriveRestores redriveEnv redriveMessage
        (oneAttemptConfig.afterRedrive redriveEnv "run_1" deadLettered) :=
  ⟨by decide +kernel, (redrive_never_restores oneAttemptConfig redriveEnv redriveMessage "us-east-1"
    0 deadLettered (by decide) ⟨rfl, rfl, rfl⟩ (by decide +kernel)).1⟩

/-- 再投入した run は、queue `q` の整列集合に戻らない。 -/
theorem redrive_misses_queue : ¬ RedriveRestores redriveEnv redriveMessage
    (oneAttemptConfig.afterRedrive redriveEnv "run_1" deadLettered) :=
  fun h => h.queue (by decide +kernel)

end RunQueue
