import Trigger.RunQueue.Representation

/-!
# RunQueue の表現不変条件

空の Redis から始め、七つの command をどの順にいくつ走らせても、次が保たれる。

* 環境の queue は、その環境の queue の互いに交わらない和である。
* run は自分の queue と `currentConcurrency` に同時には入らない。
* 環境の `currentConcurrency` は、その環境の queue のものの和である。
* queue は、空でないときに限り、最小の score で master queue に載る。

証明は二段になっている。抽象状態の側で `Consistent` を一度に更新する補題（`Consistent.place` など）と、
script の一歩ごとに `Rep` を運ぶ規則である。script がどこで止まっても、そのときの抽象状態は
元のままか、更新の済んだものか、実行中の印を外しただけのもののどれかになる。
-/

namespace RunQueue

open Infra Infra.Text
open Infra.Redis Infra.Redis.Script
open SortedSet (IsMinScore)

/-! ## 抽象状態の整合性 -/

/-- 居場所 `h` の queue に入っている run の score。 -/
def Shadow.inQueue (D : Deployment) (A : Shadow) (h : Home) (r : String) : Option ℚ :=
  if D.homeKey r = D.key h then A.qs r else none

/-- 整合した抽象状態。`dirty` の queue だけは、master queue への反映が済んでいなくてよい。 -/
structure ConsistentOff (D : Deployment) (dirty : Option String) (A : Shadow) : Prop where
  score : A.qs = A.es
  running : A.rc = A.ec
  excl : ∀ r, A.rc r = true → A.qs r = none
  master : ∀ h : Home, dirty ≠ some (D.key h) → IsMinScore (A.inQueue D h) (A.ms (D.key h))

/-- 整合した抽象状態。 -/
abbrev Consistent (D : Deployment) (A : Shadow) : Prop := ConsistentOff D none A

section Consistency

variable {D : Deployment} {A : Shadow}

/-- 実行中の印を外す。 -/
theorem ConsistentOff.release {d : Option String} (hA : ConsistentOff D d A) (r : String) :
    ConsistentOff D d ((A.setRc r false).setEc r false) := by
  refine ⟨hA.score, ?_, ?_, hA.master⟩
  · simp [Shadow.setRc, Shadow.setEc, hA.running]
  · intro n hn
    by_cases hnr : n = r
    · subst hnr
      simp [Shadow.setRc, Shadow.setEc] at hn
    · simp [Shadow.setRc, Shadow.setEc, hnr] at hn
      exact hA.excl n hn

/-- run を queue に置く（`some`）、または外す（`none`）。実行中の印は外れる。 -/
theorem ConsistentOff.place {d : Option String} (hA : ConsistentOff D d A) {r : String}
    (hd : d = none ∨ d = some (D.homeKey r)) (o : Option ℚ) :
    ConsistentOff D (some (D.homeKey r))
      ((((A.setQs r o).setEs r o).setRc r false).setEc r false) := by
  refine ⟨?_, ?_, ?_, ?_⟩
  · simp [Shadow.setQs, Shadow.setEs, Shadow.setRc, Shadow.setEc, hA.score]
  · simp [Shadow.setQs, Shadow.setEs, Shadow.setRc, Shadow.setEc, hA.running]
  · intro n hn
    by_cases hnr : n = r
    · subst hnr
      simp [Shadow.setRc, Shadow.setEc] at hn
    · have hrc : A.rc n = true := by
        simpa [Shadow.setQs, Shadow.setEs, Shadow.setRc, Shadow.setEc, hnr] using hn
      simpa [Shadow.setQs, Shadow.setEs, Shadow.setRc, Shadow.setEc, hnr] using hA.excl n hrc
  · intro h hh
    have hne : D.homeKey r ≠ D.key h := fun e => hh (congrArg some e)
    have hm := hA.master h (by rcases hd with hd | hd <;> rw [hd] <;> simp [hne])
    -- 変わったのは `r` だけで、`r` はこの queue のものではない。
    have hf : ((((A.setQs r o).setEs r o).setRc r false).setEc r false).inQueue D h
        = A.inQueue D h := by
      funext n
      by_cases hnr : n = r
      · subst hnr
        simp [Shadow.inQueue, hne]
      · simp [Shadow.inQueue, Shadow.setQs, Shadow.setEs, Shadow.setRc, Shadow.setEc, hnr]
    rw [hf]
    exact hm

/-- run を queue から外し、実行中にする。 -/
theorem ConsistentOff.start {d : Option String} (hA : ConsistentOff D d A) {r : String}
    (hd : d = none ∨ d = some (D.homeKey r)) :
    ConsistentOff D (some (D.homeKey r))
      ((((A.setQs r none).setEs r none).setRc r true).setEc r true) := by
  have hp := hA.place hd none
  refine ⟨hp.score, ?_, ?_, hp.master⟩
  · simp [Shadow.setQs, Shadow.setEs, Shadow.setRc, Shadow.setEc, hA.running]
  · intro n hn
    by_cases hnr : n = r
    · subst hnr
      simp [Shadow.setQs, Shadow.setEs, Shadow.setRc, Shadow.setEc]
    · have hrc : A.rc n = true := by
        simpa [Shadow.setQs, Shadow.setEs, Shadow.setRc, Shadow.setEc, hnr] using hn
      simpa [Shadow.setQs, Shadow.setEs, Shadow.setRc, Shadow.setEc, hnr] using hA.excl n hrc

/-- 最小の score を master queue に反映すれば、全体が整合する。 -/
theorem ConsistentOff.rebalance {d : Option String} (hA : ConsistentOff D d A) {h : Home}
    (hd : d = none ∨ d = some (D.key h)) {o : Option ℚ} (ho : IsMinScore (A.inQueue D h) o) :
    Consistent D (A.setMs (D.key h) o) := by
  refine ⟨hA.score, hA.running, hA.excl, ?_⟩
  intro h' _
  by_cases hk : D.key h' = D.key h
  · have hf : (A.setMs (D.key h) o).inQueue D h' = A.inQueue D h := by
      funext n
      simp [Shadow.inQueue, Shadow.setMs, hk]
    rw [hf, hk]
    simpa [Shadow.setMs] using ho
  · have hm := hA.master h' (by
      rcases hd with hd | hd
      · simp [hd]
      · simpa [hd] using fun e => hk e.symm)
    have hms : (A.setMs (D.key h) o).ms (D.key h') = A.ms (D.key h') := by simp [Shadow.setMs, hk]
    rw [hms]
    exact hm

end Consistency

/-! ## script の一歩ごとの規則

`ZREM` と `SREM` は、error になるなら要素が無いので、どちらの場合も「外した」抽象状態を表す。 -/

section Rules

variable {D : Deployment} {s : State} {A : Shadow}

theorem Shadow.setQs_self {r : String} {o : Option ℚ} (h : A.qs r = o) : A.setQs r o = A := by
  unfold Shadow.setQs
  rw [← h, Function.update_eq_self]

theorem Shadow.setRc_self {r : String} {b : Bool} (h : A.rc r = b) : A.setRc r b = A := by
  unfold Shadow.setRc
  rw [← h, Function.update_eq_self]

theorem Shadow.setEc_self {r : String} {b : Bool} (h : A.ec r = b) : A.setEc r b = A := by
  unfold Shadow.setEc
  rw [← h, Function.update_eq_self]

theorem wp_zadd_queue (hrep : Rep D s A) {r : String} {x : ℚ}
    {Q : Except Error Unit → State → Prop}
    (hok : ∀ s', s'.ZTyped (D.homeKey r) → Rep D s' (A.setQs r (some x)) → Q (.ok ()) s')
    (herr : Q (.error .wrongType) s) : wp (zadd (D.homeKey r) x r) Q s :=
  wp_zadd (fun ht => hok _ ht (hrep.setQueue (fun n => by simp) ht)) (fun _ => herr)

theorem wp_zrem_queue (hrep : Rep D s A) {r : String} {Q : Except Error Nat → State → Prop}
    (hok : ∀ n s', s'.ZTyped (D.homeKey r) →
      (∀ k, k ≠ D.homeKey r → s.STyped k → s'.STyped k) → Rep D s' (A.setQs r none) →
      Q (.ok n) s')
    (herr : ¬ s.ZTyped (D.homeKey r) → Rep D s (A.setQs r none) → Q (.error .wrongType) s) :
    wp (zrem (D.homeKey r) r) Q s := by
  refine wp_zrem (fun ht => hok _ _ ht ?_ (hrep.setQueue (fun n => by simp) ht)) (fun ht => ?_)
  · intro k hk hS
    simpa [Db.STyped, hk] using hS
  · refine herr ht ?_
    have hq : A.qs r = none := by
      have := hrep.queue (D.home r) r
      rw [show D.key (D.home r) = D.homeKey r from rfl, Db.zsets_eq_empty ht] at this
      simpa using this.symm
    rwa [Shadow.setQs_self hq]

theorem wp_zadd_envQueue (hrep : Rep D s A) {r : String} {x : ℚ}
    {Q : Except Error Unit → State → Prop}
    (hok : ∀ s', (∀ k, s.ZTyped k → s'.ZTyped k) → Rep D s' (A.setEs r (some x)) → Q (.ok ()) s') :
    wp (zadd (D.envQ (D.home r).envId) x r) Q s := by
  have ht := hrep.typed.zset _ (Deployment.kindOf_envQ (D := D) (D.home r).noColon)
  exact wp_zadd (fun ht => hok _ (fun _ h => h) (hrep.setEnvQueue (fun n => by simp) ht))
    (fun h => absurd ht h)

theorem wp_zrem_envQueue (hrep : Rep D s A) {r : String} {Q : Except Error Nat → State → Prop}
    (hok : ∀ n s', (∀ k, s.ZTyped k → s'.ZTyped k) →
      (∀ k, k ≠ D.envQ (D.home r).envId → s.STyped k → s'.STyped k) →
      Rep D s' (A.setEs r none) → Q (.ok n) s') :
    wp (zrem (D.envQ (D.home r).envId) r) Q s := by
  have ht := hrep.typed.zset _ (Deployment.kindOf_envQ (D := D) (D.home r).noColon)
  refine wp_zrem (fun ht => hok _ _ (fun _ h => h) ?_ (hrep.setEnvQueue (fun n => by simp) ht))
    (fun h => absurd ht h)
  intro k hk hS
  simpa [Db.STyped, hk] using hS

/-- `rebalance` は、queue の最小の score を master queue に載せる。 -/
theorem wp_rebalance (hrep : Rep D s A) (h : Home) (ht : s.ZTyped (D.key h))
    {Q : Except Error Unit → State → Prop}
    (hok : ∀ s' o, IsMinScore (A.inQueue D h) o → Rep D s' (A.setMs (D.key h) o) → Q (.ok ()) s') :
    wp (rebalance (D.master h.envId) (D.key h) (D.key h)) Q s := by
  have hm := hrep.typed.zset _ (Deployment.kindOf_master (D := D) h.envId)
  have hmin : IsMinScore (A.inQueue D h) (s.zsets (D.key h)).minScore? := by
    have := (s.zsets (D.key h)).minScore?_isMin
    rwa [show (s.zsets (D.key h)).score? = A.inQueue D h from funext (hrep.queue h)] at this
  refine wp_bind (wp_zfirst (fun _ => ?_) (fun hn => absurd ht hn))
  rcases he : (s.zsets (D.key h)).entries.head? with _ | ⟨m, x⟩
  · refine wp_bind (wp_zrem (fun hz => ?_) (fun hn => absurd hm hn))
    have ho : (s.zsets (D.key h)).minScore? = none := by simp [SortedSet.minScore?, he]
    exact hok _ none (ho ▸ hmin) (hrep.setMaster (fun n => by simp) hz)
  · refine wp_zadd (fun hz => ?_) (fun hn => absurd hm hn)
    have ho : (s.zsets (D.key h)).minScore? = some x := by simp [SortedSet.minScore?, he]
    exact hok _ (some x) (ho ▸ hmin) (hrep.setMaster (fun n => by simp) hz)

theorem wp_srem_queueCC (hrep : Rep D s A) {r : String} {Q : Except Error Unit → State → Prop}
    (hok : ∀ s', Rep D s' (A.setRc r false) → Q (.ok ()) s')
    (herr : A.rc r = false → Q (.error .wrongType) s) :
    wp (srem (queueCurrentConcurrencyKeyFromQueue (D.homeKey r)) r) Q s := by
  refine wp_srem (fun ht => hok _ (hrep.setQueueCC (fun n => ?_) ht)) (fun ht => herr ?_)
  · by_cases hn : n = r <;> simp [hn]
  · have := hrep.queueCC (D.home r) r
    rw [show D.key (D.home r) = D.homeKey r from rfl, Db.sets_eq_empty ht] at this
    simpa using this

theorem wp_srem_envCC (hrep : Rep D s A) {r : String} {Q : Except Error Unit → State → Prop}
    (hok : ∀ s', Rep D s' (A.setEc r false) → Q (.ok ()) s') :
    wp (srem (D.envCC (D.home r).envId) r) Q s := by
  have ht := hrep.typed.set _ (Deployment.kindOf_envCC (D := D) (D.home r).noColon)
  refine wp_srem (fun ht => hok _ (hrep.setEnvCC (fun n => ?_) ht)) (fun h => absurd ht h)
  by_cases hn : n = r <;> simp [hn]

theorem wp_sadd_queueCC (hrep : Rep D s A) {r : String}
    (hS : s.STyped (queueCurrentConcurrencyKeyFromQueue (D.homeKey r)))
    {Q : Except Error Unit → State → Prop}
    (hok : ∀ s', (∀ k, k ≠ queueCurrentConcurrencyKeyFromQueue (D.homeKey r) → s.ZTyped k →
      s'.ZTyped k) → (∀ k, s.STyped k → s'.STyped k) → Rep D s' (A.setRc r true) → Q (.ok ()) s') :
    wp (sadd (queueCurrentConcurrencyKeyFromQueue (D.homeKey r)) r) Q s := by
  refine wp_sadd (fun ht => hok _ ?_ (fun _ h => h) (hrep.setQueueCC (fun n => ?_) ht))
    (fun hn => absurd hS hn)
  · intro k hk hZ
    simpa [Db.ZTyped, hk] using hZ
  · by_cases hn : n = r <;> simp [hn]

theorem wp_sadd_envCC (hrep : Rep D s A) {r : String} {Q : Except Error Unit → State → Prop}
    (hok : ∀ s', (∀ k, k ≠ D.envCC (D.home r).envId → s.ZTyped k → s'.ZTyped k) →
      (∀ k, s.STyped k → s'.STyped k) → Rep D s' (A.setEc r true) → Q (.ok ()) s') :
    wp (sadd (D.envCC (D.home r).envId) r) Q s := by
  have hS := hrep.typed.set _ (Deployment.kindOf_envCC (D := D) (D.home r).noColon)
  refine wp_sadd (fun ht => hok _ ?_ (fun _ h => h) (hrep.setEnvCC (fun n => ?_) ht))
    (fun hn => absurd hS hn)
  · intro k hk hZ
    simpa [Db.ZTyped, hk] using hZ
  · by_cases hn : n = r <;> simp [hn]

/-- `SREM` の四つ組は、どこで止まっても実行中の印を外し終えている。 -/
theorem wp_removeConcurrency (hrep : Rep D s A) {r : String} (hrc : A.rc r = A.ec r)
    {Q : Except Error Unit → State → Prop}
    (hQ : ∀ res s', Rep D s' ((A.setRc r false).setEc r false) → Q res s') :
    wp (removeConcurrency (queueCurrentConcurrencyKeyFromQueue (D.homeKey r))
      (D.envCC (D.home r).envId) (queueCurrentDequeuedKeyFromQueue (D.homeKey r))
      (D.envCD (D.home r).envId) r) Q s := by
  refine wp_bind (wp_srem_queueCC hrep (fun s₁ h₁ => ?_) (fun hf => ?_))
  · refine wp_bind (wp_srem_envCC h₁ fun s₂ h₂ => ?_)
    refine wp_bind (wp_srem (fun ht => ?_) (fun _ => hQ _ _ h₂))
    have h₃ := h₂.setDequeued (t := (s₂.sets (queueCurrentDequeuedKeyFromQueue (D.homeKey r))).erase r)
      (lastPart_currentDequeued _) (Or.inr (Deployment.kindOf_queueCD (D.home r))) ht
    refine wp_srem (fun ht' => ?_) (fun _ => hQ _ _ h₃)
    exact hQ _ _ (h₃.setDequeued (lastPart_envPartKey _ (by decide))
      (Or.inl (Deployment.kindOf_envCD (D.home r).noColon)) ht')
  · -- queue の印が `WRONGTYPE` なら、どちらの印も元から無い。
    refine hQ _ _ ?_
    rw [Shadow.setRc_self hf, Shadow.setEc_self (hrc ▸ hf)]
    exact hrep

end Rules

/-! ## `#call…` の key

居場所の通りの payload なら、`#call…` は script を `Deployment` の key で呼ぶ。 -/

section Calls

variable {D : Deployment} {m : OutputPayload}

theorem Deployment.WellFormed.envQueueKey (hm : D.WellFormed m) :
    envQueueKeyFromQueue m.queue = some (D.envQ (D.home m.runId).envId) := by
  rw [hm.queue]
  exact envQueueKeyFromQueue_queueKey (Deployment.home_noColons _) _ _

theorem Deployment.WellFormed.envCurrentConcurrencyKey (hm : D.WellFormed m) :
    envCurrentConcurrencyKeyFromQueue m.queue = some (D.envCC (D.home m.runId).envId) := by
  rw [hm.queue]
  exact envCurrentConcurrencyKeyFromQueue_queueKey (Deployment.home_noColons _) _ _

theorem Deployment.WellFormed.envCurrentDequeuedKey (hm : D.WellFormed m) :
    envCurrentDequeuedKeyFromQueue m.queue = some (D.envCD (D.home m.runId).envId) := by
  rw [hm.queue]
  exact envCurrentDequeuedKeyFromQueue_queueKey (Deployment.home_noColons _) _ _

theorem Deployment.WellFormed.deadLetterQueueKey (hm : D.WellFormed m) :
    deadLetterQueueKeyFromQueue m.queue = some (D.dlq (D.home m.runId).envId) := by
  rw [hm.queue]
  exact deadLetterQueueKeyFromQueue_queueKey (Deployment.home_noColons _) _ _

theorem Deployment.WellFormed.messageKind (hm : D.WellFormed m) :
    kindOf (messageKey m.orgId m.runId) = some .str :=
  kindOf_messageKey (by rw [hm.org]; exact D.org_noColon _) _

end Calls

/-! ## command ごとの保存 -/

section Commands

variable {D : Deployment} {s : State} {A : Shadow} {m : OutputPayload}

/-- 整合した抽象状態を表す。 -/
def Good (D : Deployment) (s : State) : Prop := ∃ A, Rep D s A ∧ Consistent D A

theorem callEnqueueMessage_good (hg : Good D s) (hm : D.WellFormed m) :
    wp (D.cfg.callEnqueueMessage m) (fun _ s' => Good D s') s := by
  obtain ⟨A, hrep, hA⟩ := hg
  unfold Config.callEnqueueMessage
  simp only [hm.envCurrentConcurrencyKey, hm.envCurrentDequeuedKey, hm.envQueueKey, key_some,
    pure_script_bind]
  have hset := hrep.setMessage (v := some (.message m)) hm.messageKind (by rintro _ ⟨⟩; exact hm)
  rw [hm.queue, hm.env]
  refine wp_bind (wp_set ?_)
  refine wp_bind (wp_zadd_queue hset (fun s₁ ht h₁ => ?_) ⟨A, hset, hA⟩)
  refine wp_bind (wp_zadd_envQueue h₁ fun s₂ ht' h₂ => ?_)
  refine wp_bind (wp_rebalance h₂ (D.home m.runId) (ht' _ ht) fun s₃ o ho h₃ => ?_)
  refine wp_removeConcurrency h₃ (congrFun hA.running _) fun _ s₄ h₄ => ⟨_, h₄, ?_⟩
  exact (hA.place (Or.inl rfl) (some m.timestamp)).rebalance (h := D.home m.runId) (Or.inr rfl) ho

/-- queue から外して master queue に反映する（`acknowledgeMessage` と `moveToDeadLetterQueue` の
共通部分）。`ZREM` が止まるのは、外す前だけである。 -/
theorem wp_unqueue (hrep : Rep D s A) (hA : Consistent D A) {r : String} {c : Script Stored Unit}
    {Q : Except Error Unit → State → Prop}
    (hok : ∀ s' A', Rep D s' A' → A'.rc r = A'.ec r →
      Consistent D ((A'.setRc r false).setEc r false) → wp c Q s')
    (herr : Q (.error .wrongType) s) :
    wp (do
      let _ ← zrem (D.homeKey r) r
      let _ ← zrem (D.envQ (D.home r).envId) r
      rebalance (D.master (D.home r).envId) (D.homeKey r) (D.homeKey r)
      c) Q s := by
  refine wp_bind (wp_zrem_queue hrep (fun _ s₁ ht _ h₁ => ?_) (fun _ _ => herr))
  refine wp_bind (wp_zrem_envQueue h₁ fun _ s₂ ht' _ h₂ => ?_)
  refine wp_bind (wp_rebalance h₂ (D.home r) (ht' _ ht) fun s₃ o ho h₃ => ?_)
  refine hok s₃ _ h₃ (congrFun hA.running r) ?_
  exact (hA.place (Or.inl rfl) none).rebalance (h := D.home r) (Or.inr rfl) ho

theorem callAcknowledgeMessage_good (hg : Good D s) (hm : D.WellFormed m) (b : Bool) :
    wp (D.cfg.callAcknowledgeMessage m b) (fun _ s' => Good D s') s := by
  obtain ⟨A, hrep, hA⟩ := hg
  unfold Config.callAcknowledgeMessage
  simp only [hm.envCurrentConcurrencyKey, hm.envCurrentDequeuedKey, hm.envQueueKey, key_some,
    pure_script_bind]
  have hdel := hrep.setMessage (v := none) hm.messageKind (by simp)
  rw [hm.queue, hm.env]
  refine wp_bind (wp_del ?_)
  refine wp_unqueue hdel hA (fun s₁ A₁ h₁ hrc hc => ?_) ⟨A, hdel, hA⟩
  refine wp_bind (wp_removeConcurrency h₁ hrc fun res s₂ h₂ => ?_)
  have hg : Good D s₂ := ⟨_, h₂, hc⟩
  rcases res with e | ⟨⟩
  · exact hg
  · rcases b with _ | _
    · exact hg
    · exact wp_guarded (fun ht => ⟨_, h₂.setWorkerQueue ht, hc⟩) (fun _ => hg)

theorem callMoveToDeadLetterQueue_good (hg : Good D s) (hm : D.WellFormed m) (now : ℚ) :
    wp (D.cfg.callMoveToDeadLetterQueue m now) (fun _ s' => Good D s') s := by
  obtain ⟨A, hrep, hA⟩ := hg
  unfold Config.callMoveToDeadLetterQueue
  simp only [hm.envCurrentConcurrencyKey, hm.envCurrentDequeuedKey, hm.envQueueKey,
    hm.deadLetterQueueKey, key_some, pure_script_bind]
  rw [hm.queue, hm.env]
  refine wp_unqueue hrep hA (fun s₁ A₁ h₁ hrc hc => ?_) ⟨A, hrep, hA⟩
  have hcolon := (D.home m.runId).noColon
  have hdlq := h₁.typed.zset _ (Deployment.kindOf_dlq (D := D) hcolon)
  refine wp_bind (wp_zadd (fun ht => ?_) (fun hn => absurd hdlq hn))
  exact wp_removeConcurrency (h₁.setDeadLetter hcolon ht) hrc fun _ s₂ h₂ => ⟨_, h₂, hc⟩

theorem callNackMessage_good (hg : Good D s) (hm : D.WellFormed m) (x : ℚ) :
    wp (D.cfg.callNackMessage m x) (fun _ s' => Good D s') s := by
  obtain ⟨A, hrep, hA⟩ := hg
  unfold Config.callNackMessage
  simp only [hm.envCurrentConcurrencyKey, hm.envCurrentDequeuedKey, hm.envQueueKey, key_some,
    pure_script_bind]
  have hset := hrep.setMessage (v := some (.message m)) hm.messageKind (by rintro _ ⟨⟩; exact hm)
  rw [hm.queue, hm.env]
  refine wp_bind (wp_set ?_)
  refine wp_bind (wp_removeConcurrency hset (congrFun hA.running _) fun res s₁ h₁ => ?_)
  have hrel : Good D s₁ := ⟨_, h₁, hA.release m.runId⟩
  rcases res with e | ⟨⟩
  · exact hrel
  refine wp_bind (wp_zadd_queue h₁ (fun s₂ ht h₂ => ?_) hrel)
  refine wp_bind (wp_zadd_envQueue h₂ fun s₃ ht' h₃ => ?_)
  refine wp_rebalance h₃ (D.home m.runId) (ht' _ ht) fun s₄ o ho h₄ => ⟨_, h₄, ?_⟩
  exact (hA.place (Or.inl rfl) (some x)).rebalance (h := D.home m.runId) (Or.inr rfl) ho

theorem callReleaseConcurrency_good (hg : Good D s) (hm : D.WellFormed m) :
    wp (callReleaseConcurrency m) (fun _ s' => Good D s') s := by
  obtain ⟨A, hrep, hA⟩ := hg
  unfold callReleaseConcurrency
  simp only [hm.envCurrentConcurrencyKey, hm.envCurrentDequeuedKey, key_some, pure_script_bind]
  rw [hm.queue]
  exact wp_removeConcurrency hrep (congrFun hA.running _)
    fun _ s' h' => ⟨_, h', hA.release m.runId⟩

/-- 最後の `:queue:` で切った key も、環境か queue の `currentDequeued` の役割しか持たない。 -/
theorem kindOf_greedyDequeuedKey {h : Home} {p : List Char}
    (hp : beforeLast ":queue:".toList (D.key h).toList = some p) :
    kindOf (String.ofList p ++ ":currentDequeued") = some .set ∨
      kindOf (String.ofList p ++ ":currentDequeued") = none := by
  have hcolons := Deployment.home_noColons (D := D) h
  obtain ⟨p', hp', hcase⟩ := beforeLast_queueKey (D.desc h.envId) h.queue h.concurrencyKey
  obtain rfl : p = p' := by
    rw [show D.key h = queueKey (D.desc h.envId) h.queue h.concurrencyKey from rfl, hp'] at hp
    exact (Option.some.inj hp).symm
  rw [show (":currentDequeued" : String) = ":" ++ "currentDequeued" from rfl, ← String.append_assoc]
  rcases hcase with hx | ⟨x, hx, hq⟩ <;> rw [hx] <;> unfold kindOf signature
  · rw [splitColon_append, splitColon_envHead hcolons, splitColon_noColon (by decide)]
    exact Or.inl (by simp [envParts])
  · rw [splitColon_append, splitColon_append, splitColon_envHead hcolons]
    obtain ⟨rest, hrest⟩ : ∃ rest, splitColon x = "queue" :: rest := by
      rcases hs : splitColon x with _ | ⟨a, rest⟩
      · simp [hs] at hq
      · exact ⟨rest, by simpa [hs] using hq⟩
    rw [hrest]
    exact Or.inr (by simp [envParts])

theorem dequeueMessageFromKey_good (hg : Good D s) (k : String) :
    wp (dequeueMessageFromKeyLua k) (fun _ s' => Good D s') s := by
  obtain ⟨A, hrep, hA⟩ := hg
  have hg : Good D s := ⟨A, hrep, hA⟩
  refine wp_bind (wp_get (fun _ => ?_) (fun _ => hg))
  rcases hv : s.strs k with _ | _ | m
  · exact hg
  · exact hg
  · have hm := hrep.stored k m hv
    rcases hp : beforeLast ":queue:".toList m.queue.toList with _ | p
    · simp only [hp]
      exact hg
    · simp only [hp]
      rw [hm.queue] at hp ⊢
      refine wp_bind (wp_sadd (fun ht => ?_) (fun _ => hg))
      have h₁ := hrep.setDequeued (t := insert m.runId (s.sets (D.homeKey m.runId ++ ":currentDequeued")))
        (lastPart_currentDequeued _) (Or.inr (Deployment.kindOf_queueCD (D.home m.runId))) ht
      refine wp_bind (wp_sadd (fun ht' => ?_) (fun _ => ⟨A, h₁, hA⟩))
      exact ⟨A, h₁.setDequeued (lastPart_currentDequeued _) (kindOf_greedyDequeuedKey hp) ht', hA⟩

theorem queueCC_ne_key (k : String) : queueCurrentConcurrencyKeyFromQueue k ≠ k := by
  intro hk
  have := congrArg (fun t : String => t.toList.length) hk
  simp [queueCurrentConcurrencyKeyFromQueue] at this

/-- 取り出しの `for`。取り出す id は全てこの queue のもので、途中では止まらない。 -/
theorem wp_dequeueLoop {h : Home} {Q : Except Error (List DequeuedEntry) → State → Prop} :
    ∀ {messages : List (String × ℚ)} {s : State} {A : Shadow}, Rep D s A →
      ConsistentOff D (some (D.key h)) A → s.ZTyped (D.key h) →
      s.STyped (queueCurrentConcurrencyKeyFromQueue (D.key h)) →
      (∀ e ∈ messages, D.homeKey e.1 = D.key h) →
      (∀ res s' A', Rep D s' A' → ConsistentOff D (some (D.key h)) A' → s'.ZTyped (D.key h) →
        Q (.ok res) s') →
      wp (dequeueLoop (D.key h) (D.envQ h.envId) (queueCurrentConcurrencyKeyFromQueue (D.key h))
        (D.envCC h.envId) (orgKeySection (stripOrg (D.orgOf h.envId)) ++ ":message:") messages) Q s
  | [], s, A, hrep, hA, hZ, _, _, hQ => hQ [] s A hrep hA hZ
  | (r, x) :: messages, s, A, hrep, hA, hZ, hS, hmem, hQ => by
    have hr : D.homeKey r = D.key h := hmem (r, x) List.mem_cons_self
    have hrest : ∀ e ∈ messages, D.homeKey e.1 = D.key h :=
      fun e he => hmem e (List.mem_cons_of_mem _ he)
    have he : (D.home r).envId = h.envId := Deployment.key_envId hr
    have hstr := hrep.typed.str _
      (kindOf_messageKey (noColon_stripOrg (D.org_noColon h.envId)) r)
    unfold dequeueLoop
    rw [messageKeyPrefix_append]
    refine wp_bind (wp_get (fun _ => ?_) (fun hn => absurd hstr hn))
    rcases s.strs (messageKey (stripOrg (D.orgOf h.envId)) r) with _ | payload
    · exact wp_dequeueLoop hrep hA hZ hS hrest hQ
    · have hne := queueCC_ne_key (D.key h)
      have hne' : queueCurrentConcurrencyKeyFromQueue (D.key h) ≠ D.envQ h.envId :=
        ne_of_kindOf (by simp [Deployment.kindOf_queueCC, Deployment.kindOf_envQ h.noColon])
      have hne'' : D.key h ≠ D.envCC h.envId :=
        ne_of_kindOf (by simp [Deployment.kindOf_key, Deployment.kindOf_envCC h.noColon])
      simp only [← hr, ← he] at hZ hS hne hne' hne'' hA ⊢
      refine wp_bind (wp_zrem_queue hrep (fun _ s₁ hZ₁ hS₁ h₁ => ?_) (fun hn => absurd hZ hn))
      refine wp_bind (wp_zrem_envQueue h₁ fun _ s₂ hZ₂ hS₂ h₂ => ?_)
      refine wp_bind (wp_sadd_queueCC h₂ (hS₂ _ hne' (hS₁ _ hne hS)) fun s₃ hZ₃ hS₃ h₃ => ?_)
      refine wp_bind (wp_sadd_envCC h₃ fun s₄ hZ₄ hS₄ h₄ => ?_)
      have hZ' := hZ₄ _ hne'' (hZ₃ _ hne.symm (hZ₂ _ hZ₁))
      have hS' := hS₄ _ (hS₃ _ (hS₂ _ hne' (hS₁ _ hne hS)))
      have hA' := hA.start (Or.inr rfl)
      simp only [hr, he] at hZ' hS' hA' ⊢
      refine wp_bind (wp_dequeueLoop h₄ hA' hZ' hS' hrest fun res s' A' h' hA'' hZ'' => ?_)
      exact hQ _ s' A' h' hA'' hZ''

/-- queue の整列集合に入っている id は、その queue のものである。 -/
theorem Rep.homeKey_of_mem (hrep : Rep D s A) {h : Home} {max : ℚ} {e : String × ℚ}
    (he : e ∈ (s.zsets (D.key h)).rangeByScore max) : D.homeKey e.1 = D.key h := by
  have hs := (SortedSet.mem_rangeByScore.mp he).1
  rw [hrep.queue h e.1] at hs
  by_contra hne
  simp [hne] at hs

/-- 数の読み出しは状態を変えない。 -/
theorem wp_getNumberOr {k : String} {d : ℚ} {Q : Except Error (Option ℚ) → State → Prop}
    (hok : ∀ o, Q (.ok o) s) (herr : Q (.error .wrongType) s) : wp (getNumberOr k d) Q s := by
  refine wp_bind (wp_get (fun _ => ?_) (fun _ => herr))
  rcases s.strs k with _ | v
  · exact hok _
  · exact hok _

theorem callDequeueMessagesFromQueue_good (hg : Good D s) (h : Home) (currentTime maxCount : ℚ) :
    wp (D.cfg.callDequeueMessagesFromQueue (D.key h) (D.cfg.shardOf h.envId) currentTime maxCount)
      (fun _ s' => Good D s') s := by
  have hn := Deployment.home_noColons (D := D) h
  obtain ⟨A, hrep, hA⟩ := hg
  have hg : Good D s := ⟨A, hrep, hA⟩
  unfold Config.callDequeueMessagesFromQueue Deployment.key
  simp only [envConcurrencyLimitKeyFromQueue_queueKey hn,
    envConcurrencyLimitBurstFactorKeyFromQueue_queueKey hn,
    envCurrentConcurrencyKeyFromQueue_queueKey hn, messageKeyPrefixFromQueue_queueKey hn,
    envQueueKeyFromQueue_queueKey hn, key_some, pure_script_bind]
  -- 上限の検査はどれも状態を変えずに抜ける。
  refine wp_bind (wp_scard (fun _ => ?_) (fun _ => hg))
  refine wp_bind (wp_getNumberOr (fun o₁ => ?_) hg)
  refine wp_bind (wp_getNumberOr (fun o₂ => ?_) hg)
  rcases o₁ with _ | limit
  · exact hg
  rcases o₂ with _ | burst
  · exact hg
  simp only
  split
  · exact hg
  refine wp_bind (wp_scard (fun hS => ?_) (fun _ => hg))
  refine wp_bind (wp_getNumberOr (fun o₃ => ?_) hg)
  rcases o₃ with _ | queueLimit
  · exact hg
  simp only
  split
  · exact hg
  split
  · exact hg
  refine wp_bind (wp_zrangebyscore (fun _ hZ => ?_) (fun _ => hg) (fun _ => hg))
  simp only
  split
  · exact hg
  have hoff : ConsistentOff D (some (D.key h)) A :=
    ⟨hA.score, hA.running, hA.excl, fun h' _ => hA.master h' (by simp)⟩
  refine wp_bind (wp_dequeueLoop hrep hoff hZ hS
    (fun e he => hrep.homeKey_of_mem (mem_of_mem_limitTo he)) fun res s₁ A₁ h₁ hA₁ hZ₁ => ?_)
  refine wp_bind (wp_rebalance h₁ h hZ₁ fun s₂ o ho h₂ => ?_)
  exact ⟨_, h₂, hA₁.rebalance (Or.inr rfl) ho⟩

end Commands

/-! ## 走行 -/

/-- 七つの command。 -/
inductive Command
  | enqueueMessage (message : OutputPayload)
  | dequeueMessagesFromQueue (queue : Home) (currentTime maxCount : ℚ)
  | dequeueMessageFromKey (messageKey : String)
  | acknowledgeMessage (message : OutputPayload) (removeFromWorkerQueue : Bool)
  | nackMessage (message : OutputPayload) (messageScore : ℚ)
  | moveToDeadLetterQueue (message : OutputPayload) (now : ℚ)
  | releaseConcurrency (message : OutputPayload)

/-- payload は居場所の通りのものに限る。 -/
def Command.Admissible (D : Deployment) : Command → Prop
  | .enqueueMessage m => D.WellFormed m
  | .dequeueMessagesFromQueue _ _ _ => True
  | .dequeueMessageFromKey _ => True
  | .acknowledgeMessage m _ => D.WellFormed m
  | .nackMessage m _ => D.WellFormed m
  | .moveToDeadLetterQueue m _ => D.WellFormed m
  | .releaseConcurrency m => D.WellFormed m

/-- command を走らせた後の状態。 -/
def Command.exec (D : Deployment) (s : State) : Command → State
  | .enqueueMessage m => (D.cfg.callEnqueueMessage m s).2
  | .dequeueMessagesFromQueue h t n =>
    (D.cfg.callDequeueMessagesFromQueue (D.key h) (D.cfg.shardOf h.envId) t n s).2
  | .dequeueMessageFromKey k => (dequeueMessageFromKeyLua k s).2
  | .acknowledgeMessage m b => (D.cfg.callAcknowledgeMessage m b s).2
  | .nackMessage m x => (D.cfg.callNackMessage m x s).2
  | .moveToDeadLetterQueue m now => (D.cfg.callMoveToDeadLetterQueue m now s).2
  | .releaseConcurrency m => (callReleaseConcurrency m s).2

/-- 空の Redis から到達できる状態。 -/
inductive Reachable (D : Deployment) : State → Prop
  | init : Reachable D Db.empty
  | step {s : State} {c : Command} : Reachable D s → c.Admissible D → Reachable D (c.exec D s)

section Runs

variable {D : Deployment} {s : State}

theorem good_init : Good D Db.empty := by
  refine ⟨⟨fun _ => none, fun _ => none, fun _ => false, fun _ => false, fun _ => none⟩, ?_, ?_⟩
  · constructor
    · intro h r
      simp
    · intro e _ r
      simp
    · intro h r
      simp
    · intro e _ r
      simp
    · intro h
      rfl
    · exact typed_empty
    · intro k m hm
      simp at hm
  · refine ⟨rfl, rfl, by simp, fun h _ r => ?_⟩
    simp [Shadow.inQueue]

/-- **一つの command は整合性を保つ。** -/
theorem good_step (hg : Good D s) {c : Command} (hc : c.Admissible D) : Good D (c.exec D s) := by
  cases c with
  | enqueueMessage m => exact callEnqueueMessage_good hg hc
  | dequeueMessagesFromQueue h t n => exact callDequeueMessagesFromQueue_good hg h t n
  | dequeueMessageFromKey k => exact dequeueMessageFromKey_good hg k
  | acknowledgeMessage m b => exact callAcknowledgeMessage_good hg hc b
  | nackMessage m x => exact callNackMessage_good hg hc x
  | moveToDeadLetterQueue m now => exact callMoveToDeadLetterQueue_good hg hc now
  | releaseConcurrency m => exact callReleaseConcurrency_good hg hc

theorem good_of_reachable (h : Reachable D s) : Good D s := by
  induction h with
  | init => exact good_init
  | step _ hc ih => exact good_step ih hc

end Runs

/-! ## 具体的な状態についての不変条件 -/

/-- RunQueue の表現不変条件。key は `#call…` が queue key から計算するものである。 -/
structure Representation (D : Deployment) (s : State) : Prop where
  /-- 環境の queue は、その環境の queue の和である。 -/
  env_union : ∀ e, NoColon e → ∀ r x, (s.zsets (D.envQ e)).score? r = some x ↔
    ∃ h : Home, h.envId = e ∧ (s.zsets (D.key h)).score? r = some x
  /-- その和は互いに交わらない。 -/
  disjoint : ∀ (h h' : Home) r, (s.zsets (D.key h)).score? r ≠ none →
    (s.zsets (D.key h')).score? r ≠ none → D.key h = D.key h'
  /-- queue にある run は、どの `currentConcurrency` にも入っていない。 -/
  exclusive : ∀ (h : Home) r, (s.zsets (D.key h)).score? r ≠ none →
    (∀ h' : Home, r ∉ s.sets (queueCurrentConcurrencyKeyFromQueue (D.key h'))) ∧
      ∀ e, NoColon e → r ∉ s.sets (D.envCC e)
  /-- 環境の `currentConcurrency` は、その環境の queue のものの和である。 -/
  running_union : ∀ e, NoColon e → ∀ r, r ∈ s.sets (D.envCC e) ↔
    ∃ h : Home, h.envId = e ∧ r ∈ s.sets (queueCurrentConcurrencyKeyFromQueue (D.key h))
  /-- queue は、空でないときに限り、最小の score で master queue に載る。 -/
  master : ∀ h : Home,
    IsMinScore (s.zsets (D.key h)).score? ((s.zsets (D.master h.envId)).score? (D.key h))

section Statement

variable {D : Deployment} {s : State}

theorem Good.representation (hg : Good D s) : Representation D s := by
  obtain ⟨A, hrep, hA⟩ := hg
  -- queue に居る run は、その home の queue に居る
  have hq : ∀ (h : Home) r x, (s.zsets (D.key h)).score? r = some x →
      D.homeKey r = D.key h ∧ A.qs r = some x := by
    intro h r x hx
    rw [hrep.queue h r] at hx
    by_cases hk : D.homeKey r = D.key h
    · exact ⟨hk, by simpa [hk] using hx⟩
    · simp [hk] at hx
  constructor
  · intro e he r x
    rw [hrep.envQueue e he r]
    constructor
    · intro h
      have hre : (D.home r).envId = e := by
        by_contra hne
        simp [hne] at h
      refine ⟨D.home r, hre, ?_⟩
      rw [hrep.queue (D.home r) r]
      simpa [hre, Deployment.homeKey, hA.score] using h
    · rintro ⟨h, rfl, hx⟩
      obtain ⟨hk, hs⟩ := hq h r x hx
      have hre : (D.home r).envId = h.envId := Deployment.key_envId hk
      simp [hre, ← hA.score, hs]
  · intro h h' r hr hr'
    obtain ⟨x, hx⟩ := Option.ne_none_iff_exists'.mp hr
    obtain ⟨y, hy⟩ := Option.ne_none_iff_exists'.mp hr'
    exact (hq h r x hx).1.symm.trans (hq h' r y hy).1
  · intro h r hr
    obtain ⟨x, hx⟩ := Option.ne_none_iff_exists'.mp hr
    have hrc : A.rc r ≠ true := by
      intro hrc
      have := hA.excl r hrc
      rw [(hq h r x hx).2] at this
      simp at this
    refine ⟨fun h' hm => hrc ((hrep.queueCC h' r).mp hm).2, fun e he hm => hrc ?_⟩
    rw [hA.running]
    exact ((hrep.envCC e he r).mp hm).2
  · intro e he r
    rw [hrep.envCC e he r]
    constructor
    · rintro ⟨hre, hec⟩
      exact ⟨D.home r, hre, (hrep.queueCC (D.home r) r).mpr ⟨rfl, by rw [hA.running]; exact hec⟩⟩
    · rintro ⟨h, rfl, hm⟩
      obtain ⟨hk, hrc⟩ := (hrep.queueCC h r).mp hm
      exact ⟨Deployment.key_envId hk, by rw [← hA.running]; exact hrc⟩
  · intro h
    rw [hrep.master h, show (s.zsets (D.key h)).score? = A.inQueue D h from funext (hrep.queue h)]
    exact hA.master h (by simp)

/-- **到達できるどの状態も、表現不変条件を満たす。** -/
theorem reachable_representation (D : Deployment) (s : State) (h : Reachable D s) :
    Representation D s := (good_of_reachable h).representation

/-- 一つの環境に二つの run がある配備。 -/
def sampleDeployment : Deployment where
  cfg :=
    { shardOf := fun _ => 1
      defaultEnvConcurrency := 10
      defaultEnvConcurrencyBurstFactor := none
      mul := (· * ·)
      maxAttempts := 12
      overrides := none }
  orgOf _ := "o1"
  projectOf _ := "p1"
  org_noColon _ := by decide
  project_noColon _ := by decide
  home _ := ⟨"e1", "task/hello", some "user:1", by decide⟩

/-- `sampleDeployment` の run の payload。 -/
def sampleMessage (runId : String) (timestamp : ℚ) : OutputPayload :=
  { runId := runId
    taskIdentifier := "hello"
    orgId := "o1"
    projectId := "p1"
    environmentId := "e1"
    environmentType := .production
    queue := queueKey ⟨"o1", "p1", "e1"⟩ "task/hello" (some "user:1")
    concurrencyKey := some "user:1"
    timestamp := timestamp
    attempt := 0
    version := .v2 "us-east-1" }

theorem sampleMessage_wellFormed (runId : String) (timestamp : ℚ) :
    sampleDeployment.WellFormed (sampleMessage runId timestamp) := ⟨rfl, rfl, rfl⟩

/-- 二つの run を入れ、一つを取り出した状態。 -/
def sampleState : State :=
  ([.enqueueMessage (sampleMessage "run_1" 7), .enqueueMessage (sampleMessage "run_2" 5),
    .dequeueMessagesFromQueue (sampleDeployment.home "run_1") 10 1] : List Command).foldl
    (Command.exec sampleDeployment) Db.empty

theorem reachable_sampleState : Reachable sampleDeployment sampleState := by
  have h₁ := Reachable.step (c := .enqueueMessage (sampleMessage "run_1" 7)) .init
    (sampleMessage_wellFormed "run_1" 7)
  have h₂ := h₁.step (c := .enqueueMessage (sampleMessage "run_2" 5))
    (sampleMessage_wellFormed "run_2" 5)
  exact h₂.step (c := .dequeueMessagesFromQueue (sampleDeployment.home "run_1") 10 1) trivial

theorem reachable_representation_sample :
    (sampleState.zsets (sampleDeployment.envQ "e1")).entries = [("run_1", 7)] ∧
      sampleState.sets (sampleDeployment.envCC "e1") = {"run_2"} ∧
      Representation sampleDeployment sampleState :=
  ⟨by decide +kernel, by decide +kernel,
    reachable_representation sampleDeployment sampleState reachable_sampleState⟩

end Statement

end RunQueue
