import Mathlib.Algebra.BigOperators.Group.Finset.Piecewise
import Mathlib.Algebra.Order.BigOperators.Group.Finset
import Mathlib.Data.List.GetD
import Trigger.Flush.Shutdown

/-!
# 並列数

limiter は、自分に渡された task を自分の並列数までしか始めない。limiter を取り替えても、古い limiter は残った task を続けて
始めるので、動く callback は、limiter ごとに動きうる数の合計まで増える。合計が `maxConcurrency` に収まるときにだけ limiter を
取り替える実行では、並列数は `maxConcurrency` を超えない（`drains_and_bounded`）。
-/

namespace Flush

open Finset (range)
open Infra Infra.Machine

variable {T : Type} {cfg : Settings T} {s t : State T}

/-! ## limiter ごとの数 -/

/-- limiter `l` の、終わっていない task の数。 -/
def State.unfinishedIn (s : State T) (l : Nat) : Nat :=
  s.tasks.countP fun t => t.limiter = l && t.unfinished

/-- 番号が `n` より小さい limiter で、同時に動きうる task の数。 -/
def State.capacity (s : State T) (n : Nat) : Nat :=
  ∑ l ∈ range n, min (s.concurrencyOf l) (s.unfinishedIn l)

/-- 並列数の調整が limiter を取り替える。 -/
def Replaces (cfg : Settings T) (backOff : Bool) (now : Int) (s : State T) : Prop :=
  ¬((!backOff && now - s.lastConcurrencyAdjustment < 1000) = true) ∧
    newConcurrency cfg backOff now s ≠ s.concurrency ∧ 0 < newConcurrency cfg backOff now s

/-- limiter を取り替えるなら、task がすべて終わっているか、残った task と新しい limiter を合わせても収まる。 -/
def Roomy (cfg : Settings T) (backOff : Bool) (now : Int) (s : State T) : Prop :=
  Replaces cfg backOff now s → (∀ t ∈ s.tasks, t.unfinished = false) ∨
    s.capacity (s.limiter + 1) + newConcurrency cfg backOff now s ≤ cfg.maxConcurrency

/--
余裕のある一歩。`addToBatch` は項目を batch にした後で、失敗は連続して六回目から、並列数を調整する。
-/
def Spacious (cfg : Settings T) (s : State T) : Event T → Prop
  | .addToBatch items now => Roomy cfg false now (fillBatch cfg items s)
  | .failed i now => ∀ t ∈ s.tasks[i]?, t.status = .running → 5 < s.consecutiveFlushFailures + 1 →
      Roomy cfg true now { s with consecutiveFlushFailures := s.consecutiveFlushFailures + 1 }
  | _ => True

/-- 動いている callback は `maxConcurrency` 以下である。 -/
def Bounded (cfg : Settings T) (s : State T) : Prop := s.running ≤ cfg.maxConcurrency

/--
どの task も今までの limiter に渡され、どの limiter も自分の並列数を守り、古い limiter で動きうる数と今の並列数の和は
`maxConcurrency` に収まる。
-/
structure Within (cfg : Settings T) (s : State T) : Prop where
  owned : ∀ t ∈ s.tasks, t.limiter ≤ s.limiter
  active : ∀ l, s.activeCount l ≤ s.concurrencyOf l
  room : s.capacity s.limiter + s.concurrency ≤ cfg.maxConcurrency

/-! ## 動く callback の数 -/

/-- 個数は、key ごとの個数の和である。 -/
theorem countP_eq_sum {α : Type} (p : α → Bool) (key : α → Nat) {n : Nat} {l : List α}
    (h : ∀ a ∈ l, key a < n) :
    l.countP p = ∑ k ∈ range n, l.countP fun a => key a = k && p a := by
  induction l with
  | nil => simp
  | cons a l ih =>
    have hhead : ∑ k ∈ range n, (if (key a = k && p a : Bool) = true then 1 else 0) =
        if p a = true then 1 else 0 := by
      cases p a with
      | false => simp
      | true =>
        simp only [Bool.and_true, decide_eq_true_eq, if_true]
        rw [Finset.sum_ite_eq, if_pos (Finset.mem_range.mpr (h a List.mem_cons_self))]
    simp only [List.countP_cons]
    rw [Finset.sum_add_distrib, hhead, ih fun b hb => h b (List.mem_cons_of_mem _ hb)]

/-- limiter で実行中の task は、終わっていない。 -/
theorem activeCount_le_unfinishedIn (s : State T) (l : Nat) : s.activeCount l ≤ s.unfinishedIn l :=
  List.countP_mono_left fun t _ ht => by
    obtain ⟨hl, hstatus⟩ := of_decide_eq_true ht
    rcases hstatus with hstatus | hstatus <;> simp [hl, Task.unfinished, hstatus]

/-- 今の limiter の並列数は `concurrency` である。 -/
theorem concurrencyOf_limiter (s : State T) : s.concurrencyOf s.limiter = s.concurrency := by
  unfold State.concurrencyOf State.limiter
  rw [List.getD_eq_default _ _ (Nat.le_refl _)]

theorem Within.bounded (h : Within cfg s) : Bounded cfg s := by
  -- 動く task を limiter ごとに数える。古い limiter では並列数と残りの task の小さい方、今の limiter では並列数で抑える。
  have hrunning : s.running ≤ ∑ l ∈ range (s.limiter + 1), s.activeCount l := by
    have hsum := countP_eq_sum Task.running Task.limiter fun t ht =>
      Nat.lt_succ_of_le (h.owned t ht)
    refine hsum.trans_le (Finset.sum_le_sum fun l _ => List.countP_mono_left fun t _ ht => ?_)
    obtain ⟨hl, hrun⟩ := Bool.and_eq_true_iff.mp ht
    exact decide_eq_true ⟨of_decide_eq_true hl, .inl (of_decide_eq_true hrun)⟩
  have hold : ∑ l ∈ range s.limiter, s.activeCount l ≤ s.capacity s.limiter :=
    Finset.sum_le_sum fun l _ => le_min (h.active l) (activeCount_le_unfinishedIn s l)
  have hcurrent := h.active s.limiter
  rw [concurrencyOf_limiter] at hcurrent
  have hroom := h.room
  rw [Finset.sum_range_succ] at hrunning
  unfold Bounded
  omega

/-! ## 一歩 -/

/-- limiter を変えず、終わっていない task を古い limiter に増やさない一歩。 -/
theorem Within.keep (h : Within cfg s) (hreplaced : t.replaced = s.replaced)
    (hconcurrency : t.concurrency = s.concurrency) (howned : ∀ u ∈ t.tasks, u.limiter ≤ s.limiter)
    (hactive : ∀ l, t.activeCount l ≤ s.concurrencyOf l)
    (hunfinished : ∀ l < s.limiter, t.unfinishedIn l ≤ s.unfinishedIn l) : Within cfg t := by
  have hlimiter : t.limiter = s.limiter := congrArg List.length hreplaced
  have hof : ∀ l, t.concurrencyOf l = s.concurrencyOf l := fun l => by
    unfold State.concurrencyOf
    rw [hreplaced, hconcurrency]
  refine ⟨hlimiter ▸ howned, fun l => (hof l).symm ▸ hactive l, ?_⟩
  have hcapacity : t.capacity s.limiter ≤ s.capacity s.limiter :=
    Finset.sum_le_sum fun l hl =>
      min_le_min (hof l).le (hunfinished l (Finset.mem_range.mp hl))
  have hroom := h.room
  rw [hlimiter, hconcurrency]
  omega

/-- 新しい batch は今の limiter で待つ。 -/
theorem Within.createBatch (h : Within cfg s) (hl : Orderly s) : Within cfg (createBatch s) := by
  by_cases hne : s.currentBatch = []
  · rw [createBatch_of_nil hne]
    exact h
  · have hactive := hl.createBatch_moved.active
    rw [createBatch_of_ne hl.concurrency hl.queue hne] at hactive ⊢
    refine h.keep rfl rfl (fun u hu => ?_) (fun l => (hactive l).trans_le (h.active l))
      fun l hlt => ?_
    · rcases List.mem_append.mp hu with hu | hu
      · exact h.owned u hu
      · rw [List.mem_singleton.mp hu]
        exact Nat.le_refl _
    · unfold State.unfinishedIn
      rw [List.countP_append, List.countP_singleton]
      simp [fresh, hlt.ne']

/-- 段階が変わる task は一つで、実行中の task を limiter が許すより増やさず、終わった task を戻さない。 -/
theorem Within.setTask (h : Within cfg s) {i : Nat} {t t' : Task T} (hi : s.tasks[i]? = some t)
    (hl : t'.limiter = t.limiter) (hu : t'.unfinished = true → t.unfinished = true)
    (ha : t'.activeIn t.limiter = true → t.activeIn t.limiter = true ∨
      s.activeCount t.limiter < s.concurrencyOf t.limiter) : Within cfg (setTask i t' s) := by
  refine h.keep rfl rfl (fun u hmem => ?_) (fun l => ?_) fun l _ => ?_
  · rcases List.mem_or_eq_of_mem_set hmem with hmem | rfl
    · exact h.owned u hmem
    · rw [hl]
      exact h.owned t (List.mem_of_getElem? hi)
  · have hset : (Flush.setTask i t' s).activeCount l + _ = s.activeCount l + _ :=
      countP_set_add (p := Task.activeIn l) hi t'
    have hbound := h.active l
    -- その task の limiter のほかでは、数は変わらない。
    by_cases heq : t.limiter = l
    · subst heq
      split_ifs at hset with h₁ h₂ h₂
      · omega
      · omega
      · rcases ha h₂ with hactive | hlt
        · exact absurd hactive h₁
        · omega
      · omega
    · have hnot : ∀ u : Task T, u.limiter = t.limiter → ¬Task.activeIn l u = true :=
        fun u hul hact => heq (hul ▸ (of_decide_eq_true hact).1)
      rw [if_neg (hnot t rfl), if_neg (hnot t' hl)] at hset
      omega
  · have hset : (Flush.setTask i t' s).unfinishedIn l + _ = s.unfinishedIn l + _ :=
      countP_set_add hi t'
    have himp : (t'.limiter = l && t'.unfinished : Bool) = true →
        (t.limiter = l && t.unfinished : Bool) = true := by
      rw [hl, Bool.and_eq_true, Bool.and_eq_true]
      exact And.imp_right hu
    split_ifs at hset with h₁ h₂ h₂
    · omega
    · omega
    · exact absurd (himp h₂) h₁
    · omega

/-- 並列数は `maxConcurrency` を超えない。 -/
theorem newConcurrency_le (hcfg : cfg.minConcurrency ≤ cfg.maxConcurrency) (backOff : Bool)
    (now : Int) (h : s.concurrency ≤ cfg.maxConcurrency) :
    newConcurrency cfg backOff now s ≤ cfg.maxConcurrency := by
  unfold newConcurrency
  split_ifs <;> omega

/-- task がすべて終わっていれば、どの limiter も何も動かさない。 -/
theorem capacity_of_finished (h : ∀ t ∈ s.tasks, t.unfinished = false) (n : Nat) :
    s.capacity n = 0 := by
  refine Finset.sum_eq_zero fun l _ => ?_
  have hzero : s.unfinishedIn l = 0 := by
    refine List.countP_eq_zero.mpr fun t ht hand => ?_
    have hu := (Bool.and_eq_true_iff.mp hand).2
    rw [h t ht] at hu
    cases hu
  rw [hzero, Nat.min_zero]

/-- limiter を取り替えないか、取り替えて新しい並列数にする。 -/
theorem adjustConcurrency_replaces (cfg : Settings T) (backOff : Bool) (now : Int) (s : State T) :
    (∃ size, adjustConcurrency cfg backOff now s = { s with currentBatchSize := size }) ∨
      Replaces cfg backOff now s ∧ ∃ size, adjustConcurrency cfg backOff now s =
        { s with
          currentBatchSize := size
          replaced := s.replaced ++ [s.concurrency]
          concurrency := newConcurrency cfg backOff now s } := by
  unfold adjustConcurrency
  dsimp only
  split
  · exact .inl ⟨s.currentBatchSize, rfl⟩
  · next hlate =>
    split
    · next hnew => exact .inr ⟨⟨hlate, hnew.1, hnew.2⟩, _, rfl⟩
    · exact .inl ⟨_, rfl⟩

/-- 取り替えた limiter の並列数は変わらない。 -/
theorem concurrencyOf_replace (s : State T) (size next : Nat) {l : Nat} (hl : l ≤ s.limiter) :
    ({ s with
        currentBatchSize := size
        replaced := s.replaced ++ [s.concurrency]
        concurrency := next } : State T).concurrencyOf l = s.concurrencyOf l := by
  unfold State.concurrencyOf
  dsimp only
  rcases Nat.lt_or_eq_of_le hl with hlt | rfl
  · rw [List.getD_append _ _ _ _ hlt]
    rw [List.getD_eq_getElem _ _ hlt, List.getD_eq_getElem _ _ hlt]
  · unfold State.limiter
    rw [List.getD_append_right _ _ _ _ (Nat.le_refl _)]
    simp

theorem Within.adjustConcurrency (hcfg : cfg.minConcurrency ≤ cfg.maxConcurrency)
    (h : Within cfg s) {backOff : Bool} {now : Int} (hroomy : Roomy cfg backOff now s) :
    Within cfg (adjustConcurrency cfg backOff now s) := by
  rcases adjustConcurrency_replaces cfg backOff now s with ⟨size, heq⟩ | ⟨hreplaces, size, heq⟩
  · rw [heq]
    exact ⟨h.owned, h.active, h.room⟩
  · -- 取り替えると、今の limiter も古いものとして数えられる。
    have hroom : s.capacity (s.limiter + 1) + newConcurrency cfg backOff now s ≤
        cfg.maxConcurrency := by
      rcases hroomy hreplaces with hfinished | hfits
      · rw [capacity_of_finished hfinished, Nat.zero_add]
        exact newConcurrency_le hcfg backOff now (Nat.le_trans (Nat.le_add_left _ _) h.room)
      · exact hfits
    rw [heq]
    have hlimiter : (s.replaced ++ [s.concurrency]).length = s.limiter + 1 := List.length_append
    refine ⟨fun u hu => ?_, fun l => ?_, ?_⟩
    · have hle := h.owned u hu
      show u.limiter ≤ (s.replaced ++ [s.concurrency]).length
      omega
    · by_cases hl : l ≤ s.limiter
      · rw [concurrencyOf_replace s size _ hl]
        exact h.active l
      · -- まだ作られていない limiter には task が無い
        have hnone : s.activeCount l = 0 := by
          refine List.countP_eq_zero.mpr fun u hu hact => hl ?_
          rw [← (of_decide_eq_true hact).1]
          exact h.owned u hu
        exact hnone.trans_le (Nat.zero_le _)
    · have hcapacity : State.capacity _ (s.limiter + 1) = s.capacity (s.limiter + 1) :=
        Finset.sum_congr rfl fun l hl => by
          rw [concurrencyOf_replace s size (newConcurrency cfg backOff now s)
            (Nat.lt_succ_iff.mp (Finset.mem_range.mp hl))]
          rfl
      show State.capacity _ (s.replaced ++ [s.concurrency]).length + _ ≤ _
      rw [hlimiter, hcapacity]
      exact hroom

/-- 次に始める task は、その limiter の並列数に空きがあるときに選ばれる。 -/
theorem nextTask_spec {l i : Nat} (h : nextTask l s = some i) :
    s.activeCount l < s.concurrencyOf l ∧ ∀ t, s.tasks[i]? = some t → t.limiter = l := by
  unfold nextTask at h
  split at h
  · next hlt =>
    refine ⟨hlt, fun t ht => ?_⟩
    obtain ⟨hi, hw, -⟩ := List.findIdx?_eq_some_iff_getElem.mp h
    obtain rfl := Option.some.inj ((List.getElem?_eq_getElem hi).symm.trans ht)
    exact (of_decide_eq_true hw).1
  · cases h

theorem Within.start (h : Within cfg s) (l : Nat) : Within cfg (start l s) := by
  rcases start_cases l s with ⟨-, heq⟩ | ⟨i, t, hnext, hi, hw, heq⟩
  · rw [heq]
    exact h
  · -- pLimit は、実行中の task が並列数より少ないときだけ次を始める。
    obtain ⟨hlt, hlimiter⟩ := nextTask_spec hnext
    rw [heq]
    refine h.setTask hi rfl (fun _ => by simp [Task.unfinished, hw]) fun _ => .inr ?_
    rw [hlimiter t hi]
    exact hlt

theorem activeIn_of_status {t : Task T} (h : t.status = .running ∨ t.status = .sleeping) :
    t.activeIn t.limiter = true := decide_eq_true ⟨rfl, h⟩

theorem Within.succeeded (h : Within cfg s) (i : Nat) (now : Int) :
    Within cfg (succeeded i now s) := by
  rcases withTask_cases i .running _ s with heq | ⟨t, hi, hr, heq⟩
  · rw [Flush.succeeded, heq]
    exact h
  · have hset : Within cfg (Flush.setTask i { t with status := .flushed } s) :=
      h.setTask hi rfl (fun _ => unfinished_of_running hr)
        fun _ => .inl (activeIn_of_status (.inl hr))
    rw [Flush.succeeded, heq]
    exact ⟨hset.owned, hset.active, hset.room⟩

theorem Within.retry (h : Within cfg s) (i : Nat) : Within cfg (retry i s) := by
  rcases withTask_cases i .sleeping _ s with heq | ⟨t, hi, hr, heq⟩
  · rw [Flush.retry, heq]
    exact h
  · rw [Flush.retry, heq]
    exact h.setTask hi rfl (fun _ => by simp [Task.unfinished, hr])
      fun _ => .inl (activeIn_of_status (.inr hr))

theorem Within.failed (hcfg : cfg.minConcurrency ≤ cfg.maxConcurrency) (h : Within cfg s)
    {i : Nat} {now : Int} (hspace : Spacious cfg s (.failed i now)) :
    Within cfg (failed cfg i now s) := by
  rcases failed_cases cfg i now s with heq | ⟨t, hi, hr, heq⟩
  · rw [heq]
    exact h
  · -- 失敗が続くと、再試行の前に `backOff` が limiter を取り替えうる。
    have hback : Within cfg (backOff cfg now s) := by
      have hcount : Within cfg { s with
          consecutiveFlushFailures := s.consecutiveFlushFailures + 1 } :=
        ⟨h.owned, h.active, h.room⟩
      unfold backOff
      dsimp only
      split
      · next hmany => exact hcount.adjustConcurrency hcfg (hspace t hi hr hmany)
      · exact hcount
    rw [heq]
    refine hback.setTask (t := t) ?_ rfl (fun _ => unfinished_of_running hr)
      fun _ => .inl (activeIn_of_status (.inl hr))
    rw [backOff_tasks now]
    exact hi

theorem Within.fillBatch (h : Within cfg s) (hl : Lawful s) (items : List T) :
    Within cfg (fillBatch cfg items s) := by
  have haccept : Within cfg (acceptItems cfg items s) := by
    obtain ⟨keep, drop, flag, heq, -⟩ := acceptItems_spec cfg items s
    rw [heq]
    exact ⟨h.owned, h.active, h.room⟩
  unfold Flush.fillBatch
  split
  · exact haccept.createBatch (hl.toOrderly.acceptItems items)
  · exact haccept

theorem Within.poll (h : Within cfg s) : Within cfg (poll s) := by
  rcases poll_cases s with heq | ⟨mark, -, -, heq⟩
  · rw [heq]
    exact h
  · rw [heq]
    exact ⟨h.owned, h.active, h.room⟩

theorem Within.shutdown (h : Within cfg s) (hl : Lawful s) : Within cfg (shutdown s) := by
  cases hs : s.isShuttingDown with
  | true =>
    rw [shutdown_of_repeated hs]
    exact ⟨h.owned, h.active, h.room⟩
  | false =>
    have hstop : Within cfg (stopTimer s) := ⟨h.owned, h.active, h.room⟩
    have hclose := hstop.createBatch hl.toOrderly.stopTimer
    rw [shutdown_of_first hs, closeBatch_eq]
    exact Within.poll ⟨hclose.owned, hclose.active, hclose.room⟩

theorem Within.step (hcfg : cfg.minConcurrency ≤ cfg.maxConcurrency) (h : Within cfg s)
    (hl : Lawful s) {e : Event T} (hspace : Spacious cfg s e) : Within cfg (step cfg s e) := by
  cases e with
  | addToBatch items now => exact (h.fillBatch hl items).adjustConcurrency hcfg hspace
  | tick =>
    unfold Flush.step
    dsimp only
    split
    · rw [checkAndFlush_eq hl.toOrderly]
      exact h.createBatch hl.toOrderly
    · exact h
  | start l => exact h.start l
  | succeeded i now => exact h.succeeded i now
  | failed i now => exact h.failed hcfg hspace
  | retry i => exact h.retry i
  | settled k =>
    obtain ⟨groups, heq⟩ := settled_cases hl.toOrderly k
    show Within cfg (settled k s)
    rw [heq]
    exact ⟨h.owned, h.active, h.room⟩
  | shutdown => exact h.shutdown hl
  | poll => exact h.poll

/-! ## 実行の全体 -/

theorem Within.init (hcfg : cfg.minConcurrency ≤ cfg.maxConcurrency) (now : Int) :
    Within cfg (State.init cfg now) where
  owned := fun _ h => by cases h
  active := fun _ => Nat.zero_le _
  room := (Nat.zero_add _).trans_le hcfg

/--
**どの設定でも、どの event の列でも、決着した shutdown より前の項目が残らないことと、どの一歩にも見落としが無いことは同値である。
`minConcurrency` が `maxConcurrency` 以下なら、余裕のある一歩だけの実行では、動く callback はいつも `maxConcurrency`
以下である。**
-/
theorem drains_and_bounded (cfg : Settings T) (now : Int) (events : List (Event T)) :
    (Throughout (step cfg) Drained (State.init cfg now) events ↔
      Along (step cfg) Watchful (State.init cfg now) events) ∧
    (cfg.minConcurrency ≤ cfg.maxConcurrency →
      Along (step cfg) (Spacious cfg) (State.init cfg now) events →
        Throughout (step cfg) (Bounded cfg) (State.init cfg now) events) := by
  refine ⟨drained_iff_watchful cfg now events, fun hcfg hspace => ?_⟩
  -- `Lawful` は条件なしに保たれ、`Within` の一歩がそれを使う。
  have hrun := throughout_of_along (I := fun s => Within cfg s ∧ Lawful s)
    (fun s e hs he => ⟨hs.1.step hcfg hs.2 he, hs.2.step e⟩)
    ⟨Within.init hcfg now, Lawful.init cfg now⟩ hspace
  exact hrun.mono fun s hs => hs.1.bounded

instance (cfg : Settings T) : DecidablePred (Bounded cfg) := fun s =>
  inferInstanceAs (Decidable (s.running ≤ cfg.maxConcurrency))

instance (cfg : Settings T) (backOff : Bool) (now : Int) : DecidablePred (Roomy cfg backOff now) :=
  fun _ => inferInstanceAs (Decidable (_ ∧ _ ∧ _ → _ ∨ _))

instance (cfg : Settings T) (s : State T) : DecidablePred (Spacious cfg s)
  | .addToBatch _ now => inferInstanceAs (Decidable (Roomy cfg false now _))
  | .failed i now => inferInstanceAs (Decidable (∀ t ∈ s.tasks[i]?, t.status = .running →
      5 < s.consecutiveFlushFailures + 1 → Roomy cfg true now _))
  | .tick | .start _ | .succeeded _ _ | .retry _ | .settled _ | .shutdown | .poll => isTrue trivial

/-- 並列数が 1 から 2 までの設定。 -/
def oneOrTwo : Settings Nat where
  BATCH_SIZE := 2
  FLUSH_INTERVAL := 100
  minConcurrency := 1
  maxConcurrency := 2
  maxBatchSize := 5
  memoryPressureThreshold := 1
  loadSheddingThreshold := 50
  loadSheddingEnabled := true
  isDroppableEvent := none
  scaledBatchSize := fun n => (2 * (1 + n)).toNat
  pLimit_accepts := Nat.one_pos

/-- 一つ目の batch が終わってから limiter を取り替え、二つの callback を動かし、終わってから shutdown する。 -/
def patientRun : List (Event Nat) :=
  [.addToBatch [7, 8] 0, .start 0, .succeeded 0 10, .settled 0, .addToBatch [9] 1000, .tick,
    .start 1, .addToBatch [10] 1000, .tick, .start 1, .failed 1 1100, .succeeded 2 1100, .retry 1,
    .shutdown, .succeeded 1 1200, .settled 0, .settled 0, .poll]

/-- limiter が一度取り替えられ、二つの callback が同時に動き、shutdown は最後に決着する。 -/
theorem patientRun_drains_and_bounded :
    Throughout (step oneOrTwo) Drained (State.init oneOrTwo 0) patientRun ∧
      Throughout (step oneOrTwo) (Bounded oneOrTwo) (State.init oneOrTwo 0) patientRun ∧
      (exec (step oneOrTwo) (State.init oneOrTwo 0) (patientRun.take 10)).running = 2 ∧
      (exec (step oneOrTwo) (State.init oneOrTwo 0) patientRun).replaced = [1] ∧
      (exec (step oneOrTwo) (State.init oneOrTwo 0) patientRun).resolved = [4] :=
  ⟨by decide +kernel,
    (drains_and_bounded oneOrTwo 0 patientRun).2 (by decide) (by decide +kernel),
    by decide +kernel, by decide +kernel, by decide +kernel⟩

/--
shutdown は渡したばかりの batch を待たずに決着する。また、limiter を取り替えると、古い limiter の一つと新しい limiter の
二つの callback が同時に動く。
-/
theorem not_drained :
    ¬ Throughout (step oneOrTwo) Drained (State.init oneOrTwo 0) [.addToBatch [7] 0, .shutdown] ∧
      ¬ Throughout (step oneOrTwo) (Bounded oneOrTwo) (State.init oneOrTwo 0)
        [.addToBatch [7, 8] 1000, .start 0, .addToBatch [9] 1000, .tick, .addToBatch [10] 1000,
          .tick, .start 1, .start 1] := by
  decide

end Flush
