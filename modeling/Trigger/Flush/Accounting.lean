import Trigger.Flush.Moves

/-!
# 項目の勘定

`totalQueuedItems` が減るのは callback が成功したときだけで、四回とも失敗した batch の分は残る。諦める失敗の無い実行では
勘定が合い、逆に、勘定が合い続ける実行には諦める失敗が無い（`accounted_iff`）。
-/

namespace Flush

open Infra.Machine

variable {T : Type} {cfg : Settings T} {s t : State T}

/-- 終わっていない task が無く、timer が渡す項目も無い。 -/
def Idle (s : State T) : Prop :=
  (∀ t ∈ s.tasks, t.unfinished = false) ∧
    (s.flushTimer = true → s.batchQueue = [] ∧ s.currentBatch = [])

/-- 捨てた項目は捨ててよいもので、`loadSheddingThreshold` 以上の項目が本当に残っているときに捨てられた。 -/
def ShedRightly (cfg : Settings T) (d : Drop T) : Prop :=
  cfg.isDroppableEvent.map (· d.item) = some true ∧
    (cfg.loadSheddingThreshold : Int) ≤ d.totalQueuedItems ∧ cfg.loadSheddingThreshold ≤ d.pending

/-- すべての項目が勘定に入っている。残した項目は順に一つの batch に入り、何も起きなくなれば callback に渡っている。 -/
def Accounted (cfg : Settings T) (s : State T) : Prop :=
  s.totalQueuedItems = s.pending.length ∧ s.entries = s.kept.zipIdx ∧
    (∀ d ∈ s.dropped, ShedRightly cfg d) ∧ (Idle s → s.passed = s.kept.zipIdx)

/-- 諦める失敗でない。失敗した試行は三回目までである。 -/
def Recoverable (s : State T) : Event T → Prop
  | .failed i _ => ∀ t, s.tasks[i]? = some t → t.status = .running → t.attempt ≤ 3
  | _ => True

/-! ## 勘定の言い換え -/

/-- 数が合い、正しく捨てた。 -/
structure Balanced (cfg : Settings T) (s : State T) : Prop where
  total : s.totalQueuedItems = s.pending.length
  shed : ∀ d ∈ s.dropped, ShedRightly cfg d

/-- 終わった task はすべて callback に渡っている。 -/
theorem passed_of_finished (h : ∀ t ∈ s.tasks, t.unfinished = false) :
    s.passed = s.tasks.flatMap Task.batch := by
  have hall : s.tasks.filter Task.passed = s.tasks := by
    refine List.filter_eq_self.mpr fun t ht => decide_eq_true fun hw => ?_
    have hfinished := h t ht
    rw [Task.unfinished, hw] at hfinished
    cases hfinished
  rw [State.passed, hall]

/-- 待つ項目が無ければ、すべての項目が task にある。 -/
theorem entries_of_empty (hq : s.batchQueue = []) (hc : s.currentBatch = []) :
    s.entries = s.tasks.flatMap Task.batch := by
  have hall : s.tasks.filter (fun _ => true) = s.tasks := List.filter_eq_self.mpr fun _ _ => rfl
  show (s.tasks.filter fun _ => true).flatMap Task.batch ++ s.batchQueue.flatten ++
    s.currentBatch = _
  rw [hall, hq, hc, List.flatten_nil, List.append_nil, List.append_nil]

/-- 何も起きなくなれば、残した項目はすべて callback に渡っている。 -/
theorem Lawful.passed_of_idle (h : Lawful s) (hidle : Idle s) : s.passed = s.kept.zipIdx := by
  obtain ⟨hfinished, hrest⟩ := hidle
  have hcurrent : s.currentBatch = [] := by
    cases hs : s.isShuttingDown with
    | false => exact (hrest (by rw [h.timer, hs]; rfl)).2
    | true => exact h.quiet hs
  rw [passed_of_finished hfinished, ← h.numbered, entries_of_empty h.queue hcurrent]

theorem accounted_iff_balanced (h : Lawful s) : Accounted cfg s ↔ Balanced cfg s :=
  ⟨fun h' => ⟨h'.1, h'.2.2.1⟩, fun h' => ⟨h'.total, h.numbered, h'.shed, h.passed_of_idle⟩⟩

/-! ## 一歩 -/

/-- 移すだけの一歩は、数を変えない。 -/
theorem Balanced.moved (h : Balanced cfg s) (hm : Moved s t) : Balanced cfg t := by
  refine ⟨?_, ?_⟩
  · rw [hm.total, hm.pending]
    exact h.total
  · rw [hm.dropped]
    exact h.shed

theorem Balanced.acceptItems (h : Balanced cfg s) (items : List T) :
    Balanced cfg (acceptItems cfg items s) := by
  obtain ⟨keep, drop, flag, heq, hdrop⟩ := acceptItems_spec cfg items s
  have hpending : (Flush.acceptItems cfg items s).pending.length =
      s.pending.length + keep.length := by
    have hheld : (Flush.acceptItems cfg items s).pending =
        s.pending ++ keep.zipIdx s.kept.length := by
      rw [heq]
      exact held_accept _ _
    rw [hheld, List.length_append, List.length_zipIdx]
  have htotal := h.total
  refine ⟨?_, fun d hd => ?_⟩
  · rw [hpending, heq]
    dsimp only
    omega
  · rw [heq] at hd
    rcases List.mem_append.mp hd with hd | hd
    · exact h.shed d hd
    · rcases hdrop with rfl | ⟨hthreshold, f, hf, hdroppable⟩
      · cases hd
      · obtain ⟨item, hitem, rfl⟩ := List.mem_map.mp hd
        refine ⟨?_, hthreshold, ?_⟩
        · rw [hf, Option.map_some, hdroppable item hitem]
        · dsimp only
          omega

theorem Balanced.addToBatch (h : Balanced cfg s) (hl : Lawful s) (items : List T) (now : Int) :
    Balanced cfg (addToBatch cfg items now s) := by
  rw [addToBatch_eq]
  exact (h.acceptItems items).moved
    ((fillBatch_moved hl.toOrderly items).trans (adjustConcurrency_moved _ _))

/-- 終わったかどうかを変えない書き換え。 -/
theorem Balanced.setTask {i : Nat} {t t' : Task T} (h : Balanced cfg s) (hi : s.tasks[i]? = some t)
    (hb : t'.batch = t.batch) (hu : t'.unfinished = t.unfinished) :
    Balanced cfg (setTask i t' s) := by
  have hpending : (Flush.setTask i t' s).pending = s.pending := held_setTask hi hb hu
  refine ⟨?_, h.shed⟩
  rw [hpending]
  exact h.total

theorem Balanced.start (h : Balanced cfg s) (l : Nat) : Balanced cfg (start l s) := by
  rcases start_cases l s with ⟨-, heq⟩ | ⟨i, t, -, hi, hw, heq⟩
  · rw [heq]
    exact h
  · rw [heq]
    exact h.setTask hi rfl (by simp [Task.unfinished, hw])

theorem Balanced.retry (h : Balanced cfg s) (i : Nat) : Balanced cfg (retry i s) := by
  rcases withTask_cases i .sleeping _ s with heq | ⟨t, hi, hr, heq⟩
  · rw [Flush.retry, heq]
    exact h
  · rw [Flush.retry, heq]
    exact h.setTask hi rfl (by simp [Task.unfinished, hr])

/-- 成功した batch の分だけ、数が減る。 -/
theorem Balanced.succeeded (h : Balanced cfg s) (i : Nat) (now : Int) :
    Balanced cfg (succeeded i now s) := by
  rcases withTask_cases i .running _ s with heq | ⟨t, hi, hr, heq⟩
  · rw [Flush.succeeded, heq]
    exact h
  · obtain ⟨hlength, -⟩ : (Flush.setTask i { t with status := .flushed } s).pending.length +
        t.batch.length = s.pending.length ∧ _ :=
      pending_finish hi (unfinished_of_running hr) rfl
    have htotal := h.total
    rw [Flush.succeeded, heq]
    refine ⟨?_, h.shed⟩
    show s.totalQueuedItems - t.batch.length =
      ((Flush.setTask i { t with status := .flushed } s).pending.length : Int)
    omega

/-- 諦めた batch の分は数に残る。 -/
theorem Balanced.failed (h : Balanced cfg s) (hl : Lawful s) (i : Nat) (now : Int) :
    Balanced cfg (failed cfg i now s) ↔
      ∀ t, s.tasks[i]? = some t → t.status = .running → t.attempt ≤ 3 := by
  by_cases hrun : ∃ t, s.tasks[i]? = some t ∧ t.status = .running
  · obtain ⟨t, hi, hr⟩ := hrun
    have heq : Flush.failed cfg i now s = Flush.setTask i (afterFailure t) (backOff cfg now s) :=
      withTask_of_status hi hr
    have hback : (backOff cfg now s).tasks[i]? = some t := by
      rw [backOff_tasks now]
      exact hi
    have hbalanced : Balanced cfg (backOff cfg now s) := h.moved (backOff_moved now)
    have honly : (∀ t, s.tasks[i]? = some t → t.status = .running → t.attempt ≤ 3) ↔
        t.attempt ≤ 3 := by
      refine ⟨fun h' => h' t hi hr, fun h' u hu _ => ?_⟩
      rw [hi] at hu
      exact Option.some.inj hu ▸ h'
    rw [heq, honly]
    by_cases hattempt : t.attempt ≤ 3
    · have hsleeping : (afterFailure t).status = .sleeping := if_pos hattempt
      refine ⟨fun _ => hattempt, fun _ => hbalanced.setTask hback rfl ?_⟩
      simp [Task.unfinished, hsleeping, hr]
    · -- 終わっていない項目だけが減り、数はそのまま残る
      have hgiven : (afterFailure t).status = .givenUp := if_neg hattempt
      obtain ⟨hlength, -⟩ : (Flush.setTask i (afterFailure t) (backOff cfg now s)).pending.length +
          t.batch.length = (backOff cfg now s).pending.length ∧ _ :=
        pending_finish hback (unfinished_of_running hr) (by simp [Task.unfinished, hgiven])
      have hbatch := List.length_pos_iff.mpr (hl.batches t (List.mem_of_getElem? hi))
      refine ⟨fun h' => ?_, fun h' => absurd h' hattempt⟩
      have hafter : (backOff cfg now s).totalQueuedItems = _ := h'.total
      have hbefore := hbalanced.total
      omega
  · have hnone : ∀ t, s.tasks[i]? = some t → t.status ≠ .running :=
      fun t hi hr => hrun ⟨t, hi, hr⟩
    have heq : Flush.failed cfg i now s = s := by
      rcases failed_cases cfg i now s with heq | ⟨t, hi, hr, -⟩
      · exact heq
      · exact absurd hr (hnone t hi)
    rw [heq]
    exact ⟨fun _ t hi hr => absurd hr (hnone t hi), fun _ => h⟩

theorem Balanced.poll (h : Balanced cfg s) : Balanced cfg (poll s) := by
  rcases poll_cases s with heq | ⟨mark, -, -, heq⟩
  · rw [heq]
    exact h
  · rw [heq]
    exact ⟨h.total, h.shed⟩

theorem Balanced.shutdown (h : Balanced cfg s) (hl : Lawful s) : Balanced cfg (shutdown s) := by
  cases hs : s.isShuttingDown with
  | false =>
    have hstop : Balanced cfg (stopTimer s) := ⟨h.total, h.shed⟩
    have hclose := hstop.moved (closeBatch_moved hl.toOrderly)
    rw [shutdown_of_first hs]
    exact Balanced.poll ⟨hclose.total, hclose.shed⟩
  | true =>
    rw [shutdown_of_repeated hs]
    exact ⟨h.total, h.shed⟩

theorem Balanced.step (h : Balanced cfg s) (hl : Lawful s) (e : Event T) :
    Balanced cfg (step cfg s e) ↔ Recoverable s e := by
  cases e with
  | addToBatch items now => exact ⟨fun _ => trivial, fun _ => h.addToBatch hl items now⟩
  | tick =>
    refine ⟨fun _ => trivial, fun _ => ?_⟩
    unfold Flush.step
    dsimp only
    split
    · rw [checkAndFlush_eq hl.toOrderly]
      exact h.moved hl.createBatch_moved
    · exact h
  | start l => exact ⟨fun _ => trivial, fun _ => h.start l⟩
  | succeeded i now => exact ⟨fun _ => trivial, fun _ => h.succeeded i now⟩
  | failed i now => exact h.failed hl i now
  | retry i => exact ⟨fun _ => trivial, fun _ => h.retry i⟩
  | settled k =>
    refine ⟨fun _ => trivial, fun _ => ?_⟩
    obtain ⟨groups, heq⟩ := settled_cases hl.toOrderly k
    show Balanced cfg (settled k s)
    rw [heq]
    exact ⟨h.total, h.shed⟩
  | shutdown => exact ⟨fun _ => trivial, fun _ => h.shutdown hl⟩
  | poll => exact ⟨fun _ => trivial, fun _ => h.poll⟩

/-! ## 実行の全体 -/

/--
**どの設定でも、どの event の列でも、勘定が合い続けることと、batch を諦める失敗が無いことは同値である。**
-/
theorem accounted_iff (cfg : Settings T) (now : Int) (events : List (Event T)) :
    Throughout (step cfg) (Accounted cfg) (State.init cfg now) events ↔
      Along (step cfg) Recoverable (State.init cfg now) events := by
  have hinit : Balanced cfg (State.init cfg now) := ⟨rfl, fun _ h => by cases h⟩
  refine throughout_iff_along (I := Lawful) (fun s e hs => hs.step e) (fun s e hs hk => ?_)
    (Lawful.init cfg now) ((accounted_iff_balanced (Lawful.init cfg now)).mpr hinit)
  rw [accounted_iff_balanced hs] at hk
  rw [accounted_iff_balanced (hs.step e)]
  exact hk.step hs e

/-- 一件ごとに書き出す設定。 -/
def oneByOne : Settings Nat where
  BATCH_SIZE := 1
  FLUSH_INTERVAL := 100
  minConcurrency := 1
  maxConcurrency := 2
  maxBatchSize := 5
  memoryPressureThreshold := 1
  loadSheddingThreshold := 1
  loadSheddingEnabled := true
  isDroppableEvent := some fun _ => true
  scaledBatchSize := fun n => (1 + n).toNat
  pLimit_accepts := by decide

/-- 四回とも失敗した batch の一件が数に残り、残る項目が無いのに次の項目が捨てられる。 -/
theorem not_accounted_givenUp :
    ¬ Throughout (step oneByOne) (Accounted oneByOne) (State.init oneByOne 0)
      [.addToBatch [7] 0, .start 0, .failed 0 0, .retry 0, .failed 0 0, .retry 0, .failed 0 0,
        .retry 0, .failed 0 0, .settled 0, .addToBatch [8] 0] := by
  intro h
  obtain ⟨-, -, hshed, -⟩ := h.last
  exact absurd (hshed ⟨8, 1, 0⟩ (List.mem_singleton.mpr rfl)).2.2 (by decide)

end Flush
