import Trigger.Flush.Scheduler
import Trigger.Infra.Record

/-!
# batch の移動と task の進行

`createBatch` と `adjustConcurrency` は項目を移すだけである（`Moved`）。limiter の並列数は正なので、`batchQueue` に
入れた batch はその場で limiter に渡り、`batchQueue` はどの event の後にも空である。どの event の後にも成り立つ事実を
`Lawful` にまとめる。
-/

namespace Flush

open Infra

variable {T : Type} {cfg : Settings T} {s t u : State T}

/-! ## 移すだけの一歩 -/

/-- 項目の並びも task の段階も変えない。 -/
structure Moved (s t : State T) : Prop where
  entries : t.entries = s.entries
  pending : t.pending = s.pending
  running : t.running = s.running
  active : ∀ l, t.activeCount l = s.activeCount l
  total : t.totalQueuedItems = s.totalQueuedItems
  kept : t.kept = s.kept
  dropped : t.dropped = s.dropped
  shutting : t.isShuttingDown = s.isShuttingDown
  resolved : t.resolved = s.resolved
  polling : t.polling = s.polling

theorem Moved.refl (s : State T) : Moved s s :=
  ⟨rfl, rfl, rfl, fun _ => rfl, rfl, rfl, rfl, rfl, rfl, rfl⟩

theorem Moved.trans (h : Moved s t) (h' : Moved t u) : Moved s u :=
  ⟨h'.entries.trans h.entries, h'.pending.trans h.pending, h'.running.trans h.running,
    fun l => (h'.active l).trans (h.active l), h'.total.trans h.total, h'.kept.trans h.kept,
    h'.dropped.trans h.dropped, h'.shutting.trans h.shutting, h'.resolved.trans h.resolved,
    h'.polling.trans h.polling⟩

/-- limiter `l` に渡したばかりの task。 -/
def fresh (l : Nat) (batch : List (T × Nat)) : Task T := ⟨batch, l, .waiting, 1⟩

/-- 待つ batch が無ければ、渡すものは無い。 -/
theorem flushBatches_of_nil (h : s.batchQueue = []) : flushBatches s = s := by
  unfold flushBatches
  rw [h, List.take_nil]
  rfl

theorem createBatch_of_nil (h : s.currentBatch = []) : createBatch s = s := by
  unfold createBatch
  rw [h]
  rfl

/-- 待つ batch が無ければ、新しい batch はその場で今の limiter に渡る。 -/
theorem createBatch_of_ne (hc : 0 < s.concurrency) (hq : s.batchQueue = [])
    (h : s.currentBatch ≠ []) :
    createBatch s =
      { s with
        currentBatch := []
        flushTimer := !s.isShuttingDown
        tasks := s.tasks ++ [fresh s.limiter s.currentBatch]
        groups := s.groups ++ [(s.tasks.length, 1)] } := by
  obtain ⟨n, hn⟩ : ∃ n, s.concurrency = n + 1 := ⟨s.concurrency - 1, by omega⟩
  unfold createBatch
  rw [if_neg fun h' => h (List.isEmpty_iff.mp h')]
  unfold flushBatches resetFlushTimer
  simp only [hq, hn, List.nil_append, List.take_succ_cons, List.take_nil, List.drop_succ_cons,
    List.drop_nil, List.isEmpty_cons, Bool.false_eq_true, if_false]
  rfl

/-- 渡したばかりの task を数える述語では、項目の並びが変わらない。 -/
theorem createBatch_held (hc : 0 < s.concurrency) (hq : s.batchQueue = []) {p : Task T → Bool}
    (hp : ∀ l batch, p (fresh l batch) = true) : (createBatch s).held p = s.held p := by
  by_cases h : s.currentBatch = []
  · rw [createBatch_of_nil h]
  · rw [createBatch_of_ne hc hq h]
    unfold State.held
    dsimp only
    rw [hq, List.filter_append, List.filter_cons_of_pos (hp _ _), List.filter_nil,
      List.flatMap_append, List.flatMap_singleton]
    simp only [List.flatten_nil, List.append_nil]
    rfl

/-- 渡したばかりの task を数えない述語では、個数が変わらない。 -/
theorem createBatch_countP (hc : 0 < s.concurrency) (hq : s.batchQueue = []) {p : Task T → Bool}
    (hp : ∀ l batch, p (fresh l batch) = false) :
    (createBatch s).tasks.countP p = s.tasks.countP p := by
  by_cases h : s.currentBatch = []
  · rw [createBatch_of_nil h]
  · rw [createBatch_of_ne hc hq h]
    dsimp only
    rw [List.countP_append, List.countP_singleton, hp]
    rfl

theorem createBatch_moved (hc : 0 < s.concurrency) (hq : s.batchQueue = []) :
    Moved s (createBatch s) := by
  have hactive : ∀ l, (createBatch s).activeCount l = s.activeCount l := fun l =>
    createBatch_countP hc hq fun _ _ => by simp [Task.activeIn, fresh]
  refine ⟨createBatch_held hc hq fun _ _ => rfl, createBatch_held hc hq fun _ _ => rfl,
    createBatch_countP hc hq fun _ _ => rfl, hactive, ?_, ?_, ?_, ?_, ?_, ?_⟩
  all_goals
    by_cases h : s.currentBatch = []
    · rw [createBatch_of_nil h]
    · rw [createBatch_of_ne hc hq h]

/-- 並列数の調整は、大きさと limiter だけを変える。 -/
theorem adjustConcurrency_cases (cfg : Settings T) (backOff : Bool) (now : Int) (s : State T) :
    ∃ size replaced concurrency, (0 < s.concurrency → 0 < concurrency) ∧
      adjustConcurrency cfg backOff now s =
        { s with currentBatchSize := size, replaced := replaced, concurrency := concurrency } := by
  unfold adjustConcurrency
  dsimp only
  split
  · exact ⟨s.currentBatchSize, s.replaced, s.concurrency, fun h => h, rfl⟩
  · split
    · next h => exact ⟨_, _, _, fun _ => h.2, rfl⟩
    · exact ⟨_, s.replaced, s.concurrency, fun h => h, rfl⟩

theorem adjustConcurrency_moved (backOff : Bool) (now : Int) :
    Moved s (adjustConcurrency cfg backOff now s) := by
  obtain ⟨size, replaced, concurrency, -, heq⟩ := adjustConcurrency_cases cfg backOff now s
  rw [heq]
  exact ⟨rfl, rfl, rfl, fun _ => rfl, rfl, rfl, rfl, rfl, rfl, rfl⟩

/-! ## 常に成り立つ事実 -/

/-- 待つ batch は無く、task の batch は空でなく、項目は受け取った順に並ぶ。 -/
structure Orderly (s : State T) : Prop where
  concurrency : 0 < s.concurrency
  queue : s.batchQueue = []
  batches : ∀ t ∈ s.tasks, t.batch ≠ []
  timer : s.flushTimer = !s.isShuttingDown
  numbered : s.entries = s.kept.zipIdx
  marks : ∀ m ∈ s.resolved, m ≤ s.kept.length
  waiting : ∀ m, s.polling = some m → m ≤ s.kept.length ∧ s.isShuttingDown = true

/-- どの event の後にも成り立つ事実。shutdown の後は、`currentBatch` に項目が残らない。 -/
structure Lawful (s : State T) : Prop extends Orderly s where
  quiet : s.isShuttingDown = true → s.currentBatch = []

theorem Lawful.init (cfg : Settings T) (now : Int) : Lawful (State.init cfg now) where
  concurrency := cfg.pLimit_accepts
  queue := rfl
  batches := fun _ h => by cases h
  timer := rfl
  numbered := rfl
  marks := fun _ h => by cases h
  waiting := fun _ h => by cases h
  quiet := fun h => by cases h

theorem Orderly.createBatch_moved (h : Orderly s) : Moved s (createBatch s) :=
  Flush.createBatch_moved h.concurrency h.queue

/-- `createBatch` の後は `currentBatch` が空である。 -/
theorem Orderly.createBatch (h : Orderly s) : Lawful (createBatch s) := by
  by_cases hne : s.currentBatch = []
  · rw [createBatch_of_nil hne]
    exact ⟨h, fun _ => hne⟩
  · have hentries := h.createBatch_moved.entries
    rw [createBatch_of_ne h.concurrency h.queue hne] at hentries ⊢
    refine ⟨⟨h.concurrency, h.queue, fun t ht => ?_, rfl, hentries.trans h.numbered, h.marks,
      h.waiting⟩, fun _ => rfl⟩
    rcases List.mem_append.mp ht with ht | ht
    · exact h.batches t ht
    · rw [List.mem_singleton.mp ht]
      exact hne

theorem Lawful.adjustConcurrency (h : Lawful s) (backOff : Bool) (now : Int) :
    Lawful (adjustConcurrency cfg backOff now s) := by
  obtain ⟨size, replaced, concurrency, hpos, heq⟩ := adjustConcurrency_cases cfg backOff now s
  rw [heq]
  exact ⟨⟨hpos h.concurrency, h.queue, h.batches, h.timer, h.numbered, h.marks, h.waiting⟩, h.quiet⟩

theorem adjustConcurrency_tasks (backOff : Bool) (now : Int) :
    (adjustConcurrency cfg backOff now s).tasks = s.tasks := by
  obtain ⟨size, replaced, concurrency, -, heq⟩ := adjustConcurrency_cases cfg backOff now s
  rw [heq]

/-- timer が鳴ると、溜まった項目が batch になる。 -/
theorem checkAndFlush_eq (h : Orderly s) : checkAndFlush s = createBatch s := by
  unfold checkAndFlush
  by_cases hne : s.currentBatch = []
  · rw [createBatch_of_nil hne, if_neg (by rw [hne]; exact Nat.lt_irrefl 0),
      flushBatches_of_nil h.queue]
  · rw [if_pos (List.length_pos_iff.mpr hne), flushBatches_of_nil h.createBatch.queue]

/-! ## task の書き換え -/

/-- 段階の合う task があれば `f` を行い、無ければ何もしない。 -/
theorem withTask_cases (i : Nat) (status : TaskStatus) (f : Task T → State T → State T)
    (s : State T) : withTask i status f s = s ∨
      ∃ t, s.tasks[i]? = some t ∧ t.status = status ∧ withTask i status f s = f t s := by
  unfold withTask
  split
  · next t ht =>
    split
    · next hstatus => exact .inr ⟨t, ht, hstatus, rfl⟩
    · exact .inl rfl
  · exact .inl rfl

theorem withTask_of_status {i : Nat} {status : TaskStatus} {f : Task T → State T → State T}
    {t : Task T} (hi : s.tasks[i]? = some t) (hstatus : t.status = status) :
    withTask i status f s = f t s := by
  unfold withTask
  rw [hi]
  exact if_pos hstatus

section SetTask

variable {i : Nat} {t t' : Task T}

/-- batch も `p` も変わらなければ、項目の並びは変わらない。 -/
theorem held_setTask {p : Task T → Bool} (hi : s.tasks[i]? = some t) (hb : t'.batch = t.batch)
    (hp : p t' = p t) : (setTask i t' s).held p = s.held p := by
  obtain ⟨l₁, l₂, htasks, -, hset⟩ := getElem?_split hi
  have hmiddle : (([t'] : List (Task T)).filter p).flatMap Task.batch =
      ([t].filter p).flatMap Task.batch := by
    rw [List.filter_singleton, List.filter_singleton, hp]
    cases p t with
    | false => rfl
    | true => simp [hb]
  have hmap : ((s.tasks.set i t').filter p).flatMap Task.batch =
      (s.tasks.filter p).flatMap Task.batch := by
    rw [hset t', htasks, List.append_cons, List.append_cons l₁ t]
    simp only [List.filter_append, List.flatMap_append, hmiddle]
  unfold State.held setTask
  dsimp only
  rw [hmap]

/-- 終わった task の項目は、終わっていない項目から外れる。 -/
theorem pending_finish (hi : s.tasks[i]? = some t) (ht : t.unfinished = true)
    (ht' : t'.unfinished = false) :
    (setTask i t' s).pending.length + t.batch.length = s.pending.length ∧
      ∀ e ∈ (setTask i t' s).pending, e ∈ s.pending := by
  obtain ⟨l₁, l₂, htasks, -, hset⟩ := getElem?_split hi
  have hbefore : (s.tasks.filter Task.unfinished).flatMap Task.batch =
      (l₁.filter Task.unfinished).flatMap Task.batch ++
        (t.batch ++ (l₂.filter Task.unfinished).flatMap Task.batch) := by
    rw [htasks, List.filter_append, List.filter_cons_of_pos ht, List.flatMap_append,
      List.flatMap_cons]
  have hafter : ((s.tasks.set i t').filter Task.unfinished).flatMap Task.batch =
      (l₁.filter Task.unfinished).flatMap Task.batch ++
        (l₂.filter Task.unfinished).flatMap Task.batch := by
    rw [hset t', List.filter_append, List.filter_cons_of_neg (by simp [ht']), List.flatMap_append]
  unfold State.pending State.held setTask
  dsimp only
  rw [hbefore, hafter]
  refine ⟨?_, fun e he => ?_⟩
  · simp only [List.length_append]
    omega
  · simp only [List.mem_append] at he ⊢
    tauto

/-- 項目を変えない書き換え。 -/
theorem Lawful.setTask (h : Lawful s) (hi : s.tasks[i]? = some t) (hb : t'.batch = t.batch) :
    Lawful (setTask i t' s) := by
  have hentries : (Flush.setTask i t' s).entries = s.entries := held_setTask hi hb rfl
  refine ⟨⟨h.concurrency, h.queue, fun u hu => ?_, h.timer, hentries.trans h.numbered, h.marks,
    h.waiting⟩, h.quiet⟩
  rcases List.mem_or_eq_of_mem_set hu with hu | rfl
  · exact h.batches u hu
  · rw [hb]
    exact h.batches t (List.mem_of_getElem? hi)

end SetTask

/-! ## 一歩 -/

/-- 数だけの欄は、成り立つ事実に関わらない。 -/
theorem Lawful.counters (h : Lawful s) (total : Int) (failures : Nat) (last : Int) :
    Lawful { s with
      totalQueuedItems := total, consecutiveFlushFailures := failures, lastFlushTime := last } :=
  ⟨⟨h.concurrency, h.queue, h.batches, h.timer, h.numbered, h.marks, h.waiting⟩, h.quiet⟩

/-- 受け取った項目は、続きの番号を持って `currentBatch` に入る。 -/
theorem acceptItems_spec (cfg : Settings T) (items : List T) (s : State T) :
    ∃ keep drop flag, acceptItems cfg items s =
      { s with
        isLoadShedding := flag
        currentBatch := s.currentBatch ++ keep.zipIdx s.kept.length
        totalQueuedItems := s.totalQueuedItems + keep.length
        kept := s.kept ++ keep
        dropped := s.dropped ++ drop.map fun item =>
          ⟨item, s.totalQueuedItems, s.pending.length⟩ } ∧
      (drop = [] ∨ cfg.loadSheddingThreshold ≤ s.totalQueuedItems ∧
        ∃ f, cfg.isDroppableEvent = some f ∧ ∀ item ∈ drop, f item = true) := by
  by_cases hover : overThreshold cfg s = true
  · refine ⟨(applyLoadShedding cfg items).1, (applyLoadShedding cfg items).2,
      (acceptItems cfg items s).isLoadShedding, ?_, ?_⟩
    · unfold acceptItems
      simp only [if_pos hover]
    · have hthreshold : (cfg.loadSheddingThreshold : Int) ≤ s.totalQueuedItems :=
        of_decide_eq_true (Bool.and_eq_true_iff.mp hover).2
      unfold applyLoadShedding
      split
      · exact .inl rfl
      · next f hf => exact .inr ⟨hthreshold, f, hf, fun item hitem => (List.mem_filter.mp hitem).2⟩
  · refine ⟨items, [], (acceptItems cfg items s).isLoadShedding, ?_, .inl rfl⟩
    unfold acceptItems
    simp only [if_neg hover]

theorem held_accept (p : Task T → Bool) (items : List (T × Nat)) :
    ({ s with currentBatch := s.currentBatch ++ items } : State T).held p = s.held p ++ items :=
  (List.append_assoc _ _ _).symm

theorem Orderly.acceptItems (h : Orderly s) (items : List T) :
    Orderly (acceptItems cfg items s) := by
  obtain ⟨keep, drop, flag, heq, -⟩ := acceptItems_spec cfg items s
  rw [heq]
  refine ⟨h.concurrency, h.queue, h.batches, h.timer, ?_, fun m hm => ?_, fun m hm => ?_⟩
  · have hentries : s.entries ++ keep.zipIdx s.kept.length = (s.kept ++ keep).zipIdx := by
      rw [h.numbered, List.zipIdx_append, Nat.zero_add]
    rw [← hentries]
    exact held_accept _ _
  · have := h.marks m hm
    show m ≤ (s.kept ++ keep).length
    rw [List.length_append]
    omega
  · obtain ⟨hle, hs⟩ := h.waiting m hm
    refine ⟨?_, hs⟩
    show m ≤ (s.kept ++ keep).length
    rw [List.length_append]
    omega

/-- 項目を足した後の batch。shutdown の途中なら、残さず batch にする。 -/
def fillBatch (cfg : Settings T) (items : List T) (s : State T) : State T :=
  if (acceptItems cfg items s).currentBatchSize ≤ (acceptItems cfg items s).currentBatch.length ∨
      (acceptItems cfg items s).isShuttingDown then
    createBatch (acceptItems cfg items s)
  else acceptItems cfg items s

theorem addToBatch_eq (cfg : Settings T) (items : List T) (now : Int) (s : State T) :
    addToBatch cfg items now s = adjustConcurrency cfg false now (fillBatch cfg items s) := rfl

theorem Lawful.fillBatch (h : Lawful s) (items : List T) : Lawful (fillBatch cfg items s) := by
  have haccept : Orderly (Flush.acceptItems cfg items s) := h.toOrderly.acceptItems items
  unfold Flush.fillBatch
  split
  · exact haccept.createBatch
  · next hsize => exact ⟨haccept, fun hs => absurd (.inr hs) hsize⟩

theorem fillBatch_moved (h : Orderly s) (items : List T) :
    Moved (acceptItems cfg items s) (fillBatch cfg items s) := by
  unfold fillBatch
  split
  · exact (h.acceptItems items).createBatch_moved
  · exact Moved.refl _

theorem Lawful.addToBatch (h : Lawful s) (items : List T) (now : Int) :
    Lawful (addToBatch cfg items now s) := (h.fillBatch items).adjustConcurrency false now

theorem start_cases (l : Nat) (s : State T) : (nextTask l s = none ∧ start l s = s) ∨
    ∃ i t, nextTask l s = some i ∧ s.tasks[i]? = some t ∧ t.status = .waiting ∧
      start l s = setTask i { t with status := .running } s := by
  unfold start
  cases hnext : nextTask l s with
  | none => exact .inl ⟨rfl, rfl⟩
  | some i =>
    have hfind : s.tasks.findIdx? (Task.waitingIn l) = some i := by
      unfold nextTask at hnext
      split at hnext
      · exact hnext
      · cases hnext
    obtain ⟨hlt, hw, -⟩ := List.findIdx?_eq_some_iff_getElem.mp hfind
    have hget : s.tasks[i]? = some s.tasks[i] := List.getElem?_eq_getElem hlt
    have hwaiting : s.tasks[i].status = .waiting := (of_decide_eq_true hw).2
    exact .inr ⟨i, s.tasks[i], rfl, hget, hwaiting, withTask_of_status hget hwaiting⟩

theorem Lawful.start (h : Lawful s) (l : Nat) : Lawful (start l s) := by
  rcases start_cases l s with ⟨-, heq⟩ | ⟨i, t, -, hi, -, heq⟩
  · rw [heq]
    exact h
  · rw [heq]
    exact h.setTask hi rfl

theorem unfinished_of_running {t : Task T} (h : t.status = .running) : t.unfinished = true := by
  simp [Task.unfinished, h]

theorem Lawful.succeeded (h : Lawful s) (i : Nat) (now : Int) : Lawful (succeeded i now s) := by
  rcases withTask_cases i .running _ s with heq | ⟨t, hi, -, heq⟩
  · rw [Flush.succeeded, heq]
    exact h
  · rw [Flush.succeeded, heq]
    have hset : Lawful (Flush.setTask i { t with status := .flushed } s) := h.setTask hi rfl
    exact hset.counters _ _ _

/-- 失敗の後の、task を書き換える前の状態。 -/
def backOff (cfg : Settings T) (now : Int) (s : State T) : State T :=
  let s := { s with consecutiveFlushFailures := s.consecutiveFlushFailures + 1 }
  if s.consecutiveFlushFailures > 5 then adjustConcurrency cfg true now s else s

/-- 再試行を待つか、諦めた task。 -/
def afterFailure (t : Task T) : Task T :=
  { t with status := if t.attempt ≤ 3 then .sleeping else .givenUp }

theorem failed_cases (cfg : Settings T) (i : Nat) (now : Int) (s : State T) :
    failed cfg i now s = s ∨ ∃ t, s.tasks[i]? = some t ∧ t.status = .running ∧
      failed cfg i now s = setTask i (afterFailure t) (backOff cfg now s) :=
  withTask_cases i .running _ s

theorem backOff_moved (now : Int) : Moved s (backOff cfg now s) := by
  have hcount : Moved s { s with consecutiveFlushFailures := s.consecutiveFlushFailures + 1 } :=
    ⟨rfl, rfl, rfl, fun _ => rfl, rfl, rfl, rfl, rfl, rfl, rfl⟩
  unfold backOff
  dsimp only
  split
  · exact hcount.trans (adjustConcurrency_moved _ _)
  · exact hcount

theorem backOff_tasks (now : Int) : (backOff cfg now s).tasks = s.tasks := by
  unfold backOff
  dsimp only
  split
  · exact adjustConcurrency_tasks _ _
  · rfl

theorem Lawful.backOff (h : Lawful s) (now : Int) : Lawful (backOff cfg now s) := by
  unfold Flush.backOff
  dsimp only
  split
  · exact (h.counters _ _ _).adjustConcurrency _ _
  · exact h.counters _ _ _

theorem Lawful.failed (h : Lawful s) (i : Nat) (now : Int) : Lawful (failed cfg i now s) := by
  rcases failed_cases cfg i now s with heq | ⟨t, hi, hr, heq⟩
  · rw [heq]
    exact h
  · rw [heq]
    have hback : (Flush.backOff cfg now s).tasks[i]? = some t := by
      rw [backOff_tasks now]
      exact hi
    exact (h.backOff now).setTask hback rfl

theorem Lawful.retry (h : Lawful s) (i : Nat) : Lawful (retry i s) := by
  rcases withTask_cases i .sleeping _ s with heq | ⟨t, hi, -, heq⟩
  · rw [Flush.retry, heq]
    exact h
  · rw [Flush.retry, heq]
    exact h.setTask hi rfl

/-- 継続は組を外すだけである。待つ batch は無い。 -/
theorem settled_cases (h : Orderly s) (k : Nat) :
    ∃ groups, settled k s = { s with groups := groups } := by
  unfold settled
  split
  · split
    · rw [h.queue]
      exact ⟨_, rfl⟩
    · exact ⟨s.groups, rfl⟩
  · exact ⟨s.groups, rfl⟩

theorem Lawful.settled (h : Lawful s) (k : Nat) : Lawful (settled k s) := by
  obtain ⟨groups, heq⟩ := settled_cases h.toOrderly k
  rw [heq]
  exact ⟨⟨h.concurrency, h.queue, h.batches, h.timer, h.numbered, h.marks, h.waiting⟩, h.quiet⟩

theorem poll_cases (s : State T) : poll s = s ∨ ∃ mark, s.polling = some mark ∧
    drained s = true ∧ poll s = { s with polling := none, resolved := mark :: s.resolved } := by
  unfold poll
  split
  · next mark hmark =>
    split
    · next hd => exact .inr ⟨mark, hmark, hd, rfl⟩
    · exact .inl rfl
  · exact .inl rfl

theorem Lawful.poll (h : Lawful s) : Lawful (poll s) := by
  rcases poll_cases s with heq | ⟨mark, hmark, -, heq⟩
  · rw [heq]
    exact h
  · rw [heq]
    refine ⟨⟨h.concurrency, h.queue, h.batches, h.timer, h.numbered, fun m hm => ?_,
      fun m hm => by cases hm⟩, h.quiet⟩
    rcases List.mem_cons.mp hm with rfl | hm
    · exact (h.waiting _ hmark).1
    · exact h.marks m hm

/-- timer を止めた shutdown。 -/
def stopTimer (s : State T) : State T := { s with isShuttingDown := true, flushTimer := false }

/-- 巡回を始める前までの shutdown。 -/
def closeBatch (s : State T) : State T :=
  if 0 < (stopTimer s).currentBatch.length then createBatch (stopTimer s) else stopTimer s

theorem shutdown_of_first (h : s.isShuttingDown = false) :
    shutdown s = poll { closeBatch s with polling := some (closeBatch s).kept.length } := by
  unfold shutdown
  rw [h]
  rfl

theorem shutdown_of_repeated (h : s.isShuttingDown = true) :
    shutdown s = { s with resolved := s.kept.length :: s.resolved } := by
  unfold shutdown
  rw [h]
  rfl

theorem Orderly.stopTimer (h : Orderly s) : Orderly (stopTimer s) :=
  ⟨h.concurrency, h.queue, h.batches, rfl, h.numbered, h.marks,
    fun m hm => ⟨(h.waiting m hm).1, rfl⟩⟩

theorem closeBatch_eq (s : State T) : closeBatch s = createBatch (stopTimer s) := by
  unfold closeBatch
  split
  · rfl
  · next hlen => exact (createBatch_of_nil (List.length_eq_zero_iff.mp (by omega))).symm

theorem Orderly.closeBatch (h : Orderly s) : Lawful (closeBatch s) := by
  rw [closeBatch_eq]
  exact h.stopTimer.createBatch

theorem closeBatch_moved (h : Orderly s) : Moved (stopTimer s) (closeBatch s) := by
  rw [closeBatch_eq]
  exact h.stopTimer.createBatch_moved

theorem Lawful.shutdown (h : Lawful s) : Lawful (shutdown s) := by
  cases hs : s.isShuttingDown with
  | false =>
    rw [shutdown_of_first hs]
    have hclose : Lawful (Flush.closeBatch s) := h.toOrderly.closeBatch
    refine Lawful.poll ⟨⟨hclose.concurrency, hclose.queue, hclose.batches, hclose.timer,
      hclose.numbered, hclose.marks, fun m hm => ?_⟩, hclose.quiet⟩
    exact ⟨Nat.le_of_eq (Option.some.inj hm).symm, (closeBatch_moved h.toOrderly).shutting⟩
  | true =>
    rw [shutdown_of_repeated hs]
    refine ⟨⟨h.concurrency, h.queue, h.batches, h.timer, h.numbered, fun m hm => ?_, h.waiting⟩,
      h.quiet⟩
    rcases List.mem_cons.mp hm with rfl | hm
    · exact Nat.le_refl _
    · exact h.marks m hm

/-- **どの event の後にも成り立つ。** -/
theorem Lawful.step (h : Lawful s) (e : Event T) : Lawful (step cfg s e) := by
  cases e with
  | addToBatch items now => exact h.addToBatch items now
  | tick =>
    unfold Flush.step
    dsimp only
    split
    · rw [checkAndFlush_eq h.toOrderly]
      exact h.toOrderly.createBatch
    · exact h
  | start l => exact h.start l
  | succeeded i now => exact h.succeeded i now
  | failed i now => exact h.failed i now
  | retry i => exact h.retry i
  | settled k => exact h.settled k
  | shutdown => exact h.shutdown
  | poll => exact h.poll

end Flush
