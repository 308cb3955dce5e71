import Trigger.Worker.Job

/-!
# 失敗し続ける job の試行

handler がいつも例外を投げる job を、`processItem` が何回動かすか。`processItem` は `calculateNextRetryDelay` の結果が
偽かどうかで再試行をやめるので、丸めて 0 になる遅延は、試行が残っていても job を dead letter queue へ送る。

他の job の操作はどう挟まってもよい。
-/

namespace Worker

open Infra

variable {P : Type} {env : Env P} {id job : String}

/-! ## 丸めると 0 になる遅延 -/

/-- `Math.random()` から作る倍率。 -/
def RetryOptions.scale (opts : RetryOptions) (random : ℚ) : ℚ :=
  if opts.randomize then random + 1 else 1

/-- 上限か指数的な遅延が半ミリ秒に満たず、どちらも -1/2 以上である。 -/
def RetryOptions.Vanishes (opts : RetryOptions) (random : ℚ) (attempt : ℕ) : Prop :=
  (opts.maxTimeoutInMs < 1 / 2 ∨
      opts.scale random * opts.minTimeoutInMs * opts.factor ^ (attempt - 1) < 1 / 2) ∧
    -1 / 2 ≤ opts.maxTimeoutInMs ∧
    -1 / 2 ≤ opts.scale random * opts.minTimeoutInMs * opts.factor ^ (attempt - 1)

instance (opts : RetryOptions) (random : ℚ) (attempt : ℕ) :
    Decidable (opts.Vanishes random attempt) := inferInstanceAs (Decidable (_ ∧ _))

/-- `Math.round` が 0 になる範囲。 -/
theorem round_eq_zero_iff (x : ℚ) : ⌊x + 1 / 2⌋ = 0 ↔ x < 1 / 2 ∧ -1 / 2 ≤ x := by
  rw [Int.floor_eq_iff, Int.cast_zero]
  constructor
  · rintro ⟨hlow, hhigh⟩
    exact ⟨by linarith, by linarith⟩
  · rintro ⟨hhigh, hlow⟩
    exact ⟨by linarith, by linarith⟩

/-- 試行が残っていないときは `undefined`、残っているときは丸めた遅延である。0 になるのは `Vanishes` のときである。 -/
theorem calculateNextRetryDelay_cases (opts : RetryOptions) (random : ℚ) (attempt : ℕ) :
    (opts.maxAttempts ≤ attempt ∧ calculateNextRetryDelay opts random attempt = none) ∨
      (attempt < opts.maxAttempts ∧ ∃ delay,
        calculateNextRetryDelay opts random attempt = some delay ∧
        (delay = 0 ↔ opts.Vanishes random attempt)) := by
  unfold calculateNextRetryDelay
  split
  · next h => exact .inl ⟨h, rfl⟩
  · next h =>
    refine .inr ⟨not_le.mp h, _, rfl, ?_⟩
    have hround := (round_eq_zero_iff (min opts.maxTimeoutInMs (opts.scale random *
      opts.minTimeoutInMs * opts.factor ^ (attempt - 1)))).trans (and_congr min_lt_iff le_min_iff)
    exact Int.cast_eq_zero.trans hround

/-- `processItem` が再試行をやめるのは、試行が残っていないか、遅延が 0 に丸められるときである。 -/
theorem retryDelay_eq_none_iff (env : Env P) (q : QueueItem P) (random : ℚ) :
    retryDelay env q random = none ↔ (env.retry q.job).maxAttempts ≤ q.attempt + 1 ∨
      (env.retry q.job).Vanishes random (q.attempt + 1) := by
  unfold retryDelay
  rcases calculateNextRetryDelay_cases (env.retry q.job) random (q.attempt + 1) with
    ⟨hmax, hcalc⟩ | ⟨hlt, delay, hcalc, hzero⟩
  · rw [hcalc]
    exact ⟨fun _ => .inl hmax, fun _ => rfl⟩
  · rw [hcalc, Option.filter_eq_none_iff, ← hzero]
    simp [not_le.mpr hlt]

/-! ## 試行を数える -/

/-- worker の状態と、`id` の handler が失敗した回数。 -/
structure Attempts (P : Type) where
  state : State P
  runs : ℕ := 0

variable [DecidableEq P]

/-- 動いている `id` の handler が失敗する一歩。 -/
def Fails (id : String) (s : State P) : Label P → Prop
  | .fail q .. => q.id = id ∧ q ∈ s.processing
  | _ => False

instance (s : State P) : (l : Label P) → Decidable (Fails id s l)
  | .fail q .. => decidable_of_iff (q.id = id ∧ ∃ p ∈ s.processing, p = q) (by simp [Fails])
  | .enqueue .. | .enqueueOnce .. | .cancel _ | .dequeue .. | .succeed _ => instDecidableFalse

def Attempts.step (env : Env P) (id : String) (a : Attempts P) (l : Label P) : Attempts P :=
  ⟨a.state.step env l, if Fails id a.state l then a.runs + 1 else a.runs⟩

/--
job はいつも失敗し、途中で enqueue し直されない。visibility timeout は handler より先に来ない：`id` の handler が
動いている間は、`id` は取り出されない。
-/
def Failing (env : Env P) (id : String) (a : Attempts P) : Label P → Prop
  | .dequeue now count =>
    dequeuedJobs env id now count a.state ≠ [] → ∀ q ∈ a.state.processing, q.id ≠ id
  | .fail .. => True
  | l => About id l = false

instance (a : Attempts P) : (l : Label P) → Decidable (Failing env id a l)
  | .dequeue now count => inferInstanceAs (Decidable
    (dequeuedJobs env id now count a.state ≠ [] → ∀ q ∈ a.state.processing, q.id ≠ id))
  | .fail .. => instDecidableTrue
  | .enqueue .. | .enqueueOnce .. | .cancel _ | .succeed _ =>
    inferInstanceAs (Decidable (About id _ = false))

/-- 失敗が `maxAttempts` 回になるまで job は queue にあり、`attempt` は失敗の回数である。その後は dead letter queue にある。 -/
structure Retried (env : Env P) (id job : String) (a : Attempts P) : Prop where
  bounded : a.runs ≤ (env.retry job).maxAttempts
  queued : a.runs < (env.retry job).maxAttempts → a.state.store.queue.score? id ≠ none ∧
    ∃ item, a.state.store.items.get id = some item ∧ item.job = job ∧ item.attempt.getD 0 = a.runs
  dead : a.runs = (env.retry job).maxAttempts →
    a.state.store.items.get id = none ∧ a.state.store.dlqItems.get id ≠ none

/-- 失敗した handler に試行が残っていれば、遅延は 0 に丸められない。 -/
def DelayLasts (env : Env P) (id : String) (a : Attempts P) : Label P → Prop
  | .fail q _ random _ => q.id = id ∧ q ∈ a.state.processing →
    q.attempt + 1 < (env.retry q.job).maxAttempts →
      ¬ (env.retry q.job).Vanishes random (q.attempt + 1)
  | _ => True

instance (a : Attempts P) : (l : Label P) → Decidable (DelayLasts env id a l)
  | .fail q _ random _ => decidable_of_iff (q.id = id ∧ (∃ p ∈ a.state.processing, p = q) →
      q.attempt + 1 < (env.retry q.job).maxAttempts →
        ¬ (env.retry q.job).Vanishes random (q.attempt + 1)) (by simp [DelayLasts])
  | .enqueue .. | .enqueueOnce .. | .cancel _ | .dequeue .. | .succeed _ => instDecidableTrue

/-! ## 動いている handler -/

/-- `id` の handler は高々一つで、保存された item を取り出したものである。 -/
structure Handling (env : Env P) (id : String) (s : State P) : Prop where
  consistent : Consistent s.store
  single : (s.processing.filter (·.id = id)).length ≤ 1
  stored : ∀ q ∈ s.processing, q.id = id → ∃ item, s.store.items.get id = some item ∧
    q.job = item.job ∧ q.attempt = item.attempt.getD 0 ∧ env.cjson item ≠ none

/-! ## 一歩 -/

/-- `id` の handler の終わりでない一歩は、queue と handler の item を変えない。 -/
theorem items_step {s : State P} {l : Label P} (hl : (∃ now count, l = .dequeue now count) ∨
    About id l = false) : (s.step env l).store.items.get id = s.store.items.get id := by
  rcases hl with ⟨now, count, rfl⟩ | hl
  · have hitems : (dequeueItems env.cjson now count s.store).2.items = s.store.items :=
      items_dequeueLoop _
    change (dequeueItems env.cjson now count s.store).2.items.get id = _
    rw [hitems]
  · exact items_other hl

/-- dead letter queue に入った item は、worker の操作では消えない。 -/
theorem dlqItems_step {s : State P} (l : Label P) (h : s.store.dlqItems.get id ≠ none) :
    (s.step env l).store.dlqItems.get id ≠ none := by
  cases l with
  | enqueue id' job item availableAt v key =>
    cases key with
    | none => exact h
    | some key =>
      change (enqueueItemWithCancellationKey key id' availableAt _ s.store).dlqItems.get id ≠ none
      unfold enqueueItemWithCancellationKey
      split
      · exact h
      · exact h
  | enqueueOnce id' job item availableAt v =>
    change (enqueueItemOnce id' availableAt _ s.store).2.dlqItems.get id ≠ none
    unfold enqueueItemOnce
    split
    · exact h
    · exact h
  | cancel key => exact h
  | dequeue now count =>
    have hdlq : (dequeueItems env.cjson now count s.store).2.dlqItems = s.store.dlqItems :=
      dlqItems_dequeueLoop _
    change (dequeueItems env.cjson now count s.store).2.dlqItems.get id ≠ none
    rw [hdlq]
    exact h
  | succeed q =>
    change (if q ∈ s.processing then _ else _ : State P).store.dlqItems.get id ≠ none
    split
    · change (ackItem env.cjson q.id _ s.store).2.dlqItems.get id ≠ none
      unfold ackItem
      split
      · exact h
      · split
        · exact h
        · exact h
    · exact h
  | fail q now random message =>
    change (if q ∈ s.processing then _ else _ : State P).store.dlqItems.get id ≠ none
    split
    · unfold fail
      split
      · change (moveToDeadLetterQueue env.cjson now q.id message s.store).2.dlqItems.get id ≠ none
        unfold moveToDeadLetterQueue
        split
        · exact h
        · split
          · exact h
          · change (s.store.dlqItems.set q.id _).get id ≠ none
            rw [JsMap.get_set]
            split
            · exact Option.some_ne_none _
            · exact h
      · exact h
    · exact h

/-! ## 不変条件 -/

/-- `id` の item と handler がそのままの一歩は、不変条件を保つ。 -/
theorem Handling.other {s : State P} {l : Label P} (h : Handling env id s)
    (hitems : (s.step env l).store.items.get id = s.store.items.get id)
    (hprocessing : ∀ q ∈ (s.step env l).processing, q.id = id → q ∈ s.processing)
    (hsingle : ((s.step env l).processing.filter (·.id = id)).length ≤ 1) :
    Handling env id (s.step env l) where
  consistent := consistent_worker_step h.consistent l
  single := hsingle
  stored := by
    intro q hq hid
    rw [hitems]
    exact h.stored q (hprocessing q hq hid) hid

/-- handler が一つ終わる一歩では、残る handler は前からある。 -/
theorem Handling.erase {s : State P} {l : Label P} {q : QueueItem P} (h : Handling env id s)
    (hitems : (s.step env l).store.items.get id = s.store.items.get id)
    (hprocessing : (s.step env l).processing = s.processing.erase q) :
    Handling env id (s.step env l) := by
  refine h.other hitems (fun q' hq' _ => ?_) ?_
  · rw [hprocessing] at hq'
    exact List.mem_of_mem_erase hq'
  · rw [hprocessing]
    exact (List.erase_sublist.filter _).length_le.trans h.single

/-- `id` の handler が終われば、`id` の handler は残らない。 -/
theorem Handling.unique {s : State P} {q : QueueItem P} (h : Handling env id s)
    (hq : q ∈ s.processing) (hid : q.id = id) : ∀ q' ∈ s.processing.erase q, q'.id ≠ id := by
  have hlen : ((s.processing.erase q).filter (·.id = id)).length = 0 := by
    have hlength := ((List.perm_cons_erase hq).filter (·.id = id)).length_eq
    rw [List.filter_cons, if_pos (decide_eq_true hid), List.length_cons] at hlength
    have := h.single
    omega
  intro q' hq' hid'
  have hmem : q' ∈ (s.processing.erase q).filter (·.id = id) :=
    List.mem_filter.mpr ⟨hq', decide_eq_true hid'⟩
  rw [List.length_eq_zero_iff.mp hlen] at hmem
  cases hmem

/-- 失敗した handler の片付けの後の handler の列。 -/
theorem processing_fail (s : State P) (q : QueueItem P) (now random : ℚ) (message : String) :
    (fail env q now random message s).processing = s.processing.erase q := by
  unfold fail
  split
  · rfl
  · rfl

theorem handling_step {a : Attempts P} {l : Label P} (h : Handling env id a.state)
    (hfailing : Failing env id a l) : Handling env id (a.state.step env l) := by
  cases l with
  | enqueue id' job item availableAt v key =>
    exact h.other (items_step (.inr hfailing)) (fun q hq _ => hq) h.single
  | enqueueOnce id' job item availableAt v =>
    exact h.other (items_step (.inr hfailing)) (fun q hq _ => hq) h.single
  | cancel key => exact h.other rfl (fun q hq _ => hq) h.single
  | dequeue now count =>
    have hnew : (a.state.step env (.dequeue now count)).processing.filter (·.id = id) =
        a.state.processing.filter (·.id = id) ++ dequeuedJobs env id now count a.state :=
      List.filter_append _ _
    refine ⟨consistent_worker_step h.consistent _, ?_, fun q hq hid => ?_⟩
    · rw [hnew]
      by_cases hempty : dequeuedJobs env id now count a.state = []
      · rw [hempty, List.append_nil]
        exact h.single
      · -- `id` の handler が動いていないときだけ取り出される
        rw [List.filter_eq_nil_iff.mpr fun q hq =>
          by simpa using hfailing hempty q hq, List.nil_append]
        exact length_dequeuedJobs env id now count a.state
    · have hmem : q ∈ a.state.processing.filter (·.id = id) ++
          dequeuedJobs env id now count a.state :=
        hnew ▸ List.mem_filter.mpr ⟨hq, decide_eq_true hid⟩
      rw [items_step (.inl ⟨now, count, rfl⟩)]
      rcases List.mem_append.mp hmem with hold | hdequeued
      · exact h.stored q (List.mem_filter.mp hold).1 hid
      · obtain ⟨hq, -⟩ := List.mem_filter.mp hdequeued
        obtain ⟨d, hd, hparsed⟩ := List.mem_filterMap.mp hq
        obtain ⟨data, -, rfl⟩ := Option.map_eq_some_iff.mp hparsed
        obtain ⟨-, hget, item, hcjson, -⟩ := mem_delivered hd
        obtain rfl : d.id = id := hid
        exact ⟨d.serializedItem, hget, rfl, rfl, by rw [hcjson]; exact Option.some_ne_none _⟩
  | succeed q =>
    by_cases hq : q ∈ a.state.processing
    · refine h.erase (q := q) (items_step (.inr hfailing)) ?_
      change (if q ∈ a.state.processing then _ else _ : State P).processing = _
      rw [if_pos hq]
      rfl
    · have hstep : a.state.step env (.succeed q) = a.state := if_neg hq
      rw [hstep]
      exact h
  | fail q now random message =>
    by_cases hq : q ∈ a.state.processing
    · have hprocessing : (a.state.step env (.fail q now random message)).processing =
          a.state.processing.erase q := by
        change (if q ∈ a.state.processing then _ else _ : State P).processing = _
        rw [if_pos hq]
        exact processing_fail a.state q now random message
      by_cases hid : q.id = id
      · have hnone := h.unique hq hid
        rw [← hprocessing] at hnone
        refine ⟨consistent_worker_step h.consistent _, ?_,
          fun q' hq' hid' => absurd hid' (hnone q' hq')⟩
        rw [List.filter_eq_nil_iff.mpr fun q' hq' => by simpa using hnone q' hq']
        exact Nat.zero_le 1
      · exact h.erase (items_step (.inr (decide_eq_false hid))) hprocessing
    · have hstep : a.state.step env (.fail q now random message) = a.state := if_neg hq
      rw [hstep]
      exact h

/-! ## 試行の使い切り -/

omit [DecidableEq P] in
/-- queue にある id は、item のある id である。 -/
theorem Handling.queued_iff {s : State P} (h : Handling env id s) :
    s.store.queue.score? id ≠ none ↔ s.store.items.get id ≠ none := by
  rw [← Option.isSome_iff_ne_none, ← Option.isSome_iff_ne_none]
  exact h.consistent.live id

/-- `id` の失敗でない一歩は、試行の進み方を変えない。 -/
theorem Retried.other {a : Attempts P} {l : Label P} (hnext : Handling env id (a.state.step env l))
    (hr : Retried env id job a) (hfails : ¬ Fails id a.state l)
    (hitems : (a.state.step env l).store.items.get id = a.state.store.items.get id) :
    Retried env id job (a.step env id l) := by
  have hruns : (a.step env id l).runs = a.runs := if_neg hfails
  refine ⟨hruns ▸ hr.bounded, fun hlt => ?_, fun heq => ?_⟩
  · rw [hruns] at hlt ⊢
    obtain ⟨-, item, hget, hjob, hattempt⟩ := hr.queued hlt
    rw [← hitems] at hget
    exact ⟨hnext.queued_iff.mpr (by rw [hget]; exact Option.some_ne_none _),
      item, hget, hjob, hattempt⟩
  · rw [hruns] at heq
    obtain ⟨hitem, hdlq⟩ := hr.dead heq
    exact ⟨hitems.trans hitem, dlqItems_step l hdlq⟩

/-- 失敗した handler を dead letter queue へ移した後の値。 -/
theorem fail_dead {s : State P} {q : QueueItem P} {random : ℚ} {item : Item P} (now : ℚ)
    (message : String) (hget : s.store.items.get q.id = some item) (hcjson : env.cjson item ≠ none)
    (hdelay : retryDelay env q random = none) :
    (fail env q now random message s).store.items.get q.id = none ∧
      (fail env q now random message s).store.dlqItems.get q.id ≠ none := by
  obtain ⟨parsed, hparsed⟩ := Option.ne_none_iff_exists'.mp hcjson
  unfold fail
  rw [hdelay]
  dsimp only
  unfold moveToDeadLetterQueue
  simp only [hget, hparsed]
  rw [JsMap.get_delete, if_pos rfl, JsMap.get_set, if_pos rfl]
  exact ⟨rfl, Option.some_ne_none _⟩

/-- 失敗した handler を enqueue し直した後の値。 -/
theorem fail_requeued {q : QueueItem P} {random delay : ℚ} (s : State P) (now : ℚ)
    (message : String) (hdelay : retryDelay env q random = some delay) :
    ∃ item, (fail env q now random message s).store.items.get q.id = some item ∧
      item.job = q.job ∧ item.attempt = some (q.attempt + 1) := by
  unfold fail
  rw [hdelay]
  exact ⟨_, JsMap.get_set_self _ _ _, rfl, rfl⟩

/-- `id` の失敗の後も試行の規則が続くのは、残りの試行の遅延が 0 に丸められないときである。 -/
theorem retried_fail_iff {a : Attempts P} {q : QueueItem P} {now random : ℚ} {message : String}
    (h : Handling env q.id a.state) (hq : q ∈ a.state.processing)
    (hr : Retried env q.id job a) :
    Retried env q.id job (a.step env q.id (.fail q now random message)) ↔
      DelayLasts env q.id a (.fail q now random message) := by
  obtain ⟨item, hget, hjob, hattempt, hcjson⟩ := h.stored q hq rfl
  have hlt : a.runs < (env.retry job).maxAttempts := by
    refine lt_of_le_of_ne hr.bounded fun heq => ?_
    rw [(hr.dead heq).1] at hget
    cases hget
  obtain ⟨-, stored, hstored, hstoredJob, hstoredAttempt⟩ := hr.queued hlt
  obtain rfl : item = stored := Option.some_inj.mp (hget.symm.trans hstored)
  have hstate : (a.step env q.id (.fail q now random message)).state =
      fail env q now random message a.state := if_pos hq
  have hruns : (a.step env q.id (.fail q now random message)).runs = a.runs + 1 := if_pos ⟨rfl, hq⟩
  have hnext : Handling env q.id (a.step env q.id (.fail q now random message)).state :=
    handling_step (l := .fail q now random message) h trivial
  have hnone := retryDelay_eq_none_iff env q random
  have hcondition : DelayLasts env q.id a (.fail q now random message) ↔
      (q.attempt + 1 < (env.retry q.job).maxAttempts →
        ¬ (env.retry q.job).Vanishes random (q.attempt + 1)) :=
    ⟨fun hc => hc ⟨rfl, hq⟩, fun hc _ => hc⟩
  rw [hcondition]
  rw [hjob, hattempt, hstoredJob, hstoredAttempt] at hnone ⊢
  rcases hdelay : retryDelay env q random with _ | delay
  · -- dead letter queue へ移る
    obtain ⟨hitems, hdlq⟩ := fail_dead now message hget hcjson hdelay
    rw [← hstate] at hitems hdlq
    constructor
    · intro hafter hmore
      obtain ⟨-, stored, hstored, -⟩ := hafter.queued (hruns ▸ hmore)
      rw [hstored] at hitems
      cases hitems
    · intro hcond
      have hlast : (env.retry job).maxAttempts ≤ a.runs + 1 := by
        rcases hnone.mp hdelay with hmax | hvanishes
        · exact hmax
        · by_contra hmore
          exact hcond (not_le.mp hmore) hvanishes
      exact ⟨by omega, fun hmore => absurd hmore (by omega), fun _ => ⟨hitems, hdlq⟩⟩
  · -- enqueue し直される
    rw [hdelay] at hnone
    obtain ⟨hmore, hlasts⟩ := not_or.mp fun hc => Option.some_ne_none delay (hnone.mpr hc)
    obtain ⟨stored, hstored, hstoredJob', hstoredAttempt'⟩ :=
      fail_requeued a.state now message hdelay
    rw [← hstate] at hstored
    refine ⟨fun _ _ => hlasts, fun _ => ⟨by omega, fun _ => ?_, fun heq => by omega⟩⟩
    have hsome :
        (a.step env q.id (.fail q now random message)).state.store.items.get q.id ≠ none := by
      rw [hstored]
      exact Option.some_ne_none _
    refine ⟨hnext.queued_iff.mpr hsome, stored, hstored, ?_, ?_⟩
    · rw [hstoredJob', hjob, hstoredJob]
    · rw [hstoredAttempt', hruns, hattempt, hstoredAttempt]
      rfl

theorem retried_step_iff {a : Attempts P} {l : Label P} (h : Handling env id a.state)
    (hfailing : Failing env id a l) (hr : Retried env id job a) :
    Retried env id job (a.step env id l) ↔ DelayLasts env id a l := by
  have hnext := handling_step h hfailing
  cases l with
  | fail q now random message =>
    by_cases hfails : q.id = id ∧ q ∈ a.state.processing
    · obtain ⟨rfl, hq⟩ := hfails
      exact retried_fail_iff h hq hr
    · have hitems : (a.state.step env (.fail q now random message)).store.items.get id =
          a.state.store.items.get id := by
        by_cases hid : q.id = id
        · have hstep : a.state.step env (.fail q now random message) = a.state :=
            if_neg fun hq => hfails ⟨hid, hq⟩
          rw [hstep]
        · exact items_step (.inr (decide_eq_false hid))
      exact ⟨fun _ hc => absurd hc hfails, fun _ => hr.other hnext hfails hitems⟩
  | dequeue now count =>
    exact ⟨fun _ => trivial,
      fun _ => hr.other hnext not_false (items_step (.inl ⟨now, count, rfl⟩))⟩
  | enqueue id' job item availableAt v key =>
    exact ⟨fun _ => trivial, fun _ => hr.other hnext not_false (items_step (.inr hfailing))⟩
  | enqueueOnce id' job item availableAt v =>
    exact ⟨fun _ => trivial, fun _ => hr.other hnext not_false (items_step (.inr hfailing))⟩
  | cancel key =>
    exact ⟨fun _ => trivial, fun _ => hr.other hnext not_false (items_step (.inr hfailing))⟩
  | succeed q =>
    exact ⟨fun _ => trivial, fun _ => hr.other hnext not_false (items_step (.inr hfailing))⟩

/-! ## 実行 -/

/-- 到達できる状態で job を enqueue した直後。 -/
def enqueued (env : Env P) (before : List (Label P)) (id job : String) (item : P) (availableAt : ℚ)
    (visibilityTimeoutMs : ℕ) : Attempts P :=
  ⟨(Machine.exec (State.step env) State.empty before).step env
    (.enqueue id job item availableAt visibilityTimeoutMs none), 0⟩

theorem get_enqueue (env : Env P) (s : State P) (id job : String) (item : P) (availableAt : ℚ)
    (visibilityTimeoutMs : ℕ) :
    (s.step env (.enqueue id job item availableAt visibilityTimeoutMs none)).store.items.get id =
      some ⟨job, item, visibilityTimeoutMs, none, some (env.nanoid s.nanoids), none⟩ :=
  JsMap.get_set_self _ _ _

/-- enqueue された job は、失敗の無いまま queue にある。 -/
theorem retried_enqueue {s : State P} {item : P} {availableAt : ℚ} {visibilityTimeoutMs : ℕ}
    (h : Handling env id
      (s.step env (.enqueue id job item availableAt visibilityTimeoutMs none)))
    (hmax : 1 ≤ (env.retry job).maxAttempts) : Retried env id job
      ⟨s.step env (.enqueue id job item availableAt visibilityTimeoutMs none), 0⟩ := by
  have hget := get_enqueue env s id job item availableAt visibilityTimeoutMs
  refine ⟨Nat.zero_le _, fun _ => ⟨?_, _, hget, rfl, rfl⟩, fun heq => ?_⟩
  · exact h.queued_iff.mpr (by rw [hget]; exact Option.some_ne_none _)
  · dsimp only at heq
    omega

/-- `id` の handler の無いところへの enqueue。 -/
theorem handling_enqueue (env : Env P) {s : State P} (hs : Consistent s.store)
    (hidle : ∀ q ∈ s.processing, q.id ≠ id) (job : String) (item : P) (availableAt : ℚ)
    (visibilityTimeoutMs : ℕ) :
    Handling env id (s.step env (.enqueue id job item availableAt visibilityTimeoutMs none)) := by
  refine ⟨consistent_worker_step hs _, ?_, fun q hq hid => absurd hid (hidle q hq)⟩
  change (s.processing.filter (·.id = id)).length ≤ 1
  rw [List.filter_eq_nil_iff.mpr fun q hq => by simpa using hidle q hq]
  exact Nat.zero_le 1

/-- **失敗し続ける job が、失敗が `maxAttempts` 回になるまで queue に残り、なったときに dead letter queue へ移ることと、
試行の残る失敗のどの遅延も 0 に丸められないことは、どの実行でも同値である。** -/
theorem retried_iff (env : Env P) (before : List (Label P)) (id job : String) (item : P)
    (availableAt : ℚ) (visibilityTimeoutMs : ℕ)
    (hidle : ∀ q ∈ (Machine.exec (State.step env) State.empty before).processing, q.id ≠ id)
    (hmax : 1 ≤ (env.retry job).maxAttempts) (ls : List (Label P))
    (hfailing : Machine.Along (Attempts.step env id) (Failing env id)
      (enqueued env before id job item availableAt visibilityTimeoutMs) ls) :
    Machine.Throughout (Attempts.step env id) (Retried env id job)
        (enqueued env before id job item availableAt visibilityTimeoutMs) ls ↔
      Machine.Along (Attempts.step env id) (DelayLasts env id)
        (enqueued env before id job item availableAt visibilityTimeoutMs) ls := by
  have hconsistent : Consistent (Machine.exec (State.step env) State.empty before).store :=
    Machine.exec_invariant (I := fun s : State P => Consistent s.store)
      (fun s l hs => consistent_worker_step hs l) consistent_empty
  have hstart := handling_enqueue env hconsistent hidle job item availableAt
    visibilityTimeoutMs
  have hinv : ∀ (a : Attempts P) l, Handling env id a.state → Failing env id a l →
      Handling env id (a.step env id l).state := fun a l ha hl => handling_step ha hl
  exact Machine.throughout_iff_along_of hinv (fun a l ha hl hr => retried_step_iff ha hl hr)
    hfailing hstart (retried_enqueue hstart hmax)

/-- 二度失敗する job。 -/
def failedTwice : List (Label ℕ) :=
  [.dequeue 0 1, .fail ⟨"a", "job", 7, 10, 0, 0, some "x"⟩ 1 0 "error", .dequeue 2000 1,
    .fail ⟨"a", "job", 7, 10, 1, 1001, some "xx"⟩ 2001 0 "error"]

/-- `maxAttempts` が 2 の既定の設定では、二度目の失敗で dead letter queue へ移る。 -/
theorem retried_failedTwice :
    Machine.Throughout (Attempts.step (sampleEnv 2) "a") (Retried (sampleEnv 2) "a" "job")
      (enqueued (sampleEnv 2) [] "a" "job" 7 0 10) failedTwice :=
  (retried_iff (sampleEnv 2) [] "a" "job" 7 0 10 (by rintro _ ⟨⟩) (by decide) failedTwice
    (by decide +kernel)).mpr (by decide +kernel)

/-- `minTimeoutInMs` が 0 の設定。 -/
def immediateEnv : Env ℕ :=
  { sampleEnv 3 with
    retry := fun _ => { defaultRetrySettings with maxAttempts := 3, minTimeoutInMs := 0 } }

/-- 最初の失敗で、試行を二つ残したまま dead letter queue へ移る。 -/
theorem attempts_lost :
    ¬ Machine.Throughout (Attempts.step immediateEnv "a") (Retried immediateEnv "a" "job")
      (enqueued immediateEnv [] "a" "job" 7 0 10) (failedTwice.take 2) := by
  intro h
  obtain ⟨-, item, hget, -⟩ := h.last.queued (by decide)
  have hnone : (Machine.exec (Attempts.step immediateEnv "a")
      (enqueued immediateEnv [] "a" "job" 7 0 10) (failedTwice.take 2)).state.store.items.get "a" =
        none := by decide +kernel
  rw [hnone] at hget
  cases hget

end Worker
