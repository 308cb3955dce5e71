import Mathlib.Data.List.Dedup
import Trigger.Infra.Machine
import Trigger.RunEngine.Database

/-!
# run を止める側と waitpoint を完了する側の競合

`blockRunWithWaitpoint` は一つの SQL で行を入れて PENDING の数を数え、`completeWaitpoint` は waitpoint を更新して
から行を探す。SQL は始まったときの状態を読み、終わったときに書き込みを見せる（READ COMMITTED）。

行を入れる SQL が PENDING を読んで始まり、その終わりより前に完了側が更新して行を探し終えると、どちらの側も job を
入れない（`wakeup_lost`）。それ以外では job が必ず残ることを示す（`wakeup_throughout`）。
-/

namespace RunEngine.Wakeup

open Infra.Machine

/-! ## 状態 -/

/-- `TaskRunWaitpoint` の行。 -/
abbrev Row := String × Option ℕ

/-- run の lock を持つ処理が、どこまで進んだか。 -/
inductive Critical
  | free
  | blockRead (waitpoints : List String) (batchIndex : Option ℕ) (status : ExecutionStatus)
  | inserting (waitpoints : List String) (batchIndex : Option ℕ) (status : ExecutionStatus)
      (pending : List String)
  | inserted (status : ExecutionStatus) (isRunBlocked : Bool)
  | blockCreated (isRunBlocked : Bool)
  | continueLocked (attempt : ℕ)
  | continueRead (attempt : ℕ) (rows : List Row)
  | continueCreated (rows : List Row)
deriving DecidableEq

/--
一つの run の状態。`updating` は更新の SQL が終わっていない完了側、`updated` は更新を終えて行を探していない完了側、
`found` は行を見つけて job を入れていない完了側の数である。`running` は取り出された job、`failing` は handler が
throw した job の attempt である。
-/
structure Sys where
  status : ExecutionStatus
  checkpoint : Bool
  rows : List Row
  completed : List String
  job : Option ℕ
  running : List ℕ
  failing : List ℕ
  lock : Critical
  updating : List String
  updated : List String
  found : ℕ

/-- まだ止められていない run。 -/
def Sys.init (status : ExecutionStatus) (checkpoint : Bool) (completed : List String) : Sys where
  status := status
  checkpoint := checkpoint
  rows := []
  completed := completed
  job := none
  running := []
  failing := []
  lock := .free
  updating := []
  updated := []
  found := 0

/-- `worker.enqueue` は同じ id の job を置き換える。 -/
def Sys.enqueue (s : Sys) (attempt : ℕ) : Sys := { s with job := some attempt }

/-- worker の `maxAttempts` の既定値。 -/
def maxAttempts : ℕ := 12

/-! ## 一歩 -/

inductive Label
  | completeStart (w : String)
  | completeUpdate (w : String)
  | completeFind (w : String)
  | completeEnqueue
  | blockLock (waitpoints : List String) (batchIndex : Option ℕ)
  | insertStart
  | insertEnd
  | blockSnapshot
  | blockEnqueue
  | takeJob
  | continueLock (attempt : ℕ)
  | continueRead
  | continueSnapshot
  | continueDelete
  | workerRetry (attempt : ℕ)
  | clearBlockingWaitpoints
  | createCheckpoint

/-- `ON CONFLICT DO NOTHING` で実際に入る waitpoint。 -/
def newWaitpoints (rows : List Row) (waitpoints : List String) (batchIndex : Option ℕ) :
    List String := waitpoints.dedup.filter fun w => (w, batchIndex) ∉ rows

/-- `completeWaitpoint` の一歩。 -/
def Sys.complete (s : Sys) : Label → Sys
  | .completeStart w => { s with updating := w :: s.updating }
  | .completeUpdate w =>
    if w ∈ s.updating then
      { s with
        updating := s.updating.erase w
        completed := w :: s.completed
        updated := w :: s.updated }
    else s
  | .completeFind w =>
    if w ∈ s.updated then
      { s with
        updated := s.updated.erase w
        found := if s.rows.any (·.1 = w) then s.found + 1 else s.found }
    else s
  | .completeEnqueue =>
    if 0 < s.found then { s.enqueue 0 with found := s.found - 1 } else s
  | _ => s

/-- `blockRunWithWaitpoint` の一歩。 -/
def Sys.block (s : Sys) : Label → Sys
  | .blockLock waitpoints batchIndex =>
    match s.lock with
    | .free => { s with lock := .blockRead waitpoints batchIndex s.status }
    | _ => s
  | .insertStart =>
    match s.lock with
    | .blockRead waitpoints batchIndex status =>
      { s with
        lock := .inserting waitpoints batchIndex status (waitpoints.filter (· ∉ s.completed)) }
    | _ => s
  | .insertEnd =>
    match s.lock with
    | .inserting waitpoints batchIndex status pending =>
      let inserted := newWaitpoints s.rows waitpoints batchIndex
      { s with
        rows := s.rows ++ inserted.map (·, batchIndex)
        lock := .inserted status (inserted.any (· ∈ pending)) }
    | _ => s
  | .blockSnapshot =>
    match s.lock with
    | .inserted status isRunBlocked =>
      let newStatus := if status.isExecuting then .executingWithWaitpoints
        else ExecutionStatus.suspended
      if newStatus = status then { s with lock := .blockCreated isRunBlocked }
      else
        { s with status := newStatus, checkpoint := false, lock := .blockCreated isRunBlocked }
    | _ => s
  | .blockEnqueue =>
    match s.lock with
    | .blockCreated true => { s with lock := .free }
    | .blockCreated false => { s.enqueue 0 with lock := .free }
    | _ => s
  | _ => s

/-- `continueRunIfUnblocked` の job の一歩。 -/
def Sys.continue (s : Sys) : Label → Sys
  | .takeJob =>
    match s.job with
    | some attempt => { s with job := none, running := attempt :: s.running }
    | none => s
  | .continueLock attempt =>
    match s.lock with
    | .free =>
      if attempt ∈ s.running then
        { s with running := s.running.erase attempt, lock := .continueLocked attempt }
      else s
    | _ => s
  | .continueRead =>
    match s.lock with
    | .continueLocked attempt =>
      if s.rows.any (·.1 ∉ s.completed) then { s with lock := .free }
      else { s with lock := .continueRead attempt s.rows }
    | _ => s
  | .continueSnapshot =>
    match s.lock with
    | .continueRead attempt rows =>
      match s.status with
      | .executingWithWaitpoints =>
        { s with status := .executing, checkpoint := false, lock := .continueCreated rows }
      | .suspended =>
        if s.checkpoint then { s with status := .queued, lock := .continueCreated rows }
        else { s with failing := attempt :: s.failing, lock := .free }
      | _ => { s with lock := .free }
    | _ => s
  | .continueDelete =>
    match s.lock with
    | .continueCreated rows => { s with rows := s.rows.filter (· ∉ rows), lock := .free }
    | _ => s
  | .workerRetry attempt =>
    if attempt ∈ s.failing then
      if attempt + 1 < maxAttempts then
        { s.enqueue (attempt + 1) with failing := s.failing.erase attempt }
      else { s with job := none, failing := s.failing.erase attempt }
    else s
  | _ => s

/-- 一歩。他の操作が lock の中で行を消したり、checkpoint を作ったりすることもある。 -/
def step (s : Sys) (l : Label) : Sys :=
  match l with
  | .completeStart _ | .completeUpdate _ | .completeFind _ | .completeEnqueue => s.complete l
  | .blockLock _ _ | .insertStart | .insertEnd | .blockSnapshot | .blockEnqueue => s.block l
  | .takeJob | .continueLock _ | .continueRead | .continueSnapshot | .continueDelete
  | .workerRetry _ => s.continue l
  | .clearBlockingWaitpoints => if s.lock = .free then { s with rows := [] } else s
  | .createCheckpoint =>
    if s.lock = .free ∧ s.status = .executingWithWaitpoints then
      { s with status := .suspended, checkpoint := true }
    else s

/-! ## 起こされること -/

/-- 途中の SQL が無い。 -/
def Sys.Quiet (s : Sys) : Prop :=
  s.updating = [] ∧ ∀ waitpoints batchIndex status pending,
    s.lock ≠ .inserting waitpoints batchIndex status pending

/-- 行があり、どの waitpoint も完了している。 -/
def Sys.AllCompleted (s : Sys) : Prop := s.rows ≠ [] ∧ ∀ row ∈ s.rows, row.1 ∈ s.completed

/-- job が入っているか、取り出されてまだ読んでいないか、これから入る。 -/
def Sys.Notified (s : Sys) : Prop :=
  s.job ≠ none ∨ s.running ≠ [] ∨ s.failing ≠ [] ∨ 0 < s.found

/-- lock を持つ処理が、これから job を入れるか、job として run を続けさせている。 -/
def Critical.wakes : Critical → Bool
  | .inserted _ isRunBlocked => !isRunBlocked
  | .blockCreated isRunBlocked => !isRunBlocked
  | .continueLocked _ => true
  | .continueRead _ _ => true
  | _ => false

/-- run を続けさせる job があるか、これから入る。 -/
def Sys.Wakes (s : Sys) : Prop :=
  s.Notified ∨ (∃ w ∈ s.updated, ∃ row ∈ s.rows, row.1 = w) ∨ s.lock.wakes = true

/-- 止まっている run の waitpoint がすべて完了していれば、続けさせる job がある。 -/
def Sys.NoLostWakeup (s : Sys) : Prop :=
  s.Quiet → s.status = .executingWithWaitpoints ∨ s.status = .suspended → s.AllCompleted → s.Wakes

/--
起こし損ねない一歩。完了側が行を探すとき、その waitpoint を PENDING と読んだ挿入が途中ではない。throw した job は
attempt を残している。
-/
def Timely (s : Sys) : Label → Prop
  | .completeFind w => w ∈ s.updated → s.rows.any (·.1 = w) = false →
    ∀ waitpoints batchIndex status pending,
      s.lock = .inserting waitpoints batchIndex status pending → w ∉ pending
  | .workerRetry attempt => attempt ∈ s.failing → attempt + 1 < maxAttempts
  | _ => True

/-! ## 不変条件 -/

/-- 止まっているか、行を入れ終えて止まろうとしている。 -/
def Sys.Engaged (s : Sys) : Prop :=
  s.status = .executingWithWaitpoints ∨ s.status = .suspended ∨
    ∃ status isRunBlocked, s.lock = .inserted status isRunBlocked

/--
行を入れる SQL の間は、PENDING と読まれた waitpoint を完了した者がまだ行を探していない（`raced`）。探せば、入った行が
見つかる。
-/
structure Inv (s : Sys) : Prop where
  woken : s.Engaged → s.AllCompleted → s.Wakes
  raced : ∀ waitpoints batchIndex status pending,
    s.lock = .inserting waitpoints batchIndex status pending →
      ∀ w ∈ pending, w ∈ s.completed → w ∈ s.updated ∨ s.Notified
  continued : ∀ rows, s.lock = .continueCreated rows →
    s.status ≠ .executingWithWaitpoints ∧ s.status ≠ .suspended

variable {s : Sys}

theorem inv_init (status : ExecutionStatus) (checkpoint : Bool) (completed : List String) :
    Inv (Sys.init status checkpoint completed) where
  woken _ h := absurd rfl h.1
  raced _ _ _ _ h := nomatch h
  continued _ h := nomatch h

theorem inv_completeStart (h : Inv s) (w : String) : Inv (step s (.completeStart w)) :=
  ⟨h.woken, h.raced, h.continued⟩

/-- 完了した waitpoint は `updated` に入るので、新しく揃った run も起こされる。 -/
theorem inv_completeUpdate (h : Inv s) (w : String) : Inv (step s (.completeUpdate w)) := by
  unfold step Sys.complete
  dsimp only
  split
  · refine ⟨fun hengaged hall => ?_, fun waitpoints batchIndex status pending hlock w' hw' hdone => ?_,
      h.continued⟩
    · by_cases hrow : ∃ row ∈ s.rows, row.1 = w
      · exact .inr (.inl ⟨w, List.mem_cons_self, hrow⟩)
      · have hbefore : s.AllCompleted := by
          refine ⟨hall.1, fun row hmem => ?_⟩
          rcases List.mem_cons.mp (hall.2 row hmem) with heq | hdone
          · exact absurd ⟨row, hmem, heq⟩ hrow
          · exact hdone
        rcases h.woken hengaged hbefore with hn | ⟨w', hw', hrow'⟩ | hlock
        · exact .inl hn
        · exact .inr (.inl ⟨w', List.mem_cons_of_mem _ hw', hrow'⟩)
        · exact .inr (.inr hlock)
    · rcases List.mem_cons.mp hdone with rfl | hdone
      · exact .inl List.mem_cons_self
      · exact (h.raced waitpoints batchIndex status pending hlock w' hw' hdone).imp
          (List.mem_cons_of_mem _) id
  · exact h

theorem any_row {w : String} : s.rows.any (·.1 = w) = true ↔ ∃ row ∈ s.rows, row.1 = w := by
  simp

theorem inv_completeFind (h : Inv s) {w : String} (htimely : Timely s (.completeFind w)) :
    Inv (step s (.completeFind w)) := by
  unfold step Sys.complete
  dsimp only
  split
  · next hw =>
    cases hrow : s.rows.any (·.1 = w) with
    | true =>
      -- 行が見つかったので、この後 job が入る。
      refine ⟨fun _ _ => .inl (.inr (.inr (.inr ?_))), fun _ _ _ _ _ _ _ _ => .inr (.inr (.inr (.inr ?_))),
        h.continued⟩
      · exact Nat.succ_pos _
      · exact Nat.succ_pos _
    | false =>
      have hnone : ¬ ∃ row ∈ s.rows, row.1 = w := by
        rw [← any_row, hrow]
        simp
      refine ⟨fun hengaged hall => ?_, fun waitpoints batchIndex status pending hlock w' hw' hdone => ?_,
        h.continued⟩
      · rcases h.woken hengaged hall with hn | ⟨w', hw', hrow'⟩ | hlock
        · exact .inl hn
        · refine .inr (.inl ⟨w', (List.mem_erase_of_ne fun heq => hnone ?_).mpr hw', hrow'⟩)
          exact heq ▸ hrow'
        · exact .inr (.inr hlock)
      · rcases h.raced waitpoints batchIndex status pending hlock w' hw' hdone with hmem | hn
        · refine .inl ((List.mem_erase_of_ne fun heq => ?_).mpr hmem)
          exact htimely hw hrow waitpoints batchIndex status pending hlock (heq ▸ hw')
        · exact .inr hn
  · exact h

theorem inv_completeEnqueue (h : Inv s) : Inv (step s .completeEnqueue) := by
  unfold step Sys.complete
  dsimp only
  split
  · have hn : Sys.Notified { s.enqueue 0 with found := s.found - 1 } := .inl (Option.some_ne_none _)
    exact ⟨fun _ _ => .inl hn, fun _ _ _ _ _ _ _ _ => .inr hn, h.continued⟩
  · exact h

/-- 行を入れる途中でも、続けさせた行を消す途中でもない。 -/
def Critical.plain : Critical → Bool
  | .inserting _ _ _ _ => false
  | .inserted _ _ => false
  | .continueCreated _ => false
  | _ => true

/-- 行も完了も変えずに、途中でない状態へ移る一歩。 -/
theorem Inv.of_plain {s' : Sys} (h : Inv s) (hplain : s'.lock.plain = true)
    (hrows : s'.rows = s.rows) (hcompleted : s'.completed = s.completed)
    (hupdated : s'.updated = s.updated) (hengaged : s'.Engaged → s.Engaged)
    (hnotified : s.Notified → s'.Notified)
    (hlock : s'.AllCompleted → s.lock.wakes = true → s'.Wakes) : Inv s' where
  woken hengaged' hall := by
    have hbefore : s.AllCompleted := by
      unfold Sys.AllCompleted
      rw [← hrows, ← hcompleted]
      exact hall
    rcases h.woken (hengaged hengaged') hbefore with hn | hrow | hwakes
    · exact .inl (hnotified hn)
    · refine .inr (.inl ?_)
      rw [hupdated, hrows]
      exact hrow
    · exact hlock hall hwakes
  raced _ _ _ _ hno := by
    rw [hno] at hplain
    cases hplain
  continued _ hno := by
    rw [hno] at hplain
    cases hplain

theorem engaged_of_plain {s' : Sys} (hstatus : s'.status = s.status) (hplain : s'.lock.plain = true)
    (h : s'.Engaged) : s.Engaged := by
  rcases h with hs | hs | ⟨_, _, hno⟩
  · exact .inl (hstatus.symm.trans hs)
  · exact .inr (.inl (hstatus.symm.trans hs))
  · rw [hno] at hplain
    cases hplain

theorem inv_blockLock (h : Inv s) (waitpoints : List String) (batchIndex : Option ℕ) :
    Inv (step s (.blockLock waitpoints batchIndex)) := by
  unfold step Sys.block
  dsimp only
  split
  · next hlock =>
    refine h.of_plain rfl rfl rfl rfl (engaged_of_plain rfl rfl) id fun _ hwakes => ?_
    rw [hlock] at hwakes
    cases hwakes
  · exact h

theorem inv_insertStart (h : Inv s) : Inv (step s .insertStart) := by
  unfold step Sys.block
  dsimp only
  split
  · next waitpoints batchIndex status hlock =>
    refine ⟨fun hengaged hall => ?_, fun _ _ _ pending heq w hw hdone => ?_, fun _ hno => (nomatch hno)⟩
    · have hbefore : s.Engaged := by
        rcases hengaged with hs | hs | ⟨_, _, hno⟩
        · exact .inl hs
        · exact .inr (.inl hs)
        · cases hno
      rcases h.woken hbefore hall with hn | hrow | hwakes
      · exact .inl hn
      · exact .inr (.inl hrow)
      · rw [hlock] at hwakes
        cases hwakes
    · -- 始まったときに PENDING だったので、まだ完了していない。
      cases heq
      have hpending : w ∉ s.completed := by simpa using (List.mem_filter.mp hw).2
      exact absurd hdone hpending
  · exact h

theorem inv_insertEnd (h : Inv s) : Inv (step s .insertEnd) := by
  unfold step Sys.block
  dsimp only
  split
  · next waitpoints batchIndex status pending hlock =>
    refine ⟨fun _ hall => ?_, fun _ _ _ _ hno => (nomatch hno), fun _ hno => (nomatch hno)⟩
    cases hblocked : (newWaitpoints s.rows waitpoints batchIndex).any (· ∈ pending) with
    | false => exact .inr (.inr (by simp [Critical.wakes]))
    | true =>
      -- PENDING と数えた waitpoint も完了しているので、その完了者はまだ行を探していない。
      obtain ⟨w, hw, hpending⟩ := List.any_eq_true.mp hblocked
      have hrow : (w, batchIndex) ∈
          s.rows ++ (newWaitpoints s.rows waitpoints batchIndex).map (·, batchIndex) :=
        List.mem_append_right _ (List.mem_map.mpr ⟨w, hw, rfl⟩)
      have hdone : w ∈ s.completed := hall.2 _ hrow
      rcases h.raced _ _ _ _ hlock w (by simpa using hpending) hdone with hmem | hn
      · exact .inr (.inl ⟨w, hmem, _, hrow, rfl⟩)
      · exact .inl hn
  · exact h

theorem inv_blockSnapshot (h : Inv s) : Inv (step s .blockSnapshot) := by
  unfold step Sys.block
  dsimp only
  split
  · next status isRunBlocked hlock =>
    have hengaged : s.Engaged := .inr (.inr ⟨_, _, hlock⟩)
    have hwakes : s.lock.wakes = true → (Critical.blockCreated isRunBlocked).wakes = true := by
      rw [hlock]
      exact id
    generalize (if status.isExecuting = true then ExecutionStatus.executingWithWaitpoints
      else .suspended) = newStatus
    split
    · exact h.of_plain rfl rfl rfl rfl (fun _ => hengaged) id fun _ hb => .inr (.inr (hwakes hb))
    · exact h.of_plain rfl rfl rfl rfl (fun _ => hengaged) id fun _ hb => .inr (.inr (hwakes hb))
  · exact h

theorem inv_blockEnqueue (h : Inv s) : Inv (step s .blockEnqueue) := by
  unfold step Sys.block
  dsimp only
  split
  · next hlock =>
    refine h.of_plain rfl rfl rfl rfl (engaged_of_plain rfl rfl) id fun _ hwakes => ?_
    rw [hlock] at hwakes
    cases hwakes
  · exact h.of_plain rfl rfl rfl rfl (engaged_of_plain rfl rfl)
      (fun _ => .inl (Option.some_ne_none _)) fun _ _ => .inl (.inl (Option.some_ne_none _))
  · exact h

/-! ### continueRunIfUnblocked -/

theorem notified_takeJob {attempt : ℕ} : Sys.Notified { s with job := none, running := attempt :: s.running } :=
  .inr (.inl (List.cons_ne_nil _ _))

theorem inv_takeJob (h : Inv s) : Inv (step s .takeJob) := by
  unfold step Sys.continue
  dsimp only
  split
  · exact ⟨fun _ _ => .inl notified_takeJob, fun _ _ _ _ _ _ _ _ => .inr notified_takeJob, h.continued⟩
  · exact h

theorem inv_continueLock (h : Inv s) (attempt : ℕ) : Inv (step s (.continueLock attempt)) := by
  unfold step Sys.continue
  dsimp only
  split
  · split
    · refine ⟨fun _ _ => .inr (.inr rfl), fun _ _ _ _ hno => (nomatch hno), fun _ hno => (nomatch hno)⟩
    · exact h
  · exact h

theorem inv_continueRead (h : Inv s) : Inv (step s .continueRead) := by
  unfold step Sys.continue
  dsimp only
  split
  · split
    · next hblocked =>
      -- 完了していない行が残っているので、起こす必要は無い。
      refine h.of_plain rfl rfl rfl rfl (engaged_of_plain rfl rfl) id fun hall _ => ?_
      obtain ⟨row, hmem, hrow⟩ := List.any_eq_true.mp hblocked
      exact absurd (hall.2 row hmem) (by simpa using hrow)
    · exact h.of_plain rfl rfl rfl rfl (engaged_of_plain rfl rfl) id fun _ _ => .inr (.inr rfl)
  · exact h

theorem inv_continueSnapshot (h : Inv s) : Inv (step s .continueSnapshot) := by
  unfold step Sys.continue
  dsimp only
  split
  · next attempt rows hlock =>
    split
    · refine ⟨fun hengaged _ => ?_, fun _ _ _ _ hno => (nomatch hno), fun _ _ => ⟨by simp, by simp⟩⟩
      rcases hengaged with hs | hs | ⟨_, _, hno⟩
      · cases hs
      · cases hs
      · cases hno
    · split
      · refine ⟨fun hengaged _ => ?_, fun _ _ _ _ hno => (nomatch hno), fun _ _ => ⟨by simp, by simp⟩⟩
        rcases hengaged with hs | hs | ⟨_, _, hno⟩
        · cases hs
        · cases hs
        · cases hno
      · have hn : Sys.Notified { s with failing := attempt :: s.failing, lock := .free } :=
          .inr (.inr (.inl (List.cons_ne_nil _ _)))
        exact h.of_plain rfl rfl rfl rfl (engaged_of_plain rfl rfl) (fun _ => hn) fun _ _ => .inl hn
    · next hexecuting hsuspended =>
      refine ⟨fun hengaged _ => ?_, fun _ _ _ _ hno => (nomatch hno), fun _ hno => (nomatch hno)⟩
      rcases hengaged with hs | hs | ⟨_, _, hno⟩
      · exact absurd hs hexecuting
      · exact absurd hs hsuspended
      · cases hno
  · exact h

theorem inv_continueDelete (h : Inv s) : Inv (step s .continueDelete) := by
  unfold step Sys.continue
  dsimp only
  split
  · next rows hlock =>
    obtain ⟨hexecuting, hsuspended⟩ := h.continued rows hlock
    refine ⟨fun hengaged _ => ?_, fun _ _ _ _ hno => (nomatch hno), fun _ hno => (nomatch hno)⟩
    rcases hengaged with hs | hs | ⟨_, _, hno⟩
    · exact absurd hs hexecuting
    · exact absurd hs hsuspended
    · cases hno
  · exact h

theorem inv_workerRetry (h : Inv s) {attempt : ℕ} (htimely : Timely s (.workerRetry attempt)) :
    Inv (step s (.workerRetry attempt)) := by
  unfold step Sys.continue
  dsimp only
  split
  · next hmem =>
    rw [if_pos (htimely hmem)]
    have hn : Sys.Notified { s.enqueue (attempt + 1) with failing := s.failing.erase attempt } :=
      .inl (Option.some_ne_none _)
    exact ⟨fun _ _ => .inl hn, fun _ _ _ _ _ _ _ _ => .inr hn, h.continued⟩
  · exact h

/-! ### 他の操作 -/

theorem inv_clearBlockingWaitpoints (h : Inv s) : Inv (step s .clearBlockingWaitpoints) := by
  unfold step
  dsimp only
  split
  · exact ⟨fun _ hall => absurd rfl hall.1, h.raced, h.continued⟩
  · exact h

theorem inv_createCheckpoint (h : Inv s) : Inv (step s .createCheckpoint) := by
  unfold step
  dsimp only
  split
  · next hcond =>
    refine h.of_plain ?_ rfl rfl rfl (fun _ => .inl hcond.2) id fun _ hwakes => .inr (.inr hwakes)
    show s.lock.plain = true
    rw [hcond.1]
    rfl
  · exact h

theorem inv_step (s : Sys) (l : Label) (h : Inv s) (htimely : Timely s l) : Inv (step s l) := by
  cases l with
  | completeStart w => exact inv_completeStart h w
  | completeUpdate w => exact inv_completeUpdate h w
  | completeFind w => exact inv_completeFind h htimely
  | completeEnqueue => exact inv_completeEnqueue h
  | blockLock waitpoints batchIndex => exact inv_blockLock h waitpoints batchIndex
  | insertStart => exact inv_insertStart h
  | insertEnd => exact inv_insertEnd h
  | blockSnapshot => exact inv_blockSnapshot h
  | blockEnqueue => exact inv_blockEnqueue h
  | takeJob => exact inv_takeJob h
  | continueLock attempt => exact inv_continueLock h attempt
  | continueRead => exact inv_continueRead h
  | continueSnapshot => exact inv_continueSnapshot h
  | continueDelete => exact inv_continueDelete h
  | workerRetry attempt => exact inv_workerRetry h htimely
  | clearBlockingWaitpoints => exact inv_clearBlockingWaitpoints h
  | createCheckpoint => exact inv_createCheckpoint h

/--
**どの一歩も起こし損ねないものであれば、run を止める側と完了する側がどう入り組んでも、揃った run を続けさせる job が
失われることは無い。**
-/
theorem wakeup_throughout (status : ExecutionStatus) (checkpoint : Bool) (completed : List String)
    (ls : List Label) (h : Along step Timely (Sys.init status checkpoint completed) ls) :
    Throughout step Sys.NoLostWakeup (Sys.init status checkpoint completed) ls := by
  have hinv := throughout_of_along inv_step (inv_init status checkpoint completed) h
  refine hinv.mono fun s hs _ hstatus => hs.woken ?_
  exact hstatus.imp id .inl

/-- 行を入れ終えてから完了側が探す run では、止まった run が起こされる。 -/
theorem wakeup_after_insert :
    Throughout step Sys.NoLostWakeup (Sys.init .executing false [])
      [.blockLock ["w"] none, .insertStart, .completeStart "w", .completeUpdate "w", .insertEnd,
        .completeFind "w", .blockSnapshot, .blockEnqueue] := by
  refine wakeup_throughout .executing false [] _ ?_
  simp [Along, Timely, step, Sys.block, Sys.complete, Sys.init, newWaitpoints]

/-- 挿入が PENDING を読んでから終わるまでに完了側が行を探し終えると、どちらの側も job を入れない。 -/
theorem wakeup_lost :
    ¬ Throughout step Sys.NoLostWakeup (Sys.init .executing false [])
      [.blockLock ["w"] none, .insertStart, .completeStart "w", .completeUpdate "w",
        .completeFind "w", .insertEnd, .blockSnapshot, .blockEnqueue] := by
  intro h
  have hlost := h.last ⟨rfl, fun _ _ _ _ hno => (nomatch hno)⟩ (.inl rfl)
    ⟨List.cons_ne_nil _ _, by decide⟩
  rcases hlost with (hno | hno | hno | hno) | ⟨w, hw, -⟩ | hno
  · exact hno rfl
  · exact hno rfl
  · exact hno rfl
  · exact absurd hno (Nat.lt_irrefl 0)
  · cases hw
  · cases hno

end RunEngine.Wakeup
