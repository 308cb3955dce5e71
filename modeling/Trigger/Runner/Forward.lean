import Mathlib.Order.Lattice
import Trigger.Runner.Suspendable

/-!
# snapshot は前に進む

現在の snapshot の id は減らない。handler の呼び出しも、状態の更新が新しい snapshot への更新である限り、id の順に一度ずつである。

古い snapshot を捨てる検査は二度あるが、二度目の検査と状態の更新の間で `hasBeenRestored` を待つ。待っている間に外から
`updateSnapshot` が追い越すと、handler は古い snapshot で呼ばれる（`handler_overtaken`）。
-/

namespace Runner

open Infra.Machine

variable {I : Type}

/-- queue にある変更の、最後の snapshot。 -/
def QueuedChange.latest? : QueuedChange I → Option (RunExecutionData I)
  | .snapshot _ snapshots => snapshots.getLast?
  | .suspendable _ _ => none

/-- 検査の済んだ、まだ適用されていない snapshot。 -/
def Await.pending? : Await I → Option (RunExecutionData I)
  | .hasBeenRestored _ latest _ => some latest
  | _ => none

/-- 動いている handler を待っている。 -/
def Await.isHandler : Await I → Bool
  | .onSnapshotChange _ _ | .onSuspendable _ => true
  | _ => false

section Invariant

variable [LinearOrder I] (o : SnapshotManagerOptions I)

/-! ## 不変条件 -/

/-- queue の変更は run のもので、番号は異なる。呼び出しの記録は id の順で、現在の id を超えない。 -/
structure Recorded (passed : List I) (s : SnapshotManager I) : Prop where
  nodup : (s.changeQueue.map (·.id)).Nodup
  issued : ∀ change ∈ s.changeQueue, change.id < s.promises
  queued : ∀ change ∈ s.changeQueue, ∀ latest ∈ change.latest?,
    latest.runFriendlyId = o.runFriendlyId ∧ latest.friendlyId ∈ passed
  current : s.state.id ∈ passed
  ordered : (s.invocations.map (·.snapshot.friendlyId)).Pairwise (· < ·)
  newer : ∀ invocation ∈ s.invocations,
    invocation.currentId < invocation.snapshot.friendlyId ∧
      invocation.snapshot.friendlyId ≤ s.state.id

/-- 検査の済んだ snapshot は、現在のものより新しい。 -/
def Pending (passed : List I) (awaits : List (Await I)) (s : SnapshotManager I) : Prop :=
  ∀ await ∈ awaits, ∀ latest ∈ await.pending?,
    s.state.id < latest.friendlyId ∧ latest.friendlyId ∈ passed

/-- 渡された id は、現在の id 以下か、まだ適用されていない snapshot の id 以下である。 -/
def Covered (passed : List I) (awaits : List (Await I)) (s : SnapshotManager I) : Prop :=
  ∀ i ∈ passed, i ≤ s.state.id ∨
    (∃ change ∈ s.changeQueue, ∃ latest ∈ change.latest?, i ≤ latest.friendlyId) ∨
      ∃ await ∈ awaits, ∃ latest ∈ await.pending?, i ≤ latest.friendlyId

/-- `awaits` が適用の途中にあるときの不変条件。 -/
structure Moves (passed : List I) (awaits : List (Await I)) (s : SnapshotManager I) : Prop where
  recorded : Recorded o passed s
  pending : Pending passed awaits s
  covered : Covered passed awaits s

variable {o} {passed : List I} {awaits : List (Await I)} {s t : SnapshotManager I}

theorem Recorded.mono (h : Recorded o passed s) (more : List I) :
    Recorded o (passed ++ more) s where
  nodup := h.nodup
  issued := h.issued
  queued := by
    intro change hchange latest hlatest
    obtain ⟨hrun, hmem⟩ := h.queued change hchange latest hlatest
    exact ⟨hrun, List.mem_append_left _ hmem⟩
  current := List.mem_append_left _ h.current
  ordered := h.ordered
  newer := h.newer

/-- 待っているものに snapshot が無ければ、待つものは入れ替えてよい。 -/
theorem Moves.swap {await next : Await I} (h : Moves o passed [await] s)
    (hawait : await.pending? = none) (hnext : next.pending? = none) : Moves o passed [next] s := by
  refine ⟨h.recorded, fun a ha latest hlatest => ?_, fun i hi => ?_⟩
  · rw [List.mem_singleton.mp ha, hnext] at hlatest
    cases hlatest
  · rcases h.covered i hi with hle | hqueued | ⟨a, ha, latest, hlatest, -⟩
    · exact .inl hle
    · exact .inr (.inl hqueued)
    · rw [List.mem_singleton.mp ha, hawait] at hlatest
      cases hlatest

/-! ## 状態の更新 -/

theorem le_updateSnapshot (snapshotId : I) (status : RunEngine.ExecutionStatus)
    (s : SnapshotManager I) : s.state.id ≤ (updateSnapshot snapshotId status s).state.id ∧
      snapshotId ≤ (updateSnapshot snapshotId status s).state.id := by
  unfold updateSnapshot
  split
  · next hlt => exact ⟨le_refl _, hlt.le⟩
  · next hge => exact ⟨not_lt.mp hge, le_refl _⟩

/-- 更新の後の id は、前の id か渡した id である。 -/
theorem updateSnapshot_id (snapshotId : I) (status : RunEngine.ExecutionStatus)
    (s : SnapshotManager I) : (updateSnapshot snapshotId status s).state.id = s.state.id ∨
      (updateSnapshot snapshotId status s).state.id = snapshotId := by
  unfold updateSnapshot
  split
  · exact .inl rfl
  · exact .inr rfl

theorem updateSnapshot_id_of_lt {snapshotId : I} (status : RunEngine.ExecutionStatus)
    (h : s.state.id < snapshotId) : (updateSnapshot snapshotId status s).state.id = snapshotId := by
  unfold updateSnapshot
  rw [if_neg (not_lt.mpr h.le)]

theorem updateSnapshot_invocations (snapshotId : I) (status : RunEngine.ExecutionStatus)
    (s : SnapshotManager I) : (updateSnapshot snapshotId status s).invocations = s.invocations := by
  unfold updateSnapshot
  split
  · rfl
  · rfl

/-- 新しい snapshot の handler の呼び出しは、記録の順を保つ。 -/
theorem recorded_executeHandler {latest : RunExecutionData I} (h : Recorded o passed s) (id : ℕ)
    (deprecated : Bool) (hlt : s.state.id < latest.friendlyId) (hmem : latest.friendlyId ∈ passed) :
    Recorded o passed (executeHandler id latest deprecated s).2 ∧
      (executeHandler id latest deprecated s).2.state.id = latest.friendlyId := by
  have hid : (executeHandler id latest deprecated s).2.state.id = latest.friendlyId :=
    updateSnapshot_id_of_lt latest.executionStatus hlt
  obtain ⟨hframe, -⟩ := frame_executeHandler id latest deprecated s
  refine ⟨⟨?_, ?_, ?_, ?_, ?_, ?_⟩, hid⟩
  · rw [hframe.changeQueue]
    exact h.nodup
  · rw [hframe.changeQueue, hframe.promises]
    exact h.issued
  · rw [hframe.changeQueue]
    exact h.queued
  · rw [hid]
    exact hmem
  · show (List.map (·.snapshot.friendlyId) (s.invocations ++ [_])).Pairwise (· < ·)
    rw [List.map_append, List.map_singleton, List.pairwise_append]
    refine ⟨h.ordered, List.pairwise_singleton _ _, ?_⟩
    intro a ha b hb
    obtain ⟨invocation, hinvocation, rfl⟩ := List.mem_map.mp ha
    rw [List.mem_singleton.mp hb]
    exact lt_of_le_of_lt (h.newer invocation hinvocation).2 hlt
  · rw [hid]
    intro invocation hinvocation
    rcases List.mem_append.mp hinvocation with hold | hnew
    · obtain ⟨hnewer, hle⟩ := h.newer invocation hold
      exact ⟨hnewer, hle.trans hlt.le⟩
    · rw [List.mem_singleton.mp hnew]
      exact ⟨hlt, le_refl _⟩

theorem statusCheck_iff {snapshots : List (RunExecutionData I)} {latest : RunExecutionData I}
    (h : snapshots.getLast? = some latest) : statusCheck o s snapshots = true ↔
      latest.runFriendlyId = o.runFriendlyId ∧ s.state.id < latest.friendlyId := by
  unfold statusCheck
  rw [h]
  dsimp only
  split_ifs with hrun hold hsame
  · simp [hrun]
  · simp [not_lt.mpr hold.le]
  · simp [hsame]
  · simp [not_not.mp hrun, lt_of_le_of_ne (not_lt.mp hold) (Ne.symm hsame)]

theorem Recorded.tail {change : QueuedChange I} {rest : List (QueuedChange I)}
    (h : Recorded o passed s) (hqueue : s.changeQueue = change :: rest) :
    Recorded o passed { s with changeQueue := rest } := by
  obtain ⟨hnodup, hissued, hqueued, hcurrent, hordered, hnewer⟩ := h
  rw [hqueue] at hnodup hissued hqueued
  exact ⟨(List.nodup_cons.mp hnodup).2, fun c hc => hissued c (List.mem_cons_of_mem _ hc),
    fun c hc => hqueued c (List.mem_cons_of_mem _ hc), hcurrent, hordered, hnewer⟩

/-- 先頭の変更の snapshot で覆われていた id が、現在の id か待つ snapshot で覆われていればよい。 -/
theorem Covered.tail {change : QueuedChange I} {rest : List (QueuedChange I)}
    (h : Covered passed [] s) (hqueue : s.changeQueue = change :: rest)
    (ht : t.changeQueue = rest) (hle : s.state.id ≤ t.state.id)
    (hlatest : ∀ latest ∈ change.latest?, latest.friendlyId ≤ t.state.id ∨
      ∃ await ∈ awaits, ∃ next ∈ await.pending?, latest.friendlyId ≤ next.friendlyId) :
    Covered passed awaits t := by
  intro i hi
  rcases h i hi with hcurrent | ⟨c, hc, latest, hmem, hcover⟩ | ⟨await, hawait, -⟩
  · exact .inl (hcurrent.trans hle)
  · rw [hqueue] at hc
    rcases List.mem_cons.mp hc with rfl | hrest
    · rcases hlatest latest hmem with hnow | ⟨await, hawait, next, hnext, hlater⟩
      · exact .inl (hcover.trans hnow)
      · exact .inr (.inr ⟨await, hawait, next, hnext, hcover.trans hlater⟩)
    · exact .inr (.inl ⟨c, ht ▸ hrest, latest, hmem, hcover⟩)
  · cases hawait

theorem pending_nil {await : Await I} (hawait : await.pending? = none) :
    Pending passed [await] s := by
  intro a ha latest hlatest
  rw [List.mem_singleton.mp ha, hawait] at hlatest
  cases hlatest

omit [LinearOrder I] in
theorem checkSuspendableState_pending? (id : ℕ) (s : SnapshotManager I) :
    (checkSuspendableState id s).pending? = none := by
  unfold checkSuspendableState
  split
  · rfl
  · rfl

/-- queue の先頭の変更の適用。 -/
theorem moves_applyChange {change : QueuedChange I} {rest : List (QueuedChange I)}
    (h : Moves o passed [] s) (hqueue : s.changeQueue = change :: rest) :
    Moves o passed [(applyChange o change { s with changeQueue := rest }).1]
      (applyChange o change { s with changeQueue := rest }).2 := by
  have htail : Recorded o passed { s with changeQueue := rest } := h.recorded.tail hqueue
  cases change with
  | suspendable id value =>
    have hrecorded : Recorded o passed
        (applyChange o (.suspendable id value) { s with changeQueue := rest }).2 :=
      ⟨htail.nodup, htail.issued, htail.queued, htail.current, htail.ordered, htail.newer⟩
    refine ⟨hrecorded, pending_nil (checkSuspendableState_pending? _ _), ?_⟩
    refine h.covered.tail hqueue rfl (le_refl _) ?_
    rintro _ ⟨⟩
  | snapshot id snapshots =>
    -- 捨てられる変更は、現在の snapshot より新しくない
    have hskip : (∀ latest ∈ snapshots.getLast?, latest.friendlyId ≤ s.state.id) →
        Moves o passed [.applied id false] { s with changeQueue := rest } := fun hle =>
      ⟨htail, pending_nil rfl, h.covered.tail hqueue rfl (le_refl _)
        fun latest hlatest => .inl (hle latest hlatest)⟩
    rcases hlast : snapshots.getLast? with _ | latest
    · have hcheck : statusCheck o { s with changeQueue := rest } snapshots = false := by
        unfold statusCheck
        rw [hlast]
      unfold applyChange
      dsimp only
      rw [hcheck, if_neg Bool.false_ne_true]
      refine hskip ?_
      rw [hlast]
      rintro _ ⟨⟩
    · obtain ⟨hrun, hmem⟩ := h.recorded.queued (.snapshot id snapshots)
        (by rw [hqueue]; exact List.mem_cons_self) latest hlast
      have hcheck := statusCheck_iff (o := o) (s := { s with changeQueue := rest }) hlast
      unfold applyChange
      dsimp only
      rw [hlast]
      by_cases hlt : s.state.id < latest.friendlyId
      · rw [if_pos (hcheck.mpr ⟨hrun, hlt⟩)]
        dsimp only
        split
        · obtain ⟨hrecorded, hid⟩ := recorded_executeHandler htail id false hlt hmem
          obtain ⟨hframe, -⟩ := frame_executeHandler id latest false { s with changeQueue := rest }
          refine ⟨hrecorded, pending_nil rfl, ?_⟩
          refine h.covered.tail hqueue hframe.changeQueue (hlt.le.trans hid.ge) fun l hl => .inl ?_
          obtain rfl : latest = l := Option.some_inj.mp (hlast.symm.trans hl)
          exact hid.ge
        · refine ⟨htail, fun a ha l hl => ?_, ?_⟩
          · rw [List.mem_singleton.mp ha] at hl
            obtain rfl : latest = l := Option.some_inj.mp hl
            exact ⟨hlt, hmem⟩
          · refine h.covered.tail hqueue rfl (le_refl _) fun l hl => .inr ?_
            obtain rfl : latest = l := Option.some_inj.mp (hlast.symm.trans hl)
            exact ⟨_, List.mem_singleton_self _, latest, rfl, le_refl _⟩
      · rw [if_neg fun hc => hlt (hcheck.mp hc).2]
        refine hskip fun l hl => ?_
        obtain rfl : latest = l := Option.some_inj.mp (hlast.symm.trans hl)
        exact not_lt.mp hlt

theorem moves_processNext (h : Moves o passed [] s) :
    Moves o passed (processNext o s).1.toList (processNext o s).2 := by
  rcases processNext_cases o s with ⟨-, heq⟩ | ⟨change, rest, hqueue, heq⟩
  · rw [heq]
    obtain ⟨hnodup, hissued, hqueued, hcurrent, hordered, hnewer⟩ := h.recorded
    exact ⟨⟨hnodup, hissued, hqueued, hcurrent, hordered, hnewer⟩, h.pending, h.covered⟩
  · rw [heq]
    exact moves_applyChange h hqueue

/-! ## enqueue -/

theorem moves_processQueue (h : Moves o passed s.processors s)
    (hidle : s.isProcessingQueue = false → s.processors = []) :
    Moves o passed (processQueue o s).processors (processQueue o s) := by
  unfold processQueue
  split
  · exact h
  · next hflag =>
    have hnone := hidle (Bool.eq_false_iff.mpr hflag)
    rw [hnone] at h
    have hbusy : Moves o passed [] { s with isProcessingQueue := true } := by
      obtain ⟨hnodup, hissued, hqueued, hcurrent, hordered, hnewer⟩ := h.recorded
      exact ⟨⟨hnodup, hissued, hqueued, hcurrent, hordered, hnewer⟩, h.pending, h.covered⟩
    have hnext := moves_processNext hbusy
    have hempty := (frame_processNext (o := o) { s with isProcessingQueue := true }).1.trans hnone
    obtain ⟨⟨hnodup, hissued, hqueued, hcurrent, hordered, hnewer⟩, hpending, hcovered⟩ := hnext
    dsimp only
    rw [hempty, List.nil_append]
    exact ⟨⟨hnodup, hissued, hqueued, hcurrent, hordered, hnewer⟩, hpending, hcovered⟩

omit [LinearOrder I] in
/-- 置き換えは、番号の異なる snapshot の変更を残す。 -/
theorem mem_supersede_snapshot {change : QueuedChange I} (hnodup : (s.changeQueue.map (·.id)).Nodup)
    (hchange : change ∈ s.changeQueue) (hkind : change.isSuspendable = false) :
    change ∈ (supersede s).changeQueue := by
  refine List.mem_filter.mpr ⟨hchange, decide_eq_true fun hresolved => ?_⟩
  obtain ⟨other, hother, hid⟩ := List.mem_map.mp hresolved
  obtain ⟨hmem, hsuspendable⟩ := List.mem_filter.mp hother
  rw [List.inj_on_of_nodup_map hnodup hmem hchange hid, hkind] at hsuspendable
  cases hsuspendable

theorem moves_supersede (h : Moves o passed awaits s) : Moves o passed awaits (supersede s) := by
  have hsub : List.Sublist (supersede s).changeQueue s.changeQueue := List.filter_sublist
  refine ⟨⟨h.recorded.nodup.sublist (hsub.map _), fun c hc => h.recorded.issued c (hsub.subset hc),
    fun c hc => h.recorded.queued c (hsub.subset hc), h.recorded.current, h.recorded.ordered,
    h.recorded.newer⟩, h.pending, fun i hi => ?_⟩
  rcases h.covered i hi with hle | ⟨change, hchange, latest, hlatest, hcover⟩ | hawait
  · exact .inl hle
  · refine .inr (.inl ⟨change, mem_supersede_snapshot h.recorded.nodup hchange ?_, latest, hlatest,
      hcover⟩)
    cases change with
    | snapshot id snapshots => rfl
    | suspendable id value => cases hlatest
  · exact .inr (.inr hawait)

/-- 新しい番号の変更を、並べ替えた queue に加える。 -/
theorem moves_push {change : QueuedChange I} {passed' : List I} (h : Moves o passed awaits s)
    (hid : change.id = s.promises) (hpassed : ∀ i ∈ passed, i ∈ passed')
    (hlatest : ∀ latest ∈ change.latest?,
      latest.runFriendlyId = o.runFriendlyId ∧ latest.friendlyId ∈ passed')
    (hcover : ∀ i ∈ passed', i ∈ passed ∨ ∃ latest ∈ change.latest?, i ≤ latest.friendlyId) :
    Moves o passed' awaits { s with
      promises := s.promises + 1, changeQueue := sortQueue (s.changeQueue ++ [change]) } := by
  have hperm := sortQueue_perm (s.changeQueue ++ [change])
  have hmem : ∀ c ∈ sortQueue (s.changeQueue ++ [change]), c ∈ s.changeQueue ∨ c = change := by
    intro c hc
    rcases List.mem_append.mp (hperm.mem_iff.mp hc) with hold | hnew
    · exact .inl hold
    · exact .inr (List.mem_singleton.mp hnew)
  refine ⟨⟨?_, ?_, ?_, hpassed _ h.recorded.current, h.recorded.ordered, h.recorded.newer⟩, ?_, ?_⟩
  · refine (hperm.map _).nodup_iff.mpr ?_
    rw [List.map_append, List.map_singleton]
    refine List.Nodup.append h.recorded.nodup (List.nodup_singleton _) ?_
    intro n hn hnew
    obtain ⟨c, hc, rfl⟩ := List.mem_map.mp hn
    have := h.recorded.issued c hc
    rw [List.mem_singleton.mp hnew] at this
    omega
  · intro c hc
    rcases hmem c hc with hold | rfl
    · exact Nat.lt_succ_of_lt (h.recorded.issued c hold)
    · rw [hid]
      exact Nat.lt_succ_self _
  · intro c hc latest hl
    rcases hmem c hc with hold | rfl
    · obtain ⟨hrun, hpass⟩ := h.recorded.queued c hold latest hl
      exact ⟨hrun, hpassed _ hpass⟩
    · exact hlatest latest hl
  · intro await hawait latest hl
    obtain ⟨hlt, hpass⟩ := h.pending await hawait latest hl
    exact ⟨hlt, hpassed _ hpass⟩
  · intro i hi
    rcases hcover i hi with hold | ⟨latest, hl, hle⟩
    · rcases h.covered i hold with hle | ⟨c, hc, latest, hl, hle⟩ | hawait
      · exact .inl hle
      · exact .inr (.inl ⟨c, hperm.mem_iff.mpr (List.mem_append_left _ hc), latest, hl, hle⟩)
      · exact .inr (.inr hawait)
    · have hnew : change ∈ s.changeQueue ++ [change] := by simp
      exact .inr (.inl ⟨change, hperm.mem_iff.mpr hnew, latest, hl, hle⟩)

/-- 新しい番号の変更を queue に加え、処理を始める。 -/
theorem moves_enqueue {change : QueuedChange I} {passed' : List I}
    (h : Moves o passed s.processors s) (hidle : s.isProcessingQueue = false → s.processors = [])
    (hid : change.id = s.promises) (hpassed : ∀ i ∈ passed, i ∈ passed')
    (hlatest : ∀ latest ∈ change.latest?,
      latest.runFriendlyId = o.runFriendlyId ∧ latest.friendlyId ∈ passed')
    (hcover : ∀ i ∈ passed', i ∈ passed ∨ ∃ latest ∈ change.latest?, i ≤ latest.friendlyId) :
    Moves o passed'
      (enqueueSnapshotChange o change { s with promises := s.promises + 1 }).processors
      (enqueueSnapshotChange o change { s with promises := s.promises + 1 }) := by
  unfold enqueueSnapshotChange
  dsimp only
  refine moves_processQueue ?_ ?_
  · split
    · exact moves_push (moves_supersede h) hid hpassed hlatest hcover
    · exact moves_push h hid hpassed hlatest hcover
  · split
    · exact hidle
    · exact hidle

/-! ## 再開 -/

omit [LinearOrder I] in
theorem hasBeenRestored_kept (overrides : Option String) (s : SnapshotManager I) :
    (hasBeenRestored o overrides s).2.state = s.state ∧
      (hasBeenRestored o overrides s).2.invocations = s.invocations := by
  unfold hasBeenRestored
  split
  · exact ⟨rfl, rfl⟩
  · split
    · exact ⟨rfl, rfl⟩
    · split
      · exact ⟨rfl, rfl⟩
      · split
        · exact ⟨rfl, rfl⟩
        · exact ⟨rfl, rfl⟩

/-- 待っていた `processQueue` の再開。 -/
theorem moves_resume {await : Await I} (outcome : Outcome) (h : Moves o passed [await] s) :
    Moves o passed (resume o outcome await s).1.toList (resume o outcome await s).2 := by
  cases await with
  | hasBeenRestored id latest deprecatedIds =>
    obtain ⟨hlt, hmem⟩ := h.pending _ (List.mem_singleton_self _) latest rfl
    obtain ⟨hstate, hinvocations⟩ := hasBeenRestored_kept (o := o) outcome.overrides s
    obtain ⟨hframe, -⟩ := frame_hasBeenRestored (o := o) outcome.overrides s
    -- `hasBeenRestored` は、通った snapshot も queue も変えない。
    have hsaw : Recorded o passed
        (seeDeprecated deprecatedIds (hasBeenRestored o outcome.overrides s).2) := by
      refine ⟨?_, ?_, ?_, ?_, ?_, ?_⟩
      · show ((hasBeenRestored o outcome.overrides s).2.changeQueue.map (·.id)).Nodup
        rw [hframe.changeQueue]
        exact h.recorded.nodup
      · show ∀ change ∈ (hasBeenRestored o outcome.overrides s).2.changeQueue,
          change.id < (hasBeenRestored o outcome.overrides s).2.promises
        rw [hframe.changeQueue, hframe.promises]
        exact h.recorded.issued
      · show ∀ change ∈ (hasBeenRestored o outcome.overrides s).2.changeQueue, _
        rw [hframe.changeQueue]
        exact h.recorded.queued
      · show (hasBeenRestored o outcome.overrides s).2.state.id ∈ passed
        rw [hstate]
        exact h.recorded.current
      · show ((hasBeenRestored o outcome.overrides s).2.invocations.map _).Pairwise _
        rw [hinvocations]
        exact h.recorded.ordered
      · show ∀ invocation ∈ (hasBeenRestored o outcome.overrides s).2.invocations, _ ∧
          _ ≤ (hasBeenRestored o outcome.overrides s).2.state.id
        rw [hinvocations, hstate]
        exact h.recorded.newer
    have hlt' : (seeDeprecated deprecatedIds
        (hasBeenRestored o outcome.overrides s).2).state.id < latest.friendlyId := by
      show (hasBeenRestored o outcome.overrides s).2.state.id < latest.friendlyId
      rw [hstate]
      exact hlt
    obtain ⟨hrecorded, hid⟩ := recorded_executeHandler hsaw id
      (!(hasBeenRestored o outcome.overrides s).1) hlt' hmem
    obtain ⟨hhandler, -⟩ := frame_executeHandler id latest
      (!(hasBeenRestored o outcome.overrides s).1)
      (seeDeprecated deprecatedIds (hasBeenRestored o outcome.overrides s).2)
    refine ⟨hrecorded, pending_nil rfl, fun i hi => ?_⟩
    rcases h.covered i hi with hle | ⟨change, hchange, l, hl, hle⟩ | ⟨a, ha, l, hl, hle⟩
    · exact .inl (hle.trans (hlt.le.trans hid.ge))
    · refine .inr (.inl ⟨change, ?_, l, hl, hle⟩)
      have hqueue := hhandler.changeQueue.trans hframe.changeQueue
      exact hqueue.symm ▸ hchange
    · rw [List.mem_singleton.mp ha] at hl
      obtain rfl : latest = l := Option.some_inj.mp hl
      exact .inl (hle.trans hid.ge)
  | onSnapshotChange id latest =>
    refine h.swap rfl ?_
    show (if outcome.error then Await.applied id true
      else checkSuspendableState id s).pending? = none
    split
    · rfl
    · exact checkSuspendableState_pending? id s
  | onSuspendable id => exact h.swap rfl rfl
  | applied id error =>
    refine moves_processNext ⟨?_, fun _ ha => absurd ha List.not_mem_nil, fun i hi => ?_⟩
    · obtain ⟨hnodup, hissued, hqueued, hcurrent, hordered, hnewer⟩ := h.recorded
      exact ⟨hnodup, hissued, hqueued, hcurrent, hordered, hnewer⟩
    · rcases h.covered i hi with hle | hqueued | ⟨a, ha, l, hl, -⟩
      · exact .inl hle
      · exact .inr (.inl hqueued)
      · rw [List.mem_singleton.mp ha] at hl
        cases hl

end Invariant

/-! ## id は減らない -/

section Monotone

variable [LinearOrder I] {o : SnapshotManagerOptions I} {s : SnapshotManager I}

theorem le_executeHandler (id : ℕ) (latest : RunExecutionData I) (deprecated : Bool)
    (s : SnapshotManager I) : s.state.id ≤ (executeHandler id latest deprecated s).2.state.id :=
  (le_updateSnapshot latest.friendlyId latest.executionStatus s).1

theorem le_applyChange (change : QueuedChange I) (s : SnapshotManager I) :
    s.state.id ≤ (applyChange o change s).2.state.id := by
  cases change with
  | suspendable id value => exact le_refl _
  | snapshot id snapshots =>
    unfold applyChange
    dsimp only
    split
    · split
      · exact le_refl _
      · split
        · exact le_executeHandler id _ false s
        · exact le_refl _
    · exact le_refl _

theorem le_processNext (s : SnapshotManager I) :
    s.state.id ≤ (processNext o s).2.state.id := by
  rcases processNext_cases o s with ⟨-, heq⟩ | ⟨change, rest, hqueue, heq⟩
  · rw [heq]
  · rw [heq]
    exact le_applyChange change { s with changeQueue := rest }

theorem le_enqueueSnapshotChange (change : QueuedChange I) (s : SnapshotManager I) :
    s.state.id ≤ (enqueueSnapshotChange o change s).state.id := by
  have hprocess : ∀ t : SnapshotManager I, t.state.id ≤ (processQueue o t).state.id := by
    intro t
    unfold processQueue
    split
    · exact le_refl _
    · exact le_processNext { t with isProcessingQueue := true }
  unfold enqueueSnapshotChange
  refine le_trans (le_of_eq ?_) (hprocess _)
  dsimp only
  split
  · rfl
  · rfl

theorem le_resume (outcome : Outcome) (await : Await I) (s : SnapshotManager I) :
    s.state.id ≤ (resume o outcome await s).2.state.id := by
  cases await with
  | hasBeenRestored id latest deprecatedIds =>
    obtain ⟨hstate, -⟩ := hasBeenRestored_kept (o := o) outcome.overrides s
    rw [← hstate]
    exact le_executeHandler id latest (!(hasBeenRestored o outcome.overrides s).1)
      (seeDeprecated deprecatedIds (hasBeenRestored o outcome.overrides s).2)
  | onSnapshotChange id latest => exact le_refl _
  | onSuspendable id => exact le_refl _
  | applied id error => exact le_processNext { s with settled := s.settled ++ [id] }

/-- どの一歩でも、現在の snapshot の id は減らない。 -/
theorem le_step (s : SnapshotManager I) (l : Label I) : s.state.id ≤ (s.step o l).state.id := by
  cases l with
  | setSuspendable suspendable =>
    unfold SnapshotManager.step setSuspendable
    dsimp only
    split
    · exact le_refl _
    · exact le_enqueueSnapshotChange (.suspendable s.promises suspendable)
        { s with promises := s.promises + 1 }
  | handleSnapshotChanges snapshots =>
    unfold SnapshotManager.step handleSnapshotChanges
    dsimp only
    split
    · exact le_enqueueSnapshotChange (.snapshot s.promises snapshots)
        { s with promises := s.promises + 1 }
    · exact le_refl _
  | updateSnapshot snapshotId status => exact (le_updateSnapshot snapshotId status s).1
  | resume i outcome =>
    unfold SnapshotManager.step
    dsimp only
    split
    · exact le_refl _
    · next await _ =>
      have hle := le_resume (o := o) outcome await s
      split
      · next next t heq =>
        rw [heq] at hle
        exact hle
      · next t heq =>
        rw [heq] at hle
        exact hle

end Monotone

/-! ## 実行 -/

/-- manager と、これまでに渡された snapshot の id。 -/
structure Feed (I : Type) where
  manager : SnapshotManager I
  passed : List I

/-- 一歩が渡す id。 -/
def Label.ids : Label I → List I
  | .handleSnapshotChanges snapshots => snapshots.map (·.friendlyId)
  | .updateSnapshot snapshotId _ => [snapshotId]
  | _ => []

section Run

variable [LinearOrder I] (o : SnapshotManagerOptions I)

def Feed.step (w : Feed I) (l : Label I) : Feed I := ⟨w.manager.step o l, w.passed ++ l.ids⟩

def Feed.start : Feed I := ⟨o.initial, [o.initialSnapshotId]⟩

/-- 渡される snapshot は run のものである。 -/
def OfRun : Label I → Prop
  | .handleSnapshotChanges snapshots => ∀ x ∈ snapshots, x.runFriendlyId = o.runFriendlyId
  | _ => True

instance : (l : Label I) → Decidable (OfRun o l)
  | .handleSnapshotChanges snapshots =>
    inferInstanceAs (Decidable (∀ x ∈ snapshots, x.runFriendlyId = o.runFriendlyId))
  | .setSuspendable _ | .updateSnapshot .. | .resume .. => instDecidableTrue

/--
渡される列の最後の snapshot が最も新しい。検査の済んだ snapshot が `hasBeenRestored` を待っている間、外からの
`updateSnapshot` はそれより前の id に限る。
-/
def Steady (w : Feed I) : Label I → Prop
  | .handleSnapshotChanges snapshots =>
    ∀ latest ∈ snapshots.getLast?, ∀ x ∈ snapshots, x.friendlyId ≤ latest.friendlyId
  | .updateSnapshot snapshotId _ =>
    ∀ await ∈ w.manager.processors, ∀ latest ∈ await.pending?, snapshotId < latest.friendlyId
  | _ => True

instance (w : Feed I) : (l : Label I) → Decidable (Steady w l)
  | .handleSnapshotChanges snapshots =>
    inferInstanceAs (Decidable (∀ latest ∈ snapshots.getLast?, ∀ x ∈ snapshots, _))
  | .updateSnapshot snapshotId _ =>
    inferInstanceAs (Decidable (∀ await ∈ w.manager.processors, ∀ latest ∈ await.pending?,
      snapshotId < latest.friendlyId))
  | .setSuspendable _ | .resume .. => instDecidableTrue

/--
handler の呼び出しは、どれも現在より新しい snapshot についてで、同じ snapshot については一度だけである。動いている handler は
高々一つで、queue が空になれば、現在の snapshot は渡されたもののうち最も新しい。
-/
structure MovesForward (w : Feed I) : Prop where
  newer : ∀ invocation ∈ w.manager.invocations,
    invocation.currentId < invocation.snapshot.friendlyId
  once : (w.manager.invocations.map (·.snapshot.friendlyId)).Nodup
  single : (w.manager.processors.filter (·.isHandler)).length ≤ 1
  drained : w.manager.changeQueue = [] → w.manager.isProcessingQueue = false →
    w.manager.state.id ∈ w.passed ∧ ∀ i ∈ w.passed, i ≤ w.manager.state.id

/-- 実行の間の不変条件。 -/
structure Advancing (w : Feed I) : Prop where
  processing : ∃ requested, Tracked requested w.manager
  moves : Moves o w.passed w.manager.processors w.manager

variable {o}

/-- 最後の要求を問わなければ、不変条件はどの一歩でも保たれる。 -/
theorem exists_tracked_step {s : SnapshotManager I} {requested : Bool} (h : Tracked requested s)
    (l : Label I) : ∃ requested', Tracked requested' (s.step o l) := by
  cases l with
  | setSuspendable suspendable =>
    by_cases heeded : s.isSuspendable = suspendable →
        ∀ value ∈ pendingValues s.changeQueue, value = suspendable
    · exact ⟨_, tracked_setSuspendable suspendable h heeded⟩
    · refine ⟨requested, ?_⟩
      unfold SnapshotManager.step setSuspendable
      dsimp only
      rw [if_pos (by_contra fun hne => heeded fun hsame => absurd hsame hne)]
      exact ⟨h.processing, accounted_settled h.accounted, h.follows⟩
  | handleSnapshotChanges snapshots => exact ⟨_, tracked_handleSnapshotChanges snapshots h⟩
  | updateSnapshot snapshotId status =>
    exact ⟨_, tracked_updateSnapshot (o := o) snapshotId status h⟩
  | resume i outcome => exact ⟨_, tracked_resume i outcome h⟩

omit [LinearOrder I] in
theorem Processing.idle {s : SnapshotManager I} (h : Processing s) :
    s.isProcessingQueue = false → s.processors = [] := by
  intro hflag
  rcases h with ⟨-, hnone, -⟩ | ⟨hbusy, -⟩
  · exact hnone
  · rw [hflag] at hbusy
    cases hbusy

theorem moves_step {w : Feed I} {l : Label I} (hprocessing : Processing w.manager)
    (h : Moves o w.passed w.manager.processors w.manager) (hrun : OfRun o l)
    (hsteady : Steady w l) :
    Moves o (w.step o l).passed (w.step o l).manager.processors (w.step o l).manager := by
  cases l with
  | setSuspendable suspendable =>
    show Moves o (w.passed ++ []) (setSuspendable o suspendable w.manager).processors _
    rw [List.append_nil]
    show Moves o w.passed _ (setSuspendable o suspendable w.manager)
    unfold setSuspendable
    dsimp only
    split
    · obtain ⟨⟨hnodup, hissued, hqueued, hcurrent, hordered, hnewer⟩, hpending, hcovered⟩ := h
      exact ⟨⟨hnodup, fun c hc => Nat.lt_succ_of_lt (hissued c hc), hqueued, hcurrent, hordered,
        hnewer⟩, hpending, hcovered⟩
    · exact moves_enqueue h hprocessing.idle rfl (fun _ hi => hi) (by rintro _ ⟨⟩)
        fun i hi => .inl hi
  | handleSnapshotChanges snapshots =>
    show Moves o (w.passed ++ snapshots.map (·.friendlyId))
      (handleSnapshotChanges o snapshots w.manager).processors
      (handleSnapshotChanges o snapshots w.manager)
    unfold handleSnapshotChanges
    dsimp only
    split
    · refine moves_enqueue h hprocessing.idle rfl (fun _ hi => List.mem_append_left _ hi) ?_ ?_
      · intro latest hlatest
        have hmem : latest ∈ snapshots := List.mem_of_getLast? hlatest
        exact ⟨hrun latest hmem, List.mem_append_right _ (List.mem_map.mpr ⟨latest, hmem, rfl⟩)⟩
      · intro i hi
        rcases List.mem_append.mp hi with hold | hnew
        · exact .inl hold
        · obtain ⟨x, hx, rfl⟩ := List.mem_map.mp hnew
          obtain ⟨latest, hlatest⟩ : ∃ latest, snapshots.getLast? = some latest := by
            rw [← Option.ne_none_iff_exists', Ne, List.getLast?_eq_none_iff]
            exact List.ne_nil_of_mem hx
          exact .inr ⟨latest, hlatest, hsteady latest hlatest x hx⟩
    · next hcheck =>
      have hmono := h.recorded.mono (snapshots.map (·.friendlyId))
      refine ⟨⟨hmono.nodup, fun c hc => Nat.lt_succ_of_lt (hmono.issued c hc), hmono.queued,
        hmono.current, hmono.ordered, hmono.newer⟩, ?_, ?_⟩
      · intro await hawait latest hlatest
        obtain ⟨hlt, hmem⟩ := h.pending await hawait latest hlatest
        exact ⟨hlt, List.mem_append_left _ hmem⟩
      · intro i hi
        rcases List.mem_append.mp hi with hold | hnew
        · exact h.covered i hold
        · -- 捨てられた列の id は、どれも現在の id 以下である
          obtain ⟨x, hx, rfl⟩ := List.mem_map.mp hnew
          obtain ⟨latest, hlatest⟩ : ∃ latest, snapshots.getLast? = some latest := by
            rw [← Option.ne_none_iff_exists', Ne, List.getLast?_eq_none_iff]
            exact List.ne_nil_of_mem hx
          have hle : latest.friendlyId ≤ w.manager.state.id := by
            by_contra hlt
            refine hcheck ((statusCheck_iff hlatest).mpr ⟨?_, not_le.mp hlt⟩)
            exact hrun latest (List.mem_of_getLast? hlatest)
          exact .inl ((hsteady latest hlatest x hx).trans hle)
  | updateSnapshot snapshotId status =>
    show Moves o (w.passed ++ [snapshotId]) (updateSnapshot snapshotId status w.manager).processors
      (updateSnapshot snapshotId status w.manager)
    obtain ⟨hframe, -⟩ := frame_updateSnapshot snapshotId status w.manager
    obtain ⟨hle, hnew⟩ := le_updateSnapshot snapshotId status w.manager
    have hmono := h.recorded.mono [snapshotId]
    rw [hframe.processors]
    refine ⟨⟨?_, ?_, ?_, ?_, ?_, ?_⟩, ?_, ?_⟩
    · rw [hframe.changeQueue]
      exact hmono.nodup
    · rw [hframe.changeQueue, hframe.promises]
      exact hmono.issued
    · rw [hframe.changeQueue]
      exact hmono.queued
    · rcases updateSnapshot_id snapshotId status w.manager with heq | heq
      · rw [heq]
        exact hmono.current
      · rw [heq]
        exact List.mem_append_right _ (List.mem_singleton_self _)
    · rw [updateSnapshot_invocations]
      exact hmono.ordered
    · rw [updateSnapshot_invocations]
      intro invocation hinvocation
      obtain ⟨hnewer, hbound⟩ := hmono.newer invocation hinvocation
      exact ⟨hnewer, hbound.trans hle⟩
    · intro await hawait latest hlatest
      obtain ⟨hlt, hmem⟩ := h.pending await hawait latest hlatest
      refine ⟨?_, List.mem_append_left _ hmem⟩
      rcases updateSnapshot_id snapshotId status w.manager with heq | heq
      · rw [heq]
        exact hlt
      · rw [heq]
        exact hsteady await hawait latest hlatest
    · intro i hi
      rcases List.mem_append.mp hi with hold | hlast
      · rcases h.covered i hold with hcurrent | hqueued | hawait
        · exact .inl (hcurrent.trans hle)
        · exact .inr (.inl (hframe.changeQueue.symm ▸ hqueued))
        · exact .inr (.inr hawait)
      · rw [List.mem_singleton.mp hlast]
        exact .inl hnew
  | resume i outcome =>
    show Moves o (w.passed ++ []) (w.manager.step o (.resume i outcome)).processors
      (w.manager.step o (.resume i outcome))
    rw [List.append_nil]
    rcases step_resume_cases (o := o) i outcome hprocessing with hstep | ⟨await, -, hone, hstep⟩
    · rw [hstep]
      exact h
    · rw [hone] at h
      rw [hstep]
      obtain ⟨⟨hnodup, hissued, hqueued, hcurrent, hordered, hnewer⟩, hpending, hcovered⟩ :=
        moves_resume outcome h
      exact ⟨⟨hnodup, hissued, hqueued, hcurrent, hordered, hnewer⟩, hpending, hcovered⟩

theorem advancing_step {w : Feed I} {l : Label I} (h : Advancing o w)
    (hl : OfRun o l ∧ Steady w l) : Advancing o (w.step o l) := by
  obtain ⟨requested, htracked⟩ := h.processing
  exact ⟨exists_tracked_step htracked l, moves_step htracked.processing h.moves hl.1 hl.2⟩

theorem Advancing.movesForward {w : Feed I} (h : Advancing o w) : MovesForward w := by
  obtain ⟨requested, htracked⟩ := h.processing
  refine ⟨fun invocation hinvocation => (h.moves.recorded.newer invocation hinvocation).1,
    h.moves.recorded.ordered.imp fun hlt => hlt.ne, ?_, fun hqueue hflag => ?_⟩
  · rcases htracked.processing with ⟨-, hnone, -⟩ | ⟨-, await, hone⟩
    · rw [hnone]
      exact Nat.zero_le 1
    · rw [hone]
      exact List.length_filter_le _ _
  · have hnone := htracked.processing.idle hflag
    refine ⟨h.moves.recorded.current, fun i hi => ?_⟩
    rcases h.moves.covered i hi with hle | ⟨change, hchange, -⟩ | ⟨await, hawait, -⟩
    · exact hle
    · rw [hqueue] at hchange
      cases hchange
    · rw [hnone] at hawait
      cases hawait

/-- **現在の snapshot の id は、どの一歩でも減らない。渡される列の最後が最も新しく、`hasBeenRestored` を待つ snapshot を外からの
`updateSnapshot` が追い越さなければ、実行の間ずっと、handler は新しい snapshot について一度ずつ、一つずつ呼ばれ、queue が空になれば
現在の snapshot は渡されたもののうち最も新しい。** -/
theorem moves_forward (o : SnapshotManagerOptions I) (ls : List (Label I))
    (hrun : ∀ l ∈ ls, OfRun o l) (hsteady : Along (Feed.step o) Steady (Feed.start o) ls) :
    Along (Feed.step o) (fun w l => w.manager.state.id ≤ (w.step o l).manager.state.id)
        (Feed.start o) ls ∧
      Throughout (Feed.step o) MovesForward (Feed.start o) ls := by
  refine ⟨Along.of_mem fun l _ w => le_step w.manager l, ?_⟩
  have hstart : Advancing o (Feed.start o) := by
    refine ⟨⟨false, tracked_initial o⟩, ⟨List.nodup_nil, ?_, ?_, List.mem_singleton_self _,
      List.Pairwise.nil, ?_⟩, ?_, fun i hi => ?_⟩
    · exact fun _ hc => absurd hc List.not_mem_nil
    · exact fun _ hc => absurd hc List.not_mem_nil
    · exact fun _ hc => absurd hc List.not_mem_nil
    · exact fun _ hc => absurd hc List.not_mem_nil
    · exact .inl (List.mem_singleton.mp hi).le
  have hboth : Along (Feed.step o) (fun w l => OfRun o l ∧ Steady w l) (Feed.start o) ls :=
    (Along.of_mem (C := fun _ l => OfRun o l) fun l hl _ => hrun l hl).and hsteady
  have hstep : ∀ (w : Feed I) l, Advancing o w → OfRun o l ∧ Steady w l →
      Advancing o (w.step o l) := fun w l hw hl => advancing_step hw hl
  exact (throughout_of_along hstep hstart hboth).mono fun w hw => hw.movesForward

end Run

/-- SUSPENDED を経た snapshot が届き、`hasBeenRestored` を待つ間に `updateSnapshot` がある。 -/
def restoredRun (snapshotId : ℕ) : List (Label ℕ) :=
  [.handleSnapshotChanges [sampleSnapshot 2 .suspended, sampleSnapshot 3 .executing],
    .updateSnapshot snapshotId .executing, .resume 0 {}]

/-- 追い越さない `updateSnapshot`。 -/
theorem moves_forward_restoredRun :
    Along (Feed.step sampleOptions)
        (fun w l => w.manager.state.id ≤ (w.step sampleOptions l).manager.state.id)
        (Feed.start sampleOptions) (restoredRun 2) ∧
      Throughout (Feed.step sampleOptions) MovesForward (Feed.start sampleOptions)
        (restoredRun 2) :=
  moves_forward sampleOptions (restoredRun 2) (by decide) (by decide +kernel)

/-- snapshot 4 への更新の後に、handler は snapshot 3 で呼ばれる。 -/
theorem handler_overtaken :
    ¬ Throughout (Feed.step sampleOptions) MovesForward (Feed.start sampleOptions)
      (restoredRun 4) := by
  intro h
  have hold : ∃ invocation ∈ (exec (Feed.step sampleOptions) (Feed.start sampleOptions)
      (restoredRun 4)).manager.invocations,
      invocation.snapshot.friendlyId < invocation.currentId := by decide +kernel
  obtain ⟨invocation, hmem, hlt⟩ := hold
  exact lt_asymm hlt (h.last.newer invocation hmem)

end Runner
