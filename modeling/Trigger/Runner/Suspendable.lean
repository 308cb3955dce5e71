import Trigger.Runner.SnapshotManager

/-!
# suspendable の最後の要求

`setSuspendable` の同値の検査は、queue の後ろにある変更ではなく、適用済みの値を見る。遅い handler の後ろに逆の変更が
待っているときの要求は捨てられ、queue が空になった後の値は最後の要求と異なる（`suspendable_lost`）。

* `Processing` — 動いている `processQueue` は高々一つである
* `Accounted` — 返した promise は、決着したか、queue にあるか、適用の途中にある
* `Follows` — 待っている変更か適用済みの値が、最後の要求である
-/

namespace Runner

open Infra.Machine

variable {I : Type} {s t : SnapshotManager I}

/-! ## 不変条件 -/

/-- 動いている `processQueue` は高々一つで、無ければ queue は空である。 -/
def Processing (s : SnapshotManager I) : Prop :=
  s.isProcessingQueue = false ∧ s.processors = [] ∧ s.changeQueue = [] ∨
    s.isProcessingQueue = true ∧ ∃ await, s.processors = [await]

/-- queue にある suspendable の値。 -/
def pendingValues (queue : List (QueuedChange I)) : List Bool := queue.filterMap QueuedChange.value?

/-- 待っている変更が最後の要求だけか、何も待っておらず、適用済みの値が最後の要求である。 -/
def Follows (requested : Bool) (s : SnapshotManager I) : Prop :=
  pendingValues s.changeQueue = [requested] ∨
    pendingValues s.changeQueue = [] ∧ s.isSuspendable = requested

/-- 返した promise は、決着したか、queue にあるか、`awaits` が適用している。 -/
def Accounted (awaits : List (Await I)) (s : SnapshotManager I) : Prop :=
  ∀ n < s.promises, n ∈ s.settled ∨ n ∈ s.changeQueue.map (·.id) ∨ n ∈ awaits.map (·.id)

/-- 変更の適用が触れない欄。 -/
structure Frame (s t : SnapshotManager I) : Prop where
  changeQueue : t.changeQueue = s.changeQueue
  isProcessingQueue : t.isProcessingQueue = s.isProcessingQueue
  processors : t.processors = s.processors
  promises : t.promises = s.promises
  settled : t.settled = s.settled

theorem Frame.refl (s : SnapshotManager I) : Frame s s := ⟨rfl, rfl, rfl, rfl, rfl⟩

theorem Frame.trans {u : SnapshotManager I} (h : Frame s t) (h' : Frame t u) : Frame s u :=
  ⟨h'.1.trans h.1, h'.2.trans h.2, h'.3.trans h.3, h'.4.trans h.4, h'.5.trans h.5⟩

theorem Follows.congr {requested : Bool} (h : Follows requested s)
    (hqueue : t.changeQueue = s.changeQueue) (hsuspendable : t.isSuspendable = s.isSuspendable) :
    Follows requested t := by
  unfold Follows
  rw [hqueue, hsuspendable]
  exact h

theorem checkSuspendableState_id (id : ℕ) (s : SnapshotManager I) :
    (checkSuspendableState id s).id = id := by
  unfold checkSuspendableState
  split
  · rfl
  · rfl

section Apply

variable [LinearOrder I] {o : SnapshotManagerOptions I}

theorem frame_updateSnapshot (snapshotId : I) (status : RunEngine.ExecutionStatus)
    (s : SnapshotManager I) : Frame s (updateSnapshot snapshotId status s) ∧
      (updateSnapshot snapshotId status s).isSuspendable = s.isSuspendable := by
  unfold updateSnapshot
  split
  · exact ⟨.refl s, rfl⟩
  · exact ⟨⟨rfl, rfl, rfl, rfl, rfl⟩, rfl⟩

theorem frame_executeHandler (id : ℕ) (latest : RunExecutionData I) (deprecated : Bool)
    (s : SnapshotManager I) : Frame s (executeHandler id latest deprecated s).2 ∧
      (executeHandler id latest deprecated s).2.isSuspendable = s.isSuspendable := by
  obtain ⟨hframe, hsuspendable⟩ :=
    frame_updateSnapshot latest.friendlyId latest.executionStatus s
  exact ⟨⟨hframe.1, hframe.2, hframe.3, hframe.4, hframe.5⟩, hsuspendable⟩

/-- 変更の適用は、その promise を受け持ち、suspendable の値だけを変える。 -/
theorem applyChange_spec (o : SnapshotManagerOptions I) (change : QueuedChange I)
    (s : SnapshotManager I) : (applyChange o change s).1.id = change.id ∧
      Frame s (applyChange o change s).2 ∧
      (applyChange o change s).2.isSuspendable = change.value?.getD s.isSuspendable := by
  cases change with
  | suspendable id value =>
    exact ⟨checkSuspendableState_id id _, ⟨rfl, rfl, rfl, rfl, rfl⟩, rfl⟩
  | snapshot id snapshots =>
    unfold applyChange
    dsimp only
    split
    · split
      · exact ⟨rfl, .refl s, rfl⟩
      · split
        · exact ⟨rfl, frame_executeHandler id _ false s⟩
        · exact ⟨rfl, .refl s, rfl⟩
    · exact ⟨rfl, .refl s, rfl⟩

/-- loop の先頭は、queue の最初の変更を適用するか、queue が空なら終わる。 -/
theorem processNext_cases (o : SnapshotManagerOptions I) (s : SnapshotManager I) :
    (s.changeQueue = [] ∧ processNext o s = (none, { s with isProcessingQueue := false })) ∨
      ∃ change changeQueue, s.changeQueue = change :: changeQueue ∧
        processNext o s =
          (some (applyChange o change { s with changeQueue := changeQueue }).1,
            (applyChange o change { s with changeQueue := changeQueue }).2) := by
  unfold processNext
  split
  · next h => exact .inl ⟨h, rfl⟩
  · next change changeQueue h => exact .inr ⟨change, changeQueue, h, rfl⟩

theorem follows_processNext {requested : Bool} (h : Follows requested s) :
    Follows requested (processNext o s).2 := by
  rcases processNext_cases o s with ⟨-, heq⟩ | ⟨change, rest, hqueue, heq⟩
  · rw [heq]
    exact h
  · obtain ⟨-, hframe, hsuspendable⟩ := applyChange_spec o change { s with changeQueue := rest }
    rw [heq]
    unfold Follows at h ⊢
    rw [hqueue] at h
    rw [hframe.changeQueue, hsuspendable]
    unfold pendingValues at h ⊢
    rcases hvalue : change.value? with _ | value
    · rw [List.filterMap_cons_none hvalue] at h
      exact h
    · -- 適用される値が最後の要求である
      rw [List.filterMap_cons_some hvalue] at h
      rcases h with hone | ⟨hnone, -⟩
      · obtain ⟨rfl, hrest⟩ := List.cons_eq_cons.mp hone
        exact .inr ⟨hrest, rfl⟩
      · cases hnone

theorem accounted_processNext (h : Accounted [] s) :
    Accounted (processNext o s).1.toList (processNext o s).2 := by
  rcases processNext_cases o s with ⟨-, heq⟩ | ⟨change, rest, hqueue, heq⟩
  · rw [heq]
    exact h
  · obtain ⟨hid, hframe, -⟩ := applyChange_spec o change { s with changeQueue := rest }
    rw [heq]
    intro n hn
    rw [hframe.promises] at hn
    rw [hframe.settled, hframe.changeQueue]
    rcases h n hn with hsettled | hqueued | hawait
    · exact .inl hsettled
    · rw [hqueue, List.map_cons, List.mem_cons] at hqueued
      rcases hqueued with rfl | hrest
      · refine .inr (.inr ?_)
        show change.id ∈ [(applyChange o change { s with changeQueue := rest }).1.id]
        rw [hid]
        exact List.mem_singleton_self _
      · exact .inr (.inl hrest)
    · cases hawait

/-- loop は次の `await` で止まるか、queue を空にして終わる。 -/
theorem processing_processNext (hs : s.isProcessingQueue = true) :
    (∃ await, (processNext o s).1 = some await ∧ (processNext o s).2.isProcessingQueue = true) ∨
      (processNext o s).1 = none ∧ (processNext o s).2.isProcessingQueue = false ∧
        (processNext o s).2.changeQueue = [] := by
  rcases processNext_cases o s with ⟨hqueue, heq⟩ | ⟨change, rest, hqueue, heq⟩
  · rw [heq]
    exact .inr ⟨rfl, rfl, hqueue⟩
  · obtain ⟨-, hframe, -⟩ := applyChange_spec o change { s with changeQueue := rest }
    rw [heq]
    exact .inl ⟨_, rfl, hframe.isProcessingQueue.trans hs⟩

theorem frame_processNext (s : SnapshotManager I) :
    (processNext o s).2.processors = s.processors ∧ (processNext o s).2.promises = s.promises ∧
      (processNext o s).2.settled = s.settled := by
  rcases processNext_cases o s with ⟨-, heq⟩ | ⟨change, rest, hqueue, heq⟩
  · rw [heq]
    exact ⟨rfl, rfl, rfl⟩
  · obtain ⟨-, hframe, -⟩ := applyChange_spec o change { s with changeQueue := rest }
    rw [heq]
    exact ⟨hframe.processors, hframe.promises, hframe.settled⟩

end Apply

/-! ## enqueue -/

/-- 三つの不変条件。 -/
structure Tracked (requested : Bool) (s : SnapshotManager I) : Prop where
  processing : Processing s
  accounted : Accounted s.processors s
  follows : Follows requested s

/-- 並べ替えても、高々一つの待っている値は変わらない。 -/
theorem Follows.perm {requested : Bool} (h : Follows requested s)
    (hqueue : (pendingValues t.changeQueue).Perm (pendingValues s.changeQueue))
    (hsuspendable : t.isSuspendable = s.isSuspendable) : Follows requested t := by
  rcases h with hone | ⟨hnone, heq⟩
  · rw [hone] at hqueue
    exact .inl hqueue.eq_singleton
  · rw [hnone] at hqueue
    exact .inr ⟨hqueue.eq_nil, hsuspendable.trans heq⟩

theorem pendingValues_perm {queue queue' : List (QueuedChange I)} (h : queue.Perm queue') :
    (pendingValues queue).Perm (pendingValues queue') := h.filterMap _

theorem pendingValues_append (queue queue' : List (QueuedChange I)) :
    pendingValues (queue ++ queue') = pendingValues queue ++ pendingValues queue' :=
  List.filterMap_append

/-- 置き換えの後に、待っている suspendable の変更は無い。 -/
theorem pendingValues_supersede (s : SnapshotManager I) :
    pendingValues (supersede s).changeQueue = [] := by
  refine List.filterMap_eq_nil_iff.mpr fun item hitem => ?_
  obtain ⟨hmem, hid⟩ := List.mem_filter.mp hitem
  by_contra hvalue
  have hpending : item ∈ s.changeQueue.filter (·.isSuspendable) :=
    List.mem_filter.mpr ⟨hmem, Option.isSome_iff_ne_none.mpr hvalue⟩
  exact of_decide_eq_true hid (List.mem_map.mpr ⟨item, hpending, rfl⟩)

/-- 置き換えで queue から消える変更の promise は決着する。 -/
theorem mem_supersede {n : ℕ} (h : n ∈ s.settled ∨ n ∈ s.changeQueue.map (·.id)) :
    n ∈ (supersede s).settled ∨ n ∈ (supersede s).changeQueue.map (·.id) := by
  rcases h with hsettled | hqueued
  · exact .inl (List.mem_append_left _ hsettled)
  · obtain ⟨item, hitem, rfl⟩ := List.mem_map.mp hqueued
    by_cases hresolved : item.id ∈ (s.changeQueue.filter (·.isSuspendable)).map (·.id)
    · exact .inl (List.mem_append_right _ hresolved)
    · exact .inr (List.mem_map.mpr
        ⟨item, List.mem_filter.mpr ⟨hitem, decide_eq_true hresolved⟩, rfl⟩)

theorem Processing.weaken (h : Processing s) : s.isProcessingQueue = false ∧ s.processors = [] ∨
    s.isProcessingQueue = true ∧ ∃ await, s.processors = [await] := by
  rcases h with ⟨hidle, hnone, -⟩ | hbusy
  · exact .inl ⟨hidle, hnone⟩
  · exact .inr hbusy

section Enqueue

variable [LinearOrder I] {o : SnapshotManagerOptions I} {requested : Bool}

/-- 変更を加えた queue の処理を始める。動いている `processQueue` があれば、それに任せる。 -/
theorem tracked_processQueue
    (hprocessing : s.isProcessingQueue = false ∧ s.processors = [] ∨
      s.isProcessingQueue = true ∧ ∃ await, s.processors = [await])
    (haccounted : Accounted s.processors s) (hfollows : Follows requested s) :
    Tracked requested (processQueue o s) := by
  rcases hprocessing with ⟨hidle, hnone⟩ | ⟨hbusy, hsome⟩
  · unfold processQueue
    rw [hidle, if_neg Bool.false_ne_true]
    dsimp only
    rw [hnone] at haccounted
    have hacc := accounted_processNext (o := o) (s := { s with isProcessingQueue := true })
      haccounted
    have hfol := follows_processNext (o := o) (s := { s with isProcessingQueue := true })
      hfollows
    have hframe := frame_processNext (o := o) { s with isProcessingQueue := true }
    have hempty : (processNext o { s with isProcessingQueue := true }).2.processors = [] :=
      hframe.1.trans hnone
    refine ⟨?_, ?_, hfol⟩
    · rcases processing_processNext (o := o) (s := { s with isProcessingQueue := true }) rfl with
        ⟨await, hawait, hflag⟩ | ⟨hend, hflag, hqueue⟩
      · refine .inr ⟨hflag, await, ?_⟩
        show (processNext o _).2.processors ++ (processNext o _).1.toList = _
        rw [hempty, hawait]
        rfl
      · refine .inl ⟨hflag, ?_, hqueue⟩
        show (processNext o _).2.processors ++ (processNext o _).1.toList = _
        rw [hempty, hend]
        rfl
    · show Accounted ((processNext o _).2.processors ++ (processNext o _).1.toList) _
      rw [hempty, List.nil_append]
      exact hacc
  · unfold processQueue
    rw [hbusy, if_pos rfl]
    exact ⟨.inr ⟨hbusy, hsome⟩, haccounted, hfollows⟩

/-- 新しい promise を除いて説明のついた状態に、その promise の変更を加える。 -/
theorem tracked_enqueue (change : QueuedChange I) (hprocessing : Processing s)
    (haccounted : ∀ n < s.promises, n = change.id ∨
      n ∈ s.settled ∨ n ∈ s.changeQueue.map (·.id) ∨ n ∈ s.processors.map (·.id))
    (hfollows : change.value?.elim (Follows requested s) (· = requested)) :
    Tracked requested (enqueueSnapshotChange o change s) := by
  unfold enqueueSnapshotChange
  dsimp only
  rcases hvalue : change.value? with _ | value
  · have hkind : change.isSuspendable = false := by
      unfold QueuedChange.isSuspendable
      rw [hvalue]
      rfl
    rw [hvalue] at hfollows
    rw [hkind, if_neg Bool.false_ne_true]
    refine tracked_processQueue hprocessing.weaken (fun n hn => ?_) (hfollows.perm ?_ rfl)
    · rcases haccounted n hn with rfl | hsettled | hqueued | hawait
      · exact .inr (.inl (((sortQueue_perm _).map _).mem_iff.mpr (by simp)))
      · exact .inl hsettled
      · refine .inr (.inl (((sortQueue_perm _).map _).mem_iff.mpr ?_))
        rw [List.map_append]
        exact List.mem_append_left _ hqueued
      · exact .inr (.inr hawait)
    · refine (pendingValues_perm (sortQueue_perm _)).trans ?_
      rw [pendingValues_append, pendingValues, pendingValues, List.filterMap_cons_none hvalue,
        List.filterMap_nil, List.append_nil]
  · have hkind : change.isSuspendable = true := by
      unfold QueuedChange.isSuspendable
      rw [hvalue]
      rfl
    rw [hvalue] at hfollows
    obtain rfl : value = requested := hfollows
    rw [hkind, if_pos rfl]
    refine tracked_processQueue hprocessing.weaken (fun n hn => ?_) (.inl ?_)
    · rcases haccounted n hn with rfl | hsettled | hqueued | hawait
      · exact .inr (.inl (((sortQueue_perm _).map _).mem_iff.mpr (by simp)))
      · exact .inl (List.mem_append_left _ hsettled)
      · rcases mem_supersede (.inr hqueued) with hsettled | hqueued
        · exact .inl hsettled
        · refine .inr (.inl (((sortQueue_perm _).map _).mem_iff.mpr ?_))
          rw [List.map_append]
          exact List.mem_append_left _ hqueued
      · exact .inr (.inr hawait)
    · -- 残るのは新しい変更だけである
      refine ((pendingValues_perm (sortQueue_perm _)).trans ?_).eq_singleton
      rw [pendingValues_append, pendingValues_supersede, List.nil_append, pendingValues,
        List.filterMap_cons_some hvalue, List.filterMap_nil]

end Enqueue

/-! ## 一歩 -/

/-- すぐに決着する promise。 -/
theorem accounted_settled (h : Accounted s.processors s) : Accounted s.processors
    { s with promises := s.promises + 1, settled := s.settled ++ [s.promises] } := by
  intro n hn
  rcases Nat.lt_succ_iff_lt_or_eq.mp hn with hlt | rfl
  · rcases h n hlt with hsettled | hrest
    · exact .inl (List.mem_append_left _ hsettled)
    · exact .inr hrest
  · exact .inl (List.mem_append_right _ (List.mem_singleton_self _))

/-- 新しい promise の変更を queue に加える前の状態。 -/
theorem accounted_promise (h : Accounted s.processors s) : ∀ n < s.promises + 1, n = s.promises ∨
    n ∈ s.settled ∨ n ∈ s.changeQueue.map (·.id) ∨ n ∈ s.processors.map (·.id) := by
  intro n hn
  rcases Nat.lt_succ_iff_lt_or_eq.mp hn with hlt | heq
  · exact .inr (h n hlt)
  · exact .inl heq

section Step

variable [LinearOrder I] {o : SnapshotManagerOptions I} {requested : Bool}

omit [LinearOrder I] in
theorem frame_hasBeenRestored (overrides : Option String) (s : SnapshotManager I) :
    Frame s (hasBeenRestored o overrides s).2 ∧
      (hasBeenRestored o overrides s).2.isSuspendable = s.isSuspendable := by
  unfold hasBeenRestored
  split
  · exact ⟨.refl s, rfl⟩
  · split
    · exact ⟨.refl s, rfl⟩
    · split
      · exact ⟨.refl s, rfl⟩
      · split
        · exact ⟨.refl s, rfl⟩
        · exact ⟨⟨rfl, rfl, rfl, rfl, rfl⟩, rfl⟩

/-- 再開した `processQueue` は、同じ変更の次の `await` に進むか、その promise を決着させて次の変更に移る。 -/
theorem resume_spec (outcome : Outcome) (await : Await I) (s : SnapshotManager I) :
    (∃ next, (resume o outcome await s).1 = some next ∧ next.id = await.id ∧
      Frame s (resume o outcome await s).2 ∧
        (resume o outcome await s).2.isSuspendable = s.isSuspendable) ∨
      resume o outcome await s = processNext o { s with settled := s.settled ++ [await.id] } := by
  cases await with
  | hasBeenRestored id latest deprecatedIds =>
    obtain ⟨hframe, hsuspendable⟩ := frame_hasBeenRestored (o := o) outcome.overrides s
    obtain ⟨hhandler, hkept⟩ := frame_executeHandler id latest
      (!(hasBeenRestored o outcome.overrides s).1)
      (seeDeprecated deprecatedIds (hasBeenRestored o outcome.overrides s).2)
    have hsaw : Frame (hasBeenRestored o outcome.overrides s).2
        (seeDeprecated deprecatedIds (hasBeenRestored o outcome.overrides s).2) :=
      ⟨rfl, rfl, rfl, rfl, rfl⟩
    exact .inl ⟨_, rfl, rfl, (hframe.trans hsaw).trans hhandler, hkept.trans hsuspendable⟩
  | onSnapshotChange id latest =>
    refine .inl ⟨_, rfl, ?_, .refl s, rfl⟩
    split
    · rfl
    · exact checkSuspendableState_id id s
  | onSuspendable id => exact .inl ⟨_, rfl, rfl, .refl s, rfl⟩
  | applied id error => exact .inr rfl

/-- 再開は、止まっている `processQueue` の列には触れない。 -/
theorem processors_resume (outcome : Outcome) (await : Await I) (s : SnapshotManager I) :
    (resume o outcome await s).2.processors = s.processors := by
  rcases resume_spec (o := o) outcome await s with ⟨next, -, -, hframe, -⟩ | heq
  · exact hframe.processors
  · rw [heq]
    exact (frame_processNext _).1

/-- 再開の一歩は、何も待っていなければ何もせず、そうでなければただ一つの `processQueue` を進める。 -/
theorem step_resume_cases (i : ℕ) (outcome : Outcome) (h : Processing s) :
    s.step o (.resume i outcome) = s ∨
      ∃ await, s.isProcessingQueue = true ∧ s.processors = [await] ∧
        s.step o (.resume i outcome) =
          { (resume o outcome await s).2 with
            processors := (resume o outcome await s).1.toList } := by
  unfold SnapshotManager.step
  dsimp only
  split
  · exact .inl rfl
  · next await hget =>
    obtain ⟨hbusy, hone⟩ : s.isProcessingQueue = true ∧ s.processors = [await] := by
      rcases h with ⟨-, hnone, -⟩ | ⟨hbusy, first, hone⟩
      · rw [hnone] at hget
        cases hget
      · rw [hone] at hget ⊢
        rw [List.mem_singleton.mp (List.mem_of_getElem? hget)]
        exact ⟨hbusy, rfl⟩
    obtain rfl : i = 0 := by
      rw [hone] at hget
      have := (List.getElem?_eq_some_iff.mp hget).1
      rw [List.length_singleton] at this
      omega
    refine .inr ⟨await, hbusy, hone, ?_⟩
    have hkept := (processors_resume (o := o) outcome await s).trans hone
    rcases hr : resume o outcome await s with ⟨result, t⟩
    rw [hr] at hkept
    rcases result with _ | next
    · exact congrArg (fun l => { t with processors := l }) (congrArg (List.eraseIdx · 0) hkept)
    · exact congrArg (fun l => { t with processors := l }) (congrArg (List.set · 0 next) hkept)

theorem tracked_resume (i : ℕ) (outcome : Outcome) (h : Tracked requested s) :
    Tracked requested (s.step o (.resume i outcome)) := by
  rcases step_resume_cases (o := o) i outcome h.processing with hstep | ⟨await, hbusy, hone, hstep⟩
  · rw [hstep]
    exact h
  · have hold := h.accounted
    rw [hone] at hold
    rw [hstep]
    rcases resume_spec (o := o) outcome await s with ⟨next, hnext, hid, hframe, hkept⟩ | heq
    · rw [hnext]
      refine ⟨.inr ⟨hframe.isProcessingQueue.trans hbusy, next, rfl⟩, fun n hn => ?_,
        h.follows.congr hframe.changeQueue hkept⟩
      have hcases := hold n (hframe.promises ▸ hn)
      rw [← hframe.settled, ← hframe.changeQueue, List.map_singleton, ← hid] at hcases
      exact hcases
    · rw [heq]
      have hnone : Accounted [] { s with settled := s.settled ++ [await.id] } := by
        intro n hn
        rcases hold n hn with hsettled | hqueued | hawait
        · exact .inl (List.mem_append_left _ hsettled)
        · exact .inr (.inl hqueued)
        · exact .inl (List.mem_append_right _ hawait)
      have hfollows : Follows requested { s with settled := s.settled ++ [await.id] } := h.follows
      refine ⟨?_, accounted_processNext hnone, follows_processNext hfollows⟩
      rcases processing_processNext (o := o) (s := { s with settled := s.settled ++ [await.id] })
        hbusy with ⟨next, hnext, hflag⟩ | ⟨hend, hflag, hqueue⟩
      · exact .inr ⟨hflag, next, by rw [hnext]; rfl⟩
      · exact .inl ⟨hflag, by rw [hend]; rfl, hqueue⟩

theorem tracked_setSuspendable (suspendable : Bool) (h : Tracked requested s)
    (heeded : s.isSuspendable = suspendable →
      ∀ value ∈ pendingValues s.changeQueue, value = suspendable) :
    Tracked suspendable (s.step o (.setSuspendable suspendable)) := by
  unfold SnapshotManager.step setSuspendable
  dsimp only
  split
  · next hsame =>
    refine ⟨h.processing, accounted_settled h.accounted, ?_⟩
    rcases h.follows with hone | ⟨hnone, -⟩
    · refine .inl ?_
      show pendingValues s.changeQueue = _
      rw [hone]
      have hmem : requested ∈ pendingValues s.changeQueue := by
        rw [hone]
        exact List.mem_cons_self
      exact congrArg (fun value => [value]) (heeded hsame requested hmem)
    · exact .inr ⟨hnone, hsame⟩
  · exact tracked_enqueue _ h.processing (accounted_promise h.accounted) rfl

theorem tracked_handleSnapshotChanges (snapshots : List (RunExecutionData I))
    (h : Tracked requested s) :
    Tracked requested (s.step o (.handleSnapshotChanges snapshots)) := by
  unfold SnapshotManager.step handleSnapshotChanges
  dsimp only
  split
  · exact tracked_enqueue _ h.processing (accounted_promise h.accounted) h.follows
  · exact ⟨h.processing, accounted_settled h.accounted, h.follows⟩

theorem tracked_updateSnapshot (snapshotId : I) (status : RunEngine.ExecutionStatus)
    (h : Tracked requested s) :
    Tracked requested (s.step o (.updateSnapshot snapshotId status)) := by
  obtain ⟨hframe, hkept⟩ := frame_updateSnapshot snapshotId status s
  have hprocessing : Processing (updateSnapshot snapshotId status s) := by
    unfold Processing
    rw [hframe.isProcessingQueue, hframe.processors, hframe.changeQueue]
    exact h.processing
  refine ⟨hprocessing, ?_, h.follows.congr hframe.changeQueue hkept⟩
  show Accounted (updateSnapshot snapshotId status s).processors
    (updateSnapshot snapshotId status s)
  unfold Accounted
  rw [hframe.promises, hframe.settled, hframe.changeQueue, hframe.processors]
  exact h.accounted

end Step

/-! ## 実行 -/

/-- manager と、最後の `setSuspendable` の引数。 -/
structure Requests (I : Type) where
  manager : SnapshotManager I
  requested : Bool := false

/-- queue が空になり、処理も終わったら、値は最後の要求であり、返した promise はすべて決着している。 -/
def Concluded (w : Requests I) : Prop :=
  w.manager.changeQueue = [] → w.manager.isProcessingQueue = false →
    w.manager.isSuspendable = w.requested ∧ ∀ n < w.manager.promises, n ∈ w.manager.settled

theorem Tracked.concluded {w : Requests I} (h : Tracked w.requested w.manager) : Concluded w := by
  intro hqueue hidle
  have hnone : w.manager.processors = [] := by
    rcases h.processing with ⟨-, hnone, -⟩ | ⟨hbusy, -⟩
    · exact hnone
    · rw [hidle] at hbusy
      cases hbusy
  refine ⟨?_, fun n hn => ?_⟩
  · rcases h.follows with hone | ⟨-, heq⟩
    · rw [hqueue] at hone
      cases hone
    · exact heq
  · rcases h.accounted n hn with hsettled | hqueued | hawait
    · exact hsettled
    · rw [hqueue] at hqueued
      cases hqueued
    · rw [hnone] at hawait
      cases hawait

theorem tracked_initial (o : SnapshotManagerOptions I) : Tracked false o.initial :=
  ⟨.inl ⟨rfl, rfl, rfl⟩, fun n hn => absurd hn (Nat.not_lt_zero n), .inr ⟨rfl, rfl⟩⟩

section Run

variable [LinearOrder I] (o : SnapshotManagerOptions I)

def Requests.step (w : Requests I) (l : Label I) : Requests I where
  manager := w.manager.step o l
  requested :=
    match l with
    | .setSuspendable suspendable => suspendable
    | _ => w.requested

/-- 適用済みの値と同じ値を求めるとき、逆の変更は待っていない。 -/
def Heeded (w : Requests I) : Label I → Prop
  | .setSuspendable suspendable => w.manager.isSuspendable = suspendable →
      ∀ value ∈ pendingValues w.manager.changeQueue, value = suspendable
  | _ => True

instance (w : Requests I) (l : Label I) : Decidable (Heeded w l) := by
  cases l <;> unfold Heeded <;> infer_instance

theorem tracked_step {w : Requests I} {l : Label I} (h : Tracked w.requested w.manager)
    (hl : Heeded w l) : Tracked (w.step o l).requested (w.step o l).manager := by
  cases l with
  | setSuspendable suspendable => exact tracked_setSuspendable suspendable h hl
  | handleSnapshotChanges snapshots => exact tracked_handleSnapshotChanges snapshots h
  | updateSnapshot snapshotId status => exact tracked_updateSnapshot (o := o) snapshotId status h
  | resume i outcome => exact tracked_resume i outcome h

/-- **適用済みの値への要求が、逆の変更を待たせたまま行われなければ、queue が空になるたびに、値は最後の要求であり、返した
promise はすべて決着している。** -/
theorem suspendable_follows (ls : List (Label I))
    (h : Along (Requests.step o) Heeded ⟨o.initial, false⟩ ls) :
    Throughout (Requests.step o) Concluded ⟨o.initial, false⟩ ls := by
  have hstep : ∀ (w : Requests I) l, Tracked w.requested w.manager → Heeded w l →
      Tracked (w.step o l).requested (w.step o l).manager := fun w l hw hl => tracked_step o hw hl
  exact (throughout_of_along hstep (tracked_initial o) h).mono fun w hw => hw.concluded

end Run

/-- snapshot 1 から始まる runner。 -/
def sampleOptions : SnapshotManagerOptions ℕ := ⟨"run", "runner", 1, .executing, true⟩

def sampleSnapshot (id : ℕ) (status : RunEngine.ExecutionStatus) : RunExecutionData ℕ :=
  ⟨"run", id, status, id⟩

/-- handler が動いている間に suspendable を求める。 -/
def requestedRun : List (Label ℕ) :=
  [.handleSnapshotChanges [sampleSnapshot 2 .executing], .setSuspendable true, .resume 0 {},
    .resume 0 {}, .resume 0 {}]

theorem suspendable_follows_requestedRun :
    Throughout (Requests.step sampleOptions) Concluded ⟨sampleOptions.initial, false⟩
      requestedRun :=
  suspendable_follows sampleOptions requestedRun (by decide +kernel)

/-- handler が動いている間に、suspendable を求めてから取り消す。 -/
def withdrawnRun : List (Label ℕ) :=
  [.handleSnapshotChanges [sampleSnapshot 2 .executing], .setSuspendable true,
    .setSuspendable false, .resume 0 {}, .resume 0 {}, .resume 0 {}]

/-- 取り消しは捨てられ、queue が空になった後も suspendable である。 -/
theorem suspendable_lost :
    ¬ Throughout (Requests.step sampleOptions) Concluded ⟨sampleOptions.initial, false⟩
      withdrawnRun := by
  intro h
  have hend : (exec (Requests.step sampleOptions) ⟨sampleOptions.initial, false⟩
      withdrawnRun).manager.changeQueue.length = 0 ∧
      (exec (Requests.step sampleOptions) ⟨sampleOptions.initial, false⟩
        withdrawnRun).manager.isProcessingQueue = false ∧
      (exec (Requests.step sampleOptions) ⟨sampleOptions.initial, false⟩
        withdrawnRun).manager.isSuspendable ≠
          (exec (Requests.step sampleOptions) ⟨sampleOptions.initial, false⟩
            withdrawnRun).requested := by decide +kernel
  exact hend.2.2 (h.last (List.length_eq_zero_iff.mp hend.1) hend.2.1).1

end Runner
