import Trigger.Worker.Generations

/-!
# 一つの id の job

一つの id の job に注目したときの worker の動き。その id についての取り出し（`dequeuedJobs`）と、他の id への操作
（`About` でない一歩）がその id の値を変えないこと。
-/

namespace Worker

open Infra

variable {P : Type} {env : Env P} {w : State P} {id : String}

/-! ## 取り出された job -/

/-- 取り出された item のうち、`id` の job。 -/
def dequeuedJobs (env : Env P) (id : String) (now : ℚ) (count : Int) (w : State P) : List (QueueItem P) :=
  ((delivered env.cjson now count w.store).filterMap (toQueueItem env)).filter (·.id = id)

/-- 取り出された job は、保存された値の key と、schema を通った payload を持つ。 -/
theorem mem_dequeuedJobs {now : ℚ} {count : Int} {q : QueueItem P}
    (hq : q ∈ dequeuedJobs env id now count w) : q.id = id ∧
      (∃ d ∈ delivered env.cjson now count w.store, d.id = id) ∧
      ∃ item, w.store.items.get id = some item ∧ q.deduplicationKey = item.deduplicationKey ∧
        env.schema item.job item.item = some q.item := by
  obtain ⟨hmem, hid⟩ := List.mem_filter.mp hq
  obtain ⟨d, hd, hparsed⟩ := List.mem_filterMap.mp hmem
  obtain ⟨data, hdata, rfl⟩ := Option.map_eq_some_iff.mp hparsed
  have hjob : d.id = id := of_decide_eq_true hid
  obtain ⟨-, hget, -⟩ := mem_delivered hd
  refine ⟨hjob, ⟨d, hd, hjob⟩, d.serializedItem, ?_, rfl, hdata⟩
  rw [← hjob]
  exact hget

/-- 一度の取り出しで、`id` の job は高々一つである。 -/
theorem length_dequeuedJobs (env : Env P) (id : String) (now : ℚ) (count : Int) (w : State P) :
    (dequeuedJobs env id now count w).length ≤ 1 := by
  have hsub : List.Sublist ((dequeuedJobs env id now count w).map (·.id))
      ((delivered env.cjson now count w.store).map (·.id)) := by
    refine (List.filter_sublist.map _).trans ?_
    generalize delivered env.cjson now count w.store = ds
    induction ds with
    | nil => exact List.Sublist.refl _
    | cons d ds ih =>
      rcases hparsed : toQueueItem env d with _ | q
      · rw [List.filterMap_cons_none hparsed]
        exact ih.cons d.id
      · obtain ⟨data, -, hq⟩ := Option.map_eq_some_iff.mp hparsed
        rw [List.filterMap_cons_some hparsed, List.map_cons, List.map_cons, ← hq]
        exact ih.cons_cons d.id
  have hnodup := nodup_delivered.sublist hsub
  have hall : ∀ n ∈ (dequeuedJobs env id now count w).map (·.id), n = id := by
    intro n hn
    obtain ⟨q, hq, rfl⟩ := List.mem_map.mp hn
    exact of_decide_eq_true (List.mem_filter.mp hq).2
  rw [List.eq_replicate_of_mem hall, List.length_map] at hnodup
  exact List.nodup_replicate.mp hnodup

/-! ## 他の job への操作 -/

/-- worker の操作が、全体または `id` の job についてのものか。 -/
def About (id : String) : Label P → Bool
  | .enqueue id' .. | .enqueueOnce id' .. => id' = id
  | .succeed q | .fail q .. => q.id = id
  | .dequeue .. => true
  | .cancel _ => false

variable [DecidableEq P]

/-- 他の job への操作は、この job の値を変えない。 -/
theorem items_other {l : Label P} (hl : About id l = false) :
    (w.step env l).store.items.get id = w.store.items.get id := by
  cases l with
  | enqueue id' job item availableAt v key =>
    have hne : id ≠ id' := Ne.symm (of_decide_eq_false hl)
    cases key with
    | none => exact (enqueueItem_frame hne).1
    | some key =>
      change (enqueueItemWithCancellationKey key id' availableAt _ w.store).items.get id = _
      unfold enqueueItemWithCancellationKey
      split
      · rfl
      · exact (enqueueItem_frame hne).1
  | enqueueOnce id' job item availableAt v =>
    have hne : id ≠ id' := Ne.symm (of_decide_eq_false hl)
    change (enqueueItemOnce id' availableAt _ w.store).2.items.get id = _
    unfold enqueueItemOnce
    split
    · change (w.store.items.set id' _).get id = _
      rw [JsMap.get_set, if_neg hne]
    · rfl
  | cancel key => rfl
  | dequeue now count => cases hl
  | succeed q =>
    have hne : id ≠ q.id := Ne.symm (of_decide_eq_false hl)
    change (if q ∈ w.processing then _ else _ : State P).store.items.get id = _
    split
    · exact (ackItem_frame hne).1
    · rfl
  | fail q now random message =>
    have hne : id ≠ q.id := Ne.symm (of_decide_eq_false hl)
    change (if q ∈ w.processing then _ else _ : State P).store.items.get id = _
    split
    · unfold fail
      split
      · exact (moveToDeadLetterQueue_frame hne).1
      · exact (enqueueItem_frame hne).1
    · rfl

theorem nanoids_le_step (l : Label P) : w.nanoids ≤ (w.step env l).nanoids := by
  cases l with
  | enqueue id' job item availableAt v key => exact Nat.le_succ _
  | enqueueOnce id' job item availableAt v => exact Nat.le_succ _
  | cancel key => exact le_refl _
  | dequeue now count => exact le_refl _
  | succeed q =>
    change _ ≤ (if q ∈ w.processing then _ else _ : State P).nanoids
    split <;> exact le_refl _
  | fail q now random message =>
    change _ ≤ (if q ∈ w.processing then _ else _ : State P).nanoids
    split
    · unfold fail
      split
      · exact le_refl _
      · exact Nat.le_succ _
    · exact le_refl _

theorem consistent_worker_step (hw : Consistent w.store) (l : Label P) :
    Consistent (w.step env l).store := by
  cases l with
  | enqueue id' job item availableAt v key =>
    cases key with
    | none => exact consistent_enqueueItem hw
    | some key => exact consistent_exec env.cjson hw (.enqueueItemWithCancellationKey key ..)
  | enqueueOnce id' job item availableAt v =>
    exact consistent_exec env.cjson hw (.enqueueItemOnce ..)
  | cancel key => exact ⟨hw.live, hw.dead⟩
  | dequeue now count => exact consistent_exec env.cjson hw (.dequeueItems ..)
  | succeed q =>
    change Consistent (if q ∈ w.processing then _ else _ : State P).store
    split
    · exact consistent_exec env.cjson hw (.ackItem ..)
    · exact hw
  | fail q now random message =>
    change Consistent (if q ∈ w.processing then _ else _ : State P).store
    split
    · unfold fail
      split
      · exact consistent_exec env.cjson hw (.moveToDeadLetterQueue ..)
      · exact consistent_enqueueItem hw
    · exact hw

end Worker
