import Trigger.Flush.Moves

/-!
# shutdown

shutdown の loop は、今の limiter で実行中の task と `batchQueue` だけを見る。渡したばかりの batch、待っている task、
取り替えられた limiter の task は見落とす。見落としの起きない一歩の条件を示す（`drained_iff_watchful`）。
-/

namespace Flush

open Infra.Machine

variable {T : Type} {cfg : Settings T} {s t : State T}

/-- 決着した shutdown より前の項目は残っていない。 -/
def Drained (s : State T) : Prop := ∀ mark ∈ s.resolved, ∀ e ∈ s.pending, mark ≤ e.2

/-- shutdown の loop が見落とす task。今の limiter で待つか、取り替えられた limiter にあって終わっていない。 -/
def Overlooked (s : State T) (t : Task T) : Prop :=
  t.waitingIn s.limiter = true ∨ t.limiter ≠ s.limiter ∧ t.unfinished = true

/--
見落としの起きない一歩。最初の shutdown は、今の limiter に実行中の task があるか、溜まった項目も見落とす task も無いときに、
次の shutdown は task がすべて終わってから呼ばれる。決着する巡回のとき、見落とす task に shutdown より前の項目は無い。
-/
def Watchful (s : State T) : Event T → Prop
  | .shutdown =>
    if s.isShuttingDown = true then ∀ t ∈ s.tasks, t.unfinished = false
    else s.activeCount s.limiter = 0 → s.currentBatch = [] ∧ ∀ t ∈ s.tasks, ¬Overlooked s t
  | .poll => ∀ mark, s.polling = some mark → s.activeCount s.limiter = 0 →
      ∀ t ∈ s.tasks, Overlooked s t → ∀ e ∈ t.batch, mark ≤ e.2
  | _ => True

/-! ## 残っている項目 -/

/-- 実行中の task が無ければ、終わっていない task はすべて見落とされる。 -/
theorem overlooked_iff (h : s.activeCount s.limiter = 0) {t : Task T} (ht : t ∈ s.tasks) :
    Overlooked s t ↔ t.unfinished = true := by
  have hactive : Task.activeIn s.limiter t ≠ true := List.countP_eq_zero.mp h t ht
  unfold Overlooked
  by_cases hl : t.limiter = s.limiter
  · simp only [hl, ne_eq, not_true_eq_false, false_and, or_false]
    cases hs : t.status <;> simp_all [Task.activeIn, Task.waitingIn, Task.unfinished]
  · simp [Task.waitingIn, hl]

/-- 待つ項目が無ければ、残っている項目は終わっていない task にある。 -/
theorem mem_pending (hq : s.batchQueue = []) (hc : s.currentBatch = []) (e : T × Nat) :
    e ∈ s.pending ↔ ∃ t ∈ s.tasks, t.unfinished = true ∧ e ∈ t.batch := by
  unfold State.pending State.held
  rw [hq, hc, List.flatten_nil, List.append_nil, List.append_nil, List.mem_flatMap]
  simp only [List.mem_filter, and_assoc]

theorem mem_entries_of_mem_pending {e : T × Nat} (h : e ∈ s.pending) : e ∈ s.entries := by
  have hsub : ∀ e ∈ (s.tasks.filter Task.unfinished).flatMap Task.batch,
      e ∈ (s.tasks.filter fun _ => true).flatMap Task.batch := by
    intro e he
    obtain ⟨t, ht, he⟩ := List.mem_flatMap.mp he
    exact List.mem_flatMap.mpr ⟨t, List.mem_filter.mpr ⟨List.mem_of_mem_filter ht, rfl⟩, he⟩
  unfold State.pending State.held at h
  unfold State.entries State.held
  simp only [List.mem_append] at h ⊢
  rcases h with (h | h) | h
  · exact .inl (.inl (hsub e h))
  · exact .inl (.inr h)
  · exact .inr h

/-- 残っている項目の番号は、受け取った数より小さい。 -/
theorem Orderly.lt_kept (h : Orderly s) {e : T × Nat} (he : e ∈ s.pending) :
    e.2 < s.kept.length := by
  have hmem := mem_entries_of_mem_pending he
  rw [h.numbered] at hmem
  have := (List.mem_zipIdx (x := e.1) (i := e.2) hmem).2.1
  omega

/-- `currentBatch` に項目が無く、task がすべて終わっていれば、残っている項目は無い。 -/
theorem Orderly.pending_eq_nil (h : Orderly s) :
    s.pending = [] ↔ s.currentBatch = [] ∧ ∀ t ∈ s.tasks, t.unfinished = false := by
  constructor
  · intro hnil
    have hnil' : (s.tasks.filter Task.unfinished).flatMap Task.batch ++ s.batchQueue.flatten ++
        s.currentBatch = [] := hnil
    rw [List.append_eq_nil_iff, List.append_eq_nil_iff] at hnil'
    refine ⟨hnil'.2, fun t ht => Bool.eq_false_iff.mpr fun hu => ?_⟩
    refine h.batches t ht (List.flatMap_eq_nil_iff.mp hnil'.1.1 t ?_)
    exact List.mem_filter.mpr ⟨ht, hu⟩
  · rintro ⟨hc, hall⟩
    refine List.eq_nil_iff_forall_not_mem.mpr fun e he => ?_
    obtain ⟨t, ht, hu, -⟩ := (mem_pending h.queue hc e).mp he
    rw [hall t ht] at hu
    cases hu

/-- 呼び出した時点の数を超える番号の項目が無いのは、残っている項目が無いときである。 -/
theorem Orderly.all_before (h : Orderly s) :
    (∀ e ∈ s.pending, s.kept.length ≤ e.2) ↔ s.pending = [] := by
  constructor
  · intro hall
    refine List.eq_nil_iff_forall_not_mem.mpr fun e he => ?_
    have hle := hall e he
    have hlt := h.lt_kept he
    omega
  · intro hnil e he
    rw [hnil] at he
    cases he

/-! ## 一歩 -/

/-- 残る項目が増えない一歩。 -/
theorem Drained.less (h : Drained s) (hpending : ∀ e ∈ t.pending, e ∈ s.pending)
    (hresolved : t.resolved = s.resolved) : Drained t := by
  intro mark hmark e he
  rw [hresolved] at hmark
  exact h mark hmark e (hpending e he)

theorem Drained.moved (h : Drained s) (hm : Moved s t) : Drained t :=
  h.less (fun _ he => hm.pending ▸ he) hm.resolved

/-- 新しい項目の番号は、どの決着よりも後である。 -/
theorem Drained.acceptItems (h : Drained s) (hl : Orderly s) (items : List T) :
    Drained (acceptItems cfg items s) := by
  obtain ⟨keep, drop, flag, heq, -⟩ := acceptItems_spec cfg items s
  rw [heq]
  intro mark hmark e he
  have he' : e ∈ s.pending ++ keep.zipIdx s.kept.length := held_accept _ _ ▸ he
  rcases List.mem_append.mp he' with he' | he'
  · exact h mark hmark e he'
  · have hle := (List.mem_zipIdx (x := e.1) (i := e.2) he').1
    have hmark' := hl.marks mark hmark
    omega

theorem Drained.addToBatch (h : Drained s) (hl : Lawful s) (items : List T) (now : Int) :
    Drained (addToBatch cfg items now s) := by
  rw [addToBatch_eq]
  exact (h.acceptItems hl.toOrderly items).moved
    ((fillBatch_moved hl.toOrderly items).trans (adjustConcurrency_moved _ _))

/-- 終わったかどうかを変えない書き換え。 -/
theorem Drained.setTask {i : Nat} {t t' : Task T} (h : Drained s) (hi : s.tasks[i]? = some t)
    (hb : t'.batch = t.batch) (hu : t'.unfinished = t.unfinished) : Drained (setTask i t' s) := by
  have hpending : (Flush.setTask i t' s).pending = s.pending := held_setTask hi hb hu
  exact h.less (fun e he => hpending ▸ he) rfl

theorem Drained.start (h : Drained s) (l : Nat) : Drained (start l s) := by
  rcases start_cases l s with ⟨-, heq⟩ | ⟨i, t, -, hi, hw, heq⟩
  · rw [heq]
    exact h
  · rw [heq]
    exact h.setTask hi rfl (by simp [Task.unfinished, hw])

theorem Drained.retry (h : Drained s) (i : Nat) : Drained (retry i s) := by
  rcases withTask_cases i .sleeping _ s with heq | ⟨t, hi, hr, heq⟩
  · rw [Flush.retry, heq]
    exact h
  · rw [Flush.retry, heq]
    exact h.setTask hi rfl (by simp [Task.unfinished, hr])

/-- callback が終わる書き換え。 -/
theorem Drained.finish {i : Nat} {t t' : Task T} (h : Drained s) (hi : s.tasks[i]? = some t)
    (hb : t'.batch = t.batch) (hr : t.status = .running) : Drained (Flush.setTask i t' s) := by
  cases hu : t'.unfinished with
  | true => exact h.setTask hi hb (hu.trans (unfinished_of_running hr).symm)
  | false => exact h.less (pending_finish hi (unfinished_of_running hr) hu).2 rfl

theorem Drained.succeeded (h : Drained s) (i : Nat) (now : Int) :
    Drained (succeeded i now s) := by
  rcases withTask_cases i .running _ s with heq | ⟨t, hi, hr, heq⟩
  · rw [Flush.succeeded, heq]
    exact h
  · rw [Flush.succeeded, heq]
    have hfinish : Drained (Flush.setTask i { t with status := .flushed } s) :=
      h.finish hi rfl hr
    exact hfinish

theorem Drained.failed (h : Drained s) (i : Nat) (now : Int) :
    Drained (failed cfg i now s) := by
  rcases failed_cases cfg i now s with heq | ⟨t, hi, hr, heq⟩
  · rw [heq]
    exact h
  · have hback : (backOff cfg now s).tasks[i]? = some t := by
      rw [backOff_tasks now]
      exact hi
    rw [heq]
    exact (h.moved (backOff_moved now)).finish hback rfl hr

/-! ## shutdown -/

/-- 巡回が決着するのは、今の limiter に実行中の task が無いときである。 -/
theorem drained_iff (h : Orderly s) : drained s = true ↔ s.activeCount s.limiter = 0 := by
  unfold drained
  rw [h.queue]
  simp

theorem Drained.poll (h : Drained s) (hl : Lawful s) :
    Drained (poll s) ↔ ∀ mark, s.polling = some mark → s.activeCount s.limiter = 0 →
      ∀ e ∈ s.pending, mark ≤ e.2 := by
  cases hpolling : s.polling with
  | none =>
    have heq : Flush.poll s = s := by
      unfold Flush.poll
      rw [hpolling]
    rw [heq]
    exact ⟨fun _ _ h' => (by cases h'), fun _ => h⟩
  | some mark =>
    by_cases hd : s.activeCount s.limiter = 0
    · have heq : Flush.poll s = { s with polling := none, resolved := mark :: s.resolved } := by
        unfold Flush.poll
        rw [hpolling]
        exact if_pos ((drained_iff hl.toOrderly).mpr hd)
      rw [heq]
      constructor
      · intro h' m hm _
        rw [← Option.some.inj hm]
        exact h' mark List.mem_cons_self
      · intro h' m hm
        rcases List.mem_cons.mp hm with rfl | hm
        · exact h' m rfl hd
        · exact h m hm
    · have heq : Flush.poll s = s := by
        unfold Flush.poll
        rw [hpolling]
        exact if_neg fun h' => hd ((drained_iff hl.toOrderly).mp h')
      rw [heq]
      exact ⟨fun _ _ _ h' => absurd h' hd, fun _ => h⟩

/-- 決着する巡回のとき、残っている項目は見落とす task の項目である。 -/
theorem Drained.poll_overlooked (h : Drained s) (hl : Lawful s) :
    Drained (Flush.poll s) ↔ ∀ mark, s.polling = some mark → s.activeCount s.limiter = 0 →
      ∀ t ∈ s.tasks, Overlooked s t → ∀ e ∈ t.batch, mark ≤ e.2 := by
  rw [h.poll hl]
  refine forall_congr' fun mark => forall_congr' fun hmark => forall_congr' fun hd => ?_
  have hc : s.currentBatch = [] := hl.quiet (hl.waiting mark hmark).2
  constructor
  · exact fun h' t ht ho e he =>
      h' e ((mem_pending hl.queue hc e).mpr ⟨t, ht, (overlooked_iff hd ht).mp ho, he⟩)
  · intro h' e he
    obtain ⟨t, ht, hu, he⟩ := (mem_pending hl.queue hc e).mp he
    exact h' t ht ((overlooked_iff hd ht).mpr hu) e he

/-- 最初の shutdown は、実行中の task が無ければその場で決着する。 -/
theorem Drained.firstShutdown (h : Drained s) (hl : Lawful s) (hs : s.isShuttingDown = false) :
    Drained (shutdown s) ↔ (s.activeCount s.limiter = 0 →
      s.currentBatch = [] ∧ ∀ t ∈ s.tasks, ¬Overlooked s t) := by
  have hclose : Lawful (closeBatch s) := hl.toOrderly.closeBatch
  have hmoved : Moved (stopTimer s) (closeBatch s) := closeBatch_moved hl.toOrderly
  have hdrained : Drained (closeBatch s) := (show Drained (stopTimer s) from h).moved hmoved
  have hlimiter : (closeBatch s).limiter = s.limiter := by
    rw [closeBatch_eq]
    by_cases hc : (stopTimer s).currentBatch = []
    · rw [createBatch_of_nil hc]
      rfl
    · rw [createBatch_of_ne hl.stopTimer.concurrency hl.stopTimer.queue hc]
      rfl
  have hactive : (closeBatch s).activeCount (closeBatch s).limiter = s.activeCount s.limiter := by
    rw [hlimiter]
    exact hmoved.active s.limiter
  have hpending : (closeBatch s).pending = s.pending := hmoved.pending
  have hpoll : Lawful { closeBatch s with polling := some (closeBatch s).kept.length } := by
    refine ⟨⟨hclose.concurrency, hclose.queue, hclose.batches, hclose.timer, hclose.numbered,
      hclose.marks, fun m hm => ?_⟩, hclose.quiet⟩
    exact ⟨Nat.le_of_eq (Option.some.inj hm).symm, hmoved.shutting⟩
  have hbefore : Drained { closeBatch s with polling := some (closeBatch s).kept.length } :=
    hdrained
  rw [shutdown_of_first hs, hbefore.poll hpoll]
  have hall := hclose.toOrderly.all_before
  rw [hpending, hl.toOrderly.pending_eq_nil] at hall
  constructor
  · intro h' hd
    obtain ⟨hc, hfinished⟩ := hall.mp fun e he =>
      h' _ rfl (hactive.trans hd) e (hpending.symm ▸ he)
    refine ⟨hc, fun t ht ho => ?_⟩
    have hu := (overlooked_iff hd ht).mp ho
    rw [hfinished t ht] at hu
    cases hu
  · intro h' m hm hd e he
    have hd' : s.activeCount s.limiter = 0 := hactive.symm.trans hd
    obtain ⟨hc, hover⟩ := h' hd'
    rw [← Option.some.inj hm]
    refine hall.mpr ⟨hc, fun t ht => Bool.eq_false_iff.mpr fun hu => ?_⟩ e (hpending ▸ he)
    exact hover t ht ((overlooked_iff hd' ht).mpr hu)

/-- 二度目からの shutdown は、すぐに決着する。 -/
theorem Drained.repeatedShutdown (h : Drained s) (hl : Lawful s)
    (hs : s.isShuttingDown = true) :
    Drained (shutdown s) ↔ ∀ t ∈ s.tasks, t.unfinished = false := by
  have hall := hl.toOrderly.all_before
  rw [hl.toOrderly.pending_eq_nil] at hall
  rw [shutdown_of_repeated hs]
  constructor
  · intro h'
    exact (hall.mp (h' s.kept.length List.mem_cons_self)).2
  · intro hfinished mark hmark
    rcases List.mem_cons.mp hmark with rfl | hmark
    · exact hall.mpr ⟨hl.quiet hs, hfinished⟩
    · exact h mark hmark

theorem Drained.step (h : Drained s) (hl : Lawful s) (e : Event T) :
    Drained (step cfg s e) ↔ Watchful s e := by
  cases e with
  | addToBatch items now => exact ⟨fun _ => trivial, fun _ => h.addToBatch hl items now⟩
  | tick =>
    refine ⟨fun _ => trivial, fun _ => ?_⟩
    unfold Flush.step
    dsimp only
    split
    · rw [checkAndFlush_eq hl.toOrderly]
      exact h.moved hl.createBatch_moved
    · exact h
  | start l => exact ⟨fun _ => trivial, fun _ => h.start l⟩
  | succeeded i now => exact ⟨fun _ => trivial, fun _ => h.succeeded i now⟩
  | failed i now => exact ⟨fun _ => trivial, fun _ => h.failed i now⟩
  | retry i => exact ⟨fun _ => trivial, fun _ => h.retry i⟩
  | settled k =>
    refine ⟨fun _ => trivial, fun _ => ?_⟩
    obtain ⟨groups, heq⟩ := settled_cases hl.toOrderly k
    show Drained (settled k s)
    rw [heq]
    exact h
  | shutdown =>
    unfold Watchful
    dsimp only
    split
    · next hs => exact h.repeatedShutdown hl hs
    · next hs => exact h.firstShutdown hl (Bool.eq_false_iff.mpr hs)
  | poll => exact h.poll_overlooked hl

/-! ## 実行の全体 -/

/-- どの event の列でも、決着した shutdown より前の項目が残らないことと、どの一歩にも見落としが無いことは同値である。 -/
theorem drained_iff_watchful (cfg : Settings T) (now : Int) (events : List (Event T)) :
    Throughout (step cfg) Drained (State.init cfg now) events ↔
      Along (step cfg) Watchful (State.init cfg now) events :=
  throughout_iff_along (I := Lawful) (fun _ e hs => hs.step e) (fun _ e hs hk => hk.step hs e)
    (Lawful.init cfg now) fun _ h => by cases h

instance : DecidablePred (Drained (T := T)) := fun s =>
  inferInstanceAs (Decidable (∀ mark ∈ s.resolved, ∀ e ∈ s.pending, mark ≤ e.2))

end Flush
