import Trigger.Schedule.Engine

/-!
# 一度ずつ、止まらずに trigger される

* `registered_step` — 次の job は、`ack` の `deduplicationKey` の比較に守られ、条件なしに queue に残る
* `ordered_step` — 時刻が増え続けることは、`Fresh` な一段で保たれる
* `fires_once` — 二つを合わせた主定理
-/

namespace Schedule

open Infra Infra.Machine Worker

variable {C : Type} {e : Engine C} {occurs : C → ℕ → Prop} {s : State C}

/-! ## job が残ること -/

/-- まだ一度も job が入っていない。 -/
structure Pending (e : Engine C) (s : State C) : Prop where
  empty : s.worker.store.items.get e.jobId = none
  handlers : s.handlers = []
  registration : ∃ r ∈ s.registrations, r ≠ .finished

/-- handler の job は `m` 番目の key の job か、それより古い。次の job を入れた handler の job は、必ず古い。 -/
def Superseded (e : Engine C) (m : ℕ) (h : Handler C) : Prop :=
  h.job.id = e.jobId ∧ ∃ k ≤ m, h.job.deduplicationKey = some (e.worker.nanoid k) ∧
    (h.phase = .registering .finished → k < m)

/-- queue にある job は `m` 番目の key を持つ。 -/
structure Current (e : Engine C) (s : State C) (item : Item Payload) (m : ℕ) : Prop where
  stored : s.worker.store.items.get e.jobId = some item
  key : item.deduplicationKey = some (e.worker.nanoid m)
  issued : m < s.worker.nanoids
  handlers : ∀ h ∈ s.handlers, Superseded e m h

structure Registered (e : Engine C) (s : State C) : Prop where
  consistent : Consistent s.worker.store
  live : s.row.Live
  found : ∀ h ∈ s.handlers, ∀ row, h.phase = .found row → row.Live
  job : Pending e s ∨ ∃ item m, Current e s item m

theorem Registered.queued (hs : Registered e s) (hquiet : Quiet s) : Queued e s := by
  rcases hs.job with hpending | ⟨item, m, hcurrent⟩
  · obtain ⟨r, hr, hne⟩ := hpending.registration
    exact absurd (hquiet.1 r hr) hne
  · have hget : (s.worker.store.items.get e.jobId).isSome := by rw [hcurrent.stored]; rfl
    exact ⟨hget, (hs.consistent.live e.jobId).mpr hget⟩

theorem registered_initial {row : TaskScheduleInstance C} (hrow : row.Live) :
    Registered e (initial row) where
  consistent := consistent_empty
  live := hrow
  found := fun h hh => absurd hh List.not_mem_nil
  job := .inl ⟨rfl, rfl, .called, List.mem_singleton_self _, by simp⟩

/-- 時刻 `t` の job として保存される値。 -/
def scheduledItem (e : Engine C) (t n : ℕ) : Item Payload :=
  ⟨"schedule.triggerScheduledTask", ⟨e.instanceId, t⟩, 60000, none, some (e.worker.nanoid n), none⟩

theorem items_enqueueScheduledTask (e : Engine C) (t : ℕ) (s : State C) :
    (enqueueScheduledTask e t s).worker.store.items.get e.jobId =
      some (scheduledItem e t s.worker.nanoids) := JsMap.get_set_self ..

/-- 次の job を入れる。 -/
theorem Registered.enqueue (hs : Registered e s) {t : ℕ} {s' : State C} {handlers : List (Handler C)}
    (hworker : s'.worker = (enqueueScheduledTask e t s).worker) (hrow : s'.row = s.row)
    (hhandlers : s'.handlers = handlers)
    (hsame : ∀ h ∈ handlers, ∃ h' ∈ s.handlers, h'.job = h.job)
    (hfound : ∀ h ∈ handlers, ∀ row, h.phase = .found row → row.Live) : Registered e s' where
  consistent := by
    rw [hworker]
    exact consistent_enqueueItem hs.consistent
  live := hrow ▸ hs.live
  found := hhandlers ▸ hfound
  job := by
    refine .inr ⟨scheduledItem e t s.worker.nanoids, s.worker.nanoids, ?_, rfl, ?_, ?_⟩
    · rw [hworker]
      exact items_enqueueScheduledTask e t s
    · rw [hworker]
      exact Nat.lt_succ_self _
    · rw [hhandlers]
      intro h hh
      obtain ⟨h', hh', hjob⟩ := hsame h hh
      rcases hs.job with hpending | ⟨item, m, hcurrent⟩
      · rw [hpending.handlers] at hh'
        exact absurd hh' List.not_mem_nil
      · obtain ⟨hid, k, hk, hkey, -⟩ := hcurrent.handlers h' hh'
        have hlt := hcurrent.issued
        rw [hjob] at hid hkey
        exact ⟨hid, k, by omega, hkey, fun _ => by omega⟩

/-- job の値を変えない一段。 -/
theorem Registered.frame (hs : Registered e s) {s' : State C} (hconsistent : Consistent s'.worker.store)
    (hlive : s'.row.Live) (hfound : ∀ h ∈ s'.handlers, ∀ row, h.phase = .found row → row.Live)
    (hitems : s'.worker.store.items.get e.jobId = s.worker.store.items.get e.jobId)
    (hnanoids : s.worker.nanoids ≤ s'.worker.nanoids)
    (hpending : Pending e s → s'.handlers = [] ∧ ∃ r ∈ s'.registrations, r ≠ .finished)
    (hhandlers : ∀ item m, Current e s item m → ∀ h ∈ s'.handlers, Superseded e m h) :
    Registered e s' where
  consistent := hconsistent
  live := hlive
  found := hfound
  job := by
    rcases hs.job with h | ⟨item, m, h⟩
    · exact .inl ⟨hitems.trans h.empty, (hpending h).1, (hpending h).2⟩
    · refine .inr ⟨item, m, hitems.trans h.stored, h.key, ?_, hhandlers item m h⟩
      exact h.issued.trans_le hnanoids

/-- 登録の一段。 -/
theorem registered_registration (hs : Registered e s) (i now : ℕ) :
    Registered e (advanceRegistration e i now s) := by
  rcases hi : s.registrations[i]? with _ | r
  · rw [advanceRegistration, hi]
    exact hs
  rw [advanceRegistration_of_some e hi]
  cases r with
  | called =>
    refine hs.frame hs.consistent hs.live hs.found rfl (le_refl _) (fun h => ⟨h.handlers, ?_⟩)
      fun _ _ h => h.handlers
    exact ⟨_, mem_set_of_getElem? hi, fun hr => Registration.noConfusion hr⟩
  | found last next =>
    refine hs.frame hs.consistent { hs.live with } hs.found rfl (le_refl _)
      (fun h => ⟨h.handlers, ?_⟩) fun _ _ h => h.handlers
    exact ⟨_, mem_set_of_getElem? hi, fun hr => Registration.noConfusion hr⟩
  | updated last next => exact hs.enqueue rfl rfl rfl (fun h hh => ⟨h, hh, rfl⟩) hs.found
  | finished =>
    refine hs.frame hs.consistent hs.live hs.found rfl (le_refl _) (fun h => ⟨h.handlers, ?_⟩)
      fun _ _ h => h.handlers
    change ∃ r ∈ s.registrations.set i .finished, r ≠ .finished
    rw [set_of_getElem? hi]
    exact h.registration

/-- 取り出しの一段。 -/
theorem registered_dequeue (hs : Registered e s) (now : ℚ) (count : Int) :
    Registered e (step e s (.dequeue now count)) := by
  have hitems : (step e s (.dequeue now count)).worker.store.items = s.worker.store.items :=
    items_dequeueLoop _
  refine hs.frame (consistent_exec e.worker.cjson hs.consistent (.dequeueItems now count)) hs.live ?_
    (by rw [hitems]) (le_refl _) ?_ ?_
  · intro h hh row hrow
    rcases List.mem_append.mp hh with hh | hh
    · exact hs.found h hh row hrow
    · obtain ⟨q, -, rfl⟩ := List.mem_map.mp hh
      cases hrow
  · intro hpending
    have hnone : dequeuedJobs e.worker e.jobId now count s.worker = [] := by
      refine List.eq_nil_iff_forall_not_mem.mpr fun q hq => ?_
      obtain ⟨-, -, item, hget, -⟩ := mem_dequeuedJobs hq
      rw [hpending.empty] at hget
      cases hget
    refine ⟨?_, hpending.registration⟩
    change s.handlers ++ (dequeuedJobs e.worker e.jobId now count s.worker).map _ = []
    rw [hnone, hpending.handlers]
    rfl
  · intro item m hcurrent h hh
    rcases List.mem_append.mp hh with hh | hh
    · exact hcurrent.handlers h hh
    · obtain ⟨q, hq, rfl⟩ := List.mem_map.mp hh
      obtain ⟨hid, -, item', hget, hkey, -⟩ := mem_dequeuedJobs hq
      obtain rfl : item' = item := Option.some.inj (hget.symm.trans hcurrent.stored)
      exact ⟨hid, m, le_refl m, hkey.trans hcurrent.key, nofun⟩

/-- 一つの handler が、次の job を入れずに進む。 -/
theorem Registered.advance (hs : Registered e s) {i : ℕ} {h : Handler C} (hi : s.handlers[i]? = some h)
    {s' : State C} {phase : Phase C} (hstore : s'.worker.store = s.worker.store)
    (hnanoids : s'.worker.nanoids = s.worker.nanoids) (hlive : s'.row.Live)
    (hhandlers : s'.handlers = s.handlers.set i ⟨h.job, phase⟩)
    (hfound : ∀ row, phase = .found row → row.Live) (hphase : phase ≠ .registering .finished) :
    Registered e s' := by
  have hmem : h ∈ s.handlers := List.mem_of_getElem? hi
  refine hs.frame (hstore ▸ hs.consistent) hlive ?_ (by rw [hstore]) hnanoids.ge ?_ ?_
  · intro h' hh' row hrow
    rw [hhandlers] at hh'
    rcases List.mem_or_eq_of_mem_set hh' with hh' | rfl
    · exact hs.found h' hh' row hrow
    · exact hfound row hrow
  · intro hpending
    rw [hpending.handlers] at hmem
    exact absurd hmem List.not_mem_nil
  · intro item m hcurrent h' hh'
    rw [hhandlers] at hh'
    rcases List.mem_or_eq_of_mem_set hh' with hh' | rfl
    · exact hcurrent.handlers h' hh'
    · obtain ⟨hid, k, hk, hkey, -⟩ := hcurrent.handlers h hmem
      exact ⟨hid, k, hk, hkey, fun h => absurd h hphase⟩

/-- 次の job を入れた handler の `ack` は、その job を消さない。 -/
theorem store_succeed (he : e.Lawful occurs) (hs : Registered e s) {h : Handler C}
    (hmem : h ∈ s.handlers) (hphase : h.phase = .registering .finished) :
    (Worker.succeed e.worker h.job s.worker).store = s.worker.store := by
  rcases hs.job with hpending | ⟨item, m, hcurrent⟩
  · rw [hpending.handlers] at hmem
    exact absurd hmem List.not_mem_nil
  · obtain ⟨hid, k, -, hkey, hlt⟩ := hcurrent.handlers h hmem
    have hne : m ≠ k := (hlt hphase).ne'
    change (ackItem e.worker.cjson h.job.id (h.job.deduplicationKey.getD "") s.worker.store).2 = _
    rw [hid, hkey]
    exact ackItem_of_ne he.worker hcurrent.stored (he.decodes item) hcurrent.key hne

/-- handler の一段。 -/
theorem registered_handler (he : e.Lawful occurs) (hs : Registered e s) (i now : ℕ) :
    Registered e (advanceHandler e i now s) := by
  rcases hi : s.handlers[i]? with _ | h
  · rw [advanceHandler, hi]
    exact hs
  have hmem : h ∈ s.handlers := List.mem_of_getElem? hi
  rw [advanceHandler_of_some e hi]
  rcases hphase : h.phase with _ | row | _ | registration | _
  · change Registered e { s with handlers := s.handlers.set i ⟨h.job, .found s.row⟩ }
    exact hs.advance hi rfl rfl hs.live rfl (fun row hrow => Phase.found.inj hrow ▸ hs.live) (by simp)
  · have hlive := hs.found h hmem row hphase
    have hskip : row.skipped = false := by
      simp [TaskScheduleInstance.skipped, hlive.organization, hlive.project, hlive.environment]
    by_cases htrigger : row.shouldTrigger
    · simp only [triggerScheduledTask, hskip, htrigger, Bool.false_eq_true, if_false, if_true]
      exact hs.advance hi rfl rfl hs.live rfl (by simp) (by simp)
    · simp only [triggerScheduledTask, hskip, htrigger, Bool.false_eq_true, if_false]
      exact hs.advance hi rfl rfl hs.live rfl (by simp) (by simp)
  · change Registered e
      { s with
        row := { s.row with lastScheduledTimestamp := some h.job.item.exactScheduleTime }
        handlers := s.handlers.set i ⟨h.job, .registering .called⟩ }
    exact hs.advance hi rfl rfl { hs.live with } rfl (by simp) (by simp)
  · cases registration with
    | called =>
      simp only [triggerScheduledTask, registerNextTaskScheduleInstance]
      exact hs.advance hi rfl rfl hs.live rfl (by simp) (by simp)
    | found last next =>
      change Registered e
        { s with
          row := { s.row with nextScheduledTimestamp := some next }
          handlers := s.handlers.set i ⟨h.job, .registering (.updated last next)⟩ }
      exact hs.advance hi rfl rfl { hs.live with } rfl (by simp) (by simp)
    | updated last next =>
      change Registered e
        { enqueueScheduledTask e next s with
          handlers := s.handlers.set i ⟨h.job, .registering .finished⟩ }
      refine hs.enqueue rfl rfl rfl ?_ ?_
      · intro h' hh'
        rcases List.mem_or_eq_of_mem_set hh' with hh' | rfl
        · exact ⟨h', hh', rfl⟩
        · exact ⟨h, hmem, rfl⟩
      · intro h' hh' row hrow
        rcases List.mem_or_eq_of_mem_set hh' with hh' | rfl
        · exact hs.found h' hh' row hrow
        · cases hrow
    | finished =>
      change Registered e
        { s with
          worker := Worker.succeed e.worker h.job s.worker
          handlers := s.handlers.set i ⟨h.job, .finished⟩ }
      exact hs.advance hi (store_succeed he hs hmem hphase) rfl hs.live rfl (by simp) (by simp)
  · change Registered e { s with handlers := s.handlers.set i ⟨h.job, .finished⟩ }
    exact hs.advance hi rfl rfl hs.live rfl (by simp) (by simp)

/-- **どの一段の後にも、次の job は queue にある。** -/
theorem registered_step (he : e.Lawful occurs) (s : State C) (l : Label C) (hs : Registered e s) :
    Registered e (step e s l) := by
  have hregister : Registered e { s with registrations := s.registrations ++ [.called] } := by
    refine hs.frame hs.consistent hs.live hs.found rfl (le_refl _) (fun h => ⟨h.handlers, ?_⟩)
      fun _ _ h => h.handlers
    exact ⟨.called, List.mem_append_right _ (List.mem_singleton_self _), fun h => Registration.noConfusion h⟩
  cases l with
  | edit generator =>
    exact hs.frame hs.consistent { hs.live with } hs.found rfl (le_refl _)
      (fun h => ⟨h.handlers, h.registration⟩) fun _ _ h => h.handlers
  | register => exact hregister
  | recover =>
    dsimp only [step]
    split
    · exact hs
    · exact hregister
  | registration i now => exact registered_registration hs i now
  | dequeue now count => exact registered_dequeue hs now count
  | handler i now => exact registered_handler he hs i now
  | other l =>
    change Registered e (if About e.jobId l then s else _)
    split
    · exact hs
    · next hl =>
      refine hs.frame (consistent_worker_step hs.consistent l) hs.live hs.found
        (items_other (Bool.not_eq_true _ ▸ hl)) (nanoids_le_step l)
        (fun h => ⟨h.handlers, h.registration⟩) fun _ _ h => h.handlers

/-! ## 時刻が増え続けること -/

/-- 登録の計算した時刻は、読んだ時刻より後である。 -/
def Registration.Later : Registration → Prop
  | .called | .finished => True
  | .found last next | .updated last next => After last next

/-- handler が trigger する時刻は、`last` より後である。登録が計算した時刻は、今の `last` から計算したものである。 -/
def Phase.Later (last : Option ℕ) (exactScheduleTime : ℕ) : Phase C → Prop
  | .dequeued | .found _ | .triggered => After last exactScheduleTime
  | .registering (.found last' next) | .registering (.updated last' next) =>
    last' = last ∧ After last next
  | .registering .called | .registering .finished | .finished => True

theorem Phase.Later.of_not_busy {phase : Phase C} (h : ¬ phase.Busy) {last : Option ℕ} {t : ℕ} :
    phase.Later last t := by
  cases phase with
  | dequeued => exact absurd trivial h
  | found row => exact absurd trivial h
  | triggered => exact absurd trivial h
  | registering registration =>
    rw [of_not_not h]
    trivial
  | finished => trivial

/-- 次の job をまだ入れていない handler は高々一つである。 -/
def OneBusy (handlers : List (Handler C)) : Prop :=
  ∀ (i j : ℕ) (a b : Handler C), handlers[i]? = some a → handlers[j]? = some b →
    a.phase.Busy → b.phase.Busy → i = j

theorem OneBusy.set {handlers : List (Handler C)} (hone : OneBusy handlers) {i : ℕ} {h h' : Handler C}
    (hi : handlers[i]? = some h) (hbusy : h'.phase.Busy → h.phase.Busy) :
    OneBusy (handlers.set i h') := by
  have hold : ∀ (j : ℕ) (a : Handler C), (handlers.set i h')[j]? = some a → a.phase.Busy →
      ∃ b, handlers[j]? = some b ∧ b.phase.Busy := by
    intro j a ha hbusya
    by_cases hj : i = j
    · subst hj
      obtain ⟨hlt, -⟩ := List.getElem?_eq_some_iff.mp hi
      rw [List.getElem?_set_self hlt] at ha
      cases ha
      exact ⟨h, hi, hbusy hbusya⟩
    · rw [List.getElem?_set_ne hj] at ha
      exact ⟨a, ha, hbusya⟩
  intro j k a b ha hb hbusya hbusyb
  obtain ⟨a', ha', hbusya'⟩ := hold j a ha hbusya
  obtain ⟨b', hb', hbusyb'⟩ := hold k b hb hbusyb
  exact hone j k a' b' ha' hb' hbusya' hbusyb'

/-- 次の job をまだ入れていない handler は、他に無い。 -/
theorem OneBusy.eq_of_mem {handlers : List (Handler C)} (hone : OneBusy handlers) {h h' : Handler C}
    (hh : h ∈ handlers) (hh' : h' ∈ handlers) (hbusy : h.phase.Busy) (hbusy' : h'.phase.Busy) :
    h = h' := by
  obtain ⟨i, hi⟩ := List.getElem?_of_mem hh
  obtain ⟨j, hj⟩ := List.getElem?_of_mem hh'
  obtain rfl := hone i j h h' hi hj hbusy hbusy'
  exact Option.some.inj (hi.symm.trans hj)

/-- 時刻が増え続けるための不変条件。 -/
structure Ordered (e : Engine C) (s : State C) : Prop where
  increasing : s.triggered.Pairwise (· < ·)
  bound : ∀ t ∈ s.triggered, (∃ l ∈ s.row.lastScheduledTimestamp, t ≤ l) ∨
    ∃ h ∈ s.handlers, h.phase = .triggered ∧ t ≤ h.job.item.exactScheduleTime
  unique : OneBusy s.handlers
  registrations : ∀ r ∈ s.registrations, r.Later
  handlers : ∀ h ∈ s.handlers,
    h.phase.Later s.row.lastScheduledTimestamp h.job.item.exactScheduleTime
  stored : (∀ h ∈ s.handlers, ¬ h.phase.Busy) → ∀ item,
    s.worker.store.items.get e.jobId = some item →
    After s.row.lastScheduledTimestamp item.item.exactScheduleTime

theorem ordered_initial (e : Engine C) (row : TaskScheduleInstance C) : Ordered e (initial row) where
  increasing := List.Pairwise.nil
  bound := fun t ht => absurd ht List.not_mem_nil
  unique := fun i j a b ha => by cases ha
  registrations := fun r hr => by
    rw [List.mem_singleton.mp hr]
    trivial
  handlers := fun h hh => absurd hh List.not_mem_nil
  stored := fun _ item hget => by cases hget

/-- handler に触れない一段。 -/
theorem Ordered.frame (hs : Ordered e s) {s' : State C} (htriggered : s'.triggered = s.triggered)
    (hlast : s'.row.lastScheduledTimestamp = s.row.lastScheduledTimestamp)
    (hhandlers : s'.handlers = s.handlers) (hregistrations : ∀ r ∈ s'.registrations, r.Later)
    (hstored : (∀ h ∈ s.handlers, ¬ h.phase.Busy) → ∀ item,
      s'.worker.store.items.get e.jobId = some item →
      After s.row.lastScheduledTimestamp item.item.exactScheduleTime) : Ordered e s' where
  increasing := htriggered ▸ hs.increasing
  bound := by
    rw [htriggered, hlast, hhandlers]
    exact hs.bound
  unique := by
    rw [hhandlers]
    exact hs.unique
  registrations := hregistrations
  handlers := by
    rw [hlast, hhandlers]
    exact hs.handlers
  stored := by
    rw [hlast, hhandlers]
    exact hstored

theorem later_set {l : List Registration} {i : ℕ} {r : Registration} (hl : ∀ r ∈ l, r.Later)
    (hr : r.Later) : ∀ r' ∈ l.set i r, r'.Later := by
  intro r' hr'
  rcases List.mem_or_eq_of_mem_set hr' with h | rfl
  · exact hl r' h
  · exact hr

/-- `Fresh` な登録の一段。 -/
theorem ordered_registration (he : e.Lawful occurs) (hs : Ordered e s) {i now : ℕ}
    (hfresh : Fresh e s (.registration i now)) : Ordered e (advanceRegistration e i now s) := by
  rcases hi : s.registrations[i]? with _ | r
  · rw [advanceRegistration, hi]
    exact hs
  have hlater : r.Later := hs.registrations r (List.mem_of_getElem? hi)
  rw [advanceRegistration_of_some e hi]
  cases r with
  | called =>
    refine hs.frame rfl rfl rfl (later_set hs.registrations ?_) hs.stored
    exact after_calculateNextScheduledTimestamp (he.next s.row.generator).lt_next _ now
  | found last next => exact hs.frame rfl rfl rfl (later_set hs.registrations hlater) hs.stored
  | updated last next =>
    refine hs.frame rfl rfl rfl (later_set hs.registrations trivial) fun hidle item hget => ?_
    obtain rfl := Option.some.inj ((items_enqueueScheduledTask e next s).symm.trans hget)
    have hcurrent : last = s.row.lastScheduledTimestamp := hfresh hidle _ hi
    rw [← hcurrent]
    exact hlater
  | finished => exact hs.frame rfl rfl rfl (later_set hs.registrations trivial) hs.stored

/-- `Fresh` な取り出しの一段。 -/
theorem ordered_dequeue (he : e.Lawful occurs) (hs : Ordered e s) {now : ℚ} {count : Int}
    (hfresh : Fresh e s (.dequeue now count)) : Ordered e (step e s (.dequeue now count)) := by
  have hitems : (step e s (.dequeue now count)).worker.store.items = s.worker.store.items :=
    items_dequeueLoop _
  have hhandlers : (step e s (.dequeue now count)).handlers =
      s.handlers ++ (dequeuedJobs e.worker e.jobId now count s.worker).map (⟨·, .dequeued⟩) := rfl
  rcases hjobs : dequeuedJobs e.worker e.jobId now count s.worker with _ | ⟨q, rest⟩
  · rw [hjobs, List.map_nil, List.append_nil] at hhandlers
    exact hs.frame rfl rfl hhandlers hs.registrations (by rw [hitems]; exact hs.stored)
  · have hlength := length_dequeuedJobs e.worker e.jobId now count s.worker
    rw [hjobs, List.length_cons] at hlength
    obtain rfl : rest = [] := List.eq_nil_of_length_eq_zero (by omega)
    have hq : q ∈ dequeuedJobs e.worker e.jobId now count s.worker := by
      rw [hjobs]
      exact List.mem_singleton_self q
    obtain ⟨-, hdelivered, item, hget, -, hparsed⟩ := mem_dequeuedJobs hq
    have hitem : q.item = item.item := he.parses _ _ _ hparsed
    have hidle := hfresh hdelivered
    rw [hjobs] at hhandlers
    refine ⟨hs.increasing, fun t ht => ?_, ?_, hs.registrations, ?_, ?_⟩
    · rcases hs.bound t ht with h | ⟨h, hh, hphase, -⟩
      · exact .inl h
      · refine absurd ?_ (hidle h hh)
        rw [hphase]
        trivial
    · -- 動いている handler は、いま加わったものだけである
      have hlast : ∀ i a, (s.handlers ++ [(⟨q, .dequeued⟩ : Handler C)])[i]? = some a →
          a.phase.Busy → i = s.handlers.length := by
        intro i a ha hbusy
        rcases lt_or_ge i s.handlers.length with hlt | hge
        · rw [List.getElem?_append_left hlt] at ha
          exact absurd hbusy (hidle a (List.mem_of_getElem? ha))
        · obtain ⟨hlt, -⟩ := List.getElem?_eq_some_iff.mp ha
          rw [List.length_append, List.length_singleton] at hlt
          omega
      intro i j a b ha hb hbusya hbusyb
      rw [hhandlers] at ha hb
      rw [hlast i a ha hbusya, hlast j b hb hbusyb]
    · intro h hh
      rw [hhandlers] at hh
      rcases List.mem_append.mp hh with hh | hh
      · exact hs.handlers h hh
      · rw [List.mem_singleton.mp hh]
        change After s.row.lastScheduledTimestamp q.item.exactScheduleTime
        rw [hitem]
        exact hs.stored hidle item hget
    · intro hbusy
      refine absurd ?_ (hbusy ⟨q, .dequeued⟩ ?_)
      · trivial
      · rw [hhandlers]
        exact List.mem_append_right _ (List.mem_singleton_self _)

/-- 一つの handler が、trigger も時刻の記録もせずに進む。 -/
theorem Ordered.advance (hs : Ordered e s) {i : ℕ} {h : Handler C} (hi : s.handlers[i]? = some h)
    {s' : State C} {phase : Phase C} (htriggered : s'.triggered = s.triggered)
    (hlast : s'.row.lastScheduledTimestamp = s.row.lastScheduledTimestamp)
    (hregistrations : s'.registrations = s.registrations)
    (hhandlers : s'.handlers = s.handlers.set i ⟨h.job, phase⟩)
    (hbusy : phase.Busy → h.phase.Busy) (hphase : h.phase ≠ .triggered)
    (hlater : phase.Later s.row.lastScheduledTimestamp h.job.item.exactScheduleTime)
    (hstored : (∀ h ∈ s'.handlers, ¬ h.phase.Busy) → ∀ item,
      s'.worker.store.items.get e.jobId = some item →
      After s.row.lastScheduledTimestamp item.item.exactScheduleTime) : Ordered e s' where
  increasing := htriggered ▸ hs.increasing
  bound := by
    rw [htriggered, hlast, hhandlers]
    intro t ht
    rcases hs.bound t ht with hl | ⟨h', hh', hphase', ht'⟩
    · exact .inl hl
    · refine .inr ⟨h', ?_, hphase', ht'⟩
      exact mem_set_of_ne hi hh' fun heq => hphase (heq ▸ hphase')
  unique := by
    rw [hhandlers]
    exact hs.unique.set hi hbusy
  registrations := hregistrations ▸ hs.registrations
  handlers := by
    rw [hlast, hhandlers]
    intro h' hh'
    rcases List.mem_or_eq_of_mem_set hh' with hh' | rfl
    · exact hs.handlers h' hh'
    · exact hlater
  stored := by
    rw [hlast]
    exact hstored

/-- 一つの handler が trigger する。 -/
theorem Ordered.fire (hs : Ordered e s) {i : ℕ} {h : Handler C} (hi : s.handlers[i]? = some h)
    {row : TaskScheduleInstance C} (hphase : h.phase = .found row) :
    Ordered e { s with
      triggered := s.triggered ++ [h.job.item.exactScheduleTime]
      handlers := s.handlers.set i ⟨h.job, .triggered⟩ } := by
  have hmem : h ∈ s.handlers := List.mem_of_getElem? hi
  have hbusy : h.phase.Busy := by rw [hphase]; trivial
  have hafter : After s.row.lastScheduledTimestamp h.job.item.exactScheduleTime := by
    have := hs.handlers h hmem
    rw [hphase] at this
    exact this
  -- trigger している handler は他に無いので、前の時刻は記録されている
  have hrecorded : ∀ t ∈ s.triggered, ∃ l ∈ s.row.lastScheduledTimestamp, t ≤ l := by
    intro t ht
    rcases hs.bound t ht with hl | ⟨h', hh', hphase', -⟩
    · exact hl
    · have hbusy' : h'.phase.Busy := by rw [hphase']; trivial
      rw [hs.unique.eq_of_mem hmem hh' hbusy hbusy', hphase'] at hphase
      cases hphase
  have hnew : (⟨h.job, .triggered⟩ : Handler C) ∈ s.handlers.set i ⟨h.job, .triggered⟩ :=
    mem_set_of_getElem? hi
  refine ⟨?_, ?_, hs.unique.set hi fun _ => hbusy, hs.registrations, ?_, ?_⟩
  · refine List.pairwise_append.mpr ⟨hs.increasing, List.pairwise_singleton _ _, ?_⟩
    intro t ht u hu
    rw [List.mem_singleton.mp hu]
    obtain ⟨l, hl, hle⟩ := hrecorded t ht
    exact hle.trans_lt (hafter l hl)
  · intro t ht
    rcases List.mem_append.mp ht with ht | ht
    · exact .inl (hrecorded t ht)
    · exact .inr ⟨_, hnew, rfl, (List.mem_singleton.mp ht).le⟩
  · intro h' hh'
    rcases List.mem_or_eq_of_mem_set hh' with hh' | rfl
    · exact hs.handlers h' hh'
    · exact hafter
  · exact fun hidle => absurd trivial (hidle _ hnew)

/-- 一つの handler が `lastScheduledTimestamp` を書く。 -/
theorem Ordered.record (hs : Ordered e s) {i : ℕ} {h : Handler C} (hi : s.handlers[i]? = some h)
    (hphase : h.phase = .triggered) :
    Ordered e { s with
      row := { s.row with lastScheduledTimestamp := some h.job.item.exactScheduleTime }
      handlers := s.handlers.set i ⟨h.job, .registering .called⟩ } := by
  have hmem : h ∈ s.handlers := List.mem_of_getElem? hi
  have hbusy : h.phase.Busy := by rw [hphase]; trivial
  have hafter : After s.row.lastScheduledTimestamp h.job.item.exactScheduleTime := by
    have := hs.handlers h hmem
    rw [hphase] at this
    exact this
  have hnew : (⟨h.job, .registering .called⟩ : Handler C) ∈
      s.handlers.set i ⟨h.job, .registering .called⟩ := mem_set_of_getElem? hi
  have hone : OneBusy (s.handlers.set i ⟨h.job, .registering .called⟩) :=
    hs.unique.set hi fun _ => hbusy
  refine ⟨hs.increasing, ?_, hone, hs.registrations, ?_, ?_⟩
  · intro t ht
    refine .inl ⟨h.job.item.exactScheduleTime, rfl, ?_⟩
    rcases hs.bound t ht with ⟨l, hl, hle⟩ | ⟨h', hh', hphase', hle⟩
    · exact hle.trans (hafter l hl).le
    · have hbusy' : h'.phase.Busy := by rw [hphase']; trivial
      rw [hs.unique.eq_of_mem hmem hh' hbusy hbusy']
      exact hle
  · intro h' hh'
    by_cases hbusy' : h'.phase.Busy
    · rw [← hone.eq_of_mem hnew hh' nofun hbusy']
      trivial
    · exact Phase.Later.of_not_busy hbusy'
  · exact fun hidle => absurd nofun (hidle _ hnew)

/-- handler の一段。 -/
theorem ordered_handler (he : e.Lawful occurs) (hr : Registered e s) (hs : Ordered e s) (i now : ℕ) :
    Ordered e (advanceHandler e i now s) := by
  rcases hi : s.handlers[i]? with _ | h
  · rw [advanceHandler, hi]
    exact hs
  have hmem : h ∈ s.handlers := List.mem_of_getElem? hi
  have hlater := hs.handlers h hmem
  rw [advanceHandler_of_some e hi]
  -- handler の段階ごとに、row と job のどちらを書くかが違う。
  rcases hphase : h.phase with _ | row | _ | registration | _
  · have hbusy : h.phase.Busy := by rw [hphase]; trivial
    rw [hphase] at hlater
    change Ordered e { s with handlers := s.handlers.set i ⟨h.job, .found s.row⟩ }
    exact hs.advance hi rfl rfl rfl rfl (fun _ => hbusy) (by simp [hphase]) hlater
      fun hidle => absurd trivial (hidle _ (mem_set_of_getElem? hi))
  · have hlive := hr.found h hmem row hphase
    have hskip : row.skipped = false := by
      simp [TaskScheduleInstance.skipped, hlive.organization, hlive.project, hlive.environment]
    have hbusy : h.phase.Busy := by rw [hphase]; trivial
    by_cases htrigger : row.shouldTrigger
    · simp only [triggerScheduledTask, hskip, htrigger, Bool.false_eq_true, if_false, if_true]
      exact hs.fire hi hphase
    · simp only [triggerScheduledTask, hskip, htrigger, Bool.false_eq_true, if_false]
      rw [hphase] at hlater
      exact hs.advance hi rfl rfl rfl rfl (fun _ => hbusy) (by simp [hphase]) hlater
        fun hidle => absurd trivial (hidle _ (mem_set_of_getElem? hi))
  · exact hs.record hi hphase
  · rw [hphase] at hlater
    cases registration with
    | called =>
      have hbusy : h.phase.Busy := by rw [hphase]; exact fun h => Registration.noConfusion h
      simp only [triggerScheduledTask, registerNextTaskScheduleInstance]
      refine hs.advance hi rfl rfl rfl rfl (fun _ => hbusy) (by simp [hphase]) ⟨rfl, ?_⟩
        fun hidle =>
          absurd (fun h => Registration.noConfusion h) (hidle _ (mem_set_of_getElem? hi))
      exact after_calculateNextScheduledTimestamp (he.next s.row.generator).lt_next _ now
    | found last next =>
      have hbusy : h.phase.Busy := by rw [hphase]; exact fun h => Registration.noConfusion h
      change Ordered e
        { s with
          row := { s.row with nextScheduledTimestamp := some next }
          handlers := s.handlers.set i ⟨h.job, .registering (.updated last next)⟩ }
      exact hs.advance hi rfl rfl rfl rfl (fun _ => hbusy) (by simp [hphase]) hlater
        fun hidle =>
          absurd (fun h => Registration.noConfusion h) (hidle _ (mem_set_of_getElem? hi))
    | updated last next =>
      have hbusy : h.phase.Busy := by rw [hphase]; exact fun h => Registration.noConfusion h
      change Ordered e
        { enqueueScheduledTask e next s with
          handlers := s.handlers.set i ⟨h.job, .registering .finished⟩ }
      refine hs.advance hi rfl rfl rfl rfl (fun _ => hbusy) (by simp [hphase]) trivial ?_
      intro _ item hget
      obtain rfl := Option.some.inj ((items_enqueueScheduledTask e next s).symm.trans hget)
      exact hlater.2
    | finished =>
      change Ordered e
        { s with
          worker := Worker.succeed e.worker h.job s.worker
          handlers := s.handlers.set i ⟨h.job, .finished⟩ }
      refine hs.advance hi rfl rfl rfl rfl False.elim (by simp [hphase]) trivial ?_
      intro hidle item hget
      have hstore := store_succeed he hr hmem hphase
      refine hs.stored (fun h' hh' hbusy' => ?_) item (by rw [← hstore]; exact hget)
      refine hidle h' (mem_set_of_ne hi hh' fun heq => ?_) hbusy'
      rw [heq, hphase] at hbusy'
      exact hbusy' rfl
  · have hset : s.handlers.set i ⟨h.job, .finished⟩ = s.handlers := by
      rw [← hphase]
      exact set_of_getElem? hi
    change Ordered e { s with handlers := s.handlers.set i ⟨h.job, .finished⟩ }
    rw [hset]
    exact hs

/-- **`Fresh` な一段の後も、時刻は増え続けている。** -/
theorem ordered_step (he : e.Lawful occurs) (s : State C) (l : Label C)
    (hs : Registered e s ∧ Ordered e s) (hfresh : Fresh e s l) :
    Registered e (step e s l) ∧ Ordered e (step e s l) := by
  obtain ⟨hr, hs⟩ := hs
  refine ⟨registered_step he s l hr, ?_⟩
  have hregister : Ordered e { s with registrations := s.registrations ++ [.called] } := by
    refine hs.frame rfl rfl rfl (fun r hr => ?_) hs.stored
    rcases List.mem_append.mp hr with hr | hr
    · exact hs.registrations r hr
    · rw [List.mem_singleton.mp hr]
      trivial
  cases l with
  | edit generator => exact hs.frame rfl rfl rfl hs.registrations hs.stored
  | register => exact hregister
  | recover =>
    dsimp only [step]
    split
    · exact hs
    · exact hregister
  | registration i now => exact ordered_registration he hs hfresh
  | dequeue now count => exact ordered_dequeue he hs hfresh
  | handler i now => exact ordered_handler he hr hs i now
  | other l =>
    change Ordered e (if About e.jobId l then s else _)
    split
    · exact hs
    · next hl =>
      refine hs.frame rfl rfl rfl hs.registrations fun hidle item hget => ?_
      rw [items_other (Bool.not_eq_true _ ▸ hl)] at hget
      exact hs.stored hidle item hget

/-! ## 主定理 -/

/-- **`Fresh` な実行では、trigger した時刻は増え続け、途中の処理が無ければ次の job が queue にある。** -/
theorem fires_once (he : e.Lawful occurs) {row : TaskScheduleInstance C} (hrow : row.Live)
    {ls : List (Label C)} (h : Along (step e) (Fresh e) (initial row) ls) :
    Throughout (step e) (Once e) (initial row) ls := by
  have hinv := throughout_of_along (ordered_step he)
    ⟨registered_initial hrow, ordered_initial e row⟩ h
  exact hinv.mono fun s hs => ⟨hs.2.increasing, hs.1.queued⟩

/-- 毎 ms 起きる schedule の engine。 -/
def everyMillisecond : Engine Unit where
  worker :=
    { nanoid := (sampleEnv 5).nanoid, cjson := some, schema := fun _ payload => some payload
      retry := (sampleEnv 5).retry }
  instanceId := "instance"
  next := fun _ t => t + 1
  calculateDistributedExecutionTime := fun t => t

theorem everyMillisecond_lawful : everyMillisecond.Lawful fun _ _ => True where
  worker :=
    { nanoid_injective := (sampleEnv_lawful 5).nanoid_injective
      nanoid_ne_empty := (sampleEnv_lawful 5).nanoid_ne_empty
      cjson_key := fun _ _ h => by cases h; rfl }
  decodes := fun _ h => by cases h
  parses := fun _ _ _ h => by cases h; rfl
  next := fun _ => ⟨fun t => Nat.lt_succ_self t, fun _ => trivial, fun _ _ h _ => h⟩

/-- 作られたばかりの行。 -/
def createdRow : TaskScheduleInstance Unit :=
  ⟨true, true, (), none, none, ⟨false, false, false, false, false⟩⟩

theorem createdRow_live : createdRow.Live := ⟨rfl, rfl, nofun, nofun, nofun, nofun⟩

/-- 最初の登録が終わり、job が取り出されて時刻 1 が trigger され、次の job が入るまで。 -/
def firstOccurrence : List (Label Unit) :=
  List.replicate 3 (Label.registration 0 0) ++ [Label.dequeue 1 1] ++
    List.replicate 7 (Label.handler 0 1)

/-- handler の後に更新があっても、次に trigger されるのは時刻 2 である。 -/
theorem edited_fires_once :
    Throughout (step everyMillisecond) (Once everyMillisecond) (initial createdRow)
      (firstOccurrence ++ [Label.edit (), .register] ++ List.replicate 3 (Label.registration 1 1) ++
        [Label.dequeue 2 1] ++ List.replicate 7 (Label.handler 1 2)) :=
  fires_once everyMillisecond_lawful createdRow_live (by decide +kernel)

/--
更新の登録が handler の前に読んで後に job を入れるか、終わらない handler の job がもう一度取り出されると、時刻 1 が
二度 trigger される。
-/
theorem fires_twice :
    ¬ Throughout (step everyMillisecond) (Once everyMillisecond) (initial createdRow)
        (List.replicate 3 (Label.registration 0 0) ++
          [Label.edit (), .register, .registration 1 0, .dequeue 1 1] ++
          List.replicate 7 (Label.handler 0 1) ++ List.replicate 2 (Label.registration 1 1) ++
          [Label.dequeue 1 1, .handler 1 1, .handler 1 1]) ∧
      ¬ Throughout (step everyMillisecond) (Once everyMillisecond) (initial createdRow)
        (List.replicate 3 (Label.registration 0 0) ++ [Label.dequeue 1 1, .dequeue 60001 1,
          .handler 0 60001, .handler 0 60001, .handler 1 60001, .handler 1 60001]) :=
  ⟨fun h => absurd h.last.increasing (by decide +kernel),
    fun h => absurd h.last.increasing (by decide +kernel)⟩

end Schedule
