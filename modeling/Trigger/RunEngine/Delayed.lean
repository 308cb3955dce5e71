import Trigger.RunEngine.Operations
import Trigger.Worker.SimpleQueue

/-!
# 遅延した run の job

遅延した run は `enqueueDelayedRun:<runId>` の job によって queue に入る。`rescheduleDelayedRun` は database を
書き換えてから job の score を動かすだけで、`deduplicationKey` は変えない。

すでに取り出された job の handler が、先へ延ばされた `delayUntil` を見ると、何もせずに正常に終わる。続く
ack は延ばされたばかりの job を消す（`delayed_forgotten`）。そのような handler が無ければ、遅延した run の job は
失われない（`delayed_throughout`）。
-/

namespace RunEngine.DelayedRun

open Infra.Machine

/-! ## 状態 -/

/-- job の id。 -/
def jobId (runId : String) : String := "enqueueDelayedRun:" ++ runId

/--
一つの run と worker の queue。`scheduling` は run を作った `trigger` がまだ入れていない job の時刻、`rescheduling` は
lock の中で database を書き換え、まだ動かしていない job の時刻である。`taken` と `handled` は、取り出された job と
handler を終えた job の `deduplicationKey`、`enqueuedAt` は run が queue に入った時刻とそのときの `delayUntil` で
ある。
-/
structure Sys where
  db : Db
  store : Worker.Store String
  scheduling : Option ℚ
  rescheduling : Option ℚ
  taken : List String
  handled : List String
  enqueuedAt : List (ℚ × Option ℚ)

/-- `trigger` が遅延した run の行を作った直後。queue には他の job があってよい。 -/
def Sys.created (ops : List (Worker.Op String)) (delayUntil : ℚ) (batchId : Option String)
    (settings : RetrySettings) : Sys where
  db := (triggered (some delayUntil) batchId settings).db
  store := Worker.run some ops
  scheduling := some delayUntil
  rescheduling := none
  taken := []
  handled := []
  enqueuedAt := []

/-! ## 一歩 -/

inductive Label
  | schedule (deduplicationKey : String)
  | reschedule (delayUntil : ℚ)
  | rescheduleJob
  | dequeue (now : ℚ) (count : Int)
  | handle (deduplicationKey : String) (now : ℚ)
  | ack (deduplicationKey : String)

/-- `scheduleDelayedRunEnqueuing`。 -/
def Sys.schedule (runId key : String) (s : Sys) : Sys :=
  match s.scheduling with
  | none => s
  | some delayUntil =>
    { s with
      store := Worker.enqueueItem (jobId runId) delayUntil
        ⟨"enqueueDelayedRun", runId, 30000, none, some key, none⟩ s.store
      scheduling := none }

/-- `rescheduleDelayedRun` が database に書くまで。 -/
def Sys.reschedule (delayUntil : ℚ) (s : Sys) : Sys :=
  match s.rescheduling with
  | some _ => s
  | none =>
    let result := rescheduleDelayedRun delayUntil s.db
    match result.error with
    | none => { s with db := result.db, rescheduling := some delayUntil }
    | some _ => { s with db := result.db }

/-- `rescheduleDelayedRun` の `worker.reschedule`。 -/
def Sys.rescheduleJob (runId : String) (s : Sys) : Sys :=
  match s.rescheduling with
  | none => s
  | some delayUntil =>
    { s with store := Worker.reschedule (jobId runId) delayUntil s.store, rescheduling := none }

/-- worker が job を取り出す。 -/
def Sys.dequeue (runId : String) (now : ℚ) (count : Int) (s : Sys) : Sys :=
  { s with
    store := (Worker.dequeueItems some now count s.store).2
    taken := s.taken ++ ((Worker.delivered some now count s.store).filter (·.id = jobId runId)).map
      (·.serializedItem.deduplicationKey.getD "") }

/-- run の lock の中で handler が動く。 -/
def Sys.handle (key : String) (now : ℚ) (s : Sys) : Sys :=
  if s.rescheduling = none ∧ key ∈ s.taken then
    let db := (enqueueDelayedRun now s.db).db
    { s with
      db := db
      taken := s.taken.erase key
      handled := key :: s.handled
      enqueuedAt :=
        if s.db.status ≠ some .queued ∧ db.status = some .queued then
          (now, s.db.run.delayUntil) :: s.enqueuedAt
        else s.enqueuedAt }
  else s

/-- 正常に終わった job の ack。 -/
def Sys.ack (runId key : String) (s : Sys) : Sys :=
  if key ∈ s.handled then
    { s with
      store := (Worker.ackItem some (jobId runId) key s.store).2
      handled := s.handled.erase key }
  else s

def step (runId : String) (s : Sys) : Label → Sys
  | .schedule key => s.schedule runId key
  | .reschedule delayUntil => s.reschedule delayUntil
  | .rescheduleJob => s.rescheduleJob runId
  | .dequeue now count => s.dequeue runId now count
  | .handle key now => s.handle key now
  | .ack key => s.ack runId key

/-! ## 忘れられないこと -/

/-- 途中の処理が無い。 -/
def Sys.Quiet (s : Sys) : Prop :=
  s.scheduling = none ∧ s.rescheduling = none ∧ s.taken = [] ∧ s.handled = []

/-- job が queue にある。 -/
def Sys.HasJob (runId : String) (s : Sys) : Prop :=
  (s.store.items.get (jobId runId)).isSome ∧ (s.store.queue.score? (jobId runId)).isSome

/-- 途中の処理が無いとき、遅延した run の job は queue にある。run は `delayUntil` より前に queue に入っていない。 -/
def Sys.Remembered (runId : String) (s : Sys) : Prop :=
  (s.Quiet → s.db.status = some .delayed → s.HasJob runId) ∧
    ∀ e ∈ s.enqueuedAt, ∀ delayUntil, e.2 = some delayUntil → delayUntil ≤ e.1

/-- handler が遅延した run を見るとき、その `delayUntil` は過ぎている。 -/
def Due (s : Sys) : Label → Prop
  | .handle key now => s.rescheduling = none → key ∈ s.taken → s.db.Initial →
    s.db.run.delayUntil.any (now < ·) = false
  | _ => True

/-! ## 不変条件 -/

/-- 遅延した run の job は、入った後は消えない。handler を終えた job があれば、run はもう遅延していない。 -/
structure Inv (runId : String) (s : Sys) : Prop where
  consistent : Worker.Consistent s.store
  present : s.db.Initial → s.scheduling = none → (s.store.items.get (jobId runId)).isSome
  settled : s.handled ≠ [] → ¬ s.db.Initial
  due : ∀ e ∈ s.enqueuedAt, e.2.any (e.1 < ·) = false

variable {runId : String} {s : Sys} {db : Db}

theorem rescheduleDelayedRun_initial {delayUntil : ℚ}
    (h : (rescheduleDelayedRun delayUntil db).db.Initial) : db.Initial := by
  unfold rescheduleDelayedRun withLatest at h
  split at h
  · exact h
  · next latest hlatest =>
    dsimp only at h
    split at h
    · exact h
    · next hinitial => exact ⟨latest, hlatest, by simpa using hinitial⟩

theorem not_initial_queued {db : Db} (h : db.status = some .queued) : ¬ db.Initial := by
  rintro ⟨s, hlatest, hs⟩
  unfold Db.status at h
  rw [hlatest] at h
  have hqueued : s.executionStatus = .queued := Option.some.inj h
  rw [hqueued] at hs
  cases hs

/-- handler は、遅延した run を `delayUntil` より前には queue に入れない。 -/
theorem enqueueDelayedRun_cases (now : ℚ) (db : Db) :
    ((enqueueDelayedRun now db).db = db ∧
        (db.Initial → db.run.delayUntil.any (now < ·) = true)) ∨
      ((enqueueDelayedRun now db).db.status = some .queued ∧
        db.run.delayUntil.any (now < ·) = false) := by
  unfold enqueueDelayedRun withLatest
  split
  · next hnone =>
    refine .inl ⟨rfl, ?_⟩
    rintro ⟨s, hlatest, -⟩
    rw [hnone] at hlatest
    cases hlatest
  · next latest hlatest =>
    dsimp only
    split
    · next hinitial =>
      refine .inl ⟨rfl, ?_⟩
      rintro ⟨s, hlatest', hs⟩
      rw [hlatest] at hlatest'
      cases hlatest'
      rw [hs] at hinitial
      cases hinitial
    · split
      · next hearly => exact .inl ⟨rfl, fun _ => hearly⟩
      · next hdue => exact .inr ⟨rfl, by simpa using hdue⟩

theorem inv_created (ops : List (Worker.Op String)) (delayUntil : ℚ) (batchId : Option String)
    (settings : RetrySettings) : Inv runId (Sys.created ops delayUntil batchId settings) where
  consistent := Worker.consistent_run ops
  present _ hno := nomatch hno
  settled hno := absurd rfl hno
  due _ hno := nomatch hno

theorem inv_schedule (h : Inv runId s) (key : String) : Inv runId (s.schedule runId key) := by
  unfold Sys.schedule
  split
  · exact h
  · refine ⟨Worker.consistent_enqueueItem h.consistent, fun _ _ => ?_, h.settled, h.due⟩
    show ((s.store.items.set (jobId runId) _).get (jobId runId)).isSome
    rw [Infra.JsMap.get_set_self]
    rfl

theorem inv_reschedule (h : Inv runId s) (delayUntil : ℚ) : Inv runId (s.reschedule delayUntil) := by
  have hinitial : (rescheduleDelayedRun delayUntil s.db).db.Initial → s.db.Initial :=
    rescheduleDelayedRun_initial
  unfold Sys.reschedule
  split
  · exact h
  · dsimp only
    split
    · exact ⟨h.consistent, fun hi => h.present (hinitial hi), fun hne hi => h.settled hne (hinitial hi),
        h.due⟩
    · exact ⟨h.consistent, fun hi => h.present (hinitial hi), fun hne hi => h.settled hne (hinitial hi),
        h.due⟩

theorem inv_rescheduleJob (h : Inv runId s) : Inv runId (s.rescheduleJob runId) := by
  unfold Sys.rescheduleJob
  split
  · exact h
  · next delayUntil _ =>
    exact ⟨Worker.consistent_exec some h.consistent (.reschedule (jobId runId) delayUntil), h.present,
      h.settled, h.due⟩

theorem inv_dequeue (h : Inv runId s) (now : ℚ) (count : Int) :
    Inv runId (s.dequeue runId now count) := by
  refine ⟨Worker.consistent_exec some h.consistent (.dequeueItems now count), fun hi hs => ?_,
    h.settled, h.due⟩
  have hitems : (Worker.dequeueItems some now count s.store).2.items = s.store.items :=
    Worker.items_dequeueLoop _
  show ((Worker.dequeueItems some now count s.store).2.items.get (jobId runId)).isSome
  rw [hitems]
  exact h.present hi hs

theorem inv_handle (h : Inv runId s) {key : String} {now : ℚ} (hdue : Due s (.handle key now)) :
    Inv runId (s.handle key now) := by
  unfold Sys.handle
  split
  · next hcond =>
    rcases enqueueDelayedRun_cases now s.db with ⟨hsame, hearly⟩ | ⟨hqueued, hpassed⟩
    · -- 遅延した run を見て何もしなかった handler は、条件によって無い。
      have hinitial : ¬ s.db.Initial := by
        intro hi
        have hlate := hdue hcond.1 hcond.2 hi
        rw [hearly hi] at hlate
        cases hlate
      dsimp only
      rw [hsame]
      refine ⟨h.consistent, h.present, fun _ => hinitial, fun e he => ?_⟩
      split at he
      · next hno => exact absurd hno.2 hno.1
      · exact h.due e he
    · have hinitial : ¬ (enqueueDelayedRun now s.db).db.Initial := not_initial_queued hqueued
      refine ⟨h.consistent, fun hi => absurd hi hinitial, fun _ => hinitial, fun e he => ?_⟩
      dsimp only at he
      split at he
      · rcases List.mem_cons.mp he with rfl | he
        · exact hpassed
        · exact h.due e he
      · exact h.due e he
  · exact h

theorem inv_ack (h : Inv runId s) (key : String) : Inv runId (s.ack runId key) := by
  unfold Sys.ack
  split
  · next hmem =>
    have hinitial : ¬ s.db.Initial := h.settled (List.ne_nil_of_mem hmem)
    exact ⟨Worker.consistent_exec some h.consistent (.ackItem (jobId runId) key),
      fun hi => absurd hi hinitial, fun _ => hinitial, h.due⟩
  · exact h

theorem inv_step (s : Sys) (l : Label) (h : Inv runId s) (hdue : Due s l) :
    Inv runId (step runId s l) := by
  cases l with
  | schedule key => exact inv_schedule h key
  | reschedule delayUntil => exact inv_reschedule h delayUntil
  | rescheduleJob => exact inv_rescheduleJob h
  | dequeue now count => exact inv_dequeue h now count
  | handle key now => exact inv_handle h hdue
  | ack key => exact inv_ack h key

theorem Inv.remembered (h : Inv runId s) : s.Remembered runId := by
  constructor
  · intro hquiet hstatus
    obtain ⟨latest, hlatest, hdelayed⟩ := Option.map_eq_some_iff.mp hstatus
    have hinitial : s.db.Initial := ⟨latest, hlatest, by rw [hdelayed]; rfl⟩
    have hitem := h.present hinitial hquiet.1
    exact ⟨hitem, (h.consistent.live _).mpr hitem⟩
  · intro e he delayUntil heq
    have hdue := h.due e he
    rw [heq] at hdue
    simpa using hdue

/--
**handler がいつも `delayUntil` を過ぎた run だけを見るなら、`trigger`、reschedule、worker の取り出しと ack がどう
入り組んでも、遅延した run の job は queue に残る。**
-/
theorem delayed_throughout (runId : String) (ops : List (Worker.Op String)) (delayUntil : ℚ)
    (batchId : Option String) (settings : RetrySettings) (ls : List Label)
    (h : Along (step runId) Due (Sys.created ops delayUntil batchId settings) ls) :
    Throughout (step runId) (Sys.Remembered runId)
      (Sys.created ops delayUntil batchId settings) ls :=
  (throughout_of_along inv_step (inv_created ops delayUntil batchId settings) h).mono
    fun _ => Inv.remembered

/-- 時刻 10 まで遅延した run が、時刻 10 に取り出されて queue に入る。 -/
theorem delayed_enqueued :
    Throughout (step "run") (Sys.Remembered "run") (Sys.created [] 10 none ⟨none, none, none⟩)
      [.schedule "k", .dequeue 10 1, .handle "k" 10, .ack "k"] := by
  refine delayed_throughout "run" [] 10 none _ _ ⟨trivial, trivial, ?_, trivial, trivial⟩
  intro _ _ _
  decide +kernel

/-- 取り出された job の handler が動く前に時刻 20 まで延ばされた run は、ack によって job を失う。 -/
theorem delayed_forgotten :
    ¬ Throughout (step "run") (Sys.Remembered "run") (Sys.created [] 10 none ⟨none, none, none⟩)
      [.schedule "k", .dequeue 10 1, .reschedule 20, .rescheduleJob, .handle "k" 11, .ack "k"] := by
  intro h
  have hjob := (h.last.1 ⟨rfl, rfl, by decide +kernel, by decide +kernel⟩ (by decide +kernel)).1
  revert hjob
  decide +kernel

end RunEngine.DelayedRun
