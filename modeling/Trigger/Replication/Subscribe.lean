import Trigger.Infra.Machine

/-!
# `LogicalReplicationClient` の subscribe と stop

`subscribe`・`stop`・`teardown` を、`await` ごとに区切った状態機械として書く。`START_REPLICATION` の失敗は、
`subscribe` が返った後に別の `stop` を始める。

`stop` は `_isStopped` が真なら何もしない。`subscribe` は最初に自分で `stop` を呼び、`replicationStart` が
届くまで `_isStopped` を真のままにするので、それより前の失敗の後始末は行われない（`failed_holds`）。
-/

namespace Replication

open Infra.Machine

/-- `stop` が待っている `await`。 -/
inductive StopStage
  /-- `#releaseLeaderLock()`。`held` は始めたときに lock があったことを表す。 -/
  | releasing (held : Bool)
  /-- `client.end()`。 -/
  | ending (client : Nat)
deriving DecidableEq

/-- `stop` が終わった後の呼び出しの続き。 -/
inductive AfterStop
  | stop
  | subscribe
  | teardown
  /-- 失敗した `subscribe` が返る。 -/
  | failed
deriving DecidableEq

/-- 呼び出しの途中の `await`。 -/
inductive Call
  | idle
  | stopping (stage : StopStage) (after : AfterStop)
  /-- `subscribe` の `#acquireLeaderLock()` と、その後。 -/
  | acquiring
  | elected
  | connecting
  | publishing
  | slotting
  /-- `teardown` の `#acquireLeaderLock()`。 -/
  | tearing
  | reconnecting
  | dropping
  | ending (client : Nat)
  | releasing (held : Bool)
deriving DecidableEq

/-- 呼び出しとは別に進む `stop`。`own` は最後の `subscribe` の失敗のものであることを表す。 -/
structure BackgroundStop where
  stage : StopStage
  own : Bool
deriving DecidableEq

/-- 最後の `subscribe` の失敗の後始末。 -/
inductive Cleanup
  | none
  | running
  | finished
deriving DecidableEq

/-- `await` の結果。 -/
inductive Outcome
  | ok
  | failed
  | throws
deriving DecidableEq

structure LogicalReplicationClient where
  isStopped : Bool
  leaderLock : Bool
  leaderLockHeartbeatTimer : Bool
  ackIntervalTimer : Bool
  client : Option Nat
  connection : Option Nat
  /-- 作った pg の client の個数。番号は作った順である。 -/
  created : Nat
  ended : List Nat
  /-- `replicationStart` の listener のある connection。 -/
  listening : List Nat
  /-- `START_REPLICATION` の結果を待っている client。 -/
  starting : List Nat
  call : Call
  stops : List BackgroundStop
  /-- 最後の `subscribe` が作った client。 -/
  own : Option Nat
  cleanup : Cleanup
deriving DecidableEq

namespace LogicalReplicationClient

/-- constructor の直後。 -/
def init : LogicalReplicationClient :=
  ⟨false, false, false, false, none, none, 0, [], [], [], .idle, [], none, .none⟩

/-! ## stop -/

def clearIntervals (s : LogicalReplicationClient) : LogicalReplicationClient :=
  { s with leaderLockHeartbeatTimer := false, ackIntervalTimer := false }

/-- `stop` の最初の区間。`_isStopped` が真なら何もしない。 -/
def beginStop (s : LogicalReplicationClient) : LogicalReplicationClient × Option StopStage :=
  if s.isStopped then (s, none)
  else ({ clearIntervals s with isStopped := true }, some (.releasing s.leaderLock))

/-- `await` の後の `stop` の区間。 -/
def resumeStop (stage : StopStage) (s : LogicalReplicationClient) :
    LogicalReplicationClient × Option StopStage :=
  match stage with
  | .releasing held =>
    let s :=
      { s with
        leaderLock := if held then false else s.leaderLock
        listening := s.listening.filter fun c => some c ≠ s.connection
        connection := none }
    match s.client with
    | some c => (s, some (.ending c))
    | none => (clearIntervals s, none)
  | .ending c => ({ clearIntervals s with client := none, ended := c :: s.ended }, none)

/-- `stop` を待っていた呼び出しを続ける。 -/
def afterStop (after : AfterStop) (s : LogicalReplicationClient) : LogicalReplicationClient :=
  match after with
  | .stop => { s with call := .idle }
  | .subscribe => { s with call := .acquiring }
  | .teardown => { s with call := .tearing }
  | .failed => { s with call := .idle, cleanup := .finished }

/-- `stop` の区間の後、次の `await` で待つか、呼び出しを続ける。 -/
def waitStop (after : AfterStop) (p : LogicalReplicationClient × Option StopStage) :
    LogicalReplicationClient :=
  match p.2 with
  | some stage => { p.1 with call := .stopping stage after }
  | none => afterStop after p.1

/-- 呼び出しとは別に進む `stop` の区間の後。 -/
def waitBackground (own : Bool) (p : LogicalReplicationClient × Option StopStage) :
    LogicalReplicationClient :=
  match p.2 with
  | some stage => { p.1 with stops := p.1.stops ++ [⟨stage, own⟩] }
  | none => if own then { p.1 with cleanup := .finished } else p.1

/-! ## 呼び出し -/

/-- 新しい呼び出しは `stop` から始まる。 -/
def beginCall (after : AfterStop) (s : LogicalReplicationClient) : LogicalReplicationClient :=
  match s.call with
  | .idle =>
    waitStop after (beginStop
      { s with
        own := none
        cleanup := .none
        stops := s.stops.map fun e => { e with own := false } })
  | _ => s

/-- 失敗した `subscribe` の `return this.stop()`。 -/
def fail (s : LogicalReplicationClient) : LogicalReplicationClient :=
  waitStop .failed (beginStop { s with cleanup := .running })

/-- `subscribe` と `teardown` の `await` の後の区間。`acks` は ack の timer を使う設定である。 -/
def proceed (acks : Bool) (outcome : Outcome) (s : LogicalReplicationClient) :
    LogicalReplicationClient :=
  match s.call with
  | .idle => s
  | .stopping stage after => waitStop after (resumeStop stage s)
  | .acquiring =>
    match outcome with
    | .ok => { s with leaderLock := true, call := .elected }
    | _ => fail s
  | .elected =>
    { s with
      leaderLockHeartbeatTimer := s.leaderLock
      ackIntervalTimer := acks
      client := some s.created
      created := s.created + 1
      own := some s.created
      call := .connecting }
  | .connecting =>
    match outcome, s.client with
    | .ok, some c => { s with connection := some c, call := .publishing }
    | _, _ => { s with call := .idle }
  | .publishing =>
    match outcome with
    | .ok => { s with call := .slotting }
    | .failed => fail s
    | .throws => { s with call := .idle }
  | .slotting =>
    match outcome with
    | .ok =>
      match s.connection with
      | none => fail s
      | some k =>
        let s := { s with listening := k :: s.listening, call := .idle }
        match s.client with
        | some c => { s with starting := c :: s.starting }
        | none => s
    | .failed => fail s
    | .throws => { s with call := .idle }
  | .tearing =>
    match outcome with
    | .ok =>
      { s with
        leaderLock := true
        client := some s.created
        created := s.created + 1
        call := .reconnecting }
    | _ => { s with call := .idle }
  | .reconnecting =>
    match outcome with
    | .ok => { s with call := .dropping }
    | _ => { s with call := .idle }
  | .dropping =>
    match s.client with
    | some c => { s with call := .ending c }
    | none => { s with call := .idle }
  | .ending c =>
    match outcome with
    | .ok => { s with client := none, ended := c :: s.ended, call := .releasing s.leaderLock }
    | _ => { s with call := .idle }
  | .releasing held => { s with leaderLock := if held then false else s.leaderLock, call := .idle }

/-- `client` の `START_REPLICATION` が最後の `subscribe` のもので、その後に呼び出しが無い。 -/
def Owns (s : LogicalReplicationClient) (client : Nat) : Prop :=
  s.own = some client ∧ s.call = .idle

instance (s : LogicalReplicationClient) (client : Nat) : Decidable (s.Owns client) :=
  inferInstanceAs (Decidable (_ ∧ _))

/-- `START_REPLICATION` が失敗したときの `catch`。 -/
def rejectStart (client : Nat) (s : LogicalReplicationClient) : LogicalReplicationClient :=
  if s.Owns client then
    waitBackground true (beginStop
      { s with starting := s.starting.erase client, cleanup := .running })
  else waitBackground false (beginStop { s with starting := s.starting.erase client })

/-! ## 一歩 -/

inductive Event
  | subscribe
  | stop
  | teardown
  /-- 呼び出しの `await` が決着する。 -/
  | proceed (outcome : Outcome)
  /-- 呼び出しとは別に進む `stop` の `await` が決着する。 -/
  | advance (i : Nat)
  /-- connection の `replicationStart`。 -/
  | replicationStart (connection : Nat)
  /-- client の `START_REPLICATION` の失敗。 -/
  | reject (client : Nat)
deriving DecidableEq

def step (acks : Bool) (s : LogicalReplicationClient) : Event → LogicalReplicationClient
  | .subscribe => beginCall .subscribe s
  | .stop => beginCall .stop s
  | .teardown => beginCall .teardown s
  | .proceed outcome => proceed acks outcome s
  | .advance i =>
    match s.stops[i]? with
    | some e => waitBackground e.own (resumeStop e.stage { s with stops := s.stops.eraseIdx i })
    | none => s
  | .replicationStart k =>
    if k ∈ s.listening then { s with isStopped := false, listening := s.listening.erase k } else s
  | .reject c => if c ∈ s.starting then rejectStart c s else s

/-! ## 後始末の条件 -/

/-- lock は解放され、timer は止まり、client は終わって `null` である。 -/
structure Released (s : LogicalReplicationClient) : Prop where
  leaderLock : s.leaderLock = false
  heartbeat : s.leaderLockHeartbeatTimer = false
  ack : s.ackIntervalTimer = false
  client : s.client = none
  ended : ∀ c ∈ s.own, c ∈ s.ended

instance (s : LogicalReplicationClient) : Decidable s.Released :=
  decidable_of_iff (s.leaderLock = false ∧ s.leaderLockHeartbeatTimer = false ∧
      s.ackIntervalTimer = false ∧ s.client = none ∧ ∀ c ∈ s.own, c ∈ s.ended)
    ⟨fun h => ⟨h.1, h.2.1, h.2.2.1, h.2.2.2.1, h.2.2.2.2⟩,
      fun h => ⟨h.leaderLock, h.heartbeat, h.ack, h.client, h.ended⟩⟩

/-- この出来事で `subscribe` が失敗する。 -/
def Fails (s : LogicalReplicationClient) : Event → Prop
  | .proceed .ok => s.call = .slotting ∧ s.connection = none
  | .proceed .failed => s.call = .acquiring ∨ s.call = .publishing ∨ s.call = .slotting
  | .proceed .throws => s.call = .acquiring
  | .reject c => c ∈ s.starting ∧ s.Owns c
  | _ => False

/-- `_isStopped` が偽で、ほかの `stop` が途中になく、この `subscribe` の client はまだ `client` か、終わっている。 -/
structure Stoppable (s : LogicalReplicationClient) : Prop where
  isStopped : s.isStopped = false
  stops : s.stops = []
  client : ∀ c ∈ s.own, s.client = some c ∨ c ∈ s.ended

/-- 失敗のとき、`stop` が後始末を行うか、後始末するものが無い。 -/
def Cleans (s : LogicalReplicationClient) (e : Event) : Prop :=
  Fails s e → Stoppable s ∨ Released s

/-! ## `stop` の区間 -/

/-- timer は止まっていて、この `subscribe` の client は `client` か、終わっている。 -/
structure Quiet (s : LogicalReplicationClient) : Prop where
  heartbeat : s.leaderLockHeartbeatTimer = false
  ack : s.ackIntervalTimer = false
  client : ∀ c ∈ s.own, s.client = some c ∨ c ∈ s.ended

/-- 途中の `stop` は `client` を終わらせるものであり、後始末のもの（`own`）は lock も放す。 -/
structure StageOk (s : LogicalReplicationClient) (stage : StopStage) (own : Prop) : Prop where
  ending : ∀ c, stage = .ending c → ∀ d, s.client = some d → d = c
  lock : own → s.leaderLock = false ∨ stage = .releasing true

/-- 後始末の方向にだけ変わる。 -/
structure Declines (s t : LogicalReplicationClient) : Prop where
  leaderLock : t.leaderLock = s.leaderLock ∨ t.leaderLock = false
  heartbeat : t.leaderLockHeartbeatTimer = s.leaderLockHeartbeatTimer ∨
    t.leaderLockHeartbeatTimer = false
  ack : t.ackIntervalTimer = s.ackIntervalTimer ∨ t.ackIntervalTimer = false
  client : t.client = s.client ∨ t.client = none
  ended : s.ended ⊆ t.ended
  own : t.own = s.own

theorem Declines.refl (s : LogicalReplicationClient) : Declines s s :=
  ⟨.inl rfl, .inl rfl, .inl rfl, .inl rfl, List.Subset.refl _, rfl⟩

/-- 待ちの記録だけが変わる。 -/
theorem declines_record (s : LogicalReplicationClient) (call : Call) (stops : List BackgroundStop)
    (cleanup : Cleanup) :
    Declines s { s with call := call, stops := stops, cleanup := cleanup } :=
  ⟨.inl rfl, .inl rfl, .inl rfl, .inl rfl, List.Subset.refl _, rfl⟩

theorem Released.declines {s t : LogicalReplicationClient} (h : Released s) (hd : Declines s t) :
    Released t where
  leaderLock := hd.leaderLock.elim (·.trans h.leaderLock) id
  heartbeat := hd.heartbeat.elim (·.trans h.heartbeat) id
  ack := hd.ack.elim (·.trans h.ack) id
  client := hd.client.elim (·.trans h.client) id
  ended := fun c hc => hd.ended (h.ended c (hd.own ▸ hc))

theorem StageOk.declines {s t : LogicalReplicationClient} {stage : StopStage} {own : Prop}
    (h : StageOk s stage own) (hd : Declines s t) : StageOk t stage own where
  ending := fun c hc d ht => by
    rcases hd.client with he | he
    · exact h.ending c hc d (he ▸ ht)
    · rw [he] at ht
      cases ht
  lock := fun ho => (h.lock ho).imp_left fun hl => hd.leaderLock.elim (·.trans hl) id

theorem Released.quiet {s : LogicalReplicationClient} (h : Released s) : Quiet s :=
  ⟨h.heartbeat, h.ack, fun c hc => .inr (h.ended c hc)⟩

theorem Released.stageOk {s : LogicalReplicationClient} (h : Released s) (stage : StopStage)
    (own : Prop) : StageOk s stage own :=
  ⟨fun _ _ _ hd => (by rw [h.client] at hd; cases hd), fun _ => .inl h.leaderLock⟩

theorem declines_resumeStop (stage : StopStage) (s : LogicalReplicationClient) :
    Declines s (resumeStop stage s).1 := by
  cases stage with
  | releasing held =>
    have hlock : (if held then false else s.leaderLock) = s.leaderLock ∨
        (if held then false else s.leaderLock) = false := by
      cases held
      · exact .inl rfl
      · exact .inr rfl
    unfold resumeStop
    dsimp only
    split
    · exact ⟨hlock, .inl rfl, .inl rfl, .inl rfl, List.Subset.refl _, rfl⟩
    · exact ⟨hlock, .inr rfl, .inr rfl, .inl rfl, List.Subset.refl _, rfl⟩
  | ending c =>
    exact ⟨.inl rfl, .inr rfl, .inr rfl, .inr rfl, List.subset_cons_self .., rfl⟩

/-- `stop` の一区間。終わったときには、後始末のものなら何も残らない。 -/
theorem resumeStop_spec {stage : StopStage} {s : LogicalReplicationClient} {own : Prop}
    (hq : Quiet s) (hs : StageOk s stage own) :
    Quiet (resumeStop stage s).1 ∧
      match (resumeStop stage s).2 with
      | some stage' => StageOk (resumeStop stage s).1 stage' own
      | none => own → Released (resumeStop stage s).1 := by
  cases stage with
  | releasing held =>
    have hlock : own → (if held then false else s.leaderLock) = false := by
      intro ho
      rcases hs.lock ho with hl | hl
      · rw [hl, ite_self]
      · injection hl with hl
        rw [hl]
        rfl
    cases hc : s.client with
    | some c =>
      simp only [resumeStop, hc]
      refine ⟨⟨hq.heartbeat, hq.ack, fun d hd => hc ▸ hq.client d hd⟩, fun d hd e he => ?_, ?_⟩
      · injection hd with hd
        exact (Option.some.inj he).symm.trans hd
      · exact fun ho => .inl (hlock ho)
    | none =>
      simp only [resumeStop, hc]
      have hended : ∀ d ∈ s.own, d ∈ s.ended := fun d hd =>
        (hq.client d hd).resolve_left (by rw [hc]; nofun)
      exact ⟨⟨rfl, rfl, fun d hd => .inr (hended d hd)⟩,
        fun ho => ⟨hlock ho, rfl, rfl, rfl, hended⟩⟩
  | ending c =>
    have hended : ∀ d ∈ s.own, d ∈ c :: s.ended := fun d hd =>
      (hq.client d hd).elim (fun he => by rw [hs.ending c rfl d he]; exact List.mem_cons_self)
        (List.mem_cons_of_mem _)
    refine ⟨⟨rfl, rfl, fun d hd => .inr (hended d hd)⟩, fun ho => ⟨?_, rfl, rfl, rfl, hended⟩⟩
    exact (hs.lock ho).resolve_right nofun

/-! ## 不変条件 -/

/-- 途中の `stop`。後始末のものには印を付ける。 -/
def stages (s : LogicalReplicationClient) : List (StopStage × Prop) :=
  (match s.call with
    | .stopping stage after => [(stage, after = .failed)]
    | _ => []) ++ s.stops.map fun e => (e.stage, e.own = true)

/-- 後始末の途中と、その後。 -/
structure Tracked (s : LogicalReplicationClient) : Prop where
  /-- 後始末が始まってから、新しい呼び出しは無い。 -/
  call : s.cleanup ≠ .none → s.call = .idle ∨ ∃ stage, s.call = .stopping stage .failed
  running : s.cleanup = .running → Quiet s ∧ ∀ e ∈ s.stages, StageOk s e.1 e.2
  finished : s.cleanup = .finished → Released s
  failed : ∀ stage, s.call = .stopping stage .failed → s.cleanup ≠ .none
  own : ∀ e ∈ s.stops, e.own = true → s.cleanup ≠ .none

theorem tracked_init : Tracked init := by
  refine ⟨fun h => absurd rfl h, nofun, nofun, nofun, nofun⟩

/-- 後始末の無い間の状態。 -/
theorem Tracked.of_none {s : LogicalReplicationClient} (hnone : s.cleanup = .none)
    (hcall : ∀ stage, s.call ≠ .stopping stage .failed) (hstops : ∀ e ∈ s.stops, e.own = false) :
    Tracked s where
  call := fun h => absurd hnone h
  running := fun h => by rw [hnone] at h; cases h
  finished := fun h => by rw [hnone] at h; cases h
  failed := fun stage h => absurd h (hcall stage)
  own := fun e he h => by rw [hstops e he] at h; cases h

/-- 呼び出しが後始末でなければ、後始末は無い。 -/
theorem Tracked.none_of_call {s : LogicalReplicationClient} (h : Tracked s) (hidle : s.call ≠ .idle)
    (hcall : ∀ stage, s.call ≠ .stopping stage .failed) :
    s.cleanup = .none ∧ ∀ e ∈ s.stops, e.own = false := by
  have hnone : s.cleanup = .none := by
    refine Classical.byContradiction fun hne => ?_
    rcases h.call hne with hc | ⟨stage, hc⟩
    · exact hidle hc
    · exact hcall stage hc
  refine ⟨hnone, fun e he => Bool.eq_false_iff.mpr fun ho => h.own e he ho hnone⟩

/-- 後始末の方向に変わり、`stop` の待ちが同じなら保たれる。 -/
theorem Tracked.declines {s t : LogicalReplicationClient} (h : Tracked s) (hd : Declines s t)
    (hcall : t.call = s.call) (hstops : t.stops = s.stops) (hcleanup : t.cleanup = s.cleanup)
    (hquiet : s.cleanup = .running → Quiet t) : Tracked t where
  call := by rw [hcleanup, hcall]; exact h.call
  running := by
    intro hr
    have hr' : s.cleanup = .running := hcleanup ▸ hr
    refine ⟨hquiet hr', fun e he => ((h.running hr').2 e ?_).declines hd⟩
    unfold stages at he ⊢
    rwa [hcall, hstops] at he
  finished := fun hf => (h.finished (hcleanup ▸ hf)).declines hd
  failed := by rw [hcall, hcleanup]; exact h.failed
  own := by rw [hstops, hcleanup]; exact h.own

theorem mem_stages_stopping {s : LogicalReplicationClient} {stage : StopStage} {after : AfterStop}
    (h : s.call = .stopping stage after) : (stage, after = .failed) ∈ s.stages := by
  unfold stages
  rw [h]
  exact List.mem_cons_self

theorem mem_stages_stops {s : LogicalReplicationClient} {e : BackgroundStop} (h : e ∈ s.stops) :
    (e.stage, e.own = true) ∈ s.stages :=
  List.mem_append_right _ (List.mem_map_of_mem h)

theorem mem_stages {s : LogicalReplicationClient} {p : StopStage × Prop} (h : p ∈ s.stages) :
    (∃ stage after, s.call = .stopping stage after ∧ p = (stage, after = .failed)) ∨
      ∃ e ∈ s.stops, p = (e.stage, e.own = true) := by
  unfold stages at h
  rcases List.mem_append.mp h with h | h
  · split at h
    · next stage after hc => exact .inl ⟨stage, after, hc, List.mem_singleton.mp h⟩
    · cases h
  · obtain ⟨e, he, rfl⟩ := List.mem_map.mp h
    exact .inr ⟨e, he, rfl⟩

/-! ## 一歩 -/

/-- `stop` の区間が触れない欄。 -/
structure Frame (s t : LogicalReplicationClient) : Prop where
  call : t.call = s.call
  stops : t.stops = s.stops
  cleanup : t.cleanup = s.cleanup

theorem frame_resumeStop (stage : StopStage) (s : LogicalReplicationClient) :
    Frame s (resumeStop stage s).1 := by
  cases stage with
  | releasing held =>
    unfold resumeStop
    dsimp only
    split
    · exact ⟨rfl, rfl, rfl⟩
    · exact ⟨rfl, rfl, rfl⟩
  | ending c => exact ⟨rfl, rfl, rfl⟩

/-- 印の無い `stop` は、始まるときも何も増やさない。 -/
theorem beginStop_spec (s : LogicalReplicationClient) :
    Declines s (beginStop s).1 ∧ Frame s (beginStop s).1 ∧ (Quiet s → Quiet (beginStop s).1) ∧
      ∀ stage ∈ (beginStop s).2, stage = .releasing s.leaderLock ∧
        (beginStop s).1.leaderLock = s.leaderLock := by
  unfold beginStop
  split
  · exact ⟨Declines.refl s, ⟨rfl, rfl, rfl⟩, id, nofun⟩
  · refine ⟨⟨.inl rfl, .inr rfl, .inr rfl, .inl rfl, List.Subset.refl _, rfl⟩, ⟨rfl, rfl, rfl⟩,
      fun h => ⟨rfl, rfl, h.client⟩, fun stage h => ?_⟩
    exact ⟨(Option.some.inj h).symm, rfl⟩

/-- `stop` の区間の結果。後始末の途中なら、次の `await` でも条件が続くか、すべて放している。 -/
def Continues (own : Prop) (p : LogicalReplicationClient × Option StopStage) : Prop :=
  Quiet p.1 ∧ (∀ stage ∈ p.2, StageOk p.1 stage own) ∧ (p.2 = none → own → Released p.1)

theorem continues_resumeStop {stage : StopStage} {s : LogicalReplicationClient} {own : Prop}
    (hq : Quiet s) (hs : StageOk s stage own) : Continues own (resumeStop stage s) := by
  obtain ⟨hquiet, hrest⟩ := resumeStop_spec hq hs
  refine ⟨hquiet, fun stage' h => ?_, fun h => ?_⟩
  · rw [Option.mem_def.mp h] at hrest
    exact hrest
  · rw [h] at hrest
    exact hrest

/-- 失敗のときに条件が満たされていれば、`stop` の最初の区間で後始末が始まるか、済んでいる。 -/
theorem continues_beginStop {s : LogicalReplicationClient} (h : Stoppable s ∨ Released s) :
    Continues True (beginStop s) := by
  unfold beginStop
  split
  · next hstopped =>
    have hr : Released s :=
      h.resolve_left fun hs => by rw [hs.isStopped] at hstopped; cases hstopped
    exact ⟨hr.quiet, nofun, fun _ _ => hr⟩
  · refine ⟨⟨rfl, rfl, ?_⟩, ?_, nofun⟩
    · exact h.elim Stoppable.client fun hr c hc => .inr (hr.ended c hc)
    · intro stage hstage
      obtain rfl := Option.some.inj hstage
      refine ⟨nofun, fun _ => ?_⟩
      show s.leaderLock = false ∨ _
      cases s.leaderLock
      · exact .inl rfl
      · exact .inr rfl

theorem tracked_waitBackground {s : LogicalReplicationClient} (h : Tracked s) {own : Bool}
    (hown : own = true → s.cleanup ≠ .none) {p : LogicalReplicationClient × Option StopStage}
    (hd : Declines s p.1) (hf : Frame s p.1)
    (hp : s.cleanup = .running → Continues (own = true) p) :
    Tracked (waitBackground own p) := by
  have hkeep := h.declines hd hf.call hf.stops hf.cleanup fun hr => (hp hr).1
  unfold waitBackground
  split
  · next stage hstage =>
    have hrecord := declines_record p.1 p.1.call (p.1.stops ++ [⟨stage, own⟩]) p.1.cleanup
    refine ⟨hkeep.call, fun hr => ?_, fun hfin => (hkeep.finished hfin).declines hrecord,
      hkeep.failed, fun e he ho => ?_⟩
    · obtain ⟨hq, hstages⟩ := hkeep.running hr
      refine ⟨⟨hq.heartbeat, hq.ack, hq.client⟩, fun e he => StageOk.declines ?_ hrecord⟩
      rcases mem_stages he with ⟨stage', after, hc, rfl⟩ | ⟨b, hb, rfl⟩
      · exact hstages _ (mem_stages_stopping hc)
      · rcases List.mem_append.mp hb with hb | hb
        · exact hstages _ (mem_stages_stops hb)
        · obtain rfl := List.mem_singleton.mp hb
          exact (hp (hf.cleanup ▸ hr)).2.1 stage hstage
    · rcases List.mem_append.mp he with he | he
      · exact hkeep.own e he ho
      · obtain rfl := List.mem_singleton.mp he
        show p.1.cleanup ≠ .none
        rw [hf.cleanup]
        exact hown ho
  · next hnone =>
    cases own with
    | false => exact hkeep
    | true =>
      refine ⟨fun _ => hkeep.call (hf.cleanup ▸ hown rfl), nofun, fun _ => ?_, fun _ _ => nofun,
        fun _ _ _ => nofun⟩
      have hreleased : Released p.1 := by
        cases hc : s.cleanup with
        | none => exact absurd hc (hown rfl)
        | running => exact (hp hc).2.2 hnone rfl
        | finished => exact (h.finished hc).declines hd
      exact hreleased.declines (declines_record p.1 p.1.call p.1.stops .finished)

/-- `subscribe` の後始末の `stop` が進む。 -/
theorem tracked_waitStop {s : LogicalReplicationClient} (h : Tracked s) {stage : StopStage}
    (hcall : s.call = .stopping stage .failed) {p : LogicalReplicationClient × Option StopStage}
    (hd : Declines s p.1) (hf : Frame s p.1)
    (hp : s.cleanup = .running → Continues True p) : Tracked (waitStop .failed p) := by
  have hkeep := h.declines hd hf.call hf.stops hf.cleanup fun hr => (hp hr).1
  have hne := h.failed stage hcall
  unfold waitStop
  split
  · next stage' hstage =>
    have hrecord := declines_record p.1 (.stopping stage' .failed) p.1.stops p.1.cleanup
    refine ⟨fun _ => .inr ⟨stage', rfl⟩, fun hr => ?_,
      fun hfin => (hkeep.finished hfin).declines hrecord, fun _ _ => ?_, hkeep.own⟩
    · obtain ⟨hq, hstages⟩ := hkeep.running hr
      refine ⟨⟨hq.heartbeat, hq.ack, hq.client⟩, fun e he => StageOk.declines ?_ hrecord⟩
      rcases mem_stages he with ⟨st, after, hc, rfl⟩ | ⟨b, hb, rfl⟩
      · injection hc with hst hafter
        subst hst hafter
        have := (hp (hf.cleanup ▸ hr)).2.1 _ hstage
        exact ⟨this.ending, fun _ => this.lock trivial⟩
      · exact hstages _ (mem_stages_stops hb)
    · show p.1.cleanup ≠ .none
      rw [hf.cleanup]
      exact hne
  · next hnone =>
    refine ⟨fun _ => .inl rfl, nofun, fun _ => ?_, fun _ _ => nofun, fun _ _ _ => nofun⟩
    have hreleased : Released p.1 := by
      cases hc : s.cleanup with
      | none => exact absurd hc hne
      | running => exact (hp hc).2.2 hnone trivial
      | finished => exact (h.finished hc).declines hd
    exact hreleased.declines (declines_record p.1 .idle p.1.stops .finished)

/-- 失敗した `subscribe` が後始末を始める。 -/
theorem tracked_fail {s : LogicalReplicationClient} (hown : ∀ e ∈ s.stops, e.own = false)
    (h : Stoppable s ∨ Released s) : Tracked (fail s) := by
  have hcont : Continues True (beginStop { s with cleanup := .running }) :=
    continues_beginStop
      (h.imp (fun hs => ⟨hs.1, hs.2, hs.3⟩) fun hr => ⟨hr.1, hr.2, hr.3, hr.4, hr.5⟩)
  obtain ⟨hd, hf, -, hstage⟩ := beginStop_spec { s with cleanup := .running }
  unfold fail waitStop
  split
  · next stage hs =>
    obtain ⟨hq, hok, -⟩ := hcont
    refine ⟨fun _ => .inr ⟨stage, rfl⟩,
      fun _ => ⟨⟨hq.heartbeat, hq.ack, hq.client⟩, fun e he => ?_⟩, fun hfin => ?_, fun _ _ => ?_,
      fun e he ho => ?_⟩
    · rcases mem_stages he with ⟨st, after, hc, rfl⟩ | ⟨b, hb, rfl⟩
      · injection hc with hst hafter
        subst hst hafter
        have := hok _ hs
        exact ⟨this.ending, fun _ => this.lock trivial⟩
      · have hb' : b ∈ s.stops := hf.stops ▸ hb
        rcases h with hstop | hr
        · rw [hstop.stops] at hb'
          cases hb'
        · have hr' : Released { s with cleanup := .running } := ⟨hr.1, hr.2, hr.3, hr.4, hr.5⟩
          exact ((hr'.declines hd).declines
            (declines_record _ (.stopping stage .failed) _ _)).stageOk _ _
    · have : (beginStop { s with cleanup := .running }).1.cleanup = .finished := hfin
      rw [hf.cleanup] at this
      cases this
    · show (beginStop { s with cleanup := .running }).1.cleanup ≠ .none
      rw [hf.cleanup]
      nofun
    · have he' : e ∈ s.stops := hf.stops ▸ he
      rw [hown e he'] at ho
      cases ho
  · next hnone =>
    refine ⟨fun _ => .inl rfl, nofun, fun _ => ?_, nofun, fun _ _ _ => nofun⟩
    exact (hcont.2.2 hnone trivial).declines (declines_record _ .idle _ .finished)

/-- 新しい呼び出しは、それまでの後始末の記録を消す。 -/
theorem tracked_beginCall {s : LogicalReplicationClient} (h : Tracked s) {after : AfterStop}
    (hafter : after ≠ .failed) : Tracked (beginCall after s) := by
  unfold beginCall
  split
  · obtain ⟨-, hf, -, -⟩ := beginStop_spec
      { s with
        own := none
        cleanup := .none
        stops := s.stops.map fun e => { e with own := false } }
    have hstops : ∀ e ∈ (beginStop
        { s with
          own := none
          cleanup := .none
          stops := s.stops.map fun e => { e with own := false } }).1.stops, e.own = false := by
      rw [hf.stops]
      intro e he
      obtain ⟨b, -, rfl⟩ := List.mem_map.mp he
      rfl
    unfold waitStop
    split
    · next stage _ =>
      refine Tracked.of_none hf.cleanup (fun stage' hc => ?_) hstops
      injection hc with _ hc
      exact hafter hc
    · cases after with
      | failed => exact absurd rfl hafter
      | _ => exact Tracked.of_none hf.cleanup nofun hstops
  · exact h

theorem tracked_rejectStart {s : LogicalReplicationClient} (h : Tracked s) {c : Nat}
    (hc : s.Owns c → Stoppable s ∨ Released s) : Tracked (rejectStart c s) := by
  unfold rejectStart
  split
  · next hown =>
    have hclean := hc hown
    obtain ⟨hd, hf, -, -⟩ := beginStop_spec
      { s with starting := s.starting.erase c, cleanup := .running }
    have hcont : Continues True
        (beginStop { s with starting := s.starting.erase c, cleanup := .running }) :=
      continues_beginStop
        (hclean.imp (fun hs => ⟨hs.1, hs.2, hs.3⟩) fun hr => ⟨hr.1, hr.2, hr.3, hr.4, hr.5⟩)
    -- call は終わっているので、残るのは後始末だけである
    have hidle : (beginStop { s with starting := s.starting.erase c, cleanup := .running }).1.call =
        .idle := hf.call.trans hown.2
    unfold waitBackground
    split
    · next stage hs =>
      obtain ⟨hq, hok, -⟩ := hcont
      refine ⟨fun _ => .inl hidle, fun _ => ⟨⟨hq.heartbeat, hq.ack, hq.client⟩, fun e he => ?_⟩,
        fun hfin => ?_, fun st hst => ?_, fun e he _ => ?_⟩
      · rcases mem_stages he with ⟨st, after, hst, rfl⟩ | ⟨b, hb, rfl⟩
        · rw [show _ = Call.idle from hidle] at hst
          cases hst
        · rcases List.mem_append.mp hb with hb | hb
          · have hb' : b ∈ s.stops := hf.stops ▸ hb
            rcases hclean with hstop | hr
            · rw [hstop.stops] at hb'
              cases hb'
            · have hr' : Released { s with starting := s.starting.erase c, cleanup := .running } :=
                ⟨hr.1, hr.2, hr.3, hr.4, hr.5⟩
              exact ((hr'.declines hd).declines (declines_record _ _ _ _)).stageOk _ _
          · obtain rfl := List.mem_singleton.mp hb
            have := hok _ hs
            exact ⟨this.ending, fun _ => this.lock trivial⟩
      · have : (beginStop
            { s with starting := s.starting.erase c, cleanup := .running }).1.cleanup = .finished :=
          hfin
        rw [hf.cleanup] at this
        cases this
      · rw [show _ = Call.idle from hidle] at hst
        cases hst
      · show (beginStop
          { s with starting := s.starting.erase c, cleanup := .running }).1.cleanup ≠ _
        rw [hf.cleanup]
        nofun
    · next hnone =>
      refine ⟨fun _ => .inl hidle, nofun, fun _ => ?_, fun _ _ => nofun, fun _ _ _ => nofun⟩
      exact (hcont.2.2 hnone trivial).declines (declines_record _ _ _ .finished)
  · obtain ⟨hd, hf, hq, hstage⟩ := beginStop_spec { s with starting := s.starting.erase c }
    have hs : Tracked { s with starting := s.starting.erase c } :=
      h.declines ⟨.inl rfl, .inl rfl, .inl rfl, .inl rfl, List.Subset.refl _, rfl⟩ rfl rfl rfl
        fun hr => ⟨(h.running hr).1.heartbeat, (h.running hr).1.ack, (h.running hr).1.client⟩
    refine tracked_waitBackground hs (fun ho : false = true => ?_) hd hf fun hr => ?_
    · cases ho
    refine ⟨hq (hs.running hr).1, fun stage hst => ?_, fun _ => nofun⟩
    rw [(hstage stage hst).1]
    exact ⟨nofun, nofun⟩

/-- 後始末でない `await` の後の区間は、後始末の記録を変えない。 -/
theorem tracked_proceed (acks : Bool) {outcome : Outcome} {s : LogicalReplicationClient}
    (h : Tracked s) (hc : Cleans s (.proceed outcome)) : Tracked (proceed acks outcome s) := by
  -- 後始末でない呼び出しの間は、後始末の記録は無い
  have hplain : ∀ {t : LogicalReplicationClient}, s.call ≠ .idle →
      (∀ stage, s.call ≠ .stopping stage .failed) → t.cleanup = s.cleanup → t.stops = s.stops →
        (∀ stage, t.call ≠ .stopping stage .failed) → Tracked t := by
    intro t hidle hcall hcleanup hstops htcall
    obtain ⟨hnone, hown⟩ := h.none_of_call hidle hcall
    exact Tracked.of_none (hcleanup.trans hnone) htcall (by rw [hstops]; exact hown)
  have hfail : Fails s (.proceed outcome) → s.call ≠ .idle →
      (∀ stage, s.call ≠ .stopping stage .failed) → Tracked (fail s) := fun hf hidle hcall =>
    tracked_fail (h.none_of_call hidle hcall).2 (hc hf)
  unfold proceed
  cases hcall : s.call with
  | idle => exact h
  | stopping stage after =>
    have hd := declines_resumeStop stage s
    have hf := frame_resumeStop stage s
    by_cases hafter : after = .failed
    · subst hafter
      refine tracked_waitStop h hcall hd hf fun hr => ?_
      obtain ⟨hq, hs⟩ := h.running hr
      have hstage := hs _ (mem_stages_stopping hcall)
      exact continues_resumeStop hq ⟨hstage.ending, fun _ => hstage.lock rfl⟩
    · have hne : ∀ st, s.call ≠ .stopping st .failed := by
        intro st hst
        rw [hcall] at hst
        injection hst with _ hst
        exact hafter hst
      have hidle : s.call ≠ .idle := by rw [hcall]; nofun
      dsimp only
      unfold waitStop
      split
      · refine hplain hidle hne hf.cleanup hf.stops fun st hst => ?_
        injection hst with _ hst
        exact hafter hst
      · cases after with
        | failed => exact absurd rfl hafter
        | _ => exact hplain hidle hne hf.cleanup hf.stops nofun
  | acquiring =>
    have hidle : s.call ≠ .idle := by rw [hcall]; nofun
    have hne : ∀ stage, s.call ≠ .stopping stage .failed := by rw [hcall]; nofun
    cases outcome with
    | ok => exact hplain hidle hne rfl rfl nofun
    | failed => exact hfail (.inl hcall) hidle hne
    | throws => exact hfail hcall hidle hne
  | publishing =>
    have hidle : s.call ≠ .idle := by rw [hcall]; nofun
    have hne : ∀ stage, s.call ≠ .stopping stage .failed := by rw [hcall]; nofun
    cases outcome with
    | failed => exact hfail (.inr (.inl hcall)) hidle hne
    | _ => exact hplain hidle hne rfl rfl nofun
  | slotting =>
    have hidle : s.call ≠ .idle := by rw [hcall]; nofun
    have hne : ∀ stage, s.call ≠ .stopping stage .failed := by rw [hcall]; nofun
    cases outcome with
    | ok =>
      dsimp only
      split
      · next hconn => exact hfail ⟨hcall, hconn⟩ hidle hne
      · split
        · exact hplain hidle hne rfl rfl nofun
        · exact hplain hidle hne rfl rfl nofun
    | failed => exact hfail (.inr (.inr hcall)) hidle hne
    | throws => exact hplain hidle hne rfl rfl nofun
  | elected =>
    exact hplain (by rw [hcall]; nofun) (by rw [hcall]; nofun) rfl rfl nofun
  | releasing held =>
    exact hplain (by rw [hcall]; nofun) (by rw [hcall]; nofun) rfl rfl nofun
  | _ =>
    dsimp only
    split <;> exact hplain (by rw [hcall]; nofun) (by rw [hcall]; nofun) rfl rfl nofun

/-- 条件の下で、一歩は不変条件を保つ。 -/
theorem tracked_step (acks : Bool) (s : LogicalReplicationClient) (e : Event) (h : Tracked s)
    (hc : Cleans s e) : Tracked (step acks s e) := by
  cases e with
  | subscribe => exact tracked_beginCall h nofun
  | stop => exact tracked_beginCall h nofun
  | teardown => exact tracked_beginCall h nofun
  | proceed outcome => exact tracked_proceed acks h hc
  | advance i =>
    unfold step
    dsimp only
    split
    · next b hb =>
      have hmem : b ∈ s.stops := List.mem_of_getElem? hb
      have hs : Tracked { s with stops := s.stops.eraseIdx i } := by
        refine ⟨h.call, fun hr => ?_, fun hfin => ?_, h.failed, fun e he => ?_⟩
        · obtain ⟨hq, hs⟩ := h.running hr
          refine ⟨⟨hq.heartbeat, hq.ack, hq.client⟩, fun p hp => ?_⟩
          refine StageOk.declines ?_ (declines_record s s.call (s.stops.eraseIdx i) s.cleanup)
          rcases mem_stages hp with ⟨stage, after, hcall, rfl⟩ | ⟨e, he, rfl⟩
          · exact hs _ (mem_stages_stopping hcall)
          · exact hs _ (mem_stages_stops (List.mem_of_mem_eraseIdx he))
        · exact (h.finished hfin).declines (declines_record s s.call (s.stops.eraseIdx i) s.cleanup)
        · exact h.own e (List.mem_of_mem_eraseIdx he)
      refine tracked_waitBackground hs (h.own b hmem)
        (declines_resumeStop b.stage _) (frame_resumeStop b.stage _) fun hr => ?_
      refine continues_resumeStop (hs.running hr).1 ?_
      exact ((h.running hr).2 _ (mem_stages_stops hmem)).declines
        (declines_record s s.call (s.stops.eraseIdx i) s.cleanup)
    · exact h
  | replicationStart k =>
    unfold step
    dsimp only
    split
    · exact h.declines ⟨.inl rfl, .inl rfl, .inl rfl, .inl rfl, List.Subset.refl _, rfl⟩ rfl rfl rfl
        fun hr => ⟨(h.running hr).1.heartbeat, (h.running hr).1.ack, (h.running hr).1.client⟩
    · exact h
  | reject c =>
    unfold step
    dsimp only
    split
    · next hmem => exact tracked_rejectStart h fun hown => hc ⟨hmem, hown⟩
    · exact h

/--
**どの失敗も `_isStopped` が偽のとき（ほかの `stop` が途中になく、その `subscribe` の client が `client` のまま
か終わっているとき）か、放すものが無いときに起きる実行では、後始末の `stop` が終わったどの状態でも、lock は
解放され、二つの timer は止まり、client は終わって `null` である。**
-/
theorem failed_subscribe_releases (acks : Bool) (es : List Event)
    (h : Along (step acks) Cleans init es) :
    Throughout (step acks) (fun s => s.cleanup = .finished → Released s) init es :=
  (throughout_of_along (tracked_step acks) tracked_init h).mono fun _ ht => ht.finished

/-- 始まった後に `START_REPLICATION` が失敗する実行。 -/
def rejectedRun : List Event :=
  [.subscribe, .proceed .ok, .proceed .ok, .proceed .ok, .proceed .ok, .proceed .ok, .proceed .ok,
    .replicationStart 0, .reject 0, .advance 0, .advance 0]

instance (s : LogicalReplicationClient) : Decidable s.Stoppable :=
  decidable_of_iff
    (s.isStopped = false ∧ s.stops = [] ∧ ∀ c ∈ s.own, s.client = some c ∨ c ∈ s.ended)
    ⟨fun h => ⟨h.1, h.2.1, h.2.2⟩, fun h => ⟨h.1, h.2, h.3⟩⟩

instance (s : LogicalReplicationClient) : (e : Event) → Decidable (Fails s e)
  | .proceed .ok => inferInstanceAs (Decidable (_ ∧ _))
  | .proceed .failed => inferInstanceAs (Decidable (_ ∨ _ ∨ _))
  | .proceed .throws => inferInstanceAs (Decidable (_ = _))
  | .reject _ => inferInstanceAs (Decidable (_ ∧ _))
  | .subscribe => isFalse nofun
  | .stop => isFalse nofun
  | .teardown => isFalse nofun
  | .advance _ => isFalse nofun
  | .replicationStart _ => isFalse nofun

instance (s : LogicalReplicationClient) (e : Event) : Decidable (Cleans s e) :=
  inferInstanceAs (Decidable (_ → _))

theorem failed_subscribe_releases_rejectedRun :
    (exec (step true) init rejectedRun).cleanup = .finished ∧
      Throughout (step true) (fun s => s.cleanup = .finished → Released s) init rejectedRun :=
  ⟨by decide, failed_subscribe_releases true rejectedRun (by decide)⟩

/-- publication の無い `subscribe` は、lock と timer と client を持ったまま返る。 -/
theorem failed_holds : ∃ es, (exec (step true) init es).cleanup = .finished ∧
    (exec (step true) init es).call = .idle ∧ (exec (step true) init es).leaderLock = true ∧
      (exec (step true) init es).leaderLockHeartbeatTimer = true ∧
        (exec (step true) init es).client = some 0 :=
  ⟨[.subscribe, .proceed .ok, .proceed .ok, .proceed .ok, .proceed .ok, .proceed .failed],
    by decide⟩

end LogicalReplicationClient

end Replication
