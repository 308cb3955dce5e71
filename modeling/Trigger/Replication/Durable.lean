import Trigger.Infra.Machine
import Trigger.Replication.Pipeline

/-!
# acknowledge された変更の永続性

`acknowledge` に渡された LSN 以下の変更が、ClickHouse に書かれている（同じ run の新しい変更に取って代わられている）
ための条件。`#acknowledgeLatestTransaction` は最後に commit された LSN を、keepalive への応答は keepalive の LSN を、
batch や flush に残っている変更を見ずに渡す。
-/

namespace Replication

open Infra Infra.Machine

variable {J : Type} {o : Options J} {s : ServiceState J}

/-- 変更の行と payload が ClickHouse にある。 -/
def Inserted (o : Options J) (s : ServiceState J) (x : TaskRunInsert J) : Prop :=
  (∃ row, taskRunInsertOf o x = some row ∧ ∃ block ∈ s.taskRuns, row ∈ block) ∧
    ∀ p, payloadInsertOf o x = some p → p ∈ s.payloads

/-- LSN が acknowledge された変更。 -/
def Acknowledged (s : ServiceState J) (x : TaskRunInsert J) : Prop :=
  ∃ lsn ∈ s.acknowledged, x.version ≤ lsnToUInt64 lsn

/-- acknowledge された変更は、書かれたか、同じ run の書かれた新しい変更に取って代わられた。 -/
def Durable (o : Options J) (s : ServiceState J) : Prop :=
  Represented (Acknowledged s) (Inserted o s) SameRun s.log

/-! ## 条件 -/

/--
まだ書かれない変更。key が無い変更、行にならない変更、batch・flush・諦めた挿入にある変更と、
batch の中でこれらに置き換えられた変更である。
-/
def Waiting (s : ServiceState J) (x : TaskRunInsert J) : Prop :=
  getKey x = none ∨ ∃ y ∈ s.log, SameKey x y ∧ x.version ≤ y.version ∧
    (Outstanding s y ∨ recordedIn y.run = none)

/-- LSN 以下の書かれない変更には、同じ run の書かれた新しい変更がある。 -/
def Settled (o : Options J) (s : ServiceState J) (lsn : Lsn) : Prop :=
  Represented (fun x => Waiting s x ∧ x.version ≤ lsnToUInt64 lsn) (Inserted o s) SameRun s.log

/-- acknowledge 済みの LSN 以下で commit された変更は、既に書かれている。 -/
def Replayed (o : Options J) (s : ServiceState J) (lsn : Lsn) (events : List (TransactionEvent J)) :
    Prop :=
  (∃ a ∈ s.acknowledged, lsnToUInt64 lsn ≤ lsnToUInt64 a) →
    Represented (·.version = lsnToUInt64 lsn) (Inserted o s) SameRun
      (itemsOf lsn events ++ s.log.dropWhile (·.version ≤ lsnToUInt64 lsn))

/-- 一段の条件。 -/
def Safe (o : Options J) (s : ServiceState J) : Label J → Prop
  | .commit (some lsn) =>
    ∀ events, s.currentTransaction = some events → events ≠ [] → Replayed o s lsn events
  | .heartbeat lsn true => Settled o s lsn
  | .acknowledgeTick now => ∀ lsn, acknowledgeable o now s = some lsn → Settled o s lsn
  | _ => True

/-! ## 書かれた変更 -/

theorem inserted_of_stored {y : TaskRunInsert J} (h : Pipeline o s) (hy : Stored o s y)
    (hrec : recordedIn y.run ≠ none) : Inserted o s y := by
  obtain ⟨⟨b, hb, hmem⟩, hpayload⟩ := hy
  obtain ⟨r, hr⟩ := Option.ne_none_iff_exists'.mp hrec
  have hrow : taskRunInsertOf o y = some (prepareTaskRunInsert o y.run r.2 r.1 y.event y.version) := by
    unfold taskRunInsertOf
    rw [hr, Option.map_some]
  refine ⟨⟨_, hrow, taskRunInserts o b, ?_, mem_taskRunInserts.mpr ⟨y, hmem, hrow⟩⟩, hpayload⟩
  rw [h.blocks]
  exact List.mem_map_of_mem hb

/-- 書かれない変更でなければ、その変更か、後の同じ key の変更が書かれている。 -/
theorem inserted_of_not_waiting (h : Pipeline o s) {x : TaskRunInsert J}
    {rest : List (TaskRunInsert J)} (hsuf : x :: rest <:+ s.log) (hx : ¬ Waiting s x) :
    ∃ y ∈ x :: rest, SameRun x y ∧ Inserted o s y := by
  have hkey : getKey x ≠ none := fun hnone => hx (.inl hnone)
  obtain ⟨y, hy, hxy, hcarried⟩ := h.carried.of_suffix hsuf hkey
  have hle : x.version ≤ y.version := by
    have hordered := h.inOrder.sublist hsuf.sublist
    rcases List.mem_cons.mp hy with rfl | hy
    · exact le_refl _
    · exact (List.pairwise_cons.mp hordered).1 y hy
  have hlog : y ∈ s.log := hsuf.subset hy
  refine ⟨y, hy, hxy.sameRun hkey, ?_⟩
  rcases hcarried with hout | hstored
  · exact absurd (.inr ⟨y, hlog, hxy, hle, .inl hout⟩) hx
  · refine inserted_of_stored h hstored fun hnone => hx ?_
    exact .inr ⟨y, hlog, hxy, hle, .inr hnone⟩

/-! ## 一段 -/

theorem durable_acknowledge_iff (h : Pipeline o s) (hd : Durable o s) {lsn : Lsn} :
    Represented (fun x => Acknowledged s x ∨ x.version ≤ lsnToUInt64 lsn) (Inserted o s) SameRun s.log ↔
      Settled o s lsn := by
  constructor
  · intro hnext
    exact hnext.mono (fun x hx => .inr hx.2) fun _ => id
  · intro hsettled
    refine Represented.of_forall fun x rest hsuf hx => ?_
    rcases hx with hx | hx
    · exact hd.of_suffix hsuf hx
    · by_cases hwait : Waiting s x
      · exact hsettled.of_suffix hsuf ⟨hwait, hx⟩
      · exact inserted_of_not_waiting h hsuf hwait

theorem acknowledged_append {lsn : Lsn} {s' : ServiceState J}
    (hack : s'.acknowledged = s.acknowledged ++ [lsn]) {x : TaskRunInsert J} :
    Acknowledged s' x ↔ Acknowledged s x ∨ x.version ≤ lsnToUInt64 lsn := by
  unfold Acknowledged
  rw [hack]
  simp only [List.mem_append, List.mem_singleton]
  constructor
  · rintro ⟨a, ha | rfl, hle⟩
    · exact .inl ⟨a, ha, hle⟩
    · exact .inr hle
  · rintro (⟨a, ha, hle⟩ | hle)
    · exact ⟨a, .inl ha, hle⟩
    · exact ⟨lsn, .inr rfl, hle⟩

/-- commit された変更が記録に加わる。 -/
theorem durable_record_iff (hd : Durable o s) {lsn : Lsn} {events : List (TransactionEvent J)} :
    Represented (Acknowledged s) (Inserted o s) SameRun (record lsn (itemsOf lsn events) s.log) ↔
      Replayed o s lsn events := by
  have hsplit := List.takeWhile_append_dropWhile (p := (·.version ≤ lsnToUInt64 lsn)) (l := s.log)
  have hold : Represented (Acknowledged s) (Inserted o s) SameRun s.log := hd
  rw [← hsplit] at hold
  constructor
  · rintro hnext ⟨a, ha, hle⟩
    unfold record at hnext
    rw [List.append_assoc] at hnext
    refine (hnext.suffix (List.suffix_append _ _)).mono (fun x hx => ?_) fun _ => id
    exact ⟨a, ha, (le_of_eq hx).trans hle⟩
  · intro hreplayed
    refine Represented.insert sameRun_trans (fun _ _ => id) ?_ (fun _ _ => .inl) hold
    refine Represented.append_of_forall (hold.suffix (List.suffix_append _ _)) ?_
    rintro x rest hsuf ⟨a, ha, hle⟩
    have hv : x.version = lsnToUInt64 lsn :=
      version_of_mem_itemsOf (hsuf.subset List.mem_cons_self)
    obtain ⟨t, ht⟩ := hsuf
    have hsuf' : x :: (rest ++ s.log.dropWhile (·.version ≤ lsnToUInt64 lsn)) <:+
        itemsOf lsn events ++ s.log.dropWhile (·.version ≤ lsnToUInt64 lsn) :=
      ⟨t, by rw [← ht, List.append_assoc, List.cons_append]⟩
    rw [hv] at hle
    obtain ⟨y, hy, hxy, hins⟩ := (hreplayed ⟨a, ha, hle⟩).of_suffix hsuf' hv
    rw [← List.cons_append] at hy
    rcases List.mem_append.mp hy with hy | hy
    · exact .inl ⟨y, hy, hxy, hins⟩
    · exact .inr ⟨y, hy, hxy, hins⟩

theorem durable_flushNextBatch_iff : Durable o (flushNextBatch s) ↔ Durable o s := by
  unfold flushNextBatch
  split <;> exact Iff.rfl

theorem durable_commit_iff (hd : Durable o s) {commitEndLsn : Option Lsn} :
    Durable o (handleCommit o commitEndLsn s) ↔ Safe o s (.commit commitEndLsn) := by
  unfold handleCommit
  cases htx : s.currentTransaction with
  | none =>
    refine ⟨fun _ => ?_, fun _ => hd⟩
    cases commitEndLsn with
    | none => trivial
    | some lsn =>
      intro events hevents
      rw [htx] at hevents
      cases hevents
  | some events =>
    simp only
    cases commitEndLsn with
    | none => cases events <;> exact ⟨fun _ => trivial, fun _ => hd⟩
    | some lsn =>
      cases events with
      | nil =>
        refine ⟨fun _ events hevents hne => ?_, fun _ => hd⟩
        rw [htx] at hevents
        cases hevents
        exact absurd rfl hne
      | cons e events =>
        have hsafe : Safe o s (.commit (some lsn)) ↔ Replayed o s lsn (e :: events) := by
          refine ⟨fun h => h _ htx (List.cons_ne_nil e events), fun h events' hevents _ => ?_⟩
          rw [htx] at hevents
          cases hevents
          exact h
        rw [hsafe, ← durable_record_iff hd]
        unfold handleTransaction addToBatch
        simp only
        split
        · exact durable_flushNextBatch_iff
        · exact Iff.rfl

theorem Inserted.mono {s' : ServiceState J} {x : TaskRunInsert J}
    (hrows : ∀ block ∈ s.taskRuns, block ∈ s'.taskRuns) (hpayloads : ∀ p ∈ s.payloads, p ∈ s'.payloads)
    (h : Inserted o s x) : Inserted o s' x := by
  obtain ⟨⟨row, hrow, block, hblock, hmem⟩, hpayload⟩ := h
  exact ⟨⟨row, hrow, block, hrows block hblock, hmem⟩, fun p hp => hpayloads p (hpayload p hp)⟩

/-- 書かれた行は増えるだけである。 -/
theorem durable_of_grow {s' : ServiceState J} (hlog : s'.log = s.log)
    (hack : s'.acknowledged = s.acknowledged) (hrows : ∀ block ∈ s.taskRuns, block ∈ s'.taskRuns)
    (hpayloads : ∀ p ∈ s.payloads, p ∈ s'.payloads) (hd : Durable o s) : Durable o s' := by
  unfold Durable
  rw [hlog]
  refine Represented.mono (fun x hx => ?_) (fun x hx => hx.mono hrows hpayloads) hd
  unfold Acknowledged at hx ⊢
  rwa [hack] at hx

theorem durable_startFlush (hd : Durable o s) : Durable o (startFlush o s) := by
  rcases startFlush_cases o s with heq | ⟨i, f, -, -, heq | ⟨-, heq⟩⟩ <;> rw [heq]
  · exact hd
  · exact hd
  · exact hd

theorem durable_finishAttempt (hd : Durable o s) (i : Nat) (outcome : InsertOutcome) :
    Durable o (finishAttempt o i outcome s) := by
  unfold finishAttempt insertTaskRunInserts insertPayloadInserts
  split
  · refine durable_of_grow ?_ ?_ ?_ ?_ hd
    · split <;> rfl
    · split <;> rfl
    · intro block hblock
      split
      · exact List.mem_append_left _ hblock
      · exact hblock
    · intro p hp
      split <;> exact hp
  · simp only
    split
    all_goals
      refine durable_of_grow ?_ ?_ ?_ ?_ hd
      · split <;> rfl
      · split <;> rfl
      · intro block hblock
        split <;> exact hblock
      · intro p hp
        split
        · exact List.mem_append_left _ hp
        · exact hp
  · exact hd

/-- 一段が永続性を保つのは、条件の下であり、そのときに限る。 -/
theorem durable_step_iff (h : Pipeline o s) (hd : Durable o s) (l : Label J) :
    Durable o (step o s l) ↔ Safe o s l := by
  cases l with
  | begin => exact ⟨fun _ => trivial, fun _ => hd⟩
  | change tag run => exact ⟨fun _ => trivial, fun _ => hd⟩
  | commit lsn => exact durable_commit_iff hd
  | heartbeat lsn shouldRespond =>
    cases shouldRespond with
    | false => exact ⟨fun _ => trivial, fun _ => hd⟩
    | true =>
      refine Iff.trans ?_ (durable_acknowledge_iff h hd)
      exact ⟨fun hn => hn.mono (fun _ hx => (acknowledged_append rfl).mpr hx) fun _ => id,
        fun hn => hn.mono (fun _ hx => (acknowledged_append rfl).mp hx) fun _ => id⟩
  | flushTick => exact ⟨fun _ => trivial, fun _ => durable_flushNextBatch_iff.mpr hd⟩
  | acknowledgeTick now =>
    simp only [step, acknowledgeLatestTransaction]
    cases hack : acknowledgeable o now s with
    | none =>
      refine ⟨fun _ lsn hlsn => ?_, fun _ => hd⟩
      rw [hack] at hlsn
      cases hlsn
    | some lsn =>
      have hsafe : Safe o s (.acknowledgeTick now) ↔ Settled o s lsn := by
        refine ⟨fun hs => hs lsn hack, fun hs lsn' hlsn => ?_⟩
        rw [hack] at hlsn
        cases hlsn
        exact hs
      rw [hsafe, ← durable_acknowledge_iff h hd]
      exact ⟨fun hn => hn.mono (fun _ hx => (acknowledged_append rfl).mpr hx) fun _ => id,
        fun hn => hn.mono (fun _ hx => (acknowledged_append rfl).mp hx) fun _ => id⟩
  | startFlush => exact ⟨fun _ => trivial, fun _ => durable_startFlush hd⟩
  | finishAttempt i outcome => exact ⟨fun _ => trivial, fun _ => durable_finishAttempt hd i outcome⟩

/-- **acknowledge された変更が常に永続的なのは、どの一段も条件を満たすとき、そのときに限る。** -/
theorem durable_iff (o : Options J) (ls : List (Label J)) :
    Throughout (step o) (Durable o) {} ls ↔ Along (step o) (Safe o) {} ls := by
  refine throughout_iff_along (I := Pipeline o) (fun s l hs => hs.step l) ?_ (Pipeline.init o) ?_
  · exact fun s l hs hd => durable_step_iff hs hd l
  · exact trivial

/-! ## 永続的でない実行 -/

/-- 既定の設定。文字列はそのまま読まれる。 -/
def plainOptions : Options String where
  detectBadJsonStrings _ := false
  parsePacketAsJson data _ := some data

/-- 作られたばかりの run。 -/
def createdRun (id : String) (environmentType organizationId : Option String) :
    PostgresTaskRun String where
  id := id
  runtimeEnvironmentId := "env"
  environmentType := environmentType
  organizationId := organizationId
  projectId := "project"
  updatedAt := 0
  createdAt := 0
  status := "PENDING"
  friendlyId := "run_1"
  attemptNumber := none
  engine := "V2"
  taskIdentifier := "task"
  queue := "task/task"
  scheduleId := none
  batchId := none
  completedAt := none
  startedAt := none
  executedAt := none
  delayUntil := none
  queuedAt := none
  expiredAt := none
  usageDurationMs := 0
  costInCents := 0
  baseCostInCents := 0
  output := none
  outputType := "application/json"
  error := none
  runTags := []
  taskVersion := none
  sdkVersion := none
  cliVersion := none
  machinePreset := none
  rootTaskRunId := none
  parentTaskRunId := none
  depth := 0
  spanId := "span"
  traceId := "trace"
  idempotencyKey := none
  idempotencyKeyOptions := none
  ttl := none
  isTest := false
  concurrencyKey := none
  bulkActionGroupIds := []
  masterQueue := none
  maxDurationInSeconds := none
  payload := none
  payloadType := "application/json"

/-- 一つの run を作る transaction。 -/
def creation : List (Label String) :=
  [.begin, .change .insert (createdRun "a" (some "PRODUCTION") (some "org")), .commit (some ⟨0, 1⟩)]

theorem not_durable_of_acknowledged {l : Label String}
    (hlog : (exec (step plainOptions) {} (creation ++ [l])).log =
      [⟨1, createdRun "a" (some "PRODUCTION") (some "org"), .insert⟩])
    (hrows : (exec (step plainOptions) {} (creation ++ [l])).taskRuns = [])
    (hack : (exec (step plainOptions) {} (creation ++ [l])).acknowledged = [⟨0, 1⟩]) :
    ¬ Throughout (step plainOptions) (Durable plainOptions) {} (creation ++ [l]) := by
  intro h
  have hd := h.last
  unfold Durable at hd
  rw [hlog] at hd
  have hone : lsnToUInt64 ⟨0, 1⟩ = 1 := by decide
  obtain ⟨y, -, -, ⟨row, -, block, hblock, -⟩, -⟩ :=
    hd.1 ⟨⟨0, 1⟩, by rw [hack]; exact List.mem_cons_self, hone.ge⟩
  rw [hrows] at hblock
  cases hblock

/-- batch に変更が残ったまま、timer も keepalive への応答もその LSN を acknowledge する。 -/
theorem acknowledged_before_inserted :
    ¬ Throughout (step plainOptions) (Durable plainOptions) {}
      (creation ++ [Label.acknowledgeTick 0]) ∧
    ¬ Throughout (step plainOptions) (Durable plainOptions) {}
      (creation ++ [Label.heartbeat ⟨0, 1⟩ true]) :=
  ⟨not_durable_of_acknowledged rfl rfl rfl, not_durable_of_acknowledged rfl rfl rfl⟩

end Replication
