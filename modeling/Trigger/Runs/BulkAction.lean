import Trigger.Infra.Machine
import Trigger.Runs.Pages

/-!
# bulk action

`BulkActionV2.server.ts`。条件に合う run を id の大きい順に `BULK_ACTION_BATCH_SIZE` 個ずつ処理する。次の job は、処理した
最後の id を cursor として始まる。

job の間にも run は作られ、状態は変わる。worker が途中で止まれば、job は同じ cursor から始まる。

* `processed_once` — 途中で止まらなければ、どの run も高々一度だけ処理される
* `processed_all` — 終わったときには、ずっと条件に合っていた run はすべて処理されている
* `process_terminates` — 処理した run の数だけ job を行えば終わる
-/

namespace Runs.BulkAction

open Infra.Keyset Infra.Machine

variable {ι : Type} [LinearOrder ι]

/-! ## 状態 -/

/-- `BulkActionStatus`。 -/
inductive Status
  | pending
  | completed
  | aborted
deriving DecidableEq

/-- `bulkActionGroup` の列。 -/
structure Group (ι : Type) where
  status : Status := .pending
  cursor : Option ι := none
  successCount : Nat := 0
  failureCount : Nat := 0

structure State (ι : Type) where
  /-- すべての run。 -/
  rows : List (Row ι)
  group : Group ι := {}
  /-- service に渡した run を、渡した順に並べたもの。 -/
  processed : List ι := []

/-- 一つの job で起きること、または job の間に起きること。 -/
inductive Event (ι : Type)
  /-- job。`found` は replica にある run、`succeeds` は service が成功する run である。 -/
  | process (repository : Repository) (found succeeds : ι → Bool)
  /-- `reached` の run を処理したところで止まった job。 -/
  | interrupted (repository : Repository) (found reached : ι → Bool)
  | create (row : Row ι)
  | update (id : ι) (status : String)
  | abort

section Step

variable (filters : Row ι → Bool) (size : Nat)

/-- `runIdsToProcess`。 -/
def runIdsToProcess (s : State ι) (repository : Repository) : List ι :=
  let rows := s.rows.filter filters
  (listRunIds ⟨rows, rows, s.rows⟩ { size, cursor := s.group.cursor } repository).take size

/-- `BulkActionService.process`。 -/
def process (s : State ι) (repository : Repository) (found succeeds : ι → Bool) : State ι :=
  if s.group.status = .aborted then s
  else
    let ids := runIdsToProcess filters size s repository
    let runs := ids.filter found
    { s with
      group :=
        { cursor := ids.getLast?.or s.group.cursor
          successCount := s.group.successCount + runs.countP succeeds
          failureCount := s.group.failureCount + runs.countP (!succeeds ·)
          status := if ids = [] then .completed else s.group.status }
      processed := s.processed ++ runs }

/-- 止まった job は、`bulkActionGroup` を更新しない。 -/
def interrupted (s : State ι) (repository : Repository) (found reached : ι → Bool) : State ι :=
  if s.group.status = .aborted then s
  else
    let runs := (runIdsToProcess filters size s repository).filter found
    { s with processed := s.processed ++ runs.filter reached }

/-- `BulkActionService.abort`。既に終わっていれば例外になる。 -/
def abort (s : State ι) : State ι :=
  if s.group.status = .pending then { s with group := { s.group with status := .aborted } } else s

def step (s : State ι) : Event ι → State ι
  | .process repository found succeeds => process filters size s repository found succeeds
  | .interrupted repository found reached => interrupted filters size s repository found reached
  | .create row => { s with rows := row :: s.rows }
  | .update id status =>
    { s with rows := s.rows.map fun row => if row.id = id then { row with status } else row }
  | .abort => abort s

end Step

/-- 作られたばかりの bulk action。 -/
def initial (rows : List (Row ι)) : State ι := { rows }

/-- 作られる run は、既にある run より新しい。 -/
def Newest (s : State ι) : Event ι → Prop
  | .create row => ∀ other ∈ s.rows, other.id < row.id ∧ other.createdAt ≤ row.createdAt
  | _ => True

/-! ## 一つの job -/

variable {filters : Row ι → Bool} {size : Nat} {s : State ι}

/-- 条件に合い、cursor より後ろにある run の id。 -/
def remaining (filters : Row ι → Bool) (s : State ι) : List ι :=
  after (descending ((s.rows.filter filters).map (·.id))) s.group.cursor

theorem runIdsToProcess_eq (h : Chronological s.rows) (repository : Repository) :
    runIdsToProcess filters size s repository = (remaining filters s).take size := by
  have hdirection : (none : Option Direction) ≠ some .backward := fun h => by cases h
  have hids : listRunIds ⟨s.rows.filter filters, s.rows.filter filters, s.rows⟩
      { size, cursor := s.group.cursor } repository = (remaining filters s).take (size + 1) := by
    cases repository with
    | clickhouse => exact ClickHouse.listRunIds_forward (h.filter filters) _ hdirection
    | postgres => exact Postgres.listRunIds_forward (h.filter filters).nodup _ hdirection
  unfold runIdsToProcess
  dsimp only
  rw [hids, List.take_take, Nat.min_eq_left (Nat.le_succ size)]

theorem falling_remaining (h : Chronological s.rows) : Falling (remaining filters s) := by
  have hids := falling_descending (h.filter filters).nodup
  unfold remaining
  cases s.group.cursor with
  | none => exact hids
  | some c => exact hids.filter _

/-- cursor より後ろにある。 -/
def Below (cursor : Option ι) (id : ι) : Prop := ∀ c, cursor = some c → id < c

theorem mem_remaining {id : ι} : id ∈ remaining filters s ↔
    (∃ row ∈ s.rows, row.id = id ∧ filters row) ∧ Below s.group.cursor id := by
  have hids : id ∈ descending ((s.rows.filter filters).map (·.id)) ↔
      ∃ row ∈ s.rows, row.id = id ∧ filters row := by
    rw [mem_descending, List.mem_map]
    constructor
    · rintro ⟨row, hrow, rfl⟩
      obtain ⟨hrow, hfilters⟩ := List.mem_filter.mp hrow
      exact ⟨row, hrow, rfl, hfilters⟩
    · rintro ⟨row, hrow, rfl, hfilters⟩
      exact ⟨row, List.mem_filter.mpr ⟨hrow, hfilters⟩, rfl⟩
  unfold remaining Below
  cases s.group.cursor with
  | none => simpa [after] using hids
  | some c =>
    show id ∈ (descending ((s.rows.filter filters).map (·.id))).filter (· < c) ↔ _
    rw [List.mem_filter, hids, decide_eq_true_eq]
    exact and_congr_right fun _ => ⟨fun h _ heq => Option.some.inj heq ▸ h, fun h => h c rfl⟩

/-- job の最後の id は、残りのうちでまだ処理していないものより大きい。 -/
theorem lt_getLast (h : Chronological s.rows) {id last : ι}
    (hlast : ((remaining filters s).take size).getLast? = some last)
    (hid : id ∈ (remaining filters s).drop size) : id < last := by
  have hfalling := @falling_remaining _ _ filters _ h
  rw [← List.take_append_drop size (remaining filters s)] at hfalling
  exact (List.pairwise_append.mp hfalling).2.2 last (List.mem_of_getLast? hlast) id hid

theorem getLast_le (h : Chronological s.rows) {id last : ι}
    (hlast : ((remaining filters s).take size).getLast? = some last)
    (hid : id ∈ (remaining filters s).take size) : last ≤ id := by
  have hfalling := (@falling_remaining _ _ filters _ h).take size
  obtain ⟨front, heq⟩ := List.getLast?_eq_some_iff.mp hlast
  rw [heq] at hfalling hid
  rcases List.mem_append.mp hid with hid | hid
  · exact ((List.pairwise_append.mp hfalling).2.2 id hid last (List.mem_singleton_self _)).le
  · rw [List.mem_singleton.mp hid]

/-! ## どの event でも保たれること -/

theorem rows_process (repository : Repository) (found succeeds : ι → Bool) :
    (process filters size s repository found succeeds).rows = s.rows := by
  unfold process
  split <;> rfl

theorem rows_interrupted (repository : Repository) (found reached : ι → Bool) :
    (interrupted filters size s repository found reached).rows = s.rows := by
  unfold interrupted
  split <;> rfl

theorem rows_abort {ι : Type} (s : State ι) : (abort s).rows = s.rows := by
  unfold abort
  split <;> rfl

theorem map_id_update (rows : List (Row ι)) (id : ι) (status : String) :
    (rows.map fun row => if row.id = id then { row with status } else row).map (·.id) =
      rows.map (·.id) := by
  rw [List.map_map]
  refine List.map_congr_left fun row _ => ?_
  rw [Function.comp_apply]
  split <;> rfl

theorem chronological_step (h : Chronological s.rows) {e : Event ι} (he : Newest s e) :
    Chronological (step filters size s e).rows := by
  cases e with
  | process repository found succeeds =>
    show Chronological (process filters size s repository found succeeds).rows
    rw [rows_process]
    exact h
  | interrupted repository found reached =>
    show Chronological (interrupted filters size s repository found reached).rows
    rw [rows_interrupted]
    exact h
  | abort =>
    show Chronological (abort s).rows
    rw [rows_abort]
    exact h
  | create row =>
    refine ⟨List.nodup_cons.mpr ⟨fun hmem => ?_, h.nodup⟩, fun a ha b hb hlt => ?_⟩
    · obtain ⟨other, hother, heq⟩ := List.mem_map.mp hmem
      exact absurd heq (ne_of_lt (he other hother).1)
    · rcases List.mem_cons.mp hb with rfl | hbold
      · rcases List.mem_cons.mp ha with rfl | haold
        · exact absurd hlt (lt_irrefl _)
        · exact (he a haold).1
      · rcases List.mem_cons.mp ha with rfl | haold
        · exact absurd hlt (not_lt_of_ge (he b hbold).2)
        · exact h.mono a haold b hbold hlt
  | update id status =>
    have hrow : ∀ a ∈ (step filters size s (.update id status)).rows,
        ∃ a' ∈ s.rows, a'.id = a.id ∧ a'.createdAt = a.createdAt := by
      intro a ha
      obtain ⟨a', ha', rfl⟩ := List.mem_map.mp ha
      exact ⟨a', ha', by split <;> rfl, by split <;> rfl⟩
    refine ⟨?_, fun a ha b hb hlt => ?_⟩
    · show ((s.rows.map _).map _).Nodup
      rw [map_id_update]
      exact h.nodup
    · obtain ⟨a', ha', hid, hcreated⟩ := hrow a ha
      obtain ⟨b', hb', hid', hcreated'⟩ := hrow b hb
      rw [← hid, ← hid']
      rw [← hcreated, ← hcreated'] at hlt
      exact h.mono a' ha' b' hb' hlt

/-! ## 高々一度 -/

/-- 途中で止まらない。 -/
def Uninterrupted : Event ι → Prop
  | .interrupted .. => False
  | _ => True

/-- 処理した run は id の大きい順に並び、cursor まで進んでいる。 -/
structure Once (s : State ι) : Prop where
  chronological : Chronological s.rows
  falling : Falling s.processed
  reached : ∀ id ∈ s.processed, ∃ c, s.group.cursor = some c ∧ c ≤ id
  counted : s.group.successCount + s.group.failureCount = s.processed.length

theorem Once.process (h : Once s) (repository : Repository) (found succeeds : ι → Bool) :
    Once (process filters size s repository found succeeds) := by
  unfold BulkAction.process
  split
  · exact h
  · have hids := @runIdsToProcess_eq _ _ filters size _ h.chronological repository
    have hbelow : ∀ id ∈ runIdsToProcess filters size s repository, Below s.group.cursor id := by
      intro id hid
      rw [hids] at hid
      exact (mem_remaining.mp (List.mem_of_mem_take hid)).2
    have hfalling : Falling (runIdsToProcess filters size s repository) := by
      rw [hids]
      exact (falling_remaining h.chronological).take size
    refine ⟨h.chronological,
      List.pairwise_append.mpr ⟨h.falling, hfalling.filter found, ?_⟩, ?_, ?_⟩
    · intro id hid id' hid'
      obtain ⟨c, hc, hle⟩ := h.reached id hid
      exact (hbelow id' (List.mem_of_mem_filter hid') c hc).trans_le hle
    · intro id hid
      dsimp only at hid ⊢
      cases hlast : (runIdsToProcess filters size s repository).getLast? with
      | none =>
        rw [List.getLast?_eq_none_iff.mp hlast, List.filter_nil, List.append_nil] at hid
        exact h.reached id hid
      | some last =>
        refine ⟨last, rfl, ?_⟩
        rcases List.mem_append.mp hid with hid | hid
        · obtain ⟨c, hc, hle⟩ := h.reached id hid
          exact (hbelow last (List.mem_of_getLast? hlast) c hc).le.trans hle
        · rw [hids] at hid hlast
          exact getLast_le h.chronological hlast (List.mem_of_mem_filter hid)
    · dsimp only
      have hcount := List.length_eq_countP_add_countP succeeds
        (l := (runIdsToProcess filters size s repository).filter found)
      rw [List.length_append, ← h.counted, hcount]
      simp only [Bool.not_eq_true, Bool.decide_eq_false]
      omega

theorem Once.step (h : Once s) {e : Event ι} (he : Newest s e ∧ Uninterrupted e) :
    Once (step filters size s e) := by
  have hrows := @chronological_step _ _ filters size _ h.chronological _ he.1
  cases e with
  | process repository found succeeds => exact h.process repository found succeeds
  | interrupted => exact he.2.elim
  | create | update => exact ⟨hrows, h.falling, h.reached, h.counted⟩
  | abort =>
    show Once (BulkAction.abort s)
    unfold BulkAction.abort
    split
    · exact ⟨h.chronological, h.falling, h.reached, h.counted⟩
    · exact h

/-- **途中で止まらない job の列では、どの run も高々一度だけ処理され、成功と失敗の数の和は処理した run の数である。** -/
theorem processed_once {rows : List (Row ι)} (hrows : Chronological rows) {es : List (Event ι)}
    (h : Along (step filters size) (fun s e => Newest s e ∧ Uninterrupted e) (initial rows) es) :
    let s := exec (step filters size) (initial rows) es
    s.processed.Nodup ∧ s.group.successCount + s.group.failureCount = s.processed.length := by
  have hinit : Once (initial rows) :=
    ⟨hrows, List.Pairwise.nil, fun _ hid => absurd hid List.not_mem_nil, rfl⟩
  have honce : Once (exec (step filters size) (initial rows) es) :=
    Along.invariant (I := Once) (fun _ _ hs he => hs.step he) hinit h
  exact ⟨honce.falling.nodup, honce.counted⟩

/-- 状態が変わり、replica に無い run があり、run が作られる間の四つの job。 -/
def sampleEvents : List (Event Nat) :=
  [.create ⟨6, 50, "PENDING"⟩, .process .clickhouse (fun _ => true) (· < 6), .update 5 "COMPLETED",
    .process .postgres (· ≠ 3) (fun _ => true),
    .process .clickhouse (fun _ => true) (fun _ => true),
    .process .clickhouse (fun _ => true) (fun _ => true)]

theorem newest_sampleEvents (filters : Row Nat → Bool) :
    Along (step filters 2) Newest (initial sampleRows) sampleEvents :=
  have hnewest : ∀ other ∈ sampleRows, other.id < 6 ∧ other.createdAt ≤ 50 := by decide
  ⟨hnewest, trivial, trivial, trivial, trivial, trivial, trivial⟩

theorem processed_once_sample :
    let s := exec (step (fun _ => true) 2) (initial sampleRows) sampleEvents
    s.processed.Nodup ∧ s.group.successCount + s.group.failureCount = s.processed.length :=
  have hfree : ∀ e ∈ sampleEvents, ∀ _ : State Nat, Uninterrupted e := by
    simp [sampleEvents, Uninterrupted]
  processed_once caughtUp_sampleStores.chronological
    ((newest_sampleEvents _).and (Along.of_mem hfree))

/-! ## 処理し残さないこと -/

/-- どの job でも、その run は条件に合い、replica にある。 -/
def Wanted (filters : Row ι → Bool) (id : ι) (s : State ι) : Event ι → Prop
  | .process _ found _ => found id ∧ ∃ row ∈ s.rows, row.id = id ∧ filters row
  | _ => True

/-- 処理したか、まだ cursor の後ろにある。 -/
def Pending (id : ι) (s : State ι) : Prop :=
  id ∈ s.processed ∨ (Below s.group.cursor id ∧ s.group.status ≠ .completed)

theorem Pending.process (hrows : Chronological s.rows) (hsize : 0 < size) {id : ι}
    (h : Pending id s) {repository : Repository} {found succeeds : ι → Bool}
    (hwanted : Wanted filters id s (.process repository found succeeds)) :
    Pending id (process filters size s repository found succeeds) := by
  unfold BulkAction.process
  split
  · exact h
  · have hids := @runIdsToProcess_eq _ _ filters size _ hrows repository
    rcases h with hid | ⟨hbelow, hstatus⟩
    · exact .inl (List.mem_append_left _ hid)
    · have hmem : id ∈ remaining filters s := mem_remaining.mpr ⟨hwanted.2, hbelow⟩
      rw [← List.take_append_drop size (remaining filters s)] at hmem
      rcases List.mem_append.mp hmem with htake | hdrop
      · refine .inl (List.mem_append_right _ (List.mem_filter.mpr ⟨?_, hwanted.1⟩))
        rw [hids]
        exact htake
      · -- job は `size` 個で一杯になり、cursor は `id` の手前にある
        have hne : runIdsToProcess filters size s repository ≠ [] := by
          rw [hids]
          intro hnil
          have hlen := List.length_pos_of_mem hdrop
          have hzero := congrArg List.length hnil
          rw [List.length_drop] at hlen
          rw [List.length_take, List.length_nil] at hzero
          omega
        refine .inr ⟨fun c hc => ?_, ?_⟩
        · dsimp only at hc
          rw [List.getLast?_eq_some_getLast hne, Option.some_or] at hc
          refine lt_getLast hrows ?_ hdrop
          rw [← hids, List.getLast?_eq_some_getLast hne, hc]
        · dsimp only
          rw [if_neg hne]
          exact hstatus

theorem Pending.step (hrows : Chronological s.rows) (hsize : 0 < size) {id : ι} (h : Pending id s)
    {e : Event ι} (hwanted : Wanted filters id s e) : Pending id (step filters size s e) := by
  cases e with
  | process => exact h.process hrows hsize hwanted
  | create | update => exact h
  | interrupted repository found reached =>
    show Pending id (BulkAction.interrupted filters size s repository found reached)
    unfold BulkAction.interrupted
    split
    · exact h
    · exact h.imp (List.mem_append_left _) fun h => h
  | abort =>
    show Pending id (BulkAction.abort s)
    unfold BulkAction.abort
    split
    · exact h.imp (fun h => h) fun h => ⟨h.1, fun heq => by cases heq⟩
    · exact h

/-- **bulk action が終わったときには、どの job でも条件に合っていた run は処理されている。job が途中で止まっていてもよい。** -/
theorem processed_all {rows : List (Row ι)} (hrows : Chronological rows) (hsize : 0 < size) {id : ι}
    {es : List (Event ι)}
    (h : Along (step filters size) (fun s e => Newest s e ∧ Wanted filters id s e) (initial rows)
      es)
    (hcompleted : (exec (step filters size) (initial rows) es).group.status = .completed) :
    id ∈ (exec (step filters size) (initial rows) es).processed := by
  have hbelow : Below (initial rows).group.cursor id := fun _ hc => by cases hc
  have hpending : (initial rows).group.status ≠ .completed := fun hstatus => by cases hstatus
  have hlast := Along.invariant (I := fun s => Chronological s.rows ∧ Pending id s)
    (fun s e hs he => ⟨chronological_step hs.1 he.1, hs.2.step hs.1 hsize he.2⟩)
    ⟨hrows, .inr ⟨hbelow, hpending⟩⟩ h
  exact hlast.2.resolve_right fun hrest => hrest.2 hcompleted

/-- 二つの run を一つずつ処理する。二つ目の job は途中で止まる。 -/
def pairRows : List (Row Nat) := [⟨2, 20, "EXECUTING"⟩, ⟨1, 10, "EXECUTING"⟩]

def pairEvents : List (Event Nat) :=
  [.process .clickhouse (fun _ => true) (fun _ => true), .update 2 "CANCELED",
    .interrupted .postgres (fun _ => true) (fun _ => true),
    .process .postgres (fun _ => true) (fun _ => true),
    .process .clickhouse (fun _ => true) (fun _ => true)]

theorem chronological_pairRows : Chronological pairRows := ⟨by decide, by decide⟩

theorem completed_pairEvents :
    (exec (step (fun _ => true) 1) (initial pairRows) pairEvents).group.status = .completed := by
  have hsort : pairRows.mergeSort newestFirst = pairRows := List.mergeSort_of_pairwise (by decide)
  unfold pairRows at hsort
  simp [pairEvents, pairRows, exec, step, process, interrupted, initial, runIdsToProcess,
    listRunIds, ClickHouse.listRunIds, Postgres.listRunIds, Postgres.runsQuery, hsort]

theorem processed_all_pair :
    1 ∈ (exec (step (fun _ => true) 1) (initial pairRows) pairEvents).processed :=
  processed_all chronological_pairRows Nat.one_pos
    (by simp [pairEvents, Along, Newest, Wanted, pairRows, step, rows_process, rows_interrupted,
      initial])
    completed_pairEvents

/-! ## 終わること -/

/-- 一つの job。 -/
def isJob : Event ι → Bool
  | .process .. => true
  | _ => false

/-- cursor より後ろにある run の数。 -/
def below (s : State ι) (c : ι) : Nat := (s.rows.filter (·.id < c)).length

theorem mem_ids_runIdsToProcess (hrows : Chronological s.rows) {repository : Repository} {id : ι}
    (hid : id ∈ runIdsToProcess filters size s repository) :
    id ∈ s.rows.map (·.id) ∧ Below s.group.cursor id := by
  rw [runIdsToProcess_eq hrows] at hid
  obtain ⟨⟨row, hrow, heq, -⟩, hbelow⟩ := mem_remaining.mp (List.mem_of_mem_take hid)
  exact ⟨List.mem_map.mpr ⟨row, hrow, heq⟩, hbelow⟩

/-- job は、終わるか、cursor を進める。 -/
theorem job_advances (hrows : Chronological s.rows) (hstatus : s.group.status = .pending)
    {e : Event ι} (he : isJob e) :
    (step filters size s e).group.status ≠ .pending ∨
      ∃ c, (step filters size s e).group.cursor = some c ∧ c ∈ s.rows.map (·.id) ∧
        Below s.group.cursor c ∧ (step filters size s e).rows = s.rows := by
  cases e with
  | process repository found succeeds =>
    have hne : s.group.status ≠ .aborted := fun h => by
      rw [hstatus] at h
      cases h
    show (process filters size s repository found succeeds).group.status ≠ _ ∨ _
    simp only [step]
    unfold process
    rw [if_neg hne]
    dsimp only
    by_cases hnil : runIdsToProcess filters size s repository = []
    · rw [if_pos hnil]
      exact .inl fun h => by cases h
    · obtain ⟨hmem, hbelow⟩ := mem_ids_runIdsToProcess hrows (List.getLast_mem hnil)
      refine .inr ⟨_, ?_, hmem, hbelow, rfl⟩
      rw [List.getLast?_eq_some_getLast hnil, Option.some_or]
  | create | update | interrupted | abort => cases he

theorem below_lt {c d : ι} (hmem : d ∈ s.rows.map (·.id)) (hlt : d < c) :
    below s d < below s c := by
  obtain ⟨row, hrow, rfl⟩ := List.mem_map.mp hmem
  have hsub : s.rows.filter (·.id < row.id) =
      (s.rows.filter (·.id < c)).filter (·.id < row.id) := by
    rw [List.filter_filter]
    refine List.filter_congr fun other _ => ?_
    by_cases hother : other.id < row.id
    · simp [hother, hother.trans hlt]
    · simp [hother]
  unfold below
  rw [hsub]
  refine List.length_filter_lt_length_iff_exists.mpr ⟨row, List.mem_filter.mpr ⟨hrow, ?_⟩, ?_⟩
  · exact decide_eq_true hlt
  · simp

/-- job でない event は、cursor より後ろにある run の数を変えない。 -/
theorem below_step {e : Event ι} (he : Newest s e) (hjob : isJob e = false) {c : ι}
    (hc : c ∈ s.rows.map (·.id)) :
    below (step filters size s e) c = below s c ∧
      c ∈ (step filters size s e).rows.map (·.id) := by
  cases e with
  | process => cases hjob
  | interrupted repository found reached =>
    show below (interrupted filters size s repository found reached) c = _ ∧ _
    unfold below
    show (List.filter _ (interrupted filters size s repository found reached).rows).length = _ ∧
      c ∈ (interrupted filters size s repository found reached).rows.map _
    rw [rows_interrupted]
    exact ⟨rfl, hc⟩
  | abort =>
    show (List.filter _ (abort s).rows).length = _ ∧ c ∈ (abort s).rows.map _
    rw [rows_abort]
    exact ⟨rfl, hc⟩
  | create row =>
    obtain ⟨other, hother, rfl⟩ := List.mem_map.mp hc
    have hlt := (he other hother).1
    refine ⟨?_, List.mem_cons_of_mem _ hc⟩
    show ((row :: s.rows).filter _).length = _
    rw [List.filter_cons_of_neg (by simpa using hlt.le)]
    rfl
  | update id status =>
    constructor
    · have hids := map_id_update s.rows id status
      have hcount : ∀ rows : List (Row ι), (rows.filter (·.id < c)).length =
          ((rows.map (·.id)).filter (· < c)).length := by
        intro rows
        rw [List.filter_map, List.length_map]
        rfl
      show (List.filter _ (s.rows.map _)).length = (List.filter _ s.rows).length
      rw [hcount, hcount, hids]
    · show c ∈ (s.rows.map _).map _
      rw [map_id_update]
      exact hc

theorem cursor_step {e : Event ι} (hjob : isJob e = false) :
    (step filters size s e).group.cursor = s.group.cursor := by
  cases e with
  | process => cases hjob
  | create | update => rfl
  | interrupted repository found reached =>
    show (interrupted filters size s repository found reached).group.cursor = _
    unfold interrupted
    split <;> rfl
  | abort =>
    show (abort s).group.cursor = _
    unfold abort
    split <;> rfl

/-- 終わったものは、終わったままである。 -/
theorem settled_step (h : s.group.status ≠ .pending) (e : Event ι) :
    (step filters size s e).group.status ≠ .pending := by
  cases e with
  | process repository found succeeds =>
    show (process filters size s repository found succeeds).group.status ≠ _
    unfold process
    split
    · exact h
    · dsimp only
      split
      · exact fun heq => by cases heq
      · exact h
  | create | update => exact h
  | interrupted repository found reached =>
    show (interrupted filters size s repository found reached).group.status ≠ _
    unfold interrupted
    split <;> exact h
  | abort =>
    show (abort s).group.status ≠ _
    unfold abort
    rw [if_neg h]
    exact h

theorem settled_exec (h : s.group.status ≠ .pending) (es : List (Event ι)) :
    (exec (step filters size) s es).group.status ≠ .pending :=
  exec_invariant (I := fun s : State ι => s.group.status ≠ .pending)
    (fun _ e h => settled_step h e) h

/-- cursor のある状態からは、その後ろの run より多くの job で終わる。 -/
theorem settled_of_below : ∀ (es : List (Event ι)) {s : State ι} {c : ι}, Chronological s.rows →
    s.group.cursor = some c → c ∈ s.rows.map (·.id) → Along (step filters size) Newest s es →
      below s c < es.countP isJob → (exec (step filters size) s es).group.status ≠ .pending
  | [], _, _, _, _, _, _, hjobs => absurd hjobs (Nat.not_lt_zero _)
  | e :: es, s, c, hrows, hcursor, hmem, h, hjobs => by
    have hrows' := @chronological_step _ _ filters size _ hrows _ h.1
    by_cases hstatus : s.group.status = .pending
    · by_cases hjob : isJob e = true
      · rw [List.countP_cons_of_pos hjob] at hjobs
        rcases job_advances hrows hstatus hjob with hsettled | ⟨d, hd, hdmem, hbelow, hsame⟩
        · exact settled_exec hsettled es
        · refine settled_of_below es hrows' hd (hsame.symm ▸ hdmem) h.2 ?_
          have hlt : below s d < below s c := below_lt hdmem (hbelow c hcursor)
          unfold below at *
          rw [hsame]
          omega
      · have hnot : isJob e = false := Bool.eq_false_iff.mpr hjob
        rw [List.countP_cons_of_neg hjob] at hjobs
        obtain ⟨heq, hmem'⟩ := @below_step _ _ filters size _ _ h.1 hnot _ hmem
        exact settled_of_below es hrows' ((cursor_step hnot).trans hcursor) hmem' h.2 (heq ▸ hjobs)
    · exact settled_exec hstatus (e :: es)

/--
**job が始まるときの run の数より多くの job を行えば、bulk action は終わっている。** その間に作られた run や、条件に
合うようになった run があってもよい。
-/
theorem process_terminates (hrows : Chronological s.rows) {e : Event ι} {es : List (Event ι)}
    (he : isJob e) (h : Along (step filters size) Newest s (e :: es))
    (hjobs : s.rows.length < (e :: es).countP isJob) :
    (exec (step filters size) s (e :: es)).group.status ≠ .pending := by
  by_cases hstatus : s.group.status = .pending
  · rw [List.countP_cons_of_pos he] at hjobs
    have hrows' := @chronological_step _ _ filters size _ hrows _ h.1
    rcases job_advances hrows hstatus he with hsettled | ⟨d, hd, hdmem, -, hsame⟩
    · exact settled_exec hsettled es
    · refine settled_of_below es hrows' hd (hsame.symm ▸ hdmem) h.2 ?_
      obtain ⟨row, hrow, rfl⟩ := List.mem_map.mp hdmem
      have hlt : (s.rows.filter (·.id < row.id)).length < s.rows.length :=
        List.length_filter_lt_length_iff_exists.mpr ⟨row, hrow, by simp⟩
      unfold below
      rw [hsame]
      omega
  · exact settled_exec hstatus (e :: es)

/-- 三つの job で終わる。 -/
theorem process_terminates_pair :
    (exec (step (fun _ => true) 1) (initial pairRows) pairEvents).group.status ≠ .pending :=
  process_terminates chronological_pairRows rfl (Along.of_mem (by simp [Newest]))
    (by decide)

end Runs.BulkAction
