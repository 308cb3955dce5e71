import Trigger.BatchQueue.CompletionTracker
import Trigger.Infra.Record

/-!
# batch の完了

`batch-queue/index.ts` の `#handleMessage` と `#finalizeBatch`。一つの batch の message を、いくつもの
consumer が並行に処理する。consumer は await のたびに止まるので、その間の場所を `Consumer` の constructor で
表し、どの consumer がいつ進むかは `Action` の列が決める。message は、visibility timeout によって
何度でも配られる。

記録の script は、重複した番号に対しても現在の件数を返す。また `cleanup` は処理済みの番号の集合も消す。
そのため、全ての番号が記録された後の記録が最後の件数を返すと、二つ目の consumer が batch を完了させる。
それが起こらない実行では、完了は高々一度で、全ての番号が記録された後である（`finalized_once`）。
-/

namespace BatchQueue

open Infra

/-! ## consumer の場所 -/

/-- `BatchItem`。`payload` は文字列にしたもの。 -/
structure BatchItem where
  task : String
  payload : String
  options : Option String
deriving DecidableEq

/-- 配られた message の payload のうち、読まれるもの。 -/
structure Message where
  itemIndex : Nat
  item : BatchItem
deriving DecidableEq

/-- `processItemCallback` の結果。 -/
inductive ProcessResult
  | success (runId : String)
  | failure (error : String) (errorCode : Option String)
  | throws (message : String)
deriving DecidableEq

/-- 失敗の記録。`timestamp` は記録するときに入る。 -/
def Message.failure (m : Message) (error : String) (errorCode : Option String) :
    BatchItemFailure where
  index := m.itemIndex
  taskIdentifier := m.item.task
  payload := some m.item.payload
  options := m.item.options
  error := error
  errorCode := errorCode
  timestamp := 0

/-- 結果ごとの記録。 -/
def ProcessResult.outcome (m : Message) (now : ℚ) : ProcessResult → Outcome
  | .success runId => .success runId m.itemIndex
  | .failure error errorCode => .failure (m.failure error errorCode) now
  | .throws message => .failure (m.failure message (some "UNEXPECTED_ERROR")) now

theorem ProcessResult.index_outcome (m : Message) (now : ℚ) (r : ProcessResult) :
    (r.outcome m now).index = m.itemIndex := by
  cases r <;> rfl

/-- `#handleMessage` と `#finalizeBatch` の、次に実行する command。 -/
inductive Consumer
  | gettingMessageData (m : Message)
  | gettingMeta (m : Message)
  | processing (m : Message) (bm : BatchMeta)
  | recording (m : Message) (bm : BatchMeta) (r : ProcessResult)
  | completing (bm : BatchMeta) (processedCount : Nat)
  | gettingRuns
  | gettingFailures (runIds : List String)
  | calling (result : CompleteBatchResult)
  | cleaning
  | done

/-- callback が登録されているかどうか。 -/
structure Callbacks where
  processItemCallback : Bool
  completionCallback : Bool

/-- consumer の外で決まること。 -/
structure Env where
  messageFound : Bool := true
  result : ProcessResult := .success ""
  now : ℚ := 0
  callbackSucceeds : Bool := true

/-- 共有される値。`finalized` は `#finalizeBatch` の回数、`callbacks` は callback に渡った結果、
`recordedItems` は記録されたことのある番号で、どれも消えない。 -/
structure Shared where
  batch : BatchData
  finalized : Nat := 0
  callbacks : List CompleteBatchResult := []
  recordedItems : Finset Nat := ∅

/-- consumer の一歩。 -/
def Consumer.next (cfg : Callbacks) (e : Env) (s : Shared) : Consumer → Consumer × Shared
  | .gettingMessageData m =>
    (if e.messageFound ∧ cfg.processItemCallback then .gettingMeta m else .done, s)
  | .gettingMeta m =>
    match s.batch.batchMeta with
    | none => (.done, s)
    | some bm => (.processing m bm, s)
  | .processing m bm => (.recording m bm e.result, s)
  | .recording m bm r =>
    let p := record (r.outcome m e.now) s.batch
    (.completing bm p.1,
      { s with batch := p.2, recordedItems := insert m.itemIndex s.recordedItems })
  | .completing bm processedCount =>
    if processedCount = bm.runCount then
      (.gettingRuns, { s with finalized := s.finalized + 1 })
    else (.done, s)
  | .gettingRuns => (.gettingFailures (getSuccessfulRuns s.batch), s)
  | .gettingFailures runIds =>
    (if cfg.completionCallback then
      .calling ⟨runIds, runIds.length, (getFailures s.batch).length, getFailures s.batch⟩
    else .cleaning, s)
  | .calling result =>
    (if e.callbackSucceeds then .cleaning else .done,
      { s with callbacks := s.callbacks ++ [result] })
  | .cleaning => (.done, { s with batch := cleanup s.batch })
  | .done => (.done, s)

/-! ## 実行 -/

/-- 一つの batch と、その message を処理する consumer たち。 -/
structure System where
  shared : Shared
  consumers : List Consumer

inductive Action
  | deliver (m : Message)
  | advance (k : Nat) (e : Env)
  | crash (k : Nat)

def System.step (cfg : Callbacks) (s : System) : Action → System
  | .deliver m => { s with consumers := s.consumers ++ [.gettingMessageData m] }
  | .advance k e =>
    match s.consumers[k]? with
    | none => s
    | some c =>
      let r := c.next cfg e s.shared
      { shared := r.2, consumers := s.consumers.set k r.1 }
  | .crash k => { s with consumers := s.consumers.set k .done }

def System.initial (n : Nat) : System := { shared := { batch := newBatch n }, consumers := [] }

/-- 配られる message は batch の item である。 -/
def Action.Valid (n : Nat) : Action → Prop
  | .deliver m => m.itemIndex < n
  | _ => True

/-- 全ての番号が記録された後に、件数を `n` にする（または `n` のまま返す）記録の前にいる。 -/
def Consumer.Late (n : Nat) (s : Shared) : Consumer → Prop
  | .recording m _ _ => s.recordedItems.card = n ∧
      (s.batch.processed = n ∨
        s.batch.processed + 1 = n ∧ toString m.itemIndex ∉ s.batch.processedItems)
  | _ => False

instance (n : Nat) (s : Shared) : ∀ c : Consumer, Decidable (c.Late n s)
  | .recording .. => inferInstanceAs (Decidable (_ ∧ _))
  | .gettingMessageData _ | .gettingMeta _ | .processing .. | .completing .. | .gettingRuns
  | .gettingFailures _ | .calling _ | .cleaning | .done => inferInstanceAs (Decidable False)

/-- 遅れた記録。 -/
def LateRecord (n : Nat) (s : System) : Action → Prop
  | .advance k _ => ∃ c ∈ s.consumers[k]?, c.Late n s.shared
  | _ => False

instance (n : Nat) (s : System) : ∀ a : Action, Decidable (LateRecord n s a)
  | .advance k _ => inferInstanceAs (Decidable (∃ c ∈ s.consumers[k]?, c.Late n s.shared))
  | .deliver _ | .crash _ => inferInstanceAs (Decidable False)

/-- どの一歩も `ok` を満たす実行で到達する状態。 -/
inductive Reachable (cfg : Callbacks) (n : Nat) (ok : System → Action → Prop) : System → Prop
  | initial : Reachable cfg n ok (.initial n)
  | step {s : System} {a : Action} : Reachable cfg n ok s → a.Valid n → ok s a →
      Reachable cfg n ok (s.step cfg a)

/-! ## 不変条件 -/

/-- 最後の件数を受け取り、まだ完了を始めていない。 -/
def Consumer.pending (n : Nat) : Consumer → Bool
  | .completing _ processedCount => processedCount = n
  | _ => false

/-- 完了を始め、まだ callback を呼んでいない。 -/
def Consumer.beforeCallback : Consumer → Bool
  | .gettingRuns | .gettingFailures _ | .calling _ => true
  | _ => false

/-- 一つの consumer が持つ値の条件。 -/
def Consumer.Ok (n finalized : Nat) : Consumer → Prop
  | .gettingMessageData m | .gettingMeta m => m.itemIndex < n
  | .processing m bm | .recording m bm _ => m.itemIndex < n ∧ bm.runCount = n
  | .completing bm _ => bm.runCount = n
  | .cleaning => 1 ≤ finalized
  | _ => True

theorem Consumer.Ok.mono {n f f' : Nat} (hf : f ≤ f') {c : Consumer} (h : c.Ok n f) :
    c.Ok n f' := by
  cases c <;> first | exact h | exact le_trans h hf

/-- 共有される値の条件。 -/
structure SharedInv (n : Nat) (s : Shared) : Prop where
  batchMeta : ∀ bm, s.batch.batchMeta = some bm → bm.runCount = n
  recorded : s.recordedItems ⊆ Finset.range n
  -- 全ての番号が揃うまでは `cleanup` が走らないので、batch の値は記録された番号と合っている。
  counting : s.recordedItems.card < n → s.batch.processed = s.recordedItems.card ∧
    ∀ i, toString i ∈ s.batch.processedItems ↔ i ∈ s.recordedItems

/-- 生じた完了の権利の数。 -/
def Shared.granted (n : Nat) (s : Shared) : Nat := if s.recordedItems.card = n then 1 else 0

/-- 不変条件。完了の権利（`finalized` と `pending`）は、全ての番号が揃ったときに一つだけ生じる。 -/
structure Inv (n : Nat) (s : System) : Prop where
  consumers : ∀ c ∈ s.consumers, c.Ok n s.shared.finalized
  shared : SharedInv n s.shared
  once : s.shared.finalized + s.consumers.countP (Consumer.pending n) ≤ s.shared.granted n
  callbacks : s.shared.callbacks.length + s.consumers.countP Consumer.beforeCallback ≤
    s.shared.finalized

theorem inv_initial (n : Nat) : Inv n (.initial n) where
  consumers := by simp [System.initial]
  shared := by
    refine ⟨?_, by simp [System.initial], ?_⟩
    · intro bm h
      rw [← Option.some.inj (show some (BatchMeta.mk n) = some bm from h)]
    · intro _
      simp [System.initial, newBatch, storeMeta]
  once := by simp [System.initial]
  callbacks := by simp [System.initial]

/-! ## 一歩 -/

def ind (b : Bool) : Nat := if b then 1 else 0

/-- consumer の一歩が満たすべきこと。権利と callback の増減は釣り合っている。 -/
structure StepOk (n : Nat) (c : Consumer) (s : Shared) (c' : Consumer) (s' : Shared) : Prop where
  consumer : c'.Ok n s'.finalized
  shared : SharedInv n s'
  finalized : s.finalized ≤ s'.finalized
  once : s'.finalized + ind (c'.pending n) + s.granted n ≤
    s.finalized + ind (c.pending n) + s'.granted n
  callbacks : s'.callbacks.length + ind c'.beforeCallback + s.finalized ≤
    s.callbacks.length + ind c.beforeCallback + s'.finalized

theorem Inv.set {n k : Nat} {s : System} {c c' : Consumer} {s' : Shared} (hs : Inv n s)
    (hk : s.consumers[k]? = some c) (h : StepOk n c s.shared c' s') :
    Inv n { shared := s', consumers := s.consumers.set k c' } := by
  have hp := countP_set_add (p := Consumer.pending n) hk c'
  have hb := countP_set_add (p := Consumer.beforeCallback) hk c'
  have hp0 := hs.once
  have hb0 := hs.callbacks
  have hp1 := h.once
  have hb1 := h.callbacks
  simp only [ind] at hp1 hb1
  refine ⟨?_, h.shared, ?_, ?_⟩
  · intro d hd
    rcases List.mem_or_eq_of_mem_set hd with hd | rfl
    · exact (hs.consumers d hd).mono h.finalized
    · exact h.consumer
  · show s'.finalized + (s.consumers.set k c').countP (Consumer.pending n) ≤ s'.granted n
    omega
  · show s'.callbacks.length + (s.consumers.set k c').countP Consumer.beforeCallback ≤
      s'.finalized
    omega

/-- 記録で増えるのは、初めての番号のときの 1 だけである。 -/
theorem record_processed (o : Outcome) (b : BatchData) :
    (record o b).1 = (record o b).2.processed ∧
      (record o b).2.batchMeta = b.batchMeta ∧
      (record o b).2.processedItems = insert (toString o.index) b.processedItems ∧
      (record o b).1 = if toString o.index ∈ b.processedItems then b.processed
        else b.processed + 1 := by
  by_cases hmem : toString o.index ∈ b.processedItems
  · rw [record_of_mem hmem, if_pos hmem]
    exact ⟨rfl, rfl, (Finset.insert_eq_of_mem hmem).symm, rfl⟩
  · cases o with
    | success runId i =>
      have heq : record (.success runId i) b = (b.processed + 1, _) := if_neg hmem
      rw [heq, if_neg hmem]
      exact ⟨rfl, rfl, rfl, rfl⟩
    | failure f now =>
      have heq : record (.failure f now) b = (b.processed + 1, _) := if_neg hmem
      rw [heq, if_neg hmem]
      exact ⟨rfl, rfl, rfl, rfl⟩

/-- 記録の一歩。 -/
theorem stepOk_recording {n : Nat} {cfg : Callbacks} {e : Env} {s : Shared} {m : Message}
    {bm : BatchMeta} {r : ProcessResult} (hs : SharedInv n s)
    (hc : (Consumer.recording m bm r).Ok n s.finalized)
    (hlate : ¬ (Consumer.recording m bm r).Late n s) :
    StepOk n (.recording m bm r) s ((Consumer.recording m bm r).next cfg e s).1
      ((Consumer.recording m bm r).next cfg e s).2 := by
  obtain ⟨hproc, hmeta, hitems, hcount⟩ := record_processed (r.outcome m e.now) s.batch
  rw [r.index_outcome] at hitems hcount
  have hrec : insert m.itemIndex s.recordedItems ⊆ Finset.range n :=
    Finset.insert_subset (Finset.mem_range.mpr hc.1) hs.recorded
  have hcard : s.recordedItems.card ≤ n := by
    simpa using Finset.card_le_card hs.recorded
  have hnew : s.recordedItems.card < n → (record (r.outcome m e.now) s.batch).1 =
      (insert m.itemIndex s.recordedItems).card := by
    intro hlt
    have hold := hs.counting hlt
    rw [hcount, Finset.card_insert_eq_ite]
    simp only [hold.1, hold.2]
  simp only [Consumer.next]
  refine ⟨hc.2, ⟨?_, hrec, ?_⟩, le_refl _, ?_, by simp [ind, Consumer.beforeCallback]⟩
  · intro bm' h
    exact hs.batchMeta bm' (hmeta ▸ h)
  · show (insert m.itemIndex s.recordedItems).card < n → _
    intro hlt
    have hlt' : s.recordedItems.card < n :=
      lt_of_le_of_lt (Finset.card_le_card (Finset.subset_insert _ _)) hlt
    refine ⟨hproc ▸ hnew hlt', fun i => ?_⟩
    show toString i ∈ (record (r.outcome m e.now) s.batch).2.processedItems ↔ i ∈ insert _ _
    rw [hitems, Finset.mem_insert, Finset.mem_insert, (hs.counting hlt').2,
      Text.toString_nat_injective.eq_iff]
  · show s.finalized + ind (decide ((record (r.outcome m e.now) s.batch).1 = n)) + s.granted n ≤
      s.finalized + ind false + if (insert m.itemIndex s.recordedItems).card = n then 1 else 0
    by_cases hfull : s.recordedItems.card = n
    · -- 既に揃っている。条件により、件数は `n` にならない。
      have hsame : insert m.itemIndex s.recordedItems = s.recordedItems := by
        refine Finset.insert_eq_of_mem ?_
        rw [Finset.eq_of_subset_of_card_le hs.recorded (by simp [hfull])]
        exact Finset.mem_range.mpr hc.1
      have hne : (record (r.outcome m e.now) s.batch).1 ≠ n := by
        rw [hcount]
        split
        · exact fun heq => hlate ⟨hfull, .inl heq⟩
        · next hnot => exact fun heq => hlate ⟨hfull, .inr ⟨heq, hnot⟩⟩
      simp [hne, hsame, Shared.granted, hfull, ind]
    · -- まだ揃っていない。件数が `n` になるのは、この記録で揃うときである。
      rw [hnew (lt_of_le_of_ne hcard hfull)]
      simp [Shared.granted, hfull, ind]

/-- 共有される値を変えず、権利も callback の番も増やさない一歩。 -/
theorem stepOk_local {n : Nat} {s : Shared} {c c' : Consumer} (hs : SharedInv n s)
    (hc : c'.Ok n s.finalized) (hp : c'.pending n = false)
    (hb : c'.beforeCallback = true → c.beforeCallback = true) : StepOk n c s c' s := by
  refine ⟨hc, hs, le_refl _, ?_, ?_⟩
  · rw [hp]
    simp [ind]
  · rcases hc' : c'.beforeCallback with _ | _
    · simp [ind]
    · rw [hb hc']

/-- consumer の一歩は条件を保つ。 -/
theorem stepOk_next {n : Nat} {cfg : Callbacks} {e : Env} {s : Shared} {c : Consumer}
    (hs : SharedInv n s) (hc : c.Ok n s.finalized)
    (hfull : 1 ≤ s.finalized → s.recordedItems.card = n)
    (hcb : c.beforeCallback = true → 1 ≤ s.finalized)
    (hlate : ¬ c.Late n s) :
    StepOk n c s (c.next cfg e s).1 (c.next cfg e s).2 := by
  cases c with
  | gettingMessageData m =>
    simp only [Consumer.next]
    split
    · exact stepOk_local hs hc rfl (fun h => by cases h)
    · exact stepOk_local hs trivial rfl (fun h => by cases h)
  | gettingMeta m =>
    simp only [Consumer.next]
    split
    · exact stepOk_local hs trivial rfl (fun h => by cases h)
    · next bm hbm => exact stepOk_local hs ⟨hc, hs.batchMeta bm hbm⟩ rfl (fun h => by cases h)
  | processing m bm => exact stepOk_local hs hc rfl (fun h => by cases h)
  | recording m bm r => exact stepOk_recording hs hc hlate
  | completing bm count =>
    simp only [Consumer.next]
    split
    · -- 件数が揃った consumer だけが finalize に進む
      next heq =>
      have hn : count = n := heq.trans hc
      refine ⟨trivial, ⟨hs.batchMeta, hs.recorded, hs.counting⟩, Nat.le_succ _, ?_, ?_⟩
      · simp [ind, Consumer.pending, hn, Shared.granted]
      · simp [ind, Consumer.beforeCallback]
        omega
    · exact stepOk_local hs trivial rfl (fun h => by cases h)
  | gettingRuns => exact stepOk_local hs trivial rfl (fun _ => rfl)
  | gettingFailures runIds =>
    simp only [Consumer.next]
    split
    · exact stepOk_local hs trivial rfl (fun _ => rfl)
    · exact stepOk_local hs (hcb rfl) rfl (fun h => by cases h)
  | calling result =>
    simp only [Consumer.next]
    refine ⟨?_, ⟨hs.batchMeta, hs.recorded, hs.counting⟩, le_refl _, ?_, ?_⟩
    · split
      · exact hcb rfl
      · exact trivial
    · split <;> simp [ind, Consumer.pending, Shared.granted]
    · split <;> simp [ind, Consumer.beforeCallback]
  | cleaning =>
    refine ⟨trivial, ⟨?_, hs.recorded, ?_⟩, le_refl _, ?_, ?_⟩
    · intro bm h
      exact absurd h (by simp [Consumer.next, cleanup])
    · intro hlt
      exact absurd (hfull hc) (ne_of_lt hlt)
    · exact le_refl _
    · exact le_refl _
  | done => exact stepOk_local hs trivial rfl (fun h => by cases h)

/-- 遅れた記録でない一歩は不変条件を保つ。 -/
theorem inv_step {n : Nat} {cfg : Callbacks} {s : System} {a : Action} (hs : Inv n s)
    (hv : a.Valid n) (hlate : ¬ LateRecord n s a) : Inv n (s.step cfg a) := by
  have hfull : 1 ≤ s.shared.finalized → s.shared.recordedItems.card = n := by
    intro h
    have := hs.once
    by_contra hne
    rw [Shared.granted, if_neg hne] at this
    omega
  cases a with
  | deliver m =>
    refine ⟨?_, hs.shared, ?_, ?_⟩
    · intro c hc
      rcases List.mem_append.mp hc with hc | hc
      · exact hs.consumers c hc
      · rw [List.mem_singleton.mp hc]
        exact hv
    · simpa [System.step, Consumer.pending] using hs.once
    · simpa [System.step, Consumer.beforeCallback] using hs.callbacks
  | advance k e =>
    simp only [System.step]
    split
    · exact hs
    · next c hk =>
      have hmem := List.mem_of_getElem? hk
      refine hs.set hk (stepOk_next hs.shared (hs.consumers c hmem) hfull ?_ ?_)
      · intro hb
        have hpos : 0 < s.consumers.countP Consumer.beforeCallback :=
          List.countP_pos_iff.mpr ⟨c, hmem, hb⟩
        have := hs.callbacks
        omega
      · exact fun h => hlate ⟨c, hk, h⟩
  | crash k =>
    rcases hk : s.consumers[k]? with _ | c
    · have heq : s.consumers.set k .done = s.consumers :=
        List.set_eq_of_length_le (List.getElem?_eq_none_iff.mp hk)
      simp only [System.step, heq]
      exact hs
    · exact hs.set hk (stepOk_local hs.shared trivial rfl (fun h => by cases h))

theorem Reachable.inv {n : Nat} {cfg : Callbacks} {s : System}
    (h : Reachable cfg n (fun s a => ¬ LateRecord n s a) s) : Inv n s := by
  induction h with
  | initial => exact inv_initial n
  | step _ hv hok ih => exact inv_step ih hv hok

/-! ## 完了は一度だけ -/

/-- **遅れた記録の無い実行では、batch は高々一度、全ての番号が記録された後に完了する。** callback が
呼ばれる回数は `#finalizeBatch` の回数を超えない。 -/
theorem finalized_once {n : Nat} {cfg : Callbacks} {s : System}
    (h : Reachable cfg n (fun s a => ¬ LateRecord n s a) s) :
    s.shared.finalized ≤ 1 ∧ s.shared.callbacks.length ≤ s.shared.finalized ∧
      (1 ≤ s.shared.finalized → ∀ i < n, i ∈ s.shared.recordedItems) := by
  have hinv := h.inv
  have honce := hinv.once
  have hcb := hinv.callbacks
  rw [Shared.granted] at honce
  refine ⟨?_, by omega, fun hpos i hi => ?_⟩
  · split at honce <;> omega
  · have hcard : s.shared.recordedItems.card = n := by
      by_contra hne
      rw [if_neg hne] at honce
      omega
    rw [Finset.eq_of_subset_of_card_le hinv.shared.recorded (by simp [hcard])]
    exact Finset.mem_range.mpr hi

/-! ## 実行の例 -/

def System.run (cfg : Callbacks) (s : System) (as : List Action) : System :=
  as.foldl (·.step cfg) s

instance (n : Nat) : ∀ a : Action, Decidable (a.Valid n)
  | .deliver m => inferInstanceAs (Decidable (m.itemIndex < n))
  | .advance .. | .crash _ => inferInstanceAs (Decidable True)

/-- どの一歩も `ok` を満たす。 -/
def Allowed (cfg : Callbacks) (n : Nat) (ok : System → Action → Prop) :
    System → List Action → Prop
  | _, [] => True
  | s, a :: as => a.Valid n ∧ ok s a ∧ Allowed cfg n ok (s.step cfg a) as

instance decidableAllowed (cfg : Callbacks) (n : Nat) (ok : System → Action → Prop)
    [∀ s a, Decidable (ok s a)] : ∀ s as, Decidable (Allowed cfg n ok s as)
  | _, [] => inferInstanceAs (Decidable True)
  | s, a :: as =>
    have := decidableAllowed cfg n ok (s.step cfg a) as
    inferInstanceAs (Decidable (_ ∧ _ ∧ _))

theorem Reachable.run {cfg : Callbacks} {n : Nat} {ok : System → Action → Prop} :
    ∀ {as : List Action} {s : System}, Reachable cfg n ok s → Allowed cfg n ok s as →
      Reachable cfg n ok (s.run cfg as)
  | [], _, h, _ => h
  | _ :: _, _, h, ⟨hv, hok, has⟩ => (h.step hv hok).run has

/-- 二つの consumer が、番号 `i` と `j` の message を重ねて処理する。 -/
def overlapped (i j : Nat) : List Action :=
  let item : BatchItem := ⟨"task", "payload", none⟩
  let step k : Action := .advance k { result := .success "run_1" }
  [.deliver ⟨i, item⟩, step 0, step 0, step 0, .deliver ⟨j, item⟩, step 1, step 1, step 1,
    step 0, step 1, step 0, step 1, step 0, step 0, step 0, step 1, step 1, step 1]

/-- 一件の batch で、配り直された message の記録も件数 1 を返すので、`#finalizeBatch` は二度呼ばれ、
callback も二度呼ばれる。 -/
theorem finalized_twice : ∃ s, Reachable ⟨true, true⟩ 1 (fun _ _ => True) s ∧
    s.shared.finalized = 2 ∧ s.shared.callbacks.length = 2 := by
  refine ⟨(System.initial 1).run ⟨true, true⟩ (overlapped 0 0), Reachable.initial.run ?_, ?_⟩
  · decide +kernel
  · decide +kernel

/-- 二件の batch を、遅れた記録なしに最後まで処理する。 -/
theorem finalized_once_overlapped : ∃ s,
    Reachable ⟨true, true⟩ 2 (fun s a => ¬ LateRecord 2 s a) s ∧
    s.shared.finalized = 1 ∧ s.shared.callbacks.length ≤ 1 ∧
      ∀ i < 2, i ∈ s.shared.recordedItems := by
  have hrun : Reachable ⟨true, true⟩ 2 (fun s a => ¬ LateRecord 2 s a)
      ((System.initial 2).run ⟨true, true⟩ (overlapped 0 1)) := by
    refine Reachable.initial.run ?_
    decide +kernel
  have hfin : ((System.initial 2).run ⟨true, true⟩ (overlapped 0 1)).shared.finalized = 1 := by
    decide +kernel
  obtain ⟨-, hcb, hall⟩ := finalized_once hrun
  exact ⟨_, hrun, hfin, hfin ▸ hcb, hall (hfin ▸ le_refl 1)⟩

end BatchQueue
