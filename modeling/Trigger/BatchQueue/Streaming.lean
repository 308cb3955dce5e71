import Trigger.BatchQueue.Finalize
import Trigger.FairQueue.View
import Trigger.Infra.Machine

/-!
# item の送り込み

`batch-queue/index.ts` の `enqueueBatchItem`。番号を `enqueuedItems` に加える `SADD` と、message を queue に
入れる script は、別の command である。`SADD` の後で失敗すると、番号だけが残り、送り直しは重複として捨てられる
（`item_lost`）。

一つの batch について、`enqueueBatchItem` の各呼び出しを command ごとに進め、その間に FairQueue の command と
consumer の command が任意の順で入る。command の失敗は、実行される前か、実行された後に応答が失われるかである。
番号が失われない条件を、実行の全体について述べる（`streaming_atomic`）。
-/

namespace BatchQueue

open Infra Infra.Keyspace Infra.Machine
open FairQueue (Redis StoredMessage Stored View view)

/-! ## 呼び出し -/

/-- `BatchItemPayload`。 -/
structure BatchItemPayload where
  batchId : String
  friendlyId : String
  itemIndex : Nat
  item : BatchItem
deriving DecidableEq

/-- `initializeBatch` が保存し、`enqueueBatchItem` が読むもの。`metadata` は `enqueue` に渡す
`{ batchId, friendlyId, envId }`。 -/
structure Batch where
  batchId : String
  friendlyId : String
  envId : String
  runCount : Nat
  createdAt : ℚ
  metadata : FairQueue.Metadata

/-- `#makeQueueId`。 -/
def Batch.queueId (b : Batch) : String := "env:" ++ b.envId ++ ":batch:" ++ b.batchId

/-- 一回の呼び出しの引数。`messageId` は `enqueue` の中の `nanoid()`。 -/
structure ItemRequest where
  itemIndex : Nat
  item : BatchItem
  messageId : String
deriving DecidableEq

/-- `enqueue` が保存する message。 -/
def Batch.message (b : Batch) (r : ItemRequest) : StoredMessage BatchItemPayload where
  id := r.messageId
  queueId := b.queueId
  tenantId := b.envId
  payload :=
    { batchId := b.batchId, friendlyId := b.friendlyId, itemIndex := r.itemIndex, item := r.item }
  timestamp := b.createdAt + r.itemIndex
  attempt := 1
  workerQueue := some "batch-worker-queue"
  metadata := some b.metadata

/-- `enqueueBatchItem` の、次に実行する command。 -/
inductive EnqueueCall
  | gettingMeta (r : ItemRequest)
  | marking (r : ItemRequest)
  | enqueueing (r : ItemRequest)
  | returned (enqueued : Bool)
  | thrown
deriving DecidableEq

/-- command の応答。失敗は、実行される前か、実行された後に起こる。 -/
inductive Response
  | ok
  | notExecuted
  | replyLost
deriving DecidableEq

/-- 一つの batch の状態。`recordedItems` は記録されたことのある番号で、`cleanup` でも消えない。 -/
structure Streaming where
  tracker : BatchData
  redis : Redis BatchItemPayload
  calls : List EnqueueCall := []
  recordedItems : Finset Nat := ∅

section Step

variable (b : Batch) (shardOf : String → Nat)

/-- `enqueueMessageAtomic` の後の Redis。 -/
def enqueueMessage (r : ItemRequest) (redis : Redis BatchItemPayload) : Redis BatchItemPayload :=
  (((FairQueue.Command.enqueueMessageAtomic b.queueId r.messageId (b.createdAt + r.itemIndex)
    (b.message r)).prog shardOf).run redis).2

/-- 呼び出しを一 command 進める。 -/
def EnqueueCall.next (response : Response) (s : Streaming) : EnqueueCall → EnqueueCall × Streaming
  | .gettingMeta r =>
    if response = .ok then
      (if s.tracker.batchMeta.isSome then .marking r else .thrown, s)
    else (.thrown, s)
  | .marking r =>
    let marked := markItemEnqueued r.itemIndex s.tracker
    match response with
    | .ok => (if marked.1 then .enqueueing r else .returned false, { s with tracker := marked.2 })
    | .notExecuted => (.thrown, s)
    | .replyLost => (.thrown, { s with tracker := marked.2 })
  | .enqueueing r =>
    match response with
    | .ok => (.returned true, { s with redis := enqueueMessage b shardOf r s.redis })
    | .notExecuted => (.thrown, s)
    | .replyLost => (.thrown, { s with redis := enqueueMessage b shardOf r s.redis })
  | .returned enqueued => (.returned enqueued, s)
  | .thrown => (.thrown, s)

/-- FairQueue が batch の queue に発行する command。 -/
inductive QueueCommand
  | claimMessageBatch (now timeoutMs : ℚ) (maxCount : Int)
  | releaseMessage (messageId : String) (score : ℚ)
  | releaseMessageBatch (score : ℚ) (messageIds : List String)
  | updateMasterQueueIfEmpty

def QueueCommand.command : QueueCommand → FairQueue.Command BatchItemPayload
  | .claimMessageBatch now timeoutMs maxCount =>
    .claimMessageBatch b.queueId now timeoutMs maxCount
  | .releaseMessage messageId score =>
    .releaseMessage (shardOf b.queueId) b.queueId messageId score
  | .releaseMessageBatch score messageIds => .releaseMessageBatch b.queueId score messageIds
  | .updateMasterQueueIfEmpty => .updateMasterQueueIfEmpty (shardOf b.queueId) b.queueId

/-- `enqueueBatchItem` の呼び出し、その一 command、FairQueue の一 command、または consumer の一 command。 -/
inductive StreamAction
  | call (r : ItemRequest)
  | advance (k : Nat) (response : Response)
  | queue (command : QueueCommand)
  | record (o : Outcome)
  | zremInflight (messageId : String)
  | hdelInflightData (messageId : String)
  | cleanup

def Streaming.step (s : Streaming) : StreamAction → Streaming
  | .call r => { s with calls := s.calls ++ [EnqueueCall.gettingMeta r] }
  | .advance k response =>
    match s.calls[k]? with
    | none => s
    | some c =>
      let p := c.next b shardOf response s
      { p.2 with calls := s.calls.set k p.1 }
  | .queue command =>
    { s with redis := (((command.command b shardOf).prog shardOf).run s.redis).2 }
  | .record o =>
    { s with
      tracker := (BatchQueue.record o s.tracker).2
      recordedItems := insert o.index s.recordedItems }
  | .zremInflight messageId =>
    { s with redis := ((Keyspace.zrem (.inflight (shardOf b.queueId))
        (FairQueue.makeMember messageId b.queueId) : FairQueue.Script _ Unit).run s.redis).2 }
  | .hdelInflightData messageId =>
    { s with redis := ((Keyspace.hdel (.inflightData (shardOf b.queueId)) messageId :
        FairQueue.Script _ Unit).run s.redis).2 }
  | .cleanup => { s with tracker := BatchQueue.cleanup s.tracker }

/-- `initializeBatch` の後の状態。 -/
def Streaming.initial : Streaming := { tracker := newBatch b.runCount, redis := Store.empty }

/-- 失敗も割り込みも無い `enqueueBatchItem`。 -/
def Streaming.enqueueBatchItem (s : Streaming) (r : ItemRequest) : Streaming :=
  exec (Streaming.step b shardOf) s
    [.call r, .advance s.calls.length .ok, .advance s.calls.length .ok,
      .advance s.calls.length .ok]

/-! ## 番号の message -/

/-- 番号 `i` の message が、queue にあるか、in-flight にある。 -/
def Holds (v : View BatchItemPayload) (i : Nat) : Prop :=
  (v.queued b.queueId = true ∧
    ∃ p, v.items b.queueId = some (.message p) ∧ p.payload.itemIndex = i) ∨
  ∃ p, v.data (shardOf b.queueId) = some (.message p) ∧ p.payload.itemIndex = i

/-- 番号 `i` の message があるか、番号 `i` が記録されている。 -/
def Streaming.HasMessage (s : Streaming) (i : Nat) : Prop :=
  i ∈ s.recordedItems ∨ ∃ m, Holds b shardOf (view s.redis m) i

/-- 番号 `i` を `enqueuedItems` に加え、まだ message を入れていない。 -/
def EnqueueCall.Between (i : Nat) (c : EnqueueCall) : Prop :=
  ∃ r, c = .enqueueing r ∧ r.itemIndex = i

/-- まだ `enqueue` していない引数。 -/
def EnqueueCall.request? : EnqueueCall → Option ItemRequest
  | .gettingMeta r | .marking r | .enqueueing r => some r
  | .returned _ | .thrown => none

/-- message の id が、どこにも使われていない。 -/
def Streaming.Unused (s : Streaming) (m : String) : Prop :=
  (∀ c ∈ s.calls, ∀ r ∈ c.request?, r.messageId ≠ m) ∧
    (view s.redis m).items b.queueId = none ∧ (view s.redis m).data (shardOf b.queueId) = none

/-- 失敗が、`SADD` で番号が加わった後、message が入る前ではない。 -/
def EnqueueCall.Keeps (s : Streaming) (response : Response) : EnqueueCall → Prop
  | .marking r => response = .replyLost → toString r.itemIndex ∈ s.tracker.enqueuedItems
  | .enqueueing _ => response ≠ .notExecuted
  | _ => True

/-- 番号が失われない一歩の条件。 -/
def Streaming.Sound (s : Streaming) : StreamAction → Prop
  | .call r => s.Unused b shardOf r.messageId
  | .advance k response => ∀ c ∈ s.calls[k]?, c.Keeps s response
  | .hdelInflightData messageId =>
    ∀ p, (view s.redis messageId).data (shardOf b.queueId) = some (.message p) →
      p.payload.itemIndex ∈ s.recordedItems
  | _ => True

end Step

/-! ## message の移動 -/

section Moves

variable {b : Batch} {shardOf : String → Nat} {v : View BatchItemPayload} {i : Nat}

/-- payload は queue か in-flight の一方にしか無い。 -/
def Exclusive (b : Batch) (shardOf : String → Nat) (v : View BatchItemPayload) : Prop :=
  v.items b.queueId = none ∨ v.data (shardOf b.queueId) = none

/-- 一つの message の view の変わり方。 -/
inductive Moves (b : Batch) (shardOf : String → Nat) (v : View BatchItemPayload) :
    View BatchItemPayload → Prop
  | stay : Moves b shardOf v v
  | claim : Moves b shardOf v (v.claim b.queueId (shardOf b.queueId))
  | release : Moves b shardOf v (v.release b.queueId (shardOf b.queueId))

theorem Moves.of_ite {c : Prop} [Decidable c] {v' : View BatchItemPayload}
    (h : Moves b shardOf v v') : Moves b shardOf v (if c then v' else v) := by
  split
  · exact h
  · exact .stay

/-- FairQueue の command は、message を queue と in-flight の間で動かすだけである。 -/
theorem moves_queueCommand (command : QueueCommand) (redis : Redis BatchItemPayload) (m : String) :
    Moves b shardOf (view redis m)
      (view (((command.command b shardOf).prog shardOf).run redis).2 m) := by
  cases command with
  | claimMessageBatch now timeoutMs maxCount =>
    simp only [QueueCommand.command, FairQueue.Command.prog, FairQueue.claimMessageBatchLua,
      Prog.run_bind, run_zrange, Prog.run_pure]
    rw [FairQueue.view_claimLoop _ (FairQueue.takeTo_nodup _ _)]
    exact Moves.claim.of_ite
  | releaseMessage messageId score =>
    simp only [QueueCommand.command, FairQueue.Command.prog, Prog.run_bind, Prog.run_pure]
    rw [FairQueue.view_releaseMessage]
    exact Moves.release.of_ite
  | releaseMessageBatch score messageIds =>
    simp only [QueueCommand.command, FairQueue.Command.prog, Prog.run_bind, Prog.run_pure]
    rw [FairQueue.view_releaseMessageBatch]
    exact Moves.release.of_ite
  | updateMasterQueueIfEmpty =>
    simp only [QueueCommand.command, FairQueue.Command.prog, FairQueue.updateMasterQueueIfEmptyLua,
      Prog.run_bind, run_zcard, Prog.run_pure]
    split
    · simp only [Prog.run_bind, run_zrem, Prog.run_pure, FairQueue.view_set_masterQueue]
      exact .stay
    · rw [Prog.run_bind, Prog.run_pure, FairQueue.view_updateMasterQueue]
      exact .stay

/-- 新しい message を入れる。 -/
theorem view_enqueueMessage (r : ItemRequest) (redis : Redis BatchItemPayload) (m : String) :
    view (enqueueMessage b shardOf r redis) m =
      if r.messageId = m then (view redis m).enqueue b.queueId (.message (b.message r))
      else view redis m := by
  simp only [enqueueMessage, FairQueue.Command.prog, FairQueue.enqueueMessageAtomicLua,
    Prog.run_bind, run_zadd, run_hset, Prog.run_pure]
  rw [FairQueue.view_updateMasterQueue, FairQueue.view_set_items, FairQueue.view_add_queue]
  split <;> rfl

/-- 動かしても、payload は一方にしか無い。 -/
theorem Moves.exclusive {v' : View BatchItemPayload} (h : Moves b shardOf v v')
    (hv : Exclusive b shardOf v) : Exclusive b shardOf v' := by
  cases h with
  | stay => exact hv
  | claim =>
    rcases hitems : v.items b.queueId with _ | p
    · rw [View.claim_of_none hitems]
      exact .inl hitems
    · rw [View.claim_of_some hitems]
      exact .inl (Function.update_self ..)
  | release =>
    rcases hdata : v.data (shardOf b.queueId) with _ | p
    · rw [View.release_of_none hdata]
      exact hv
    · rw [View.release_of_some hdata]
      exact .inr (Function.update_self ..)

/-- 動かしても、番号の message は残る。 -/
theorem Moves.holds {v' : View BatchItemPayload} (h : Moves b shardOf v v')
    (hv : Exclusive b shardOf v) (hi : Holds b shardOf v i) : Holds b shardOf v' i := by
  cases h with
  | stay => exact hi
  | claim =>
    rcases hi with ⟨-, p, hp, hpi⟩ | ⟨p, hp, hpi⟩
    · rw [View.claim_of_some hp]
      exact .inr ⟨p, Function.update_self .., hpi⟩
    · -- in-flight にあるので、queue には payload が無い。
      have hitems : v.items b.queueId = none :=
        hv.resolve_right (by rw [hp]; exact Option.some_ne_none _)
      rw [View.claim_of_none hitems]
      exact .inr ⟨p, hp, hpi⟩
  | release =>
    rcases hi with ⟨hq, p, hp, hpi⟩ | ⟨p, hp, hpi⟩
    · have hdata : v.data (shardOf b.queueId) = none :=
        hv.resolve_left (by rw [hp]; exact Option.some_ne_none _)
      rw [View.release_of_none hdata]
      exact .inl ⟨hq, p, hp, hpi⟩
    · rw [View.release_of_some hp]
      exact .inl ⟨Function.update_self .., p, Function.update_self .., hpi⟩

/-- 使われていない id は、動かしても使われていない。 -/
theorem Moves.unused {v' : View BatchItemPayload} (h : Moves b shardOf v v')
    (hv : v.items b.queueId = none ∧ v.data (shardOf b.queueId) = none) :
    v'.items b.queueId = none ∧ v'.data (shardOf b.queueId) = none := by
  cases h with
  | stay => exact hv
  | claim =>
    rw [View.claim_of_none hv.1]
    exact hv
  | release =>
    rw [View.release_of_none hv.2]
    exact hv

end Moves

/-! ## 不変条件 -/

section Invariant

variable {b : Batch} {shardOf : String → Nat} {s : Streaming}

/-- 不変条件。 -/
structure StreamInv (b : Batch) (shardOf : String → Nat) (s : Streaming) : Prop where
  exclusive : ∀ m, Exclusive b shardOf (view s.redis m)
  unused : ∀ c ∈ s.calls, ∀ r ∈ c.request?, (view s.redis r.messageId).items b.queueId = none ∧
    (view s.redis r.messageId).data (shardOf b.queueId) = none
  distinct : ∀ (j k : Nat) (c c' : EnqueueCall) (r r' : ItemRequest), s.calls[j]? = some c →
    s.calls[k]? = some c' → c.request? = some r → c'.request? = some r' →
    r.messageId = r'.messageId → j = k
  kept : ∀ i, toString i ∈ s.tracker.enqueuedItems →
    (∃ c ∈ s.calls, c.Between i) ∨ s.HasMessage b shardOf i

theorem streamInv_initial : StreamInv b shardOf (Streaming.initial b) where
  exclusive _ := .inl rfl
  unused := by simp [Streaming.initial]
  distinct := by simp [Streaming.initial]
  kept := by simp [Streaming.initial, newBatch, storeMeta]

/-- 呼び出しに触れない一歩。 -/
theorem StreamInv.of_moves (h : StreamInv b shardOf s) {s' : Streaming}
    (hcalls : s'.calls = s.calls)
    (hmoves : ∀ m, Moves b shardOf (view s.redis m) (view s'.redis m))
    (hitems : s'.tracker.enqueuedItems ⊆ s.tracker.enqueuedItems)
    (hrecorded : s.recordedItems ⊆ s'.recordedItems) : StreamInv b shardOf s' where
  exclusive m := (hmoves m).exclusive (h.exclusive m)
  unused c hc r hr := (hmoves _).unused (h.unused c (hcalls ▸ hc) r hr)
  distinct := by
    rw [hcalls]
    exact h.distinct
  kept i hi := by
    rw [hcalls]
    refine (h.kept i (hitems hi)).imp_right fun hmsg => ?_
    rcases hmsg with hrec | ⟨m, hm⟩
    · exact .inl (hrecorded hrec)
    · exact .inr ⟨m, (hmoves m).holds (h.exclusive m) hm⟩

/-- 新しい呼び出しを始める。 -/
theorem StreamInv.call (h : StreamInv b shardOf s) {r : ItemRequest}
    (hr : s.Unused b shardOf r.messageId) : StreamInv b shardOf (s.step b shardOf (.call r)) where
  exclusive := h.exclusive
  unused c hc r' hr' := by
    rcases List.mem_append.mp hc with hc | hc
    · exact h.unused c hc r' hr'
    · rw [List.mem_singleton.mp hc] at hr'
      rw [← Option.some.inj hr']
      exact hr.2
  distinct j k c c' r₁ r₂ hj hk h₁ h₂ hid := by
    have hnew : ∀ {j : Nat} {c : EnqueueCall},
        (s.calls ++ [EnqueueCall.gettingMeta r])[j]? = some c →
          s.calls[j]? = some c ∨ j = s.calls.length ∧ c = .gettingMeta r := by
      intro j c hj
      rw [List.getElem?_append] at hj
      split at hj
      · exact .inl hj
      · next hlt =>
        obtain ⟨hlen, hc⟩ := List.getElem?_eq_some_iff.mp hj
        rw [List.length_singleton] at hlen
        refine .inr ⟨by omega, ?_⟩
        rw [← hc]
        exact List.getElem_singleton hlen
    rcases hnew hj with hj | ⟨rfl, rfl⟩ <;> rcases hnew hk with hk | ⟨rfl, rfl⟩
    · exact h.distinct j k c c' r₁ r₂ hj hk h₁ h₂ hid
    · rw [← Option.some.inj h₂] at hid
      exact absurd hid (hr.1 c (List.mem_of_getElem? hj) r₁ h₁)
    · rw [← Option.some.inj h₁] at hid
      exact absurd hid.symm (hr.1 c' (List.mem_of_getElem? hk) r₂ h₂)
    · rfl
  kept i hi := by
    rcases h.kept i hi with ⟨c, hc, hb⟩ | hm
    · exact .inl ⟨c, List.mem_append_left _ hc, hb⟩
    · exact .inr hm

section Advance

variable {k : Nat} {c c' : EnqueueCall}

/-- 呼び出しを進めても、残っている引数は増えない。 -/
theorem StreamInv.distinct_set (h : StreamInv b shardOf s) (hk : s.calls[k]? = some c)
    (hreq : ∀ r ∈ c'.request?, r ∈ c.request?) (i j : Nat) (d d' : EnqueueCall)
    (r r' : ItemRequest) (hi : (s.calls.set k c')[i]? = some d)
    (hj : (s.calls.set k c')[j]? = some d') (hr : d.request? = some r) (hr' : d'.request? = some r')
    (hid : r.messageId = r'.messageId) : i = j := by
  -- 置き換えた呼び出しを、元の呼び出しに戻す。
  have hback : ∀ {i : Nat} {d : EnqueueCall} {r : ItemRequest}, (s.calls.set k c')[i]? = some d →
      d.request? = some r → ∃ e, s.calls[i]? = some e ∧ e.request? = some r := by
    intro i d r hi hr
    rw [List.getElem?_set] at hi
    split at hi
    · next hki =>
      subst hki
      split at hi
      · obtain rfl := Option.some.inj hi
        exact ⟨c, hk, hreq r hr⟩
      · cases hi
    · exact ⟨d, hi, hr⟩
  obtain ⟨e, he, her⟩ := hback hi hr
  obtain ⟨e', he', her'⟩ := hback hj hr'
  exact h.distinct i j e e' r r' he he' her her' hid

/-- Redis に触れずに呼び出しを進める。`enqueuedItems` に加わるのは、これから message を入れる番号だけである。 -/
theorem StreamInv.set (h : StreamInv b shardOf s) (hk : s.calls[k]? = some c)
    (hreq : ∀ r ∈ c'.request?, r ∈ c.request?) (hc : ∀ i, c.Between i → c'.Between i)
    {tracker : BatchData} (hitems : ∀ i, toString i ∈ tracker.enqueuedItems →
      toString i ∈ s.tracker.enqueuedItems ∨ c'.Between i) :
    StreamInv b shardOf { s with tracker := tracker, calls := s.calls.set k c' } where
  exclusive := h.exclusive
  unused d hd r hr := by
    rcases List.mem_or_eq_of_mem_set hd with hd | rfl
    · exact h.unused d hd r hr
    · exact h.unused c (List.mem_of_getElem? hk) r (hreq r hr)
  distinct := h.distinct_set hk hreq
  kept i hi := by
    rcases hitems i hi with hi | hb
    · rcases h.kept i hi with ⟨d, hd, hb⟩ | hm
      · by_cases hdc : d = c
        · exact .inl ⟨c', mem_set_of_getElem? hk, hc i (hdc ▸ hb)⟩
        · exact .inl ⟨d, mem_set_of_ne hk hd hdc, hb⟩
      · exact .inr hm
    · exact .inl ⟨c', mem_set_of_getElem? hk, hb⟩

/-- message を入れて、呼び出しを終える。 -/
theorem StreamInv.enqueue (h : StreamInv b shardOf s) {r : ItemRequest}
    (hk : s.calls[k]? = some (.enqueueing r)) (hc : c'.request? = none) :
    StreamInv b shardOf
      { s with redis := enqueueMessage b shardOf r s.redis, calls := s.calls.set k c' } where
  exclusive m := by
    have hun := h.unused _ (List.mem_of_getElem? hk) r rfl
    rw [view_enqueueMessage]
    split
    · next hm => exact .inr (hm ▸ hun.2)
    · exact h.exclusive m
  unused d hd r' hr' := by
    obtain ⟨j, hj⟩ := List.getElem?_of_mem hd
    rw [List.getElem?_set] at hj
    split at hj
    · split at hj
      · rw [← Option.some.inj hj, hc] at hr'
        cases hr'
      · cases hj
    · next hne =>
      have hid : r.messageId ≠ r'.messageId := fun hid =>
        hne (h.distinct k j _ d r r' hk hj rfl hr' hid)
      rw [view_enqueueMessage, if_neg hid]
      exact h.unused d (List.mem_of_getElem? hj) r' hr'
  distinct := h.distinct_set hk (by simp [hc])
  kept i hi := by
    by_cases hri : r.itemIndex = i
    · refine .inr (.inr ⟨r.messageId, ?_⟩)
      rw [view_enqueueMessage, if_pos rfl]
      exact .inl ⟨Function.update_self .., _, Function.update_self .., hri⟩
    · rcases h.kept i hi with ⟨d, hd, r', rfl, hr'⟩ | hrec | ⟨m, hm⟩
      · have hne : EnqueueCall.enqueueing r' ≠ .enqueueing r := by
          rintro ⟨⟩
          exact hri hr'
        exact .inl ⟨_, mem_set_of_ne hk hd hne, r', rfl, hr'⟩
      · exact .inr (.inl hrec)
      · refine .inr (.inr ⟨m, ?_⟩)
        have hun := h.unused _ (List.mem_of_getElem? hk) r rfl
        rw [view_enqueueMessage, if_neg]
        · exact hm
        · -- `m` には message があるが、`r.messageId` には無い。
          rintro rfl
          rcases hm with ⟨-, p, hp, -⟩ | ⟨p, hp, -⟩
          · rw [hun.1] at hp
            cases hp
          · rw [hun.2] at hp
            cases hp

theorem not_between_of_ne (hne : ∀ r, c ≠ .enqueueing r) {i : Nat} : ¬ c.Between i :=
  fun ⟨r, hr, _⟩ => hne r hr

/-- 加わるのは、その番号だけである。 -/
theorem mem_markItemEnqueued {i j : Nat} {t : BatchData} :
    toString j ∈ (markItemEnqueued i t).2.enqueuedItems ↔ i = j ∨ toString j ∈ t.enqueuedItems := by
  simp only [markItemEnqueued, Finset.mem_insert, Text.toString_nat_injective.eq_iff, eq_comm]

/-- 呼び出しの一 command。 -/
theorem StreamInv.advance (h : StreamInv b shardOf s) (hk : s.calls[k]? = some c)
    {response : Response} (hkeeps : c.Keeps s response) :
    StreamInv b shardOf
      { (c.next b shardOf response s).2 with
        calls := s.calls.set k (c.next b shardOf response s).1 } := by
  cases c with
  | gettingMeta r =>
    have hset : ∀ c', (c' = .marking r ∨ c' = .thrown) →
        StreamInv b shardOf { s with calls := s.calls.set k c' } := by
      intro c' hc'
      refine h.set hk ?_ (fun i hi => absurd hi (not_between_of_ne (by simp))) fun i hi => .inl hi
      rcases hc' with rfl | rfl <;> simp [EnqueueCall.request?]
    simp only [EnqueueCall.next]
    split
    · refine hset _ ?_
      split
      · exact .inl rfl
      · exact .inr rfl
    · exact hset _ (.inr rfl)
  | marking r =>
    cases response with
    | ok =>
      simp only [EnqueueCall.next]
      refine h.set hk ?_ (fun i hi => absurd hi (not_between_of_ne (by simp))) fun i hi => ?_
      · split <;> simp [EnqueueCall.request?]
      · rcases mem_markItemEnqueued.mp hi with rfl | hi
        · by_cases hmem : toString r.itemIndex ∈ s.tracker.enqueuedItems
          · exact .inl hmem
          · right
            rw [if_pos (by simpa [markItemEnqueued] using hmem)]
            exact ⟨r, rfl, rfl⟩
        · exact .inl hi
    | notExecuted =>
      simp only [EnqueueCall.next]
      exact h.set hk (by simp [EnqueueCall.request?])
        (fun i hi => absurd hi (not_between_of_ne (by simp))) fun i hi => .inl hi
    | replyLost =>
      simp only [EnqueueCall.next]
      refine h.set hk (by simp [EnqueueCall.request?])
        (fun i hi => absurd hi (not_between_of_ne (by simp))) fun i hi => .inl ?_
      -- 印は Redis に付いたが応答が失われた。呼び出しは投げるので、印は既に付いていたものに限る。
      rcases mem_markItemEnqueued.mp hi with rfl | hi
      · exact hkeeps rfl
      · exact hi
  | enqueueing r =>
    cases response with
    | ok => exact h.enqueue hk rfl
    -- 印を付けた後で enqueue が届かない応答は、`Keeps` が除いている。
    | notExecuted => exact absurd rfl hkeeps
    | replyLost => exact h.enqueue hk rfl
  | returned enqueued =>
    exact h.set hk (fun _ hr => hr) (fun _ hi => hi) fun i hi => .inl hi
  | thrown => exact h.set hk (fun _ hr => hr) (fun _ hi => hi) fun i hi => .inl hi

end Advance

/-- 記録された message の payload を in-flight から消す。 -/
theorem StreamInv.delete (h : StreamInv b shardOf s) {m : String}
    (hm : ∀ p, (view s.redis m).data (shardOf b.queueId) = some (.message p) →
      p.payload.itemIndex ∈ s.recordedItems) :
    StreamInv b shardOf (s.step b shardOf (.hdelInflightData m)) where
  exclusive m' := by
    simp only [Streaming.step, run_hdel, FairQueue.view_delete_data]
    split
    · exact .inr (Function.update_self ..)
    · exact h.exclusive m'
  unused c hc r hr := by
    have hun := h.unused c hc r hr
    simp only [Streaming.step, run_hdel, FairQueue.view_delete_data]
    split
    · exact ⟨hun.1, Function.update_self ..⟩
    · exact hun
  distinct := h.distinct
  kept i hi := by
    refine (h.kept i hi).imp_right fun hmsg => ?_
    rcases hmsg with hrec | ⟨m', hm'⟩
    · exact .inl hrec
    · by_cases heq : m = m'
      · subst heq
        rcases hm' with hq | ⟨p, hp, rfl⟩
        · refine .inr ⟨m, ?_⟩
          simp only [Streaming.step, run_hdel, FairQueue.view_delete_data, if_true]
          exact .inl hq
        · exact .inl (hm p hp)
      · refine .inr ⟨m', ?_⟩
        simp only [Streaming.step, run_hdel, FairQueue.view_delete_data, if_neg heq]
        exact hm'

theorem record_enqueuedItems (o : Outcome) (t : BatchData) :
    (record o t).2.enqueuedItems = t.enqueuedItems := by
  by_cases hmem : toString o.index ∈ t.processedItems
  · rw [record_of_mem hmem]
  · cases o with
    | success runId i =>
      have heq : record (.success runId i) t = (t.processed + 1, _) := if_neg hmem
      rw [heq]
    | failure f now =>
      have heq : record (.failure f now) t = (t.processed + 1, _) := if_neg hmem
      rw [heq]

/-- 条件を満たす一歩は、不変条件を保つ。 -/
theorem StreamInv.step (h : StreamInv b shardOf s) {a : StreamAction}
    (ha : s.Sound b shardOf a) : StreamInv b shardOf (s.step b shardOf a) := by
  cases a with
  | call r => exact h.call ha
  | advance k response =>
    rcases hk : s.calls[k]? with _ | c
    · simpa only [Streaming.step, hk] using h
    · simp only [Streaming.step, hk]
      exact h.advance hk (ha c hk)
  | queue command =>
    exact h.of_moves rfl (fun m => moves_queueCommand command s.redis m) (Finset.Subset.refl _)
      (Finset.Subset.refl _)
  | record o =>
    refine h.of_moves rfl (fun m => .stay) ?_ (Finset.subset_insert _ _)
    rw [Streaming.step, record_enqueuedItems]
  | zremInflight messageId =>
    refine h.of_moves rfl (fun m => ?_) (Finset.Subset.refl _) (Finset.Subset.refl _)
    simp only [Streaming.step, run_zrem, FairQueue.view_set_inflight]
    exact .stay
  | hdelInflightData messageId => exact h.delete ha
  | cleanup => exact h.of_moves rfl (fun m => .stay) (Finset.empty_subset _) (Finset.Subset.refl _)

end Invariant

/-! ## 実行の全体 -/

section Run

variable {b : Batch} {shardOf : String → Nat} {s : Streaming}

/-- 最後に始めた呼び出しを進める。 -/
theorem step_advance_last {tracker : BatchData} {redis : Redis BatchItemPayload}
    {calls : List EnqueueCall} {c : EnqueueCall} {recordedItems : Finset Nat}
    {response : Response} :
    Streaming.step b shardOf ⟨tracker, redis, calls ++ [c], recordedItems⟩
        (.advance calls.length response) =
      let p := c.next b shardOf response ⟨tracker, redis, calls ++ [c], recordedItems⟩
      { p.2 with calls := calls ++ [p.1] } := by
  have hlast : (calls ++ [c])[calls.length]? = some c := List.getElem?_concat_length
  have hset : ∀ c', (calls ++ [c]).set calls.length c' = calls ++ [c'] := by
    intro c'
    rw [List.set_append_right _ _ (Nat.le_refl _), Nat.sub_self, List.set_cons_zero]
  simp only [Streaming.step, hlast, hset]

/-- 失敗の無い呼び出しの後、番号は `enqueuedItems` にあり、この呼び出しは終わっている。 -/
theorem enqueueBatchItem_marks (b : Batch) (shardOf : String → Nat) {r : ItemRequest}
    (hmeta : s.tracker.batchMeta.isSome) :
    toString r.itemIndex ∈ (s.enqueueBatchItem b shardOf r).tracker.enqueuedItems ∧
      ∀ c ∈ (s.enqueueBatchItem b shardOf r).calls, c ∈ s.calls ∨ c.request? = none := by
  have hmark : toString r.itemIndex ∈ (markItemEnqueued r.itemIndex s.tracker).2.enqueuedItems :=
    mem_markItemEnqueued.mpr (.inl rfl)
  simp only [Streaming.enqueueBatchItem, exec_cons, exec_nil]
  rw [show s.step b shardOf (.call r) = ⟨s.tracker, s.redis, s.calls ++ [EnqueueCall.gettingMeta r],
    s.recordedItems⟩ from rfl, step_advance_last]
  simp only [EnqueueCall.next, if_true, hmeta]
  rw [step_advance_last]
  simp only [EnqueueCall.next]
  rw [step_advance_last]
  by_cases hnew : (markItemEnqueued r.itemIndex s.tracker).1 = true
  · simp only [hnew, if_true, EnqueueCall.next]
    refine ⟨hmark, fun c hc => (List.mem_append.mp hc).imp_right fun hc => ?_⟩
    rw [List.mem_singleton.mp hc]
    rfl
  · simp only [hnew, EnqueueCall.next]
    refine ⟨hmark, fun c hc => (List.mem_append.mp hc).imp_right fun hc => ?_⟩
    rw [List.mem_singleton.mp hc]
    rfl

/-- **どの一歩も、`SADD` で番号が加わってから message が入るまでの間に失敗せず、記録の前に message を消さない
実行では、到達するどの状態でも、`enqueuedItems` にある番号は message があるか記録されている。** そこから失敗の無い
`enqueueBatchItem` を呼べば、その番号は message があるか記録されている。`SADD` と script の間にいる呼び出しの番号は
除く。 -/
theorem streaming_atomic (b : Batch) (shardOf : String → Nat) (as : List StreamAction)
    (h : Along (Streaming.step b shardOf) (Streaming.Sound b shardOf) (Streaming.initial b) as) :
    let s := exec (Streaming.step b shardOf) (Streaming.initial b) as
    (∀ i, toString i ∈ s.tracker.enqueuedItems → (∀ c ∈ s.calls, ¬ c.Between i) →
      s.HasMessage b shardOf i) ∧
    ∀ r : ItemRequest, s.tracker.batchMeta.isSome → s.Unused b shardOf r.messageId →
      (∀ c ∈ s.calls, ¬ c.Between r.itemIndex) →
      (s.enqueueBatchItem b shardOf r).HasMessage b shardOf r.itemIndex := by
  intro s
  have hinv : StreamInv b shardOf s :=
    Along.invariant (fun _ _ hs ha => hs.step ha) streamInv_initial h
  have hmsg : ∀ {s : Streaming}, StreamInv b shardOf s → ∀ i,
      toString i ∈ s.tracker.enqueuedItems → (∀ c ∈ s.calls, ¬ c.Between i) →
      s.HasMessage b shardOf i :=
    fun hs i hi hfree => (hs.kept i hi).resolve_left fun ⟨c, hc, hb⟩ => hfree c hc hb
  refine ⟨hmsg hinv, fun r hmeta hun hfree => ?_⟩
  obtain ⟨hmark, hcalls⟩ := enqueueBatchItem_marks b shardOf (r := r) hmeta
  have hok : ∀ (s : Streaming) (k : Nat), s.Sound b shardOf (.advance k .ok) := by
    intro s k c _
    cases c with
    | marking r => exact fun h => by cases h
    | enqueueing r => exact fun h => by cases h
    | _ => trivial
  have hretry : StreamInv b shardOf (s.enqueueBatchItem b shardOf r) :=
    Along.invariant (fun _ _ hs ha => hs.step ha) hinv
      ⟨hun, hok _ _, hok _ _, hok _ _, trivial⟩
  refine hmsg hretry _ hmark fun c hc hb => ?_
  rcases hcalls c hc with hc | hnone
  · exact hfree c hc hb
  · obtain ⟨r', rfl, -⟩ := hb
    cases hnone

end Run

namespace Streaming

def batch : Batch :=
  { batchId := "b", friendlyId := "batch_b", envId := "e", runCount := 1, createdAt := 0
    metadata := [("batchId", "\"b\""), ("friendlyId", "\"batch_b\""), ("envId", "\"e\"")] }

def request (messageId : String) : ItemRequest :=
  { itemIndex := 0, item := ⟨"task", "payload", none⟩, messageId := messageId }

/-- script の応答が失われた呼び出し。 -/
def keptRun : List StreamAction :=
  [.call (request "m1"), .advance 0 .ok, .advance 0 .ok, .advance 0 .replyLost]

/-- 呼び出しは例外を投げるが、番号 0 の message は queue にある。 -/
theorem streaming_atomic_keptRun :
    (exec (Streaming.step batch fun _ => 0) (Streaming.initial batch) keptRun).calls = [.thrown] ∧
    (exec (Streaming.step batch fun _ => 0) (Streaming.initial batch) keptRun).HasMessage batch
      (fun _ => 0) 0 := by
  have hsound : Along (Streaming.step batch fun _ => 0) (Streaming.Sound batch fun _ => 0)
      (Streaming.initial batch) keptRun := by
    refine ⟨⟨by simp [Streaming.initial], rfl, rfl⟩, ?_, ?_, ?_, trivial⟩
    · rintro c ⟨⟩
      trivial
    · rintro c ⟨⟩ ⟨⟩
    · rintro c ⟨⟩ ⟨⟩
  refine ⟨rfl, (streaming_atomic batch (fun _ => 0) keptRun hsound).1 0 (by decide +kernel) ?_⟩
  rintro c hc ⟨r, rfl, -⟩
  have hthrown : EnqueueCall.enqueueing r = .thrown := List.mem_singleton.mp hc
  cases hthrown

/-- 一度目の呼び出しは script の前に失敗し、二度目の呼び出しは失敗しない。 -/
def lostRun : List StreamAction :=
  [.call (request "m1"), .advance 0 .ok, .advance 0 .ok, .advance 0 .notExecuted,
    .call (request "m2"), .advance 1 .ok, .advance 1 .ok, .advance 1 .ok]

/-- 一度目は例外を投げ、二度目は重複として捨てられ、番号 0 の message はどこにも無い。 -/
theorem item_lost :
    let s := exec (Streaming.step batch fun _ => 0) (Streaming.initial batch) lostRun
    s.calls = [.thrown, .returned false] ∧ toString 0 ∈ s.tracker.enqueuedItems ∧
      ¬ s.HasMessage batch (fun _ => 0) 0 := by
  refine ⟨rfl, by decide +kernel, ?_⟩
  rintro (hrec | ⟨m, ⟨-, p, hp, -⟩ | ⟨p, hp, -⟩⟩)
  · cases hrec
  · cases hp
  · cases hp

end Streaming

end BatchQueue
