import Trigger.FairQueue.MasterQueue
import Trigger.FairQueue.System

/-!
# command の触れる範囲

一つの command が触れる key を `Op.footprint` に書き出す（`Op.uses`）。それ以外の key の値は変わらない。
状態の一歩は、method の開始か、task の先頭の command の実行である（`System.step_cases`）。
-/

namespace FairQueue

open Infra Infra.Keyspace
open Infra.Redis (ZSet)

variable {P : Type}

/-! ## 触れる key -/

namespace Op

/-- command が読むか書く key。 -/
def footprint (options : FairQueueOptions P) : Op P → Set (Sigma Key)
  | .enqueueMessageAtomic message =>
    {⟨_, .queue message.queueId⟩, ⟨_, .queueItems message.queueId⟩,
      ⟨_, .masterQueue (options.shardOf message.queueId)⟩}
  | .enqueueBatchAtomic queueId _ =>
    {⟨_, .queue queueId⟩, ⟨_, .queueItems queueId⟩, ⟨_, .masterQueue (options.shardOf queueId)⟩}
  | .scard _ key .. => {⟨_, key⟩}
  | .claim queueId _ => localKeys queueId (options.shardOf queueId)
  | .claimBatch call _ => localKeys call.queueId (options.shardOf call.queueId)
  | .reserve call .. => {p | ∃ k ∈ options.groupKeys call.descriptor, p = ⟨_, k⟩}
  | .push _ message _ => {⟨_, .workerQueue (options.resolveWorkerQueue message.2)⟩}
  | .releaseBatch call _ =>
    insert ⟨_, .masterQueue call.shardId⟩ (localKeys call.queueId (options.shardOf call.queueId))
  | .updateMasterQueueIfEmpty _ shardId queueId => {⟨_, .masterQueue shardId⟩, ⟨_, .queue queueId⟩}
  | .getMessage _ _ _ queueId => {⟨_, .inflightData (options.shardOf queueId)⟩}
  | .zremInflight _ queueId => {⟨_, .inflight (options.shardOf queueId)⟩}
  | .hdelInflightData _ queueId => {⟨_, .inflightData (options.shardOf queueId)⟩}
  | .release _ queueId _ =>
    insert ⟨_, .masterQueue (options.shardOf queueId)⟩
      (localKeys queueId (options.shardOf queueId))
  | .hsetItems queueId _ => {⟨_, .queueItems queueId⟩}
  | .zaddDeadLetter tenantId .. => {⟨_, .deadLetterQueue tenantId⟩}
  | .hsetDeadLetter tenantId _ => {⟨_, .deadLetterQueueData tenantId⟩}
  | .srem key _ => {⟨_, key⟩}
  | .reclaimScan shardId => {⟨_, .inflight shardId⟩}
  | .reclaimGet shardId .. => {⟨_, .inflightData shardId⟩}
  | .reclaim shardId _ member _ =>
    insert ⟨_, .masterQueue (options.shardOf (parseMember member).2)⟩
      (localKeys (parseMember member).2 shardId)
  | .heartbeat _ queueId => {⟨_, .inflight (options.shardOf queueId)⟩}
  | .getDeadLetter _ tenantId _ => {⟨_, .deadLetterQueueData tenantId⟩}
  | .zremDeadLetter tenantId _ => {⟨_, .deadLetterQueue tenantId⟩}
  | .hdelDeadLetter tenantId _ => {⟨_, .deadLetterQueueData tenantId⟩}

end Op

section Uses

variable {U : Set (Sigma Key)}

theorem uses_checkCapacity : ∀ {groups : List (Key .set × Nat)}, (∀ g ∈ groups, ⟨_, g.1⟩ ∈ U) →
    (checkCapacity groups : Script P Bool).Uses U
  | [], _ => trivial
  | _ :: rest, h => Prog.Uses.bind (Prog.Uses.query (h _ List.mem_cons_self)) fun _ => by
      split
      · exact trivial
      · exact uses_checkCapacity fun g hg => h g (List.mem_cons_of_mem _ hg)

theorem uses_addToGroups (messageId : String) : ∀ {keys : List (Key .set)},
    (∀ k ∈ keys, ⟨_, k⟩ ∈ U) → (addToGroups messageId keys : Script P Unit).Uses U
  | [], _ => trivial
  | _ :: _, h => Prog.Uses.bind (Prog.Uses.modify (h _ List.mem_cons_self)) fun _ =>
      uses_addToGroups messageId fun k hk => h k (List.mem_cons_of_mem _ hk)

theorem groupData_map_fst (options : FairQueueOptions P) (queue : QueueDescriptor) :
    (options.groupData queue).map Prod.fst = options.groupKeys queue := by
  simp [FairQueueOptions.groupData, FairQueueOptions.groupKeys, List.map_map, Function.comp_def]

theorem uses_reserve (options : FairQueueOptions P) (queue : QueueDescriptor) (messageId : String)
    (h : ∀ k ∈ options.groupKeys queue, ⟨_, k⟩ ∈ U) :
    (reserveConcurrencyLua (options.groupData queue) messageId : Script P Nat).Uses U := by
  refine Prog.Uses.bind (uses_checkCapacity fun g hg => h _ ?_) fun allowed => ?_
  · rw [← groupData_map_fst]
    exact List.mem_map_of_mem hg
  · split
    · refine Prog.Uses.bind (uses_addToGroups messageId ?_) fun _ => trivial
      rw [groupData_map_fst]
      exact h
    · exact trivial

variable {queueKey masterQueueKey inflightKey : Key .zset} {queueItemsKey inflightDataKey : Key .hash}

theorem uses_releaseMessage (hf : ⟨_, inflightKey⟩ ∈ U) (hd : ⟨_, inflightDataKey⟩ ∈ U)
    (hq : ⟨_, queueKey⟩ ∈ U) (hi : ⟨_, queueItemsKey⟩ ∈ U) (hm : ⟨_, masterQueueKey⟩ ∈ U)
    (member messageId : String) (score : ℚ) (queueId : String) :
    (releaseMessageLua inflightKey inflightDataKey queueKey queueItemsKey masterQueueKey member
      messageId score queueId : Script P Nat).Uses U := by
  refine Prog.Uses.bind (uses_releaseOne hf hd hq hi _ _ _) fun released => ?_
  split
  · exact trivial
  · exact Prog.Uses.bind (uses_updateMasterQueue hq hm queueId) fun _ => trivial

theorem uses_releaseMessageBatch (hf : ⟨_, inflightKey⟩ ∈ U) (hd : ⟨_, inflightDataKey⟩ ∈ U)
    (hq : ⟨_, queueKey⟩ ∈ U) (hi : ⟨_, queueItemsKey⟩ ∈ U) (hm : ⟨_, masterQueueKey⟩ ∈ U)
    (score : ℚ) (queueId : String) (messages : List (String × String)) :
    (releaseMessageBatchLua inflightKey inflightDataKey queueKey queueItemsKey masterQueueKey score
      queueId messages : Script P Nat).Uses U := by
  refine Prog.Uses.bind (uses_releaseLoop hf hd hq hi _ _) fun released => ?_
  split
  · exact trivial
  · exact Prog.Uses.bind (uses_updateMasterQueue hq hm queueId) fun _ => trivial

theorem uses_updateMasterQueueIfEmpty (hq : ⟨_, queueKey⟩ ∈ U) (hm : ⟨_, masterQueueKey⟩ ∈ U)
    (queueId : String) :
    (updateMasterQueueIfEmptyLua masterQueueKey queueKey queueId : Script P Nat).Uses U := by
  refine Prog.Uses.bind (Prog.Uses.query hq) fun count => ?_
  split
  · exact Prog.Uses.bind (Prog.Uses.modify hm) fun _ => trivial
  · exact Prog.Uses.bind (uses_updateMasterQueue hq hm queueId) fun _ => trivial

end Uses

/-- **command は `footprint` の外の key に触れない。** -/
theorem Op.uses (options : FairQueueOptions P) (cache : Cache) (now : ℚ) (op : Op P) :
    (op.prog options cache now).Uses (op.footprint options) := by
  cases op with
  | enqueueMessageAtomic message =>
    refine Prog.Uses.bind (Prog.Uses.bind (Prog.Uses.modify ?_) fun _ => Prog.Uses.bind
      (Prog.Uses.modify ?_) fun _ => Prog.Uses.bind (uses_updateMasterQueue ?_ ?_ _) fun _ =>
        trivial) fun _ => trivial <;> simp [footprint]
  | enqueueBatchAtomic queueId messages =>
    refine Prog.Uses.bind (Prog.Uses.bind (uses_enqueueLoop ?_ ?_ _) fun _ => Prog.Uses.bind
      (uses_updateMasterQueue ?_ ?_ _) fun _ => trivial) fun _ => trivial <;> simp [footprint]
  | scard call key limit rest minCapacity =>
    refine Prog.Uses.bind (Prog.Uses.query rfl) fun current => ?_
    rcases rest with _ | ⟨g, rest⟩ <;> exact trivial
  | claim queueId timeoutMs =>
    exact Prog.Uses.bind (uses_claimMessage mem_localKeys_queue mem_localKeys_queueItems
      mem_localKeys_inflight mem_localKeys_inflightData _ _) fun _ => trivial
  | claimBatch call maxCount =>
    exact Prog.Uses.bind (Prog.Uses.bind (Prog.Uses.query mem_localKeys_queue) fun _ =>
      uses_claimLoop mem_localKeys_queue mem_localKeys_queueItems mem_localKeys_inflight
        mem_localKeys_inflightData _ _ _) fun _ => trivial
  | reserve call message rest =>
    exact Prog.Uses.bind (uses_reserve options _ _ fun k hk => ⟨k, hk, rfl⟩) fun _ => trivial
  | push call message rest => exact Prog.Uses.bind (Prog.Uses.modify rfl) fun _ => trivial
  | releaseBatch call messageIds =>
    refine Prog.Uses.bind (uses_releaseMessageBatch ?_ ?_ ?_ ?_ ?_ _ _ _) fun _ => trivial <;>
      simp [footprint, localKeys]
  | updateMasterQueueIfEmpty inst shardId queueId =>
    refine Prog.Uses.bind (uses_updateMasterQueueIfEmpty ?_ ?_ _) fun _ => trivial <;>
      simp [footprint]
  | getMessage inst purpose messageId queueId =>
    exact Prog.Uses.bind (Prog.Uses.query rfl) fun _ => trivial
  | zremInflight messageId queueId =>
    exact Prog.Uses.bind (Prog.Uses.modify rfl) fun _ => trivial
  | hdelInflightData messageId queueId =>
    exact Prog.Uses.bind (Prog.Uses.modify rfl) fun _ => trivial
  | release messageId queueId delay =>
    refine Prog.Uses.bind (uses_releaseMessage ?_ ?_ ?_ ?_ ?_ _ _ _ _) fun _ => trivial <;>
      simp [footprint, localKeys]
  | hsetItems queueId message => exact Prog.Uses.bind (Prog.Uses.modify rfl) fun _ => trivial
  | zaddDeadLetter tenantId messageId score =>
    exact Prog.Uses.bind (Prog.Uses.modify rfl) fun _ => trivial
  | hsetDeadLetter tenantId message =>
    exact Prog.Uses.bind (Prog.Uses.modify rfl) fun _ => trivial
  | srem key messageId => exact Prog.Uses.bind (Prog.Uses.modify rfl) fun _ => trivial
  | reclaimScan shardId => exact Prog.Uses.bind (Prog.Uses.query rfl) fun _ => trivial
  | reclaimGet shardId clock member => exact Prog.Uses.bind (Prog.Uses.query rfl) fun _ => trivial
  | reclaim shardId clock member score =>
    refine Prog.Uses.bind (uses_releaseMessage ?_ ?_ ?_ ?_ ?_ _ _ _ _) fun _ => trivial <;>
      simp [footprint, localKeys]
  | heartbeat messageId queueId =>
    refine Prog.Uses.bind (Prog.Uses.bind (Prog.Uses.query rfl) fun score => ?_) fun _ => trivial
    rcases score with _ | x
    · exact trivial
    · exact Prog.Uses.bind (Prog.Uses.modify rfl) fun _ => trivial
  | getDeadLetter inst tenantId messageId =>
    refine Prog.Uses.bind (Prog.Uses.query rfl) fun data => ?_
    rcases data with _ | (m | m | x) <;> exact trivial
  | zremDeadLetter tenantId messageId =>
    exact Prog.Uses.bind (Prog.Uses.modify rfl) fun _ => trivial
  | hdelDeadLetter tenantId messageId =>
    exact Prog.Uses.bind (Prog.Uses.modify rfl) fun _ => trivial

/-- `footprint` の外の key の値は変わらない。 -/
theorem Op.get_of_notMem (options : FairQueueOptions P) (cache : Cache) (now : ℚ) (op : Op P)
    (s : Redis P) {κ : Kind} {k : Key κ} (hk : ⟨κ, k⟩ ∉ op.footprint options) :
    ((op.prog options cache now).run s).2.get k = s.get k :=
  (op.uses options cache now).frame hk s

/-! ## 一歩 -/

namespace System

/-- method を始めるときの command の列。 -/
inductive Starts (options : FairQueueOptions P) (s : System P) : List (Op P) → Prop
  | enqueueMessageAtomic (message : StoredMessage P) :
      Starts options s [.enqueueMessageAtomic message]
  | enqueueBatchAtomic (queueId : String) (messages : List (StoredMessage P)) :
      Starts options s [.enqueueBatchAtomic queueId messages]
  | claim (queueId : String) (timeoutMs : ℚ) : Starts options s [.claim queueId timeoutMs]
  | claimAndPush (inst : Nat) (queueId tenantId : String) (shardId : Nat) :
      Starts options s (s.claimStart options inst queueId tenantId shardId)
  | getMessage (inst : Nat) (purpose : Purpose) (messageId queueId : String) :
      Starts options s [.getMessage inst purpose messageId queueId]
  | heartbeat (messageId queueId : String) : Starts options s [.heartbeat messageId queueId]
  | reclaim (shardId : Nat) : Starts options s [.reclaimScan shardId]
  | getDeadLetter (inst : Nat) (tenantId messageId : String) :
      Starts options s [.getDeadLetter inst tenantId messageId]

/-- 一歩は、method の開始か、task の先頭の command の実行か、何もしないことである。 -/
theorem step_cases (options : FairQueueOptions P) (s : System P) (l : Label P) :
    (s.step options l = s) ∨
    (∃ ops, Starts options s ops ∧ (s.step options l).redis = s.redis ∧
      (s.step options l).tasks = s.tasks ++ [ops] ∧ (s.step options l).history = s.history) ∨
    (∃ task now op rest, l = .run task now ∧ s.tasks[task]? = some (op :: rest) ∧
      s.step options l = s.advance options task now op rest) := by
  cases l with
  | enqueue inst queueId tenantId messageId payload timestamp metadata =>
    exact .inr (.inl ⟨_, .enqueueMessageAtomic _, rfl, rfl, rfl⟩)
  | enqueueBatch inst queueId tenantId messages metadata =>
    exact .inr (.inl ⟨_, .enqueueBatchAtomic _ _, rfl, rfl, rfl⟩)
  | claim queueId timeoutMs => exact .inr (.inl ⟨_, .claim _ _, rfl, rfl, rfl⟩)
  | claimAndPush inst queueId tenantId shardId =>
    exact .inr (.inl ⟨_, .claimAndPush _ _ _ _, rfl, rfl, rfl⟩)
  | message inst purpose messageId queueId =>
    exact .inr (.inl ⟨_, .getMessage _ _ _ _, rfl, rfl, rfl⟩)
  | heartbeat messageId queueId => exact .inr (.inl ⟨_, .heartbeat _ _, rfl, rfl, rfl⟩)
  | reclaim shardId => exact .inr (.inl ⟨_, .reclaim _, rfl, rfl, rfl⟩)
  | redrive inst tenantId messageId =>
    by_cases hdlq : options.deadLetterQueue = true
    · refine .inr (.inl ⟨_, .getDeadLetter inst tenantId messageId, ?_, ?_, ?_⟩) <;>
        simp [step, hdlq, start]
    · exact .inl (by simp [step, hdlq])
  | run task now =>
    rcases htask : s.tasks[task]? with _ | (_ | ⟨op, rest⟩)
    · exact .inl (by simp [step, htask])
    · exact .inl (by simp [step, htask])
    · exact .inr (.inr ⟨task, now, op, rest, rfl, htask, by simp [step, htask]⟩)

/-- 状態の Redis だけを見る性質は、command ごとに確かめればよい。 -/
theorem redis_induction {I : Redis P → Prop} (options : FairQueueOptions P)
    (hinit : I Store.empty)
    (hop : ∀ (s : Redis P) (cache : Cache) (now : ℚ) (op : Op P), I s →
      I ((op.prog options cache now).run s).2) (ls : List (Label P)) :
    I (exec options ls).redis := by
  induction ls using List.reverseRecOn with
  | nil => exact hinit
  | append_singleton ls l ih =>
    rw [exec_append]
    rcases step_cases options (exec options ls) l with h | ⟨ops, -, h, -⟩ |
        ⟨task, now, op, rest, -, -, h⟩
    · rw [h]
      exact ih
    · rw [h]
      exact ih
    · rw [h]
      exact hop _ _ _ _ ih

end System

end FairQueue
