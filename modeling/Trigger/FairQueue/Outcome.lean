import Trigger.FairQueue.Availability

/-!
# command の結果

一つの command が、何を続け、何を起こすかを `Yields` に一度だけ書き出す（`Op.yields`）。task の列や history に
ついての性質は、`Op.prog` を開かずに、この場合分けから証明する。
-/

namespace FairQueue

open Infra Infra.Keyspace
open Infra.Redis (ZSet)

variable {P : Type}

/-! ## group の集合 -/

section Sets

variable (s : Redis P)

theorem run_checkCapacity : ∀ groups : List (Key .set × Nat),
    (checkCapacity groups : Script P Bool).run s =
      (groups.all fun g => Finset.card (s.get g.1) < g.2, s)
  | [] => rfl
  | (key, limit) :: rest => by
    simp only [checkCapacity, Prog.run_bind, run_scard, List.all_cons]
    split
    · next h => simp [Nat.not_lt.mpr h]
    · next h => rw [run_checkCapacity rest]; simp [Nat.lt_of_not_le h]

theorem get_addToGroups (messageId : String) : ∀ (keys : List (Key .set)) (s : Redis P)
    (k : Key .set), (((addToGroups messageId keys : Script P Unit).run s).2.get k : Finset String) =
      if k ∈ keys then insert messageId (s.get k : Finset String) else s.get k
  | [], _, _ => by simp [addToGroups]
  | key :: rest, s, k => by
    simp only [addToGroups, Prog.run_bind, run_sadd]
    rw [get_addToGroups messageId rest]
    by_cases hk : k = key
    · subst hk
      simp
    · rw [Store.get_set_of_ne _ _ _ (by simpa using hk)]
      simp [hk]

/-- slot を取れたときは、どの group にも空きがあり、全ての集合に message が入る。 -/
theorem run_reserve (groups : List (Key .set × Nat)) (messageId : String) :
    ((reserveConcurrencyLua groups messageId : Script P Nat).run s).1 =
        (if groups.all (fun g => Finset.card (s.get g.1) < g.2) then 1 else 0) ∧
      ∀ k, (((reserveConcurrencyLua groups messageId : Script P Nat).run s).2.get k :
          Finset String) =
        if groups.all (fun g => Finset.card (s.get g.1) < g.2) ∧ k ∈ groups.map Prod.fst
        then insert messageId (s.get k : Finset String) else s.get k := by
  simp only [reserveConcurrencyLua, Prog.run_bind, run_checkCapacity]
  split
  · next h =>
    simp only [Prog.run_bind, Prog.run_pure, h, true_and]
    exact get_addToGroups messageId _ s
  · next h => simp [h]

/-- group の集合から message を除くのは `SREM` だけである。 -/
theorem mem_set_op (options : FairQueueOptions P) (cache : Cache) (now : ℚ) (op : Op P)
    {k : Key .set} {m : String} (h : m ∈ (s.get k : Finset String)) :
    m ∈ (((op.prog options cache now).run s).2.get k : Finset String) ∨ op = .srem k m := by
  cases k with
  | concurrency group =>
    cases op with
    | scard call key limit rest minCapacity =>
      simp only [Op.prog, Prog.run_bind, run_scard]
      split <;> exact .inl h
    | reserve call message rest =>
      refine .inl ?_
      simp only [Op.prog, Prog.run_bind, Prog.run_pure]
      rw [(run_reserve s _ _).2]
      split
      · exact Finset.mem_insert_of_mem h
      · exact h
    | srem key m' =>
      simp only [Op.prog, Prog.run_bind, run_srem, Prog.run_pure]
      by_cases hkey : Key.concurrency group = key
      · subst hkey
        by_cases hm : m = m'
        · exact .inr (by rw [hm])
        · rw [Store.get_set_self]
          exact .inl (Finset.mem_erase.mpr ⟨hm, h⟩)
      · rw [Store.get_set_of_ne _ _ _ (by simpa using hkey)]
        exact .inl h
    | _ =>
      refine .inl ?_
      rw [Op.get_of_notMem]
      · exact h
      · simp [Op.footprint, localKeys]

end Sets

/-! ## claim が返すもの -/

theorem claimLoop_sublist {q : String} {n : Nat} (deadline : ℚ) :
    ∀ (ids : List String) (s : Redis P), (((claimLoop (.queue q) (.queueItems q) (.inflight n)
      (.inflightData n) q deadline ids : Script P _).run s).1.map Prod.fst).Sublist ids
  | [], _ => .slnil
  | id :: rest, s => by
    simp only [claimLoop, Prog.run_bind, Prog.run_pure, List.map_append]
    rcases ((claimOne (.queue q) (.queueItems q) (.inflight n) (.inflightData n) q deadline id :
      Script P _).run s).1 with _ | payload
    · exact (claimLoop_sublist deadline rest _).cons id
    · exact (claimLoop_sublist deadline rest _).cons_cons id

theorem claimLoop_ids_subset {q : String} {n : Nat} (deadline : ℚ) {ids : List String}
    {s : Redis P} {m : String} (h : m ∈ ((claimLoop (.queue q) (.queueItems q) (.inflight n)
      (.inflightData n) q deadline ids : Script P _).run s).1.map Prod.fst) : m ∈ ids :=
  (claimLoop_sublist deadline ids s).subset h

section ClaimOne

variable {q : String} {n : Nat} {s : Redis P} {deadline : ℚ} {m : String}

theorem claimOne_fst : ((claimOne (.queue q) (.queueItems q) (.inflight n) (.inflightData n) q
    deadline m : Script P _).run s).1 = JsMap.get (s.get (.queueItems q)) m := by
  simp only [claimOne, Prog.run_bind, run_hget]
  rcases JsMap.get (s.get (.queueItems q)) m with _ | payload <;> simp

/-- ほかの message の payload は変わらない。 -/
theorem get_queueItems_claimOne_of_ne {m' : String} (hne : m' ≠ m) :
    JsMap.get (((claimOne (.queue q) (.queueItems q) (.inflight n) (.inflightData n) q deadline m :
      Script P _).run s).2.get (.queueItems q)) m' = JsMap.get (s.get (.queueItems q)) m' := by
  rcases hp : JsMap.get (s.get (.queueItems q)) m with _ | payload
  · simp only [claimOne, Prog.run_bind, run_hget, hp, run_zrem, Prog.run_pure]
    rw [Store.get_set_of_ne _ _ _ (by simp)]
  · rw [(get_queueItems_claimOne deadline m hp).2, JsMap.get_delete, if_neg hne]

end ClaimOne

/-- claim が返すのは、範囲の message とその payload である。 -/
theorem claimLoop_payload {q : String} {n : Nat} (deadline : ℚ) :
    ∀ {ids : List String} {s : Redis P} {x : String × Stored P}, ids.Nodup →
      x ∈ ((claimLoop (.queue q) (.queueItems q) (.inflight n) (.inflightData n) q deadline ids :
        Script P _).run s).1 → JsMap.get (s.get (.queueItems q)) x.1 = some x.2
  | [], _, _, _, h => by cases h
  | id :: rest, s, x, hnd, h => by
    obtain ⟨hid, hnd⟩ := List.nodup_cons.mp hnd
    simp only [claimLoop, Prog.run_bind, Prog.run_pure, List.mem_append, claimOne_fst] at h
    rcases h with h | h
    · obtain ⟨payload, hp, rfl⟩ := Option.map_eq_some_iff.mp (Option.mem_toList.mp h)
      exact hp
    · have hmem : x.1 ∈ rest := claimLoop_ids_subset deadline (List.mem_map_of_mem h)
      have hne : x.1 ≠ id := fun e => hid (e ▸ hmem)
      rw [← claimLoop_payload deadline hnd h, get_queueItems_claimOne_of_ne hne]

/-- payload のある message は、必ず返る。 -/
theorem mem_claimLoop {q : String} {n : Nat} (deadline : ℚ) :
    ∀ {ids : List String} {s : Redis P} {m : String} {p : Stored P}, ids.Nodup → m ∈ ids →
      JsMap.get (s.get (.queueItems q)) m = some p →
      (m, p) ∈ ((claimLoop (.queue q) (.queueItems q) (.inflight n) (.inflightData n) q deadline ids :
        Script P _).run s).1
  | id :: rest, s, m, p, hnd, hm, hp => by
    obtain ⟨hid, hnd⟩ := List.nodup_cons.mp hnd
    simp only [claimLoop, Prog.run_bind, Prog.run_pure, List.mem_append, claimOne_fst]
    rcases List.mem_cons.mp hm with rfl | hm
    · exact .inl (by simp [hp])
    · have hne : m ≠ id := fun e => hid (e ▸ hm)
      exact .inr (mem_claimLoop deadline hnd hm ((get_queueItems_claimOne_of_ne hne).trans hp))

/-- JSON として読めた message。 -/
def parseClaimed (claimed : List (String × Stored P)) : List (String × StoredMessage P) :=
  claimed.filterMap fun m => m.2.message?.map fun message => (m.1, message)

theorem mem_parseClaimed {claimed : List (String × Stored P)} {x : String × StoredMessage P} :
    x ∈ parseClaimed claimed ↔ (x.1, .message x.2) ∈ claimed := by
  constructor
  · intro h
    obtain ⟨⟨id, stored⟩, hy, hxy⟩ := List.mem_filterMap.mp h
    obtain ⟨message, hmessage, rfl⟩ := Option.map_eq_some_iff.mp hxy
    rcases stored with m | m | x
    · obtain rfl := Option.some.inj hmessage
      exact hy
    · cases hmessage
    · cases hmessage
  · intro h
    exact List.mem_filterMap.mpr ⟨_, h, rfl⟩

theorem parseClaimed_sublist : ∀ claimed : List (String × Stored P),
    ((parseClaimed claimed).map Prod.fst).Sublist (claimed.map Prod.fst)
  | [] => .slnil
  | (id, stored) :: rest => by
    rcases stored with m | m | x
    · exact (parseClaimed_sublist rest).cons_cons id
    · exact (parseClaimed_sublist rest).cons id
    · exact (parseClaimed_sublist rest).cons id

/-! ## 結果の場合分け -/

/-- 何も続けず、何も起こさないことのある command。 -/
def Op.idle : Op P → Bool
  | .claim .. | .claimBatch .. | .reserve .. | .push .. | .getMessage .. | .zremInflight ..
  | .release .. | .reclaimScan .. | .reclaimGet .. | .reclaim .. => false
  | _ => true

/-- 状態 `s` で command を実行し、状態 `s'` になったときの結果。 -/
inductive Yields (options : FairQueueOptions P) (cache : Cache) (now : ℚ) (s s' : Redis P) :
    Op P → Outcome P → Prop
  | idle {op : Op P} (hop : op.idle = true) (c : Option (Nat × String × Option QueueDescriptor)) :
      Yields options cache now s s' op { cache := c }
  | scard (call : ClaimCall) (key key' : Key .set) (limit limit' : Nat)
      (rest rest' : List (Key .set × Nat)) (least least' : Option Nat) :
      Yields options cache now s s' (.scard call key limit rest least)
        { front := [.scard call key' limit' rest' least'] }
  | capacity (call : ClaimCall) (key : Key .set) (limit : Nat) (rest : List (Key .set × Nat))
      (least : Option Nat) (maxCount : Nat) :
      Yields options cache now s s' (.scard call key limit rest least)
        { front := [.claimBatch call maxCount] }
  | claim (q : String) (timeoutMs : ℚ) (ids : List String)
      (hids : ∀ m ∈ ids, m ∈ takeTo 0 (s.get (.queue q))) :
      Yields options cache now s s' (.claim q timeoutMs) { event := some (.claimed q ids) }
  | claimNone (call : ClaimCall) (maxCount : Nat) (ids : List String)
      (hids : ∀ m ∈ ids, m ∈ takeTo (maxCount - 1) (s.get (.queue call.queueId)))
      (hnone : ∀ m ∈ takeTo (maxCount - 1) (s.get (.queue call.queueId)), ∀ message,
        JsMap.get (s.get (.queueItems call.queueId)) m ≠ some (.message message)) :
      Yields options cache now s s' (.claimBatch call maxCount)
        { front := [.updateMasterQueueIfEmpty call.inst call.shardId call.queueId]
          event := some (.claimed call.queueId ids) }
  | claimBatch (call : ClaimCall) (maxCount : Nat) (ids : List String)
      (messages : List (String × StoredMessage P))
      (hids : ∀ m ∈ ids, m ∈ takeTo (maxCount - 1) (s.get (.queue call.queueId)))
      (hmessages : ∀ x, x ∈ messages ↔
        x.1 ∈ takeTo (maxCount - 1) (s.get (.queue call.queueId)) ∧
          JsMap.get (s.get (.queueItems call.queueId)) x.1 = some (.message x.2))
      (hnodup : (messages.map Prod.fst).Nodup) :
      Yields options cache now s s' (.claimBatch call maxCount)
        { front := options.claimNext call messages, event := some (.claimed call.queueId ids) }
  | reserved (call : ClaimCall) (message : String × StoredMessage P)
      (rest : List (String × StoredMessage P))
      (hfree : ∀ g ∈ options.groupData call.descriptor, Finset.card (s.get g.1) < g.2)
      (hadd : ∀ k ∈ options.groupKeys call.descriptor, message.1 ∈ (s'.get k : Finset String)) :
      Yields options cache now s s' (.reserve call message rest)
        { front := [.push call message rest]
          event := some (.reserved message.1 call.descriptor) }
  | full (call : ClaimCall) (message : String × StoredMessage P)
      (rest : List (String × StoredMessage P)) :
      Yields options cache now s s' (.reserve call message rest)
        { front := [.releaseBatch call (message.1 :: rest.map Prod.fst)] }
  | push (call : ClaimCall) (message : String × StoredMessage P)
      (rest : List (String × StoredMessage P)) :
      Yields options cache now s s' (.push call message rest)
        { front := options.claimNext call rest, event := some (.pushed message.1) }
  | getMessage (inst : Nat) (purpose : Purpose) (messageId queueId : String) :
      Yields options cache now s s' (.getMessage inst purpose messageId queueId)
        { front := options.afterGet cache now inst messageId queueId
            ((JsMap.get (s.get (.inflightData (options.shardOf queueId))) messageId).bind
              Stored.message?) purpose }
  | completed (messageId queueId : String) :
      Yields options cache now s s' (.zremInflight messageId queueId)
        { event := some (.completed messageId queueId) }
  | released (messageId queueId : String) (delay : ℚ) :
      Yields options cache now s s' (.release messageId queueId delay)
        { event := some (.released messageId queueId) }
  | scan (shardId : Nat) (members : List (String × ℚ))
      (hmembers : ∀ e ∈ members, SortedSet.score? (s.get (.inflight shardId)) e.1 = some e.2 ∧
        e.2 ≤ now) :
      Yields options cache now s s' (.reclaimScan shardId)
        { front := members.map fun e => .reclaimGet shardId now e.1 }
  | reclaimGet (shardId : Nat) (clock : ℚ) (member : String) (score : ℚ)
      (queue : QueueDescriptor) :
      Yields options cache now s s' (.reclaimGet shardId clock member)
        { front := [.reclaim shardId clock member score]
          back := options.releaseSlots queue (parseMember member).1 }
  | reclaimed (shardId : Nat) (clock : ℚ) (member : String) (score : ℚ) (released : Bool) :
      Yields options cache now s s' (.reclaim shardId clock member score)
        { event := some (.reclaimed shardId member clock released) }
  | extended (messageId queueId : String)
      (hscore : SortedSet.score? (s.get (.inflight (options.shardOf queueId)))
        (makeMember messageId queueId) ≠ none) :
      Yields options cache now s s' (.heartbeat messageId queueId)
        { event := some (.extended (options.shardOf queueId) (makeMember messageId queueId)
            (now + options.heartbeatIntervalMs)) }
  | redrive (inst : Nat) (tenantId messageId : String) (message : StoredMessage P)
      (c : Option (Nat × String × Option QueueDescriptor)) :
      Yields options cache now s s' (.getDeadLetter inst tenantId messageId)
        { front := [.enqueueMessageAtomic message, .zremDeadLetter tenantId messageId,
            .hdelDeadLetter tenantId messageId]
          cache := c }

/-- `SCARD` の後は、次の `SCARD` か、claim か、終わりである。 -/
theorem yields_scard (options : FairQueueOptions P) (cache : Cache) (now : ℚ) (s : Redis P)
    (call : ClaimCall) (key : Key .set) (limit : Nat) (rest : List (Key .set × Nat))
    (least : Option Nat) :
    Yields options cache now s s (.scard call key limit rest least)
      (((Op.scard call key limit rest least).prog options cache now).run s).1 := by
  have hclaim : ∀ n, Yields options cache now s s (.scard call key limit rest least)
      { front := if n = 0 then [] else [.claimBatch call (min options.batchClaimSize n)] } := by
    intro n
    split
    · exact .idle rfl none
    · exact .capacity ..
  rcases rest with _ | ⟨⟨key', limit'⟩, rest'⟩
  · exact hclaim _
  · exact .scard ..

theorem yields_claimBatch (options : FairQueueOptions P) (cache : Cache) (now : ℚ) (s s' : Redis P)
    (call : ClaimCall) (maxCount : Nat) :
    Yields options cache now s s' (.claimBatch call maxCount)
      (((Op.claimBatch call maxCount).prog options cache now).run s).1 := by
  simp only [Op.prog, claimMessageBatchLua, Prog.run_bind, run_zrange, Prog.run_pure]
  have hnd := takeTo_nodup ((maxCount : Int) - 1) (s.get (.queue call.queueId))
  have hmessages : ∀ x, x ∈ parseClaimed ((claimLoop (.queue call.queueId)
      (.queueItems call.queueId) (.inflight (options.shardOf call.queueId))
      (.inflightData (options.shardOf call.queueId)) call.queueId
      (now + options.visibilityTimeoutMs)
      (takeTo (maxCount - 1) (s.get (.queue call.queueId))) : Script P _).run s).1 ↔
      x.1 ∈ takeTo (maxCount - 1) (s.get (.queue call.queueId)) ∧
        JsMap.get (s.get (.queueItems call.queueId)) x.1 = some (.message x.2) := by
    intro x
    rw [mem_parseClaimed]
    refine ⟨fun h => ⟨?_, claimLoop_payload _ hnd h⟩, fun h => mem_claimLoop _ hnd h.1 h.2⟩
    exact claimLoop_ids_subset _ (List.mem_map_of_mem h)
  split
  · next hempty =>
    refine .claimNone _ _ _ (fun m hm => claimLoop_ids_subset _ hm) fun m hm message hp => ?_
    have := (hmessages (m, message)).mpr ⟨hm, hp⟩
    rw [parseClaimed, List.isEmpty_iff.mp hempty] at this
    cases this
  · refine .claimBatch _ _ _ _ (fun m hm => claimLoop_ids_subset _ hm) hmessages ?_
    exact hnd.sublist ((parseClaimed_sublist _).trans (claimLoop_sublist _ _ _))

theorem yields_reserve (options : FairQueueOptions P) (cache : Cache) (now : ℚ) (s : Redis P)
    (call : ClaimCall) (message : String × StoredMessage P)
    (rest : List (String × StoredMessage P)) :
    Yields options cache now s (((Op.reserve call message rest).prog options cache now).run s).2
      (.reserve call message rest)
      (((Op.reserve call message rest).prog options cache now).run s).1 := by
  simp only [Op.prog, Prog.run_bind, Prog.run_pure]
  obtain ⟨hres, hset⟩ := run_reserve s (options.groupData call.descriptor) message.1
  by_cases hall : (options.groupData call.descriptor).all
      (fun g => Finset.card (s.get g.1) < g.2) = true
  · rw [hres, if_pos hall]
    simp only [if_true]
    refine .reserved call message rest (fun g hg => ?_) fun k hk => ?_
    · exact of_decide_eq_true (List.all_eq_true.mp hall g hg)
    · rw [hset, if_pos ⟨hall, by rw [groupData_map_fst]; exact hk⟩]
      exact Finset.mem_insert_self _ _
  · rw [hres, if_neg hall]
    exact .full call message rest

/-- **どの command の結果も、場合分けのどれかである。** -/
theorem Op.yields (options : FairQueueOptions P) (cache : Cache) (now : ℚ) (op : Op P)
    (s : Redis P) :
    Yields options cache now s ((op.prog options cache now).run s).2 op
      ((op.prog options cache now).run s).1 := by
  cases op with
  | scard call key limit rest least =>
    have hs : (((Op.scard call key limit rest least).prog options cache now).run s).2 = s := by
      simp only [Op.prog, Prog.run_bind, run_scard]
      split <;> rfl
    rw [hs]
    exact yields_scard ..
  | claim queueId timeoutMs =>
    simp only [Op.prog, claimMessageLua, Prog.run_bind, run_zrange, Prog.run_pure]
    refine .claim _ _ _ fun m hm => ?_
    rcases htake : takeTo 0 (s.get (.queue queueId)) with _ | ⟨id, others⟩ <;> rw [htake] at hm
    · cases hm
    · obtain ⟨a, ha, rfl⟩ := List.mem_map.mp hm
      simp only [Prog.run_bind, Prog.run_pure, Option.mem_toList,
        Option.map_eq_some_iff] at ha
      obtain ⟨payload, -, rfl⟩ := ha
      exact List.mem_cons_self
  | claimBatch call maxCount => exact yields_claimBatch ..
  | reserve call message rest => exact yields_reserve ..
  | push call message rest => exact .push call message rest
  | getMessage inst purpose messageId queueId =>
    simp only [Op.prog, Prog.run_bind, run_hget, Prog.run_pure]
    exact .getMessage inst purpose messageId queueId
  | zremInflight messageId queueId => exact .completed messageId queueId
  | release messageId queueId delay =>
    simp only [Op.prog, Prog.run_bind, Prog.run_pure]
    exact .released messageId queueId delay
  | reclaimScan shardId =>
    simp only [Op.prog, Prog.run_bind, run_zrangeByScore, Prog.run_pure]
    exact .scan shardId _ fun e he => SortedSet.mem_rangeByScore.mp (List.mem_of_mem_take he)
  | reclaimGet shardId clock member =>
    simp only [Op.prog, Prog.run_bind, run_hget, Prog.run_pure]
    exact .reclaimGet ..
  | reclaim shardId clock member score =>
    simp only [Op.prog, Prog.run_bind, Prog.run_pure]
    exact .reclaimed ..
  | heartbeat messageId queueId =>
    simp only [Op.prog, heartbeatMessageLua, Prog.run_bind, run_zscore, Prog.run_pure]
    rcases hscore : SortedSet.score? (s.get (.inflight (options.shardOf queueId)))
        (makeMember messageId queueId) with _ | x
    · exact .idle rfl none
    · exact .extended messageId queueId (by simp [hscore])
  | updateMasterQueueIfEmpty inst shardId queueId =>
    simp only [Op.prog, Prog.run_bind, Prog.run_pure]
    exact .idle rfl _
  | getDeadLetter inst tenantId messageId =>
    simp only [Op.prog, Prog.run_bind, run_hget]
    split
    · exact .redrive ..
    · exact .idle rfl none
  | _ =>
    simp only [Op.prog, Prog.run_bind, Prog.run_pure]
    exact .idle rfl none

end FairQueue
