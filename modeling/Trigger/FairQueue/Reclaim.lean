import Mathlib.Data.List.TakeWhile
import Trigger.FairQueue.Heartbeat
import Trigger.FairQueue.View
import Trigger.Infra.Machine

/-!
# 期限切れの message の返却

`visibility.ts` の in-flight は、member `messageId:queueId` の期限と、message id だけを key とする payload から成る。
`#parseMember` は最初の `:` で分けるので、id に `:` のある message は別の message と queue に読まれる。同じ id の
message が二つの queue から同じ shard で in-flight になると、payload は一つしか残らない。どちらの場合も
`releaseMessage` は payload を見つけられず、member は in-flight に残り続ける（`expired_stranded`）。

id に `:` が無く、同じ shard で in-flight でない message だけが claim され、in-flight の message の id を使う command
がその message の queue のものである実行では、claim された message は、読まれれば自分の queue に戻る
（`expired_returns`）。
-/

namespace FairQueue

open Infra Infra.Keyspace Infra.Machine Infra.Text
open Infra.Redis (ZSet)

variable {P : Type}

/-! ## member -/

/-- **`#parseMember` が `#makeMember` を元に戻すのは、message id に `:` が無いとき、そのときに限る。** -/
theorem parseMember_makeMember_iff {m q : String} :
    parseMember (makeMember m q) = (m, q) ↔ NoColon m := by
  have htoList : (makeMember m q).toList = m.toList ++ ':' :: q.toList := by
    simp [makeMember, String.toList_append]
  constructor
  · intro h hcolon
    have hfst : (makeMember m q).toList.takeWhile (· ≠ ':') = m.toList := by
      have := congrArg (fun e => e.1.toList) h
      simpa [parseMember] using this
    have hmem : ':' ∈ (makeMember m q).toList.takeWhile (· ≠ ':') := by
      rw [hfst]
      exact hcolon
    have hne := List.mem_takeWhile_imp hmem
    simp at hne
  · intro h
    have hall : ∀ c ∈ m.toList, (decide (c ≠ ':')) = true := by
      intro c hc
      refine decide_eq_true fun heq => h ?_
      rw [← heq]
      exact hc
    simp only [parseMember, htoList]
    rw [List.takeWhile_append_of_pos hall, List.dropWhile_append_of_pos hall]
    simp

theorem makeMember_queue_inj {m q q' : String} (h : makeMember m q = makeMember m q') : q = q' :=
  append_left_cancel h

theorem makeMember_message_inj {m m' q : String} (h : makeMember m q = makeMember m' q) :
    m = m' := by
  simp only [makeMember, String.append_assoc] at h
  exact append_right_cancel h

/-! ## in-flight の記録 -/

/-- shard `n` の in-flight にある、member の期限と message の data。 -/
def inflightRecord (s : Redis P) (n : Nat) (member m : String) : Option ℚ × Option (Stored P) :=
  (SortedSet.score? (s.get (.inflight n)) member, JsMap.get (s.get (.inflightData n)) m)

section Record

variable {s : Redis P} {n k : Nat} {member m q : String}

@[simp] theorem inflightRecord_set_queue (z : ZSet) :
    inflightRecord (s.set (.queue q) z) n member m = inflightRecord s n member m := by
  simp [inflightRecord, Store.get_set_of_ne]

@[simp] theorem inflightRecord_set_queueItems (h : JsMap (Stored P)) :
    inflightRecord (s.set (.queueItems q) h) n member m = inflightRecord s n member m := by
  simp [inflightRecord, Store.get_set_of_ne]

@[simp] theorem inflightRecord_set_masterQueue (z : ZSet) :
    inflightRecord (s.set (.masterQueue k) z) n member m = inflightRecord s n member m := by
  simp [inflightRecord, Store.get_set_of_ne]

theorem inflightRecord_set_inflight (z : ZSet) :
    inflightRecord (s.set (.inflight k) z) n member m =
      if n = k then (z.score? member, JsMap.get (s.get (.inflightData n)) m)
      else inflightRecord s n member m := by
  by_cases h : n = k
  · subst h
    simp [inflightRecord, Store.get_set_of_ne]
  · simp [inflightRecord, Store.get_set_of_ne, h]

theorem inflightRecord_set_inflightData (h : JsMap (Stored P)) :
    inflightRecord (s.set (.inflightData k) h) n member m =
      if n = k then (SortedSet.score? (s.get (.inflight n)) member, h.get m)
      else inflightRecord s n member m := by
  by_cases hk : n = k
  · subst hk
    simp [inflightRecord, Store.get_set_of_ne]
  · simp [inflightRecord, Store.get_set_of_ne, hk]

/-! ## script -/

theorem inflightRecord_updateMasterQueue :
    inflightRecord ((updateMasterQueue (.masterQueue k) (.queue q) q : Script P Unit).run s).2 n
      member m = inflightRecord s n member m := by
  rw [run_updateMasterQueue]
  split
  · rfl
  · exact inflightRecord_set_masterQueue _

/-- 別の member と別の message の claim は、記録を変えない。 -/
theorem inflightRecord_claimOne_of_ne {id : String} (deadline : ℚ)
    (h : n = k → (JsMap.get (s.get (.queueItems q)) id).isSome →
      makeMember id q ≠ member ∧ id ≠ m) :
    inflightRecord ((claimOne (.queue q) (.queueItems q) (.inflight k) (.inflightData k) q deadline
      id : Script P _).run s).2 n member m = inflightRecord s n member m := by
  simp only [claimOne, Prog.run_bind, run_hget]
  rcases hp : JsMap.get (s.get (.queueItems q)) id with _ | payload
  · simp only [Prog.run_bind, run_zrem, Prog.run_pure, inflightRecord_set_queue]
  · simp only [Prog.run_bind, run_zrem, run_hdel, run_zadd, run_hset, Prog.run_pure,
      inflightRecord_set_inflightData]
    by_cases hn : n = k
    · subst hn
      obtain ⟨hmember, hid⟩ := h rfl (by rw [hp]; rfl)
      rw [if_pos rfl, Store.get_set_self, SortedSet.score?_add, if_neg (Ne.symm hmember),
        Store.get_set_of_ne _ _ _ (by simp), JsMap.get_set, if_neg (Ne.symm hid)]
      simp [inflightRecord, Store.get_set_of_ne]
    · simp [hn, inflightRecord_set_inflight]

/-- claim した message の記録。 -/
theorem inflightRecord_claimOne_self {p : Stored P} (deadline : ℚ)
    (hp : JsMap.get (s.get (.queueItems q)) m = some p) :
    inflightRecord ((claimOne (.queue q) (.queueItems q) (.inflight n) (.inflightData n) q deadline
      m : Script P _).run s).2 n (makeMember m q) m = (some deadline, some p) := by
  simp only [claimOne, Prog.run_bind, run_hget, hp, run_zrem, run_hdel, run_zadd, run_hset,
    Prog.run_pure, inflightRecord_set_inflightData, if_true, Store.get_set_self, JsMap.get_set]
  rw [SortedSet.score?_add, if_pos rfl]

/-- claim は、ほかの message の payload を置かない。 -/
theorem items_claimOne {id id' : String} (deadline : ℚ)
    (h : (JsMap.get (((claimOne (.queue q) (.queueItems q) (.inflight k) (.inflightData k) q
      deadline id : Script P _).run s).2.get (.queueItems q)) id').isSome) :
    (JsMap.get (s.get (.queueItems q)) id').isSome := by
  simp only [claimOne, Prog.run_bind, run_hget] at h
  rcases hp : JsMap.get (s.get (.queueItems q)) id with _ | payload <;> rw [hp] at h
  · simpa [Store.get_set_of_ne] using h
  · simp only [Prog.run_bind, run_zrem, run_hdel, run_zadd, run_hset, Prog.run_pure] at h
    rw [Store.get_set_of_ne _ _ _ (by simp), Store.get_set_of_ne _ _ _ (by simp),
      Store.get_set_self, Store.get_set_of_ne _ _ _ (by simp), JsMap.get_delete] at h
    split at h
    · cases h
    · exact h

theorem inflightRecord_claimLoop_of_ne (deadline : ℚ) : ∀ {ids : List String} {s : Redis P},
    (n = k → ∀ id ∈ ids, (JsMap.get (s.get (.queueItems q)) id).isSome →
      makeMember id q ≠ member ∧ id ≠ m) →
    inflightRecord ((claimLoop (.queue q) (.queueItems q) (.inflight k) (.inflightData k) q deadline
      ids : Script P _).run s).2 n member m = inflightRecord s n member m
  | [], _, _ => rfl
  | id :: rest, s, h => by
    simp only [claimLoop, Prog.run_bind, Prog.run_pure]
    rw [inflightRecord_claimLoop_of_ne deadline fun hn id' hid' hsome =>
      h hn id' (List.mem_cons_of_mem _ hid') (items_claimOne deadline hsome)]
    exact inflightRecord_claimOne_of_ne deadline fun hn => h hn id List.mem_cons_self

/-- まとめて claim した message の記録。 -/
theorem inflightRecord_claimLoop_self {p : Stored P} (deadline : ℚ) :
    ∀ {ids : List String} {s : Redis P}, ids.Nodup → m ∈ ids →
    JsMap.get (s.get (.queueItems q)) m = some p →
    inflightRecord ((claimLoop (.queue q) (.queueItems q) (.inflight n) (.inflightData n) q deadline
      ids : Script P _).run s).2 n (makeMember m q) m = (some deadline, some p)
  | id :: rest, s, hnd, hm, hp => by
    obtain ⟨hid, hnd⟩ := List.nodup_cons.mp hnd
    simp only [claimLoop, Prog.run_bind, Prog.run_pure]
    by_cases h : m = id
    · subst h
      rw [inflightRecord_claimLoop_of_ne]
      · exact inflightRecord_claimOne_self deadline hp
      · intro _ id' hid' _
        have hne : id' ≠ m := fun heq => hid (heq ▸ hid')
        exact ⟨fun heq => hne (makeMember_message_inj heq), hne⟩
    · refine inflightRecord_claimLoop_self deadline hnd ((List.mem_cons.mp hm).resolve_left h) ?_
      exact (get_queueItems_claimOne_of_ne h).trans hp

/-- 別の member と別の message の release は、記録を変えない。 -/
theorem inflightRecord_releaseOne_of_ne {member' id : String} (score : ℚ)
    (h : n = k → member' ≠ member ∧ id ≠ m) :
    inflightRecord ((releaseOne (.inflight k) (.inflightData k) (.queue q) (.queueItems q) member'
      id score : Script P Nat).run s).2 n member m = inflightRecord s n member m := by
  simp only [releaseOne, Prog.run_bind, run_hget]
  rcases JsMap.get (s.get (.inflightData k)) id with _ | payload
  · rfl
  · simp only [Prog.run_bind, run_zrem, run_hdel, run_zadd, run_hset, Prog.run_pure,
      inflightRecord_set_queueItems, inflightRecord_set_queue, inflightRecord_set_inflightData]
    by_cases hn : n = k
    · subst hn
      obtain ⟨hmember, hid⟩ := h rfl
      rw [if_pos rfl, Store.get_set_self, SortedSet.score?_rem, if_neg (Ne.symm hmember),
        Store.get_set_of_ne _ _ _ (by simp), JsMap.get_delete, if_neg (Ne.symm hid)]
      rfl
    · simp [hn, inflightRecord_set_inflight]

theorem inflightRecord_releaseLoop_of_ne (score : ℚ) :
    ∀ {messages : List (String × String)} {s : Redis P},
    (n = k → ∀ e ∈ messages, e.1 ≠ member ∧ e.2 ≠ m) →
    inflightRecord ((releaseLoop (.inflight k) (.inflightData k) (.queue q) (.queueItems q) score
      messages : Script P Nat).run s).2 n member m = inflightRecord s n member m
  | [], _, _ => rfl
  | (member', id) :: rest, s, h => by
    simp only [releaseLoop, Prog.run_bind, Prog.run_pure]
    rw [inflightRecord_releaseLoop_of_ne score fun hn e he => h hn e (List.mem_cons_of_mem _ he)]
    exact inflightRecord_releaseOne_of_ne score fun hn => h hn (member', id) List.mem_cons_self

theorem inflightRecord_releaseMessage_of_ne {j : Nat} {member' id : String} (score : ℚ)
    (h : n = k → member' ≠ member ∧ id ≠ m) :
    inflightRecord ((releaseMessageLua (.inflight k) (.inflightData k) (.queue q) (.queueItems q)
      (.masterQueue j) member' id score q : Script P Nat).run s).2 n member m =
        inflightRecord s n member m := by
  simp only [releaseMessageLua, Prog.run_bind]
  split
  · exact inflightRecord_releaseOne_of_ne score h
  · rw [Prog.run_bind, Prog.run_pure, inflightRecord_updateMasterQueue]
    exact inflightRecord_releaseOne_of_ne score h

/-- 戻した message の記録は残らない。 -/
theorem inflightRecord_releaseMessage_self {j : Nat} {p : Stored P} (score : ℚ)
    (hp : JsMap.get (s.get (.inflightData n)) m = some p) :
    inflightRecord ((releaseMessageLua (.inflight n) (.inflightData n) (.queue q) (.queueItems q)
      (.masterQueue j) member m score q : Script P Nat).run s).2 n member m = (none, none) := by
  simp only [releaseMessageLua, releaseOne, Prog.run_bind, run_hget, hp, run_zrem, run_hdel,
    run_zadd, run_hset, Prog.run_pure, Nat.one_ne_zero, if_false, inflightRecord_updateMasterQueue,
    inflightRecord_set_queueItems, inflightRecord_set_queue, inflightRecord_set_inflightData,
    if_true, Store.get_set_self, JsMap.get_delete, SortedSet.score?_rem]

theorem inflightRecord_releaseMessageBatch_of_ne {j : Nat} {messages : List (String × String)}
    (score : ℚ) (h : n = k → ∀ e ∈ messages, e.1 ≠ member ∧ e.2 ≠ m) :
    inflightRecord ((releaseMessageBatchLua (.inflight k) (.inflightData k) (.queue q)
      (.queueItems q) (.masterQueue j) score q messages : Script P Nat).run s).2 n member m =
        inflightRecord s n member m := by
  simp only [releaseMessageBatchLua, Prog.run_bind]
  split
  · exact inflightRecord_releaseLoop_of_ne score h
  · rw [Prog.run_bind, Prog.run_pure, inflightRecord_updateMasterQueue]
    exact inflightRecord_releaseLoop_of_ne score h

end Record

/-! ## 条件 -/

/-- shard `n` の in-flight のうち、message id が `m` のものは `member` だけである。 -/
def Sole (s : Redis P) (n : Nat) (m member : String) : Prop :=
  ∀ e ∈ SortedSet.entries (s.get (.inflight n)), (parseMember e.1).1 = m → e.1 = member

instance (s : Redis P) (n : Nat) (m member : String) : Decidable (Sole s n m member) :=
  inferInstanceAs (Decidable (∀ e ∈ _, _))

/-- in-flight にある `member` の message id は `m` である。 -/
def Decodes (s : Redis P) (n : Nat) (m member : String) : Prop :=
  ∀ e ∈ SortedSet.entries (s.get (.inflight n)), e.1 = member → (parseMember e.1).1 = m

instance (s : Redis P) (n : Nat) (m member : String) : Decidable (Decodes s n m member) :=
  inferInstanceAs (Decidable (∀ e ∈ _, _))

/-- claim される message の id に `:` は無く、同じ id の message は同じ shard で in-flight でない。 -/
def Fresh (options : FairQueueOptions P) (s : Redis P) (q : String) (stop : Int) : Prop :=
  ∀ m ∈ takeTo stop (s.get (.queue q)), (JsMap.get (s.get (.queueItems q)) m).isSome →
    NoColon m ∧ ∀ e ∈ SortedSet.entries (s.get (.inflight (options.shardOf q))),
      (parseMember e.1).1 ≠ m

instance (options : FairQueueOptions P) (s : Redis P) (q : String) (stop : Int) :
    Decidable (Fresh options s q stop) :=
  inferInstanceAs (Decidable (∀ m ∈ _, _))

/-- 一つの command の条件。in-flight の message の id を使うなら、その message の queue のものである。 -/
def Op.Separate (options : FairQueueOptions P) (s : Redis P) : Op P → Prop
  | .claim q _ => Fresh options s q 0
  | .claimBatch call maxCount => Fresh options s call.queueId (maxCount - 1)
  | .zremInflight m q => Decodes s (options.shardOf q) m (makeMember m q)
  | .hdelInflightData m q => Sole s (options.shardOf q) m (makeMember m q)
  | .release m q _ => Decodes s (options.shardOf q) m (makeMember m q) ∧
      Sole s (options.shardOf q) m (makeMember m q)
  | .releaseBatch call messageIds => ∀ m ∈ messageIds,
      Decodes s (options.shardOf call.queueId) m (makeMember m call.queueId) ∧
        Sole s (options.shardOf call.queueId) m (makeMember m call.queueId)
  | .reclaim n _ member _ => Sole s n (parseMember member).1 member
  | _ => True

instance decidableOpSeparate (options : FairQueueOptions P) (s : Redis P) (op : Op P) :
    Decidable (op.Separate options s) := by
  cases op <;> unfold Op.Separate <;> infer_instance

/-- 一歩の条件。 -/
def Separate (options : FairQueueOptions P) (s : System P) (l : Label P) : Prop :=
  ∀ op ∈ s.head? l, op.Separate options s.redis

instance decidableSeparate (options : FairQueueOptions P) (s : System P) (l : Label P) :
    Decidable (Separate options s l) :=
  inferInstanceAs (Decidable (∀ op ∈ s.head? l, _))

section Acts

variable (options : FairQueueOptions P) (m q : String)

/-- queue `q` の message `m` の complete・release・fail の command。 -/
def Op.finishes : Op P → Bool
  | .zremInflight m' q' | .hdelInflightData m' q' | .release m' q' _ => m' = m ∧ q' = q
  | .releaseBatch call messageIds => call.queueId = q ∧ m ∈ messageIds
  | _ => false

/-- queue `q` の message `m` の member の期限を置き直す heartbeat。 -/
def Op.prolongs : Op P → Bool
  | .heartbeat m' q' => options.shardOf q' = options.shardOf q ∧ makeMember m' q' = makeMember m q
  | _ => false

/-- queue `q` の message `m` の member を戻す reclaim。 -/
def Op.recovers : Op P → Bool
  | .reclaim n _ member _ => n = options.shardOf q ∧ member = makeMember m q
  | _ => false

/-- complete・release・fail の command ではない。 -/
def Unfinished (s : System P) (l : Label P) : Prop := ∀ op ∈ s.head? l, op.finishes m q = false

instance (s : System P) (l : Label P) : Decidable (Unfinished m q s l) :=
  inferInstanceAs (Decidable (∀ op ∈ s.head? l, _))

/-- 一歩が、queue `q` の message `m` の member を戻す reclaim である。 -/
def System.recovers (s : System P) (l : Label P) : Bool :=
  (s.head? l).any fun op => op.recovers options m q

end Acts

/-! ## 一つの command -/

section Ops

variable {options : FairQueueOptions P} {cache : Cache} {now : ℚ} {s : Redis P} {op : Op P}
  {m q : String}

theorem exists_entry {z : ZSet} {member : String} (h : (z.score? member).isSome) :
    ∃ x, (member, x) ∈ z.entries := by
  obtain ⟨x, hx⟩ := Option.isSome_iff_exists.mp h
  exact ⟨x, SortedSet.score?_eq_some.mp hx⟩

/-- 名指した member が in-flight の `(m, q)` の member なら、`(m, q)` を名指している。 -/
theorem Decodes.eq (hm : NoColon m) {m' q' : String}
    (hin : (SortedSet.score? (s.get (.inflight (options.shardOf q))) (makeMember m q)).isSome)
    (h : Decodes s (options.shardOf q') m' (makeMember m' q'))
    (hshard : options.shardOf q = options.shardOf q') (heq : makeMember m' q' = makeMember m q) :
    m' = m ∧ q' = q := by
  obtain ⟨x, hx⟩ := exists_entry hin
  rw [hshard] at hx
  have hid := h _ hx heq.symm
  rw [parseMember_makeMember_iff.mpr hm] at hid
  obtain rfl : m = m' := hid
  exact ⟨rfl, makeMember_queue_inj heq⟩

/-- in-flight の `m` の id を使うなら、`(m, q)` を名指している。 -/
theorem Sole.eq (hm : NoColon m) {q' : String}
    (hin : (SortedSet.score? (s.get (.inflight (options.shardOf q))) (makeMember m q)).isSome)
    (h : Sole s (options.shardOf q') m (makeMember m q'))
    (hshard : options.shardOf q = options.shardOf q') : q' = q := by
  obtain ⟨x, hx⟩ := exists_entry hin
  rw [hshard] at hx
  have hid : (parseMember (makeMember m q)).1 = m := by rw [parseMember_makeMember_iff.mpr hm]
  exact (makeMember_queue_inj (h _ hx hid)).symm

/-- claim は、in-flight の message の記録を変えない。 -/
theorem Fresh.ne (hm : NoColon m) {q' : String} {stop : Int}
    (hin : (SortedSet.score? (s.get (.inflight (options.shardOf q))) (makeMember m q)).isSome)
    (h : Fresh options s q' stop) (hshard : options.shardOf q = options.shardOf q') :
    ∀ id ∈ takeTo stop (s.get (.queue q')), (JsMap.get (s.get (.queueItems q')) id).isSome →
      makeMember id q' ≠ makeMember m q ∧ id ≠ m := by
  intro id hid hsome
  obtain ⟨hcolon, hfree⟩ := h id hid hsome
  obtain ⟨x, hx⟩ := exists_entry hin
  rw [hshard] at hx
  have hne := hfree _ hx
  rw [parseMember_makeMember_iff.mpr hm] at hne
  refine ⟨fun heq => hne ?_, Ne.symm hne⟩
  have hparse := congrArg parseMember heq
  rw [parseMember_makeMember_iff.mpr hcolon, parseMember_makeMember_iff.mpr hm] at hparse
  exact (congrArg Prod.fst hparse).symm

variable (cache now) in
/-- **条件を満たす command は、`(m, q)` に働かない限り、in-flight の `(m, q)` の記録を変えない。** -/
theorem inflightRecord_op (hm : NoColon m) (hop : op.Separate options s)
    (hin : (SortedSet.score? (s.get (.inflight (options.shardOf q))) (makeMember m q)).isSome)
    (hfinish : op.finishes m q = false) (hprolong : op.prolongs options m q = false)
    (hrecover : op.recovers options m q = false) :
    inflightRecord ((op.prog options cache now).run s).2 (options.shardOf q) (makeMember m q) m =
      inflightRecord s (options.shardOf q) (makeMember m q) m := by
  cases op with
  | claim q' timeoutMs =>
    simp only [Op.prog, claimMessageLua, Prog.run_bind, run_zrange, Prog.run_pure]
    rcases htake : takeTo 0 (s.get (.queue q')) with _ | ⟨id, others⟩
    · rfl
    · simp only [Prog.run_bind, Prog.run_pure]
      refine inflightRecord_claimOne_of_ne _ fun hshard =>
        Fresh.ne hm hin hop hshard id ?_
      rw [htake]
      exact List.mem_cons_self
  | claimBatch call maxCount =>
    simp only [Op.prog, claimMessageBatchLua, Prog.run_bind, run_zrange, Prog.run_pure]
    exact inflightRecord_claimLoop_of_ne _ fun hshard => Fresh.ne hm hin hop hshard
  | releaseBatch call messageIds =>
    simp only [Op.prog, Prog.run_bind, Prog.run_pure]
    refine inflightRecord_releaseMessageBatch_of_ne _ fun hshard e he => ?_
    obtain ⟨id, hid, rfl⟩ := List.mem_map.mp he
    have hnot : ¬ (call.queueId = q ∧ m ∈ messageIds) := of_decide_eq_false hfinish
    -- member が同じなら `Decodes` が、id が同じなら `Sole` が `(m, q)` を言い当てる。
    obtain ⟨hdecodes, hsole⟩ := hop id hid
    refine ⟨fun heq => hnot ?_, fun heq => hnot ?_⟩
    · obtain ⟨rfl, hq⟩ := hdecodes.eq hm hin hshard heq
      exact ⟨hq, hid⟩
    · subst heq
      exact ⟨hsole.eq hm hin hshard, hid⟩
  | release m' q' delay =>
    simp only [Op.prog, Prog.run_bind, Prog.run_pure]
    have hnot : ¬ (m' = m ∧ q' = q) := of_decide_eq_false hfinish
    refine inflightRecord_releaseMessage_of_ne _ fun hshard =>
      ⟨fun heq => hnot ?_, fun heq => hnot ?_⟩
    · exact hop.1.eq hm hin hshard heq
    · subst heq
      exact ⟨rfl, hop.2.eq hm hin hshard⟩
  | reclaim n clock member score =>
    simp only [Op.prog, Prog.run_bind, Prog.run_pure]
    have hnot : ¬ (n = options.shardOf q ∧ member = makeMember m q) := of_decide_eq_false hrecover
    refine inflightRecord_releaseMessage_of_ne _ fun hshard =>
      ⟨fun heq => hnot ⟨hshard.symm, heq⟩, ?_⟩
    intro heq
    obtain ⟨x, hx⟩ := exists_entry hin
    rw [hshard] at hx
    have hid : (parseMember (makeMember m q)).1 = (parseMember member).1 := by
      rw [parseMember_makeMember_iff.mpr hm, heq]
    exact hnot ⟨hshard.symm, (hop _ hx hid).symm⟩
  | zremInflight m' q' =>
    simp only [Op.prog, Prog.run_bind, run_zrem, Prog.run_pure, inflightRecord_set_inflight]
    split
    · next hshard =>
      have hne : makeMember m q ≠ makeMember m' q' := fun heq =>
        (of_decide_eq_false hfinish) (hop.eq hm hin hshard heq.symm)
      rw [SortedSet.score?_rem, if_neg hne, ← hshard]
      rfl
    · rfl
  | hdelInflightData m' q' =>
    simp only [Op.prog, Prog.run_bind, run_hdel, Prog.run_pure, inflightRecord_set_inflightData]
    split
    · next hshard =>
      have hne : m ≠ m' := by
        rintro rfl
        exact (of_decide_eq_false hfinish) ⟨rfl, hop.eq hm hin hshard⟩
      rw [JsMap.get_delete, if_neg hne, ← hshard]
      rfl
    · rfl
  | heartbeat m' q' =>
    simp only [Op.prog, heartbeatMessageLua, Prog.run_bind, run_zscore, Prog.run_pure]
    rcases SortedSet.score? (s.get (.inflight (options.shardOf q'))) (makeMember m' q') with _ | x
    · rfl
    · simp only [Prog.run_bind, run_zadd, Prog.run_pure, inflightRecord_set_inflight]
      split
      · next hshard =>
        have hne : makeMember m q ≠ makeMember m' q' := fun heq =>
          (of_decide_eq_false hprolong) ⟨hshard.symm, heq.symm⟩
        rw [SortedSet.score?_add, if_neg hne, ← hshard]
        rfl
      · rfl
  | getMessage inst purpose m' q' =>
    simp only [Op.prog, Prog.run_bind, run_hget, Prog.run_pure]
  | reclaimGet n clock member =>
    simp only [Op.prog, Prog.run_bind, run_hget, Prog.run_pure]
  | reclaimScan n =>
    simp only [Op.prog, Prog.run_bind, run_zrangeByScore, Prog.run_pure]
  | _ =>
    -- 残りの command は in-flight の key を触らない。
    simp only [inflightRecord]
    rw [Op.get_of_notMem _ _ _ _ _ (by simp [Op.footprint, FairQueueOptions.groupKeys]),
      Op.get_of_notMem _ _ _ _ _ (by simp [Op.footprint, FairQueueOptions.groupKeys])]

variable (cache now) in
/-- heartbeat は、data を変えず、member を残す。 -/
theorem inflightRecord_prolongs (hprolong : op.prolongs options m q = true)
    (hin : (SortedSet.score? (s.get (.inflight (options.shardOf q))) (makeMember m q)).isSome) :
    ∃ deadline, inflightRecord ((op.prog options cache now).run s).2 (options.shardOf q)
      (makeMember m q) m =
        (some deadline, JsMap.get (s.get (.inflightData (options.shardOf q))) m) := by
  obtain ⟨m', q', rfl, hshard, hmember⟩ : ∃ m' q', op = .heartbeat m' q' ∧
      options.shardOf q' = options.shardOf q ∧ makeMember m' q' = makeMember m q := by
    cases op with
    | heartbeat m' q' =>
      obtain ⟨hshard, hmember⟩ := of_decide_eq_true hprolong
      exact ⟨m', q', rfl, hshard, hmember⟩
    | _ => cases hprolong
  obtain ⟨x, hx⟩ := Option.isSome_iff_exists.mp hin
  refine ⟨now + options.heartbeatIntervalMs, ?_⟩
  simp only [Op.prog, heartbeatMessageLua, Prog.run_bind, run_zscore, Prog.run_pure, hshard,
    hmember, hx, run_zadd, inflightRecord_set_inflight, if_true, SortedSet.score?_add]

end Ops

/-! ## 追う message -/

section Track

variable (options : FairQueueOptions P)

/-- message `m` は、queue `q` から payload `p` とともに in-flight である。 -/
structure InFlight (s : Redis P) (m q : String) (p : Stored P) : Prop where
  deadline : (SortedSet.score? (s.get (.inflight (options.shardOf q))) (makeMember m q)).isSome
  data : JsMap.get (s.get (.inflightData (options.shardOf q))) m = some p

/-- message `m` の member は in-flight に無く、`m` は payload `p` とともに queue `q` にある。 -/
structure Returned (s : Redis P) (m q : String) (p : Stored P) : Prop where
  removed : SortedSet.score? (s.get (.inflight (options.shardOf q))) (makeMember m q) = none
  queued : (SortedSet.score? (s.get (.queue q)) m).isSome
  item : JsMap.get (s.get (.queueItems q)) m = some p

/-- 一歩が、queue `q` から message `m` を payload `p` とともに claim する。 -/
def Takes (s : System P) (l : Label P) (m q : String) (p : Stored P) : Prop :=
  ∃ op ∈ s.head? l, ∃ stop, op.claimRange = some (q, stop) ∧
    m ∈ takeTo stop (s.redis.get (.queue q)) ∧ JsMap.get (s.redis.get (.queueItems q)) m = some p

/-- task `k` の時刻 `now` の一歩が、queue `q` の message `m` の期限切れの member を読む。 -/
def Reads (s : System P) (k : Nat) (now : ℚ) (m q : String) : Prop :=
  s.head? (.run k now) = some (.reclaimScan (options.shardOf q)) ∧
    makeMember m q ∈ ((SortedSet.rangeByScore (s.redis.get (.inflight (options.shardOf q)))
      now).take 100).map Prod.fst

/-- task `k` には、queue `q` の message `m` の member を戻す command が残っている。 -/
def Pending (s : System P) (k : Nat) (m q : String) : Prop :=
  ∃ ops ∈ s.tasks[k]?, ∃ op ∈ ops, (op.reclaims (options.shardOf q) (makeMember m q)).isSome

/-- `(m, q)` が in-flight なら、`(m, q)` に働かない一歩はその記録を変えない。 -/
def Apart (m q : String) (s : System P) (l : Label P) : Prop :=
  (SortedSet.score? (s.redis.get (.inflight (options.shardOf q))) (makeMember m q)).isSome →
    (∀ op ∈ s.head? l, op.finishes m q = false ∧ op.prolongs options m q = false ∧
      op.recovers options m q = false) →
    inflightRecord (s.step options l).redis (options.shardOf q) (makeMember m q) m =
      inflightRecord s.redis (options.shardOf q) (makeMember m q) m

end Track

/-! ## 一歩 -/

section Step

variable {options : FairQueueOptions P} {s : System P} {l : Label P} {m q : String} {p : Stored P}

/-- 一歩は、先頭の command を実行するか、Redis を変えない。 -/
theorem System.redis_step (options : FairQueueOptions P) (s : System P) (l : Label P) :
    (∃ op, s.head? l = some op ∧
      (s.step options l).redis = ((op.prog options s.cache l.now).run s.redis).2) ∨
    (s.head? l = none ∧ (s.step options l).redis = s.redis) := by
  cases l with
  | run task now =>
    simp only [System.head?, System.step]
    rcases s.tasks[task]? with _ | (_ | ⟨op, rest⟩)
    · exact .inr ⟨rfl, rfl⟩
    · exact .inr ⟨rfl, rfl⟩
    · exact .inl ⟨op, rfl, rfl⟩
  | redrive inst tenantId messageId =>
    refine .inr ⟨rfl, ?_⟩
    simp only [System.step]
    split <;> rfl
  | _ => exact .inr ⟨rfl, rfl⟩

/-- **claim された message は、その payload とともに in-flight になる。** -/
theorem Takes.inFlight (h : Takes s l m q p) : InFlight options (s.step options l).redis m q p := by
  obtain ⟨op, hop, stop, hrange, hmem, hp⟩ := h
  obtain ⟨op', hop', hredis⟩ : ∃ op', s.head? l = some op' ∧ (s.step options l).redis =
      ((op'.prog options s.cache l.now).run s.redis).2 := by
    rcases System.redis_step options s l with h | ⟨hnone, -⟩
    · exact h
    · rw [hnone] at hop
      cases hop
  obtain rfl : op' = op := Option.some.inj (hop'.symm.trans hop)
  have hrecord : ∃ deadline, inflightRecord ((op'.prog options s.cache l.now).run s.redis).2
      (options.shardOf q) (makeMember m q) m = (some deadline, some p) := by
    cases op' with
    | claim q' timeoutMs =>
      obtain ⟨rfl, rfl⟩ := Prod.mk.inj (Option.some.inj hrange)
      refine ⟨l.now + timeoutMs, ?_⟩
      simp only [Op.prog, claimMessageLua, Prog.run_bind, run_zrange, Prog.run_pure]
      have hlen := takeTo_zero_length (s.redis.get (.queue q'))
      rcases htake : takeTo 0 (s.redis.get (.queue q')) with _ | ⟨id, others⟩ <;>
        rw [htake] at hmem hlen
      · cases hmem
      · rw [List.length_cons] at hlen
        obtain rfl : others = [] := List.length_eq_zero_iff.mp (by omega)
        obtain rfl := List.mem_singleton.mp hmem
        simp only [Prog.run_bind, Prog.run_pure]
        exact inflightRecord_claimOne_self _ hp
    | claimBatch call maxCount =>
      obtain ⟨rfl, rfl⟩ := Prod.mk.inj (Option.some.inj hrange)
      refine ⟨l.now + options.visibilityTimeoutMs, ?_⟩
      simp only [Op.prog, claimMessageBatchLua, Prog.run_bind, run_zrange, Prog.run_pure]
      exact inflightRecord_claimLoop_self _ (takeTo_nodup _ _) hmem hp
    | _ => cases hrange
  rw [← hredis] at hrecord
  obtain ⟨deadline, hrecord⟩ := hrecord
  obtain ⟨hscore, hdata⟩ := Prod.mk.inj hrecord
  exact ⟨by rw [hscore]; rfl, hdata⟩

/-- claim される message の id に `:` は無い。 -/
theorem Takes.noColon (h : Takes s l m q p) (hl : Separate options s l) : NoColon m := by
  obtain ⟨op, hop, stop, hrange, hmem, hp⟩ := h
  have hsome : (JsMap.get (s.redis.get (.queueItems q)) m).isSome := by rw [hp]; rfl
  have hfresh : Fresh options s.redis q stop := by
    have hseparate := hl op hop
    cases op with
    | claim | claimBatch =>
      obtain ⟨rfl, rfl⟩ := Prod.mk.inj (Option.some.inj hrange)
      exact hseparate
    | _ => cases hrange
  exact (hfresh m hmem hsome).1

/-- reclaim は、in-flight の message を自分の queue に戻す。 -/
theorem InFlight.recovers {cache : Cache} {now : ℚ} {r : Redis P} {op : Op P} (hm : NoColon m)
    (h : InFlight options r m q p) (hop : op.recovers options m q = true) :
    Returned options ((op.prog options cache now).run r).2 m q p := by
  obtain ⟨clock, score, rfl⟩ : ∃ clock score,
      op = .reclaim (options.shardOf q) clock (makeMember m q) score := by
    cases op with
    | reclaim n clock member score =>
      obtain ⟨rfl, rfl⟩ := of_decide_eq_true hop
      exact ⟨clock, score, rfl⟩
    | _ => cases hop
  have hdata : (view r m).data (options.shardOf q) = some p := h.data
  have hview : view (((Op.reclaim (options.shardOf q) clock (makeMember m q) score : Op P).prog
      options cache now).run r).2 m = (view r m).release q (options.shardOf q) := by
    simp only [Op.prog, parseMember_makeMember_iff.mpr hm, Prog.run_bind, Prog.run_pure]
    rw [view_releaseMessage, if_pos rfl]
  rw [View.release_of_some hdata] at hview
  refine ⟨?_, ?_, ?_⟩
  · simp only [Op.prog, parseMember_makeMember_iff.mpr hm, Prog.run_bind, Prog.run_pure]
    exact congrArg Prod.fst (inflightRecord_releaseMessage_self score h.data)
  · have hqueued := congrFun (congrArg View.queued hview) q
    simpa [view, View.enqueue] using hqueued
  · have hitem := congrFun (congrArg View.items hview) q
    simpa [view, View.enqueue] using hitem

/-- 条件を満たす一歩は、`(m, q)` に働かない限り、その記録を変えない。 -/
theorem Separate.apart (hl : Separate options s l) (hm : NoColon m) : Apart options m q s l := by
  intro hin hacts
  rcases System.redis_step options s l with ⟨op, hop, hredis⟩ | ⟨-, hredis⟩
  · obtain ⟨hfinish, hprolong, hrecover⟩ := hacts op hop
    rw [hredis]
    exact inflightRecord_op s.cache l.now hm (hl op hop) hin hfinish hprolong hrecover
  · rw [hredis]

/-- **終わらない message は、reclaim が queue に戻すまで in-flight に残る。** -/
theorem InFlight.step (h : InFlight options s.redis m q p) (hm : NoColon m)
    (hl : Separate options s l) (hkeep : Unfinished m q s l) :
    (s.recovers options m q l = true → Returned options (s.step options l).redis m q p) ∧
      (s.recovers options m q l = false → InFlight options (s.step options l).redis m q p) := by
  rcases System.redis_step options s l with ⟨op, hop, hredis⟩ | ⟨hnone, hredis⟩
  · have hhead : s.recovers options m q l = op.recovers options m q := by
      simp only [System.recovers, hop, Option.any_some]
    rw [hhead, hredis]
    refine ⟨fun hrecover => h.recovers hm hrecover, fun hrecover => ?_⟩
    rcases hprolong : op.prolongs options m q
    · have hrecord := inflightRecord_op s.cache l.now hm (hl op hop) h.deadline
        (hkeep op hop) hprolong hrecover
      obtain ⟨hscore, hdata⟩ := Prod.mk.inj hrecord
      exact ⟨by rw [hscore]; exact h.deadline, hdata.trans h.data⟩
    · obtain ⟨deadline, hrecord⟩ := inflightRecord_prolongs s.cache l.now
        hprolong h.deadline
      obtain ⟨hscore, hdata⟩ := Prod.mk.inj hrecord
      exact ⟨by rw [hscore]; rfl, hdata.trans h.data⟩
  · have hhead : s.recovers options m q l = false := by
      simp only [System.recovers, hnone, Option.any_none]
    rw [hhead, hredis]
    exact ⟨fun hfalse => (by cases hfalse), fun _ => h⟩

/-- 進めた task の残りの列。 -/
theorem System.tasks_advance {k : Nat} {op : Op P} {rest : List (Op P)} (now : ℚ)
    (h : s.tasks[k]? = some (op :: rest)) :
    (s.advance options k now op rest).tasks[k]? =
      some (((op.prog options s.cache now).run s.redis).1.front ++ rest ++
        ((op.prog options s.cache now).run s.redis).1.back) :=
  List.getElem?_set_self (List.getElem?_eq_some_iff.mp h).1

/-- member を読んだ task には、それを戻す command が残る。 -/
theorem Reads.pending {k : Nat} {now : ℚ} (h : Reads options s k now m q) :
    Pending options (s.step options (.run k now)) k m q := by
  obtain ⟨hhead, hmem⟩ := h
  obtain ⟨ops, htask, hop⟩ := Option.bind_eq_some_iff.mp hhead
  obtain ⟨e, he, hmember⟩ := List.mem_map.mp hmem
  rcases ops with _ | ⟨op, rest⟩
  · cases hop
  obtain rfl : op = .reclaimScan (options.shardOf q) := Option.some.inj hop
  have hfront : .reclaimGet (options.shardOf q) now e.1 ∈ (((Op.reclaimScan (options.shardOf q) :
      Op P).prog options s.cache now).run s.redis).1.front := by
    simp only [Op.prog, Prog.run_bind, run_zrangeByScore, Prog.run_pure]
    exact List.mem_map_of_mem he
  simp only [System.step, htask]
  exact ⟨_, System.tasks_advance now htask, .reclaimGet (options.shardOf q) now e.1,
    List.mem_append_left _ (List.mem_append_left _ hfront), by simp [Op.reclaims, hmember]⟩

/-- 戻す command は、実行されるまで task に残る。 -/
theorem Pending.step {k : Nat} (h : Pending options s k m q)
    (hfree : s.recovers options m q l = false) : Pending options (s.step options l) k m q := by
  obtain ⟨ops, htask, op', hop', hpending⟩ := h
  rcases System.step_cases options s l with heq | ⟨started, -, -, htasks, -⟩ |
      ⟨task, now, op, rest, rfl, hrun, heq⟩
  · rw [heq]
    exact ⟨ops, htask, op', hop', hpending⟩
  · refine ⟨ops, ?_, op', hop', hpending⟩
    rw [htasks, List.getElem?_append_left (List.getElem?_eq_some_iff.mp htask).1]
    exact htask
  · rw [heq]
    by_cases hk : task = k
    · subst hk
      obtain rfl : ops = op :: rest := Option.some.inj (htask.symm.trans hrun)
      refine ⟨_, System.tasks_advance now hrun, ?_⟩
      rcases List.mem_cons.mp hop' with rfl | hop'
      · -- 読んだ後の data の取得は、戻す command に続く。
        cases op' with
        | reclaimGet n clock member =>
          refine ⟨.reclaim n clock member _, List.mem_append_left _ (List.mem_append_left _
            List.mem_cons_self), hpending⟩
        | reclaim n clock member score =>
          have hhead : s.head? (.run task now) = some (.reclaim n clock member score) := by
            simp only [System.head?, hrun, Option.bind_some, List.head?_cons]
          simp only [System.recovers, hhead, Option.any_some, Op.recovers] at hfree
          simp only [Op.reclaims, of_decide_eq_false hfree, if_false] at hpending
          cases hpending
        | _ => cases hpending
      · exact ⟨op', List.mem_append_left _ (List.mem_append_right _ hop'), hpending⟩
    · refine ⟨ops, ?_, op', hop', hpending⟩
      simp only [System.advance]
      rw [List.getElem?_set_ne hk]
      exact htask

end Step

/-! ## 実行の全体 -/

section Run

variable (options : FairQueueOptions P) (m q : String) (p : Stored P)

/-- `s` で claim された message の行方。戻すまでは in-flight に残り、戻す一歩は自分の queue に戻す。member を読んだ
task がそれを戻す command を残さず進めば、その時までに戻っている。ほかの message の command は記録を変えない。 -/
structure Recovered (s : System P) (ls : List (Label P)) : Prop where
  kept : Until (System.step options) (fun s => InFlight options s.redis m q p)
    (System.recovers options m q) (fun s => Returned options s.redis m q p) s ls
  pass : ∀ pre k now post, ls = pre ++ Label.run k now :: post →
    Reads options (exec (System.step options) s pre) k now m q →
    ¬ Pending options (exec (System.step options) s ls) k m q →
    ∃ pre', pre' <+: ls ∧ Returned options (exec (System.step options) s pre').redis m q p
  apart : Along (System.step options) (Apart options m q) s ls

end Run

/-- **id に `:` の無い message だけが、同じ shard の同じ id の message が in-flight でないときに claim され、in-flight の
message の id を使う command がその message の queue のものである実行では、complete・release・fail の無い限り、
claim された message は、期限切れの member を読んだ reclaim が済むまでに、payload とともに自分の queue に戻る。** -/
theorem expired_returns (options : FairQueueOptions P) (s : System P) (l : Label P)
    (ls : List (Label P)) (m q : String) (p : Stored P) (hclaim : Takes s l m q p)
    (h : Along (System.step options) (Separate options) s (l :: ls))
    (hkeep : Along (System.step options) (Unfinished m q) (s.step options l) ls) :
    Recovered options m q p (s.step options l) ls := by
  have hm : NoColon m := hclaim.noColon h.1
  have hkept : Until (System.step options) (fun s => InFlight options s.redis m q p)
      (System.recovers options m q) (fun s => Returned options s.redis m q p)
      (s.step options l) ls :=
    until_of_along (fun s l hs hl he => (hs.step hm hl.1 hl.2).1 he)
      (fun s l hs hl he => (hs.step hm hl.1 hl.2).2 he) hclaim.inFlight (h.2.and hkeep)
  refine ⟨hkept, ?_, h.2.mono fun s l hl => hl.apart hm⟩
  intro pre k now post hls hreads hdone
  rcases hkept.reached_or_along with hreached | hfree
  · exact hreached
  · -- 戻す一歩が無ければ、task には戻す command が残っている。
    refine absurd ?_ hdone
    rw [hls] at hfree ⊢
    obtain ⟨-, hpost⟩ := Along.append.mp hfree
    rw [exec_append, exec_cons]
    exact Along.invariant (I := fun s => Pending options s k m q)
      (fun s l hs hl => hs.step hl) hreads.pending hpost.2

namespace Reclaim

/-- shard が一つの設定。 -/
def options : FairQueueOptions Unit :=
  { keys := DefaultFairQueueKeyProducer, shardOf := fun _ => 0, resolveWorkerQueue := fun _ => "w" }

/-- queue `q` に enqueue される message。 -/
def stored (m q : String) : Stored Unit := .message (options.storedMessage q "t" m () 0 none)

/-- 一件が queue にあり、その claim が始まっている状態。 -/
def waiting : System Unit :=
  System.exec options [.enqueue 0 "q" "t" "m" () 0 none, .run 0 0, .claim "q" 30000]

/-- claim の後、期限の 10 秒後に始まる reclaim。 -/
def pass : List (Label Unit) := [.reclaim 0, .run 2 40000, .run 2 40000, .run 2 40000]

/-- 期限切れの一件は queue に戻る。 -/
theorem expired_returns_sample :
    Recovered options "m" "q" (stored "m" "q") (waiting.step options (.run 1 0)) pass :=
  expired_returns options waiting (.run 1 0) pass "m" "q" (stored "m" "q")
    ⟨.claim "q" 30000, rfl, 0, rfl, by decide +kernel, by decide +kernel⟩
    (by decide +kernel) (by decide +kernel)

/-- id に `:` のある一件を claim し、期限の後の reclaim を終えた状態。 -/
def colonRun : System Unit :=
  System.exec options ([Label.enqueue 0 "q" "t" "a:b" () 0 none, .run 0 0, .claim "q" 30000,
    .run 1 0] ++ pass)

/-- 同じ id の message を二つの queue から claim し、期限の後の reclaim を終えた状態。 -/
def sharedRun : System Unit :=
  System.exec options [.enqueue 0 "q1" "t" "m" () 0 none, .run 0 0,
    .enqueue 0 "q2" "t" "m" () 0 none, .run 1 0, .claim "q1" 30000, .run 2 0, .claim "q2" 30000,
    .run 3 0, .reclaim 0, .run 4 40000, .run 4 40000, .run 4 40000, .run 4 40000, .run 4 40000]

/-- どちらの reclaim も終わっているのに、member が in-flight に残り、message は queue に戻らない。id を共有すると、
もう一方の queue は別の queue の message を受け取る。 -/
theorem expired_stranded :
    ((colonRun.tasks[2]?.map List.isEmpty) = some true ∧
      inflightRecord colonRun.redis 0 "a:b:q" "a:b" = (some 30000, some (stored "a:b" "q")) ∧
      SortedSet.score? (colonRun.redis.get (.queue "q")) "a:b" = none) ∧
    (sharedRun.tasks[4]?.map List.isEmpty) = some true ∧
      inflightRecord sharedRun.redis 0 "m:q2" "m" = (some 30000, none) ∧
      SortedSet.score? (sharedRun.redis.get (.queue "q2")) "m" = none ∧
      JsMap.get (sharedRun.redis.get (.queueItems "q1")) "m" = some (stored "m" "q2") := by
  decide +kernel

end Reclaim

end FairQueue
