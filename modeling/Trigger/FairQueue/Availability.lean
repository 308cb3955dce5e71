import Trigger.FairQueue.Frame

/-!
# 期限前の配達

queue の message の score は、それより前に配ってはならない時刻である。しかし `claimMessage` と
`claimMessageBatch` は、現在時刻を見ずに score の小さい方から取る。期限は master queue の score（queue の
最小の score）だけで守られるので、期限の来た message と来ていない message が同じ queue にあると、後者も
一緒に取られる（`claim_before_due`）。

期限前の message が一つも動かない実行は、どの claim も、その時刻に期限の来ている数を超えて取らない実行で
ある（`no_early_claim_iff`）。
-/

namespace FairQueue

open Infra Infra.Keyspace
open Infra.Redis (ZSet)

variable {P : Type} {s : Redis P}

/-! ## payload の揃った queue -/

/-- どの queue の message も、payload を持つ。 -/
def Stocked (s : Redis P) : Prop :=
  ∀ q m, SortedSet.score? (s.get (.queue q)) m ≠ none → JsMap.get (s.get (.queueItems q)) m ≠ none

theorem stocked_empty : Stocked (Store.empty : Redis P) := fun _ _ h => absurd rfl h

theorem Stocked.congr {s' : Redis P} (h : Stocked s)
    (hq : ∀ q, s'.get (.queue q) = s.get (.queue q))
    (hi : ∀ q, s'.get (.queueItems q) = s.get (.queueItems q)) : Stocked s' := by
  intro q m
  rw [hq, hi]
  exact h q m

/-- queue とその payload のほかの key を書いても、揃ったままである。 -/
theorem Stocked.frame {α : Type} {U : Set (Sigma Key)} {p : Script P α} (hp : p.Uses U)
    (hq : ∀ q, ⟨_, .queue q⟩ ∉ U) (hi : ∀ q, ⟨_, .queueItems q⟩ ∉ U) (h : Stocked s) :
    Stocked (p.run s).2 :=
  h.congr (fun q => hp.frame (hq q) s) fun q => hp.frame (hi q) s

/-- queue から message を除く。 -/
theorem Stocked.remove (h : Stocked s) (q m : String) :
    Stocked (s.set (.queue q) (SortedSet.rem (s.get (.queue q)) m)) := by
  intro q' m' hm'
  rw [Store.get_set_of_ne _ _ _ (by simp)]
  by_cases hq : q' = q
  · subst hq
    rw [Store.get_set_self, SortedSet.score?_rem] at hm'
    split at hm'
    · exact absurd rfl hm'
    · exact h q' m' hm'
  · rw [Store.get_set_of_ne _ _ _ (by simpa using hq)] at hm'
    exact h q' m' hm'

/-- queue に無い message の payload を消す。 -/
theorem Stocked.discard (h : Stocked s) {q m : String}
    (hm : SortedSet.score? (s.get (.queue q)) m = none) :
    Stocked (s.set (.queueItems q) (JsMap.delete (s.get (.queueItems q)) m)) := by
  intro q' m' hm'
  rw [Store.get_set_of_ne _ _ _ (by simp)] at hm'
  by_cases hq : q' = q
  · subst hq
    rw [Store.get_set_self, JsMap.get_delete]
    split
    · next heq => exact absurd (heq ▸ hm) hm'
    · exact h q' m' hm'
  · rw [Store.get_set_of_ne _ _ _ (by simpa using hq)]
    exact h q' m' hm'

/-- payload を書く。 -/
theorem Stocked.write (h : Stocked s) (q m : String) (payload : Stored P) :
    Stocked (s.set (.queueItems q) (JsMap.set (s.get (.queueItems q)) m payload)) := by
  intro q' m' hm'
  rw [Store.get_set_of_ne _ _ _ (by simp)] at hm'
  by_cases hq : q' = q
  · subst hq
    rw [Store.get_set_self, JsMap.get_set]
    split
    · simp
    · exact h q' m' hm'
  · rw [Store.get_set_of_ne _ _ _ (by simpa using hq)]
    exact h q' m' hm'

/-- message を payload と一緒に加える。 -/
theorem Stocked.add (h : Stocked s) (q m : String) (x : ℚ) (payload : Stored P) :
    Stocked ((s.set (.queue q) (SortedSet.add (s.get (.queue q)) m x)).set (.queueItems q)
      (JsMap.set (s.get (.queueItems q)) m payload)) := by
  intro q' m' hm'
  rw [Store.get_set_of_ne _ _ _ (by simp)] at hm'
  by_cases hq : q' = q
  · subst hq
    rw [Store.get_set_self, SortedSet.score?_add] at hm'
    rw [Store.get_set_self, JsMap.get_set]
    split
    · simp
    · next hne =>
      rw [if_neg hne] at hm'
      exact h q' m' hm'
  · rw [Store.get_set_of_ne _ _ _ (by simpa using hq)] at hm' ⊢
    rw [Store.get_set_of_ne _ _ _ (by simp)]
    exact h q' m' hm'

/-! ## script -/

section Scripts

variable {q : String} {n : Nat}

/-- master queue の更新は queue に触れない。 -/
theorem Stocked.updateMasterQueue (h : Stocked s) :
    Stocked ((updateMasterQueue (.masterQueue n) (.queue q) q : Script P Unit).run s).2 := by
  rw [run_updateMasterQueue]
  split
  · exact h
  · exact h.congr (fun _ => Store.get_set_of_ne _ _ _ (by simp))
      fun _ => Store.get_set_of_ne _ _ _ (by simp)

theorem Stocked.enqueueLoop : ∀ {messages : List (String × ℚ × Stored P)} {s : Redis P},
    Stocked s → Stocked ((enqueueLoop (.queue q) (.queueItems q) messages).run s).2
  | [], _, h => h
  | (m, x, payload) :: rest, s, h => by
    simp only [FairQueue.enqueueLoop, Prog.run_bind, run_zadd, run_hset]
    rw [Store.get_set_of_ne s _ _ (by simp)]
    exact Stocked.enqueueLoop (h.add q m x payload)

/-- in-flight に置くのは、queue に触れない。 -/
theorem Stocked.placeInflight (h : Stocked s) (deadline : ℚ) (member m : String)
    (payload : Stored P) :
    Stocked ((do
      zadd (.inflight n) deadline member
      hset (.inflightData n) m payload : Script P Unit).run s).2 := by
  refine h.frame (U := {⟨_, .inflight n⟩, ⟨_, .inflightData n⟩}) ?_ (by simp) (by simp)
  exact Prog.Uses.bind (Prog.Uses.modify (by simp)) fun _ => Prog.Uses.modify (by simp)

theorem Stocked.claimOne (h : Stocked s) (deadline : ℚ) (m : String) :
    Stocked ((claimOne (.queue q) (.queueItems q) (.inflight n) (.inflightData n) q deadline m :
      Script P _).run s).2 := by
  simp only [FairQueue.claimOne, Prog.run_bind, run_hget]
  rcases JsMap.get (s.get (.queueItems q)) m with _ | payload
  · exact h.remove q m
  · have hrem := h.remove q m
    have hnone : SortedSet.score? ((s.set (.queue q)
        (SortedSet.rem (s.get (.queue q)) m)).get (.queue q)) m = none := by
      rw [Store.get_set_self, SortedSet.score?_rem, if_pos rfl]
    exact (hrem.discard hnone).placeInflight deadline (makeMember m q) m payload

theorem Stocked.claimLoop (deadline : ℚ) : ∀ {ids : List String} {s : Redis P}, Stocked s →
    Stocked ((claimLoop (.queue q) (.queueItems q) (.inflight n) (.inflightData n) q deadline ids :
      Script P _).run s).2
  | [], _, h => h
  | m :: rest, s, h => by
    simp only [FairQueue.claimLoop, Prog.run_bind, Prog.run_pure]
    exact Stocked.claimLoop deadline (h.claimOne deadline m)

theorem Stocked.releaseOne (h : Stocked s) (member m : String) (score : ℚ) :
    Stocked ((releaseOne (.inflight n) (.inflightData n) (.queue q) (.queueItems q) member m score :
      Script P Nat).run s).2 := by
  simp only [FairQueue.releaseOne, Prog.run_bind, run_hget]
  rcases JsMap.get (s.get (.inflightData n)) m with _ | payload
  · exact h
  · simp only [Prog.run_bind, run_zrem, run_hdel, run_zadd, run_hset, Prog.run_pure]
    rw [Store.get_set_of_ne _ (Key.queue q) _ (by simp)]
    refine Stocked.add (h.congr (fun _ => ?_) fun _ => ?_) q m score payload
    · rw [Store.get_set_of_ne _ _ _ (by simp), Store.get_set_of_ne _ _ _ (by simp)]
    · rw [Store.get_set_of_ne _ _ _ (by simp), Store.get_set_of_ne _ _ _ (by simp)]

theorem Stocked.releaseLoop (score : ℚ) : ∀ {messages : List (String × String)} {s : Redis P},
    Stocked s → Stocked ((releaseLoop (.inflight n) (.inflightData n) (.queue q) (.queueItems q)
      score messages : Script P Nat).run s).2
  | [], _, h => h
  | (member, m) :: rest, s, h => by
    simp only [FairQueue.releaseLoop, Prog.run_bind, Prog.run_pure]
    exact Stocked.releaseLoop score (h.releaseOne member m score)

theorem Stocked.releaseMessage (h : Stocked s) (k : Nat) (member m : String) (score : ℚ) :
    Stocked ((releaseMessageLua (.inflight n) (.inflightData n) (.queue q) (.queueItems q)
      (.masterQueue k) member m score q : Script P Nat).run s).2 := by
  simp only [releaseMessageLua, Prog.run_bind]
  split
  · exact h.releaseOne member m score
  · rw [Prog.run_bind]
    exact (h.releaseOne member m score).updateMasterQueue

theorem Stocked.releaseMessageBatch (h : Stocked s) (k : Nat) (score : ℚ)
    (messages : List (String × String)) :
    Stocked ((releaseMessageBatchLua (.inflight n) (.inflightData n) (.queue q) (.queueItems q)
      (.masterQueue k) score q messages : Script P Nat).run s).2 := by
  simp only [releaseMessageBatchLua, Prog.run_bind]
  split
  · exact h.releaseLoop score
  · rw [Prog.run_bind]
    exact (h.releaseLoop score).updateMasterQueue

theorem Stocked.claimMessage (h : Stocked s) (deadline : ℚ) :
    Stocked ((claimMessageLua (.queue q) (.queueItems q) (.inflight n) (.inflightData n) q deadline :
      Script P _).run s).2 := by
  simp only [claimMessageLua, Prog.run_bind, run_zrange]
  rcases takeTo 0 (s.get (.queue q)) with _ | ⟨m, rest⟩
  · exact h
  · rw [Prog.run_bind]
    exact h.claimOne deadline m

theorem Stocked.updateMasterQueueIfEmpty (h : Stocked s) :
    Stocked ((updateMasterQueueIfEmptyLua (.masterQueue n) (.queue q) q :
      Script P Nat).run s).2 := by
  simp only [updateMasterQueueIfEmptyLua, Prog.run_bind, run_zcard]
  split
  · exact h.congr (fun _ => Store.get_set_of_ne _ _ _ (by simp))
      fun _ => Store.get_set_of_ne _ _ _ (by simp)
  · rw [Prog.run_bind]
    exact h.updateMasterQueue

end Scripts

/-- **どの command も、queue にある message の payload を失わない。** -/
theorem Stocked.op (h : Stocked s) (options : FairQueueOptions P) (cache : Cache) (now : ℚ)
    (op : Op P) : Stocked ((op.prog options cache now).run s).2 := by
  cases op with
  | enqueueMessageAtomic message =>
    simp only [Op.prog, enqueueMessageAtomicLua, Prog.run_bind, run_zadd, run_hset, Prog.run_pure]
    rw [Store.get_set_of_ne s _ _ (by simp)]
    exact (h.add _ _ _ _).updateMasterQueue
  | enqueueBatchAtomic queueId messages =>
    simp only [Op.prog, enqueueBatchAtomicLua, Prog.run_bind, Prog.run_pure]
    exact h.enqueueLoop.updateMasterQueue
  | scard call key limit rest minCapacity =>
    simp only [Op.prog, Prog.run_bind, run_scard]
    split <;> exact h
  | claim queueId timeoutMs =>
    simp only [Op.prog, Prog.run_bind, Prog.run_pure]
    exact h.claimMessage _
  | claimBatch call maxCount =>
    simp only [Op.prog, claimMessageBatchLua, Prog.run_bind, Prog.run_pure, run_zrange]
    exact h.claimLoop _
  | releaseBatch call messageIds =>
    simp only [Op.prog, Prog.run_bind, Prog.run_pure]
    exact h.releaseMessageBatch _ _ _
  | updateMasterQueueIfEmpty inst shardId queueId =>
    simp only [Op.prog, Prog.run_bind, Prog.run_pure]
    exact h.updateMasterQueueIfEmpty
  | release messageId queueId delay =>
    simp only [Op.prog, Prog.run_bind, Prog.run_pure]
    exact h.releaseMessage _ _ _ _
  | reclaim shardId clock member score =>
    simp only [Op.prog, Prog.run_bind, Prog.run_pure]
    exact h.releaseMessage _ _ _ _
  | hsetItems queueId message => exact h.write _ _ _
  -- 残りの command は queue と payload に触れない。
  | _ =>
    refine h.frame (Op.uses options cache now _) (fun q => ?_) fun q => ?_ <;>
      simp [Op.footprint, FairQueueOptions.groupKeys]

/-- **どの実行でも、queue にある message は payload を持つ。** -/
theorem stocked_exec (options : FairQueueOptions P) (ls : List (Label P)) :
    Stocked (System.exec options ls).redis :=
  System.redis_induction options stocked_empty (fun _ cache now op h => h.op options cache now op) ls

/-! ## claim が取るもの -/

section Claim

variable {q : String} {n : Nat}

theorem get_queueItems_claimOne (deadline : ℚ) (m : String) {payload : Stored P}
    (h : JsMap.get (s.get (.queueItems q)) m = some payload) :
    (((claimOne (.queue q) (.queueItems q) (.inflight n) (.inflightData n) q deadline m :
      Script P _).run s).1 = some payload) ∧
    ((claimOne (.queue q) (.queueItems q) (.inflight n) (.inflightData n) q deadline m :
      Script P _).run s).2.get (.queueItems q) = JsMap.delete (s.get (.queueItems q)) m := by
  simp only [claimOne, Prog.run_bind, run_hget, h, run_zrem, run_hdel, run_zadd, run_hset,
    Prog.run_pure, true_and]
  rw [Store.get_set_of_ne _ _ _ (by simp), Store.get_set_of_ne _ _ _ (by simp), Store.get_set_self,
    Store.get_set_of_ne _ _ _ (by simp)]

/-- payload のある message だけなら、全てを取る。 -/
theorem claimLoop_ids (deadline : ℚ) : ∀ {ids : List String} {s : Redis P}, ids.Nodup →
    (∀ m ∈ ids, JsMap.get (s.get (.queueItems q)) m ≠ none) →
    ((claimLoop (.queue q) (.queueItems q) (.inflight n) (.inflightData n) q deadline ids :
      Script P _).run s).1.map Prod.fst = ids
  | [], _, _, _ => rfl
  | m :: rest, s, hnd, h => by
    obtain ⟨hm, hnd⟩ := List.nodup_cons.mp hnd
    obtain ⟨payload, hp⟩ := Option.ne_none_iff_exists'.mp (h m List.mem_cons_self)
    obtain ⟨hfst, hitems⟩ := get_queueItems_claimOne (n := n) deadline m hp
    simp only [claimLoop, Prog.run_bind, Prog.run_pure, hfst, Option.map_some, Option.toList_some,
      List.map_cons, List.singleton_append]
    rw [claimLoop_ids deadline hnd]
    intro m' hm'
    have hne : m' ≠ m := fun e => hm (e ▸ hm')
    rw [hitems, JsMap.get_delete, if_neg hne]
    exact h m' (List.mem_cons_of_mem _ hm')

/-- `ZRANGE 0 stop` が取る数。 -/
def rangeCount (stop : Int) (size : Nat) : Nat :=
  min (if stop < 0 then (size : Int) + stop + 1 else stop + 1).toNat size

theorem takeTo_eq (stop : Int) (z : ZSet) :
    takeTo stop z = (z.entries.take (rangeCount stop z.entries.length)).map Prod.fst := by
  unfold takeTo rangeCount
  rw [List.take_eq_take_min]

theorem takeTo_zero_length (z : ZSet) : (takeTo 0 z).length ≤ 1 := by
  rw [takeTo_eq, List.length_map, List.length_take]
  exact (min_le_left _ _).trans (min_le_left _ _)

theorem takeTo_nodup (stop : Int) (z : ZSet) : (takeTo stop z).Nodup := by
  rw [takeTo_eq]
  exact z.nodup.sublist ((List.take_sublist _ _).map Prod.fst)

theorem score?_of_mem_takeTo {stop : Int} {z : ZSet} {m : String} (h : m ∈ takeTo stop z) :
    z.score? m ≠ none := by
  rw [takeTo_eq] at h
  obtain ⟨e, he, rfl⟩ := List.mem_map.mp h
  rw [SortedSet.score?_eq_some.mpr (List.mem_of_mem_take he)]
  simp

/-- 取る message の期限が全て来ているのは、取る数が期限の来た数以下のときに限る。 -/
theorem takeTo_due_iff (stop : Int) (z : ZSet) (now : ℚ) :
    (∀ m ∈ takeTo stop z, ∀ x, z.score? m = some x → x ≤ now) ↔
      rangeCount stop z.entries.length ≤ (z.rangeByScore now).length := by
  have hn : rangeCount stop z.entries.length ≤ z.entries.length := min_le_right _ _
  rw [← SortedSet.take_le_iff hn, takeTo_eq]
  constructor
  · intro h e he
    exact h e.1 (List.mem_map_of_mem he) e.2
      (SortedSet.score?_eq_some.mpr (List.mem_of_mem_take he))
  · intro h m hm x hx
    obtain ⟨e, he, rfl⟩ := List.mem_map.mp hm
    rw [SortedSet.score?_eq_some.mpr (List.mem_of_mem_take he)] at hx
    exact Option.some.inj hx ▸ h e he

end Claim

/-- task の先頭の claim が、時刻 `now` に、queue `q` の `ids` を in-flight へ移す。 -/
structure Claims (options : FairQueueOptions P) (s : System P) (task : Nat) (now : ℚ) (q : String)
    (stop : Int) (ids : List String) : Prop where
  head : ∃ op rest, s.tasks[task]? = some (op :: rest) ∧ op.claimRange = some (q, stop)
  event : (s.step options (.run task now)).history = s.history ++ [(task, Event.claimed q ids)]

/-- payload が揃っていれば、claim は範囲の message を全て移す。 -/
theorem Claims.ids_eq {options : FairQueueOptions P} {s : System P} {task : Nat} {now : ℚ}
    {q : String} {stop : Int} {ids : List String} (h : Claims options s task now q stop ids)
    (hs : Stocked s.redis) : ids = takeTo stop (s.redis.get (.queue q)) := by
  obtain ⟨⟨op, rest, htask, hop⟩, hevent⟩ := h
  have hstock : ∀ m ∈ takeTo stop (s.redis.get (.queue q)),
      JsMap.get (s.redis.get (.queueItems q)) m ≠ none :=
    fun m hm => hs q m (score?_of_mem_takeTo hm)
  have hnodup := takeTo_nodup stop (s.redis.get (.queue q))
  simp only [System.step, htask, System.advance] at hevent
  cases op with
  | claim queueId timeoutMs =>
    obtain ⟨rfl, rfl⟩ := Prod.mk.inj (Option.some.inj hop)
    simp only [Op.prog, claimMessageLua, Prog.run_bind, run_zrange, Prog.run_pure, Option.map_some,
      Option.toList_some, List.append_cancel_left_eq, List.cons.injEq, and_true, Prod.mk.injEq,
      true_and, Event.claimed.injEq] at hevent
    rw [← hevent]
    rcases htake : takeTo 0 (s.redis.get (.queue queueId)) with _ | ⟨m, others⟩
    · rfl
    · have hlen := takeTo_zero_length (s.redis.get (.queue queueId))
      rw [htake, List.length_cons] at hlen
      obtain rfl : others = [] := List.length_eq_zero_iff.mp (by omega)
      obtain ⟨payload, hp⟩ := Option.ne_none_iff_exists'.mp (hstock m (by simp [htake]))
      simp only [Prog.run_bind, (get_queueItems_claimOne _ m hp).1, Prog.run_pure, Option.map_some,
        Option.toList_some, List.map_cons, List.map_nil]
  | claimBatch call maxCount =>
    obtain ⟨rfl, rfl⟩ := Prod.mk.inj (Option.some.inj hop)
    simp only [Op.prog, claimMessageBatchLua, Prog.run_bind, run_zrange, Prog.run_pure,
      Option.map_some, Option.toList_some, List.append_cancel_left_eq, List.cons.injEq, and_true,
      Prod.mk.injEq, true_and, Event.claimed.injEq] at hevent
    rw [← hevent]
    exact claimLoop_ids _ hnodup hstock
  | _ => cases hop

/-- **どの実行についても、期限前の message を動かす claim が無いのは、どの claim も、その時刻に期限の来て
いる message の数を超えて取らないときに限る。** -/
theorem no_early_claim_iff (options : FairQueueOptions P) (ls : List (Label P)) :
    (∀ before task now after q stop ids, ls = before ++ Label.run task now :: after →
      Claims options (System.exec options before) task now q stop ids →
      ∀ m ∈ ids, ∀ x, SortedSet.score? ((System.exec options before).redis.get (.queue q)) m = some x →
        x ≤ now) ↔
    (∀ before task now after q stop ids, ls = before ++ Label.run task now :: after →
      Claims options (System.exec options before) task now q stop ids →
      rangeCount stop
          (SortedSet.entries ((System.exec options before).redis.get (.queue q))).length ≤
        (SortedSet.rangeByScore ((System.exec options before).redis.get (.queue q)) now).length) := by
  constructor
  · intro h before task now after q stop ids hls hclaim
    have hearly := h before task now after q stop ids hls hclaim
    rw [hclaim.ids_eq (stocked_exec options before)] at hearly
    exact (takeTo_due_iff stop _ now).mp hearly
  · intro h before task now after q stop ids hls hclaim
    rw [hclaim.ids_eq (stocked_exec options before)]
    exact (takeTo_due_iff stop _ now).mpr (h before task now after q stop ids hls hclaim)

/-- 一つの queue だけを使う設定。 -/
def sampleOptions : FairQueueOptions Unit where
  keys := DefaultFairQueueKeyProducer
  shardOf := fun _ => 0
  resolveWorkerQueue := fun _ => "w"

/-- 時刻 5 に配れる `m1` と、時刻 100 まで待つ `m2` を同じ queue に入れ、時刻 10 に claim する。 -/
def earlyRun : List (Label Unit) :=
  [.enqueue 0 "q" "t" "m1" () 5 none, .run 0 0, .enqueue 0 "q" "t" "m2" () 100 none, .run 1 0,
    .claimAndPush 0 "q" "t" 0, .run 2 10, .run 2 10, .run 2 10]

/-- `m2` も時刻 10 に in-flight へ移り、worker queue に入る。 -/
theorem claim_before_due :
    Claims sampleOptions (System.exec sampleOptions (earlyRun.take 5)) 2 10 "q" 9 ["m1", "m2"] ∧
      SortedSet.score? ((System.exec sampleOptions (earlyRun.take 5)).redis.get (.queue "q")) "m2" =
        some 100 ∧
      (System.exec sampleOptions earlyRun).redis.get (.workerQueue "w") = ["m1:q", "m2:q"] := by
  refine ⟨⟨⟨_, _, rfl, rfl⟩, ?_⟩, ?_, ?_⟩
  · decide +kernel
  · decide +kernel
  · decide +kernel

end FairQueue
