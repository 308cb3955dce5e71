import Trigger.FairQueue.Commands

/-!
# master queue から見える queue

master queue の記載は、claim では更新されずに古いまま残り、空になった queue は別の command が条件つきで
取り除く。それでも、七つの script をどの順に走らせても、空でない queue は自分の shard の master queue に、
queue の最小の score 以下の score で載っている（`visible_runAll`）。

文字列の key の上では、queue id が `:items` の形で重なると script が途中で止まり、この性質は破れる
（`invisible_queue`）。重ならない id だけを使う実行では成り立つ（`visible_runAllText`）。
-/

namespace FairQueue

open Infra Infra.Keyspace
open Infra.Redis (ZSet)

variable {P : Type}

/-! ## 原子的な command -/

/-- 七つの script の呼び出し。時刻を読むものは、その値を持つ。 -/
inductive Command (P : Type)
  | enqueueMessageAtomic (queueId messageId : String) (timestamp : ℚ) (message : StoredMessage P)
  | enqueueBatchAtomic (queueId : String) (messages : List (String × ℚ × StoredMessage P))
  | claimMessage (queueId : String) (now timeoutMs : ℚ)
  | claimMessageBatch (queueId : String) (now timeoutMs : ℚ) (maxCount : Int)
  | releaseMessage (shardId : Nat) (queueId messageId : String) (score : ℚ)
  | releaseMessageBatch (queueId : String) (score : ℚ) (messageIds : List String)
  | updateMasterQueueIfEmpty (shardId : Nat) (queueId : String)

namespace Command

def queueId : Command P → String
  | .enqueueMessageAtomic q .. | .enqueueBatchAtomic q _ | .claimMessage q ..
  | .claimMessageBatch q .. | .releaseMessage _ q .. | .releaseMessageBatch q ..
  | .updateMasterQueueIfEmpty _ q => q

/-- script に渡す key と引数。`shardOf` は `jumpHash(queueId, shardCount)` である。 -/
def prog (shardOf : String → Nat) : Command P → Script P Unit
  | .enqueueMessageAtomic q messageId timestamp message => do
    let _ ← enqueueMessageAtomicLua (.queue q) (.queueItems q) (.masterQueue (shardOf q)) q
      messageId timestamp (.message message)
    pure ()
  | .enqueueBatchAtomic q messages => do
    let _ ← enqueueBatchAtomicLua (.queue q) (.queueItems q) (.masterQueue (shardOf q)) q
      (messages.map fun m => (m.1, m.2.1, .message m.2.2))
    pure ()
  | .claimMessage q now timeoutMs => do
    let _ ← claimMessageLua (.queue q) (.queueItems q) (.inflight (shardOf q))
      (.inflightData (shardOf q)) q (now + timeoutMs)
    pure ()
  | .claimMessageBatch q now timeoutMs maxCount => do
    let _ ← claimMessageBatchLua (.queue q) (.queueItems q) (.inflight (shardOf q))
      (.inflightData (shardOf q)) q (now + timeoutMs) maxCount
    pure ()
  | .releaseMessage shardId q messageId score => do
    let _ ← releaseMessageLua (.inflight shardId) (.inflightData shardId) (.queue q)
      (.queueItems q) (.masterQueue (shardOf q)) (makeMember messageId q) messageId score q
    pure ()
  | .releaseMessageBatch q score messageIds => do
    let _ ← releaseMessageBatchLua (.inflight (shardOf q)) (.inflightData (shardOf q)) (.queue q)
      (.queueItems q) (.masterQueue (shardOf q)) score q
      (messageIds.map fun m => (makeMember m q, m))
    pure ()
  | .updateMasterQueueIfEmpty shardId q => do
    let _ ← updateMasterQueueIfEmptyLua (.masterQueue shardId) (.queue q) q
    pure ()

end Command

/-! ## 触れる key -/

section Uses

variable {U : Set (Sigma Key)} {queueKey masterQueueKey inflightKey : Key .zset}
  {queueItemsKey inflightDataKey : Key .hash}

theorem uses_updateMasterQueue (hq : ⟨_, queueKey⟩ ∈ U) (hm : ⟨_, masterQueueKey⟩ ∈ U)
    (queueId : String) :
    (updateMasterQueue masterQueueKey queueKey queueId : Script P Unit).Uses U := by
  refine Prog.Uses.bind (Prog.Uses.query hq) fun oldest => ?_
  rcases oldest with _ | e
  · exact trivial
  · exact Prog.Uses.modify hm

theorem uses_enqueueLoop (hq : ⟨_, queueKey⟩ ∈ U) (hi : ⟨_, queueItemsKey⟩ ∈ U) :
    ∀ messages : List (String × ℚ × Stored P),
      (enqueueLoop queueKey queueItemsKey messages).Uses U
  | [] => trivial
  | _ :: rest => Prog.Uses.bind (Prog.Uses.modify hq) fun _ =>
      Prog.Uses.bind (Prog.Uses.modify hi) fun _ => uses_enqueueLoop hq hi rest

theorem uses_claimOne (hq : ⟨_, queueKey⟩ ∈ U) (hi : ⟨_, queueItemsKey⟩ ∈ U)
    (hf : ⟨_, inflightKey⟩ ∈ U) (hd : ⟨_, inflightDataKey⟩ ∈ U) (queueId : String) (deadline : ℚ)
    (messageId : String) :
    (claimOne queueKey queueItemsKey inflightKey inflightDataKey queueId deadline messageId :
      Script P _).Uses U := by
  refine Prog.Uses.bind (Prog.Uses.query hi) fun payload => ?_
  rcases payload with _ | payload
  · exact Prog.Uses.bind (Prog.Uses.modify hq) fun _ => trivial
  · exact Prog.Uses.bind (Prog.Uses.modify hq) fun _ => Prog.Uses.bind (Prog.Uses.modify hi) fun _ =>
      Prog.Uses.bind (Prog.Uses.modify hf) fun _ => Prog.Uses.bind (Prog.Uses.modify hd) fun _ =>
        trivial

theorem uses_claimLoop (hq : ⟨_, queueKey⟩ ∈ U) (hi : ⟨_, queueItemsKey⟩ ∈ U)
    (hf : ⟨_, inflightKey⟩ ∈ U) (hd : ⟨_, inflightDataKey⟩ ∈ U) (queueId : String) (deadline : ℚ) :
    ∀ ids : List String, (claimLoop queueKey queueItemsKey inflightKey inflightDataKey queueId
      deadline ids : Script P _).Uses U
  | [] => trivial
  | _ :: rest => Prog.Uses.bind (uses_claimOne hq hi hf hd ..) fun _ =>
      Prog.Uses.bind (uses_claimLoop hq hi hf hd queueId deadline rest) fun _ => trivial

theorem uses_claimMessage (hq : ⟨_, queueKey⟩ ∈ U) (hi : ⟨_, queueItemsKey⟩ ∈ U)
    (hf : ⟨_, inflightKey⟩ ∈ U) (hd : ⟨_, inflightDataKey⟩ ∈ U) (queueId : String) (deadline : ℚ) :
    (claimMessageLua queueKey queueItemsKey inflightKey inflightDataKey queueId deadline :
      Script P _).Uses U := by
  refine Prog.Uses.bind (Prog.Uses.query hq) fun items => ?_
  rcases items with _ | ⟨messageId, rest⟩
  · exact trivial
  · exact Prog.Uses.bind (uses_claimOne hq hi hf hd ..) fun _ => trivial

theorem uses_releaseOne (hf : ⟨_, inflightKey⟩ ∈ U) (hd : ⟨_, inflightDataKey⟩ ∈ U)
    (hq : ⟨_, queueKey⟩ ∈ U) (hi : ⟨_, queueItemsKey⟩ ∈ U) (member messageId : String)
    (score : ℚ) : (releaseOne inflightKey inflightDataKey queueKey queueItemsKey member messageId
      score : Script P Nat).Uses U := by
  refine Prog.Uses.bind (Prog.Uses.query hd) fun payload => ?_
  rcases payload with _ | payload
  · exact trivial
  · exact Prog.Uses.bind (Prog.Uses.modify hf) fun _ => Prog.Uses.bind (Prog.Uses.modify hd) fun _ =>
      Prog.Uses.bind (Prog.Uses.modify hq) fun _ => Prog.Uses.bind (Prog.Uses.modify hi) fun _ =>
        trivial

theorem uses_releaseLoop (hf : ⟨_, inflightKey⟩ ∈ U) (hd : ⟨_, inflightDataKey⟩ ∈ U)
    (hq : ⟨_, queueKey⟩ ∈ U) (hi : ⟨_, queueItemsKey⟩ ∈ U) (score : ℚ) :
    ∀ messages : List (String × String), (releaseLoop inflightKey inflightDataKey queueKey
      queueItemsKey score messages : Script P Nat).Uses U
  | [] => trivial
  | _ :: rest => Prog.Uses.bind (uses_releaseOne hf hd hq hi ..) fun _ =>
      Prog.Uses.bind (uses_releaseLoop hf hd hq hi score rest) fun _ => trivial

end Uses

/-- master queue を更新する前の部分が触れる key。 -/
def localKeys (q : String) (n : Nat) : Set (Sigma Key) :=
  {⟨_, .queue q⟩, ⟨_, .queueItems q⟩, ⟨_, .inflight n⟩, ⟨_, .inflightData n⟩}

/-! ## 見えている queue -/

/-- queue `q` は、どの message よりも遅くない score で master queue に載っている。 -/
def VisibleAt (shardOf : String → Nat) (s : Redis P) (q : String) : Prop :=
  ∀ m x, SortedSet.score? (s.get (.queue q)) m = some x →
    ∃ y, SortedSet.score? (s.get (.masterQueue (shardOf q))) q = some y ∧ y ≤ x

/-- queue `q` のほかの queue と、その master queue への記載が変わらない。 -/
def OnlyQueue (q : String) (s s' : Redis P) : Prop :=
  ∀ q', q' ≠ q → s'.get (.queue q') = s.get (.queue q') ∧
    ∀ n, SortedSet.score? (s'.get (.masterQueue n)) q' =
      SortedSet.score? (s.get (.masterQueue n)) q'

theorem OnlyQueue.refl (q : String) (s : Redis P) : OnlyQueue q s s := fun _ _ => ⟨rfl, fun _ => rfl⟩

theorem OnlyQueue.trans {q : String} {s t u : Redis P} (h : OnlyQueue q s t)
    (h' : OnlyQueue q t u) : OnlyQueue q s u := fun q' hq' =>
  ⟨(h' q' hq').1.trans (h q' hq').1, fun n => ((h' q' hq').2 n).trans ((h q' hq').2 n)⟩

section Local

variable {α : Type} {shardOf : String → Nat} {q : String} {n : Nat} {p : Script P α} {s : Redis P}

theorem masterQueue_not_mem_localKeys (k : Nat) :
    (⟨_, .masterQueue k⟩ : Sigma Key) ∉ localKeys q n := by
  simp [localKeys]

theorem get_masterQueue_of_uses (h : p.Uses (localKeys q n)) (k : Nat) :
    (p.run s).2.get (.masterQueue k) = s.get (.masterQueue k) :=
  h.frame (masterQueue_not_mem_localKeys k) s

theorem onlyQueue_of_uses (h : p.Uses (localKeys q n)) : OnlyQueue q s (p.run s).2 := by
  intro q' hq'
  refine ⟨h.frame ?_ s, fun k => by rw [get_masterQueue_of_uses h]⟩
  simp [localKeys, hq']

/-- queue の message が減るだけなら、見えたままである。 -/
theorem visibleAt_of_uses (h : p.Uses (localKeys q n)) (hv : VisibleAt shardOf s q)
    (hsub : ∀ m x, SortedSet.score? ((p.run s).2.get (.queue q)) m = some x →
      SortedSet.score? (s.get (.queue q)) m = some x) : VisibleAt shardOf (p.run s).2 q := by
  intro m x hm
  rw [get_masterQueue_of_uses h]
  exact hv m x (hsub m x hm)

end Local

/-! ## master queue の更新 -/

section Update

variable {shardOf : String → Nat} {q : String} {n : Nat} {s : Redis P}

theorem run_updateMasterQueue (s : Redis P) (q : String) (n : Nat) :
    ((updateMasterQueue (.masterQueue n) (.queue q) q : Script P Unit).run s).2 =
      match SortedSet.minScore? (s.get (.queue q)) with
      | none => s
      | some x => s.set (.masterQueue n) (SortedSet.add (s.get (.masterQueue n)) q x) := by
  unfold updateMasterQueue SortedSet.minScore?
  rw [Prog.run_bind, run_zfirst]
  rcases (SortedSet.entries (s.get (.queue q))).head? with _ | ⟨m, x⟩ <;> rfl

theorem get_set_masterQueue (k : Nat) (z : ZSet) :
    SortedSet.score? ((s.set (.masterQueue n) z).get (.masterQueue k)) =
      if k = n then z.score? else SortedSet.score? (s.get (.masterQueue k)) := by
  by_cases h : k = n
  · subst h
    rw [if_pos rfl, Store.get_set_self]
  · rw [if_neg h, Store.get_set_of_ne _ _ _ (by simpa using h)]

theorem get_queue_set_masterQueue (q' : String) (z : ZSet) :
    (s.set (.masterQueue n) z).get (.queue q') = s.get (.queue q') :=
  Store.get_set_of_ne _ _ _ (by simp)

/-- queue の message は、先頭以上の score を持つ。 -/
theorem minScore?_le {z : ZSet} {m : String} {x : ℚ} (h : z.score? m = some x) :
    ∃ y, z.minScore? = some y ∧ y ≤ x := by
  have hmin := z.minScore?_isMin
  rcases hz : z.minScore? with _ | y
  · rw [hz] at hmin
    exact absurd h (by simp [hmin m])
  · rw [hz] at hmin
    exact ⟨y, rfl, hmin.2 m x h⟩

theorem onlyQueue_updateMasterQueue :
    OnlyQueue q s ((updateMasterQueue (.masterQueue n) (.queue q) q : Script P Unit).run s).2 := by
  intro q' hq'
  rw [run_updateMasterQueue]
  split
  · exact ⟨rfl, fun _ => rfl⟩
  · refine ⟨get_queue_set_masterQueue .., fun k => ?_⟩
    rw [get_set_masterQueue]
    split
    · next hk =>
      subst hk
      rw [SortedSet.score?_add, if_neg hq']
    · rfl

/-- 自分の shard を更新すれば、見えるようになる。 -/
theorem visibleAt_updateMasterQueue : VisibleAt shardOf
    ((updateMasterQueue (.masterQueue (shardOf q)) (.queue q) q : Script P Unit).run s).2 q := by
  intro m x hm
  rw [run_updateMasterQueue] at hm ⊢
  rcases hz : SortedSet.minScore? (s.get (.queue q)) with _ | y
  · rw [hz] at hm
    obtain ⟨y, hy, -⟩ := minScore?_le hm
    rw [hz] at hy
    cases hy
  · rw [hz] at hm
    simp only at hm ⊢
    rw [get_queue_set_masterQueue] at hm
    obtain ⟨y', hy', hle⟩ := minScore?_le hm
    rw [hz] at hy'
    obtain rfl := Option.some.inj hy'
    refine ⟨y, ?_, hle⟩
    rw [get_set_masterQueue, if_pos rfl, SortedSet.score?_add, if_pos rfl]

/-- 別の shard を更新しても、見えたままである。 -/
theorem visibleAt_updateMasterQueue_of (hv : VisibleAt shardOf s q) : VisibleAt shardOf
    ((updateMasterQueue (.masterQueue n) (.queue q) q : Script P Unit).run s).2 q := by
  by_cases hn : n = shardOf q
  · subst hn
    exact visibleAt_updateMasterQueue
  · intro m x hm
    rw [run_updateMasterQueue] at hm ⊢
    rcases hz : SortedSet.minScore? (s.get (.queue q)) with _ | y <;> rw [hz] at hm
    · exact hv m x hm
    · simp only at hm ⊢
      rw [get_queue_set_masterQueue] at hm
      rw [get_set_masterQueue, if_neg fun h => hn h.symm]
      exact hv m x hm

end Update

/-! ## 一つの command -/

section Step

variable {shardOf : String → Nat} {q : String} {n : Nat} {s : Redis P}

theorem mem_localKeys_queue : (⟨_, .queue q⟩ : Sigma Key) ∈ localKeys q n := by simp [localKeys]

theorem mem_localKeys_queueItems : (⟨_, .queueItems q⟩ : Sigma Key) ∈ localKeys q n := by
  simp [localKeys]

theorem mem_localKeys_inflight : (⟨_, .inflight n⟩ : Sigma Key) ∈ localKeys q n := by
  simp [localKeys]

theorem mem_localKeys_inflightData : (⟨_, .inflightData n⟩ : Sigma Key) ∈ localKeys q n := by
  simp [localKeys]

/-- claim は、payload の有無によらず message を queue から除く。 -/
theorem get_queue_claimOne (deadline : ℚ) (messageId : String) :
    ((claimOne (.queue q) (.queueItems q) (.inflight n) (.inflightData n) q deadline messageId :
      Script P _).run s).2.get (.queue q) = SortedSet.rem (s.get (.queue q)) messageId := by
  unfold claimOne
  rw [Prog.run_bind, run_hget]
  rcases JsMap.get (s.get (.queueItems q)) messageId with _ | payload
  · simp
  · simp only [Prog.run_bind, run_zrem, run_hdel, run_zadd, run_hset, Prog.run_pure]
    rw [Store.get_set_of_ne _ _ _ (by simp), Store.get_set_of_ne _ _ _ (by simp),
      Store.get_set_of_ne _ _ _ (by simp), Store.get_set_self]

theorem score?_claimLoop_le (deadline : ℚ) : ∀ (ids : List String) (s : Redis P) (m : String) (x : ℚ),
    SortedSet.score? (((claimLoop (.queue q) (.queueItems q) (.inflight n) (.inflightData n) q
      deadline ids : Script P _).run s).2.get (.queue q)) m = some x →
    SortedSet.score? (s.get (.queue q)) m = some x
  | [], _, _, _, h => h
  | id :: ids, s, m, x, h => by
    simp only [claimLoop, Prog.run_bind, Prog.run_pure] at h
    have ih := score?_claimLoop_le deadline ids _ m x h
    rw [get_queue_claimOne, SortedSet.score?_rem] at ih
    split at ih
    · cases ih
    · exact ih

/-- 前半が一つの queue の中に閉じ、後半が自分の shard を更新する script。 -/
theorem visibleAt_then_update {α : Type} (shardOf : String → Nat) (s : Redis P) {p : Script P α}
    (h : p.Uses (localKeys q n)) :
    OnlyQueue q s ((updateMasterQueue (.masterQueue (shardOf q)) (.queue q) q :
      Script P Unit).run (p.run s).2).2 ∧
    VisibleAt shardOf ((updateMasterQueue (.masterQueue (shardOf q)) (.queue q) q :
      Script P Unit).run (p.run s).2).2 q :=
  ⟨(onlyQueue_of_uses h).trans onlyQueue_updateMasterQueue, visibleAt_updateMasterQueue⟩

/-- 何も戻さなかった release は queue を変えない。 -/
theorem run_releaseOne_zero {member messageId : String} {score : ℚ}
    (h : ((releaseOne (.inflight n) (.inflightData n) (.queue q) (.queueItems q) member messageId
      score : Script P Nat).run s).1 = 0) :
    ((releaseOne (.inflight n) (.inflightData n) (.queue q) (.queueItems q) member messageId
      score : Script P Nat).run s).2 = s := by
  unfold releaseOne at h ⊢
  rw [Prog.run_bind, run_hget] at h ⊢
  rcases hp : JsMap.get (s.get (.inflightData n)) messageId with _ | payload
  · rfl
  · rw [hp] at h
    simp at h

theorem run_releaseLoop_zero {score : ℚ} : ∀ {messages : List (String × String)} {s : Redis P},
    ((releaseLoop (.inflight n) (.inflightData n) (.queue q) (.queueItems q) score messages :
      Script P Nat).run s).1 = 0 →
    ((releaseLoop (.inflight n) (.inflightData n) (.queue q) (.queueItems q) score messages :
      Script P Nat).run s).2 = s
  | [], _, _ => rfl
  | (member, messageId) :: rest, s, h => by
    simp only [releaseLoop, Prog.run_bind, Prog.run_pure, Nat.add_eq_zero_iff] at h ⊢
    rw [run_releaseLoop_zero h.2, run_releaseOne_zero h.1]

/-- **どの command も、自分の queue を見えたままにし、ほかの queue の見え方を変えない。** -/
theorem visibleAt_command (c : Command P) (hv : VisibleAt shardOf s c.queueId) :
    OnlyQueue c.queueId s ((c.prog shardOf).run s).2 ∧
      VisibleAt shardOf ((c.prog shardOf).run s).2 c.queueId := by
  cases c with
  | enqueueMessageAtomic q messageId timestamp message =>
    simp only [Command.queueId] at hv ⊢
    have hp : (do
        zadd (.queue q) timestamp messageId
        hset (.queueItems q) messageId (.message message) : Script P Unit).Uses (localKeys q 0) :=
      Prog.Uses.bind (Prog.Uses.modify mem_localKeys_queue) fun _ =>
        Prog.Uses.modify mem_localKeys_queueItems
    have h := visibleAt_then_update shardOf s hp
    simpa only [Command.prog, enqueueMessageAtomicLua, Prog.run_bind, Prog.run_pure] using h
  | enqueueBatchAtomic q messages =>
    simp only [Command.queueId] at hv ⊢
    have h := visibleAt_then_update shardOf s (uses_enqueueLoop
      (mem_localKeys_queue (q := q) (n := 0)) mem_localKeys_queueItems
      (messages.map fun m => (m.1, m.2.1, .message m.2.2)))
    simpa only [Command.prog, enqueueBatchAtomicLua, Prog.run_bind, Prog.run_pure] using h
  | claimMessage q now timeoutMs =>
    simp only [Command.queueId] at hv ⊢
    have hp := uses_claimMessage (P := P) (mem_localKeys_queue (q := q) (n := shardOf q))
      mem_localKeys_queueItems mem_localKeys_inflight mem_localKeys_inflightData q
      (now + timeoutMs)
    simp only [Command.prog, Prog.run_bind, Prog.run_pure]
    refine ⟨onlyQueue_of_uses hp, visibleAt_of_uses hp hv ?_⟩
    intro m x hm
    unfold claimMessageLua at hm
    rw [Prog.run_bind, run_zrange] at hm
    rcases hitems : takeTo 0 (s.get (.queue q)) with _ | ⟨messageId, rest⟩ <;> rw [hitems] at hm
    · exact hm
    · simp only [Prog.run_bind, Prog.run_pure] at hm
      rw [get_queue_claimOne, SortedSet.score?_rem] at hm
      split at hm
      · cases hm
      · exact hm
  | claimMessageBatch q now timeoutMs maxCount =>
    simp only [Command.queueId] at hv ⊢
    have hp := uses_claimLoop (P := P) (mem_localKeys_queue (q := q) (n := shardOf q))
      mem_localKeys_queueItems mem_localKeys_inflight mem_localKeys_inflightData q
      (now + timeoutMs) (takeTo (maxCount - 1) (s.get (.queue q)))
    simp only [Command.prog, claimMessageBatchLua, Prog.run_bind, Prog.run_pure, run_zrange]
    exact ⟨onlyQueue_of_uses hp, visibleAt_of_uses hp hv (score?_claimLoop_le _ _ s)⟩
  | releaseMessage shardId q messageId score =>
    simp only [Command.queueId] at hv ⊢
    have hp := uses_releaseOne (P := P) mem_localKeys_inflight mem_localKeys_inflightData
      (mem_localKeys_queue (q := q) (n := shardId)) mem_localKeys_queueItems (makeMember messageId q)
      messageId score
    simp only [Command.prog, releaseMessageLua, Prog.run_bind, Prog.run_pure]
    split
    · next hzero =>
      rw [Prog.run_pure, run_releaseOne_zero hzero]
      exact ⟨OnlyQueue.refl _ _, hv⟩
    · have h := visibleAt_then_update shardOf s hp
      simpa only [Prog.run_bind, Prog.run_pure] using h
  | releaseMessageBatch q score messageIds =>
    simp only [Command.queueId] at hv ⊢
    have hp := uses_releaseLoop (P := P) mem_localKeys_inflight mem_localKeys_inflightData
      (mem_localKeys_queue (q := q) (n := shardOf q)) mem_localKeys_queueItems score
      (messageIds.map fun m => (makeMember m q, m))
    simp only [Command.prog, releaseMessageBatchLua, Prog.run_bind, Prog.run_pure]
    split
    · next hzero =>
      rw [Prog.run_pure, run_releaseLoop_zero hzero]
      exact ⟨OnlyQueue.refl _ _, hv⟩
    · have h := visibleAt_then_update shardOf s hp
      simpa only [Prog.run_bind, Prog.run_pure] using h
  | updateMasterQueueIfEmpty shardId q =>
    simp only [Command.queueId] at hv ⊢
    simp only [Command.prog, updateMasterQueueIfEmptyLua, Prog.run_bind, Prog.run_pure, run_zcard]
    split
    · next hzero =>
      -- 空の queue を消すので、見えるべき message は無い。
      have hempty : ∀ m, SortedSet.score? (s.get (.queue q)) m = none :=
        SortedSet.eq_empty_iff_score?.mp
          (SortedSet.eq_empty_iff.mpr (List.length_eq_zero_iff.mp hzero))
      simp only [Prog.run_bind, run_zrem, Prog.run_pure]
      refine ⟨fun q' hq' => ⟨get_queue_set_masterQueue .., fun k => ?_⟩, fun m x hm => ?_⟩
      · rw [get_set_masterQueue]
        split
        · next hk =>
          subst hk
          rw [SortedSet.score?_rem, if_neg hq']
        · rfl
      · rw [get_queue_set_masterQueue, hempty] at hm
        cases hm
    · simp only [Prog.run_bind, Prog.run_pure]
      exact ⟨onlyQueue_updateMasterQueue, visibleAt_updateMasterQueue_of hv⟩

end Step

/-! ## 実行 -/

/-- 型つきの状態の上で、command を順に実行する。 -/
def runAll (shardOf : String → Nat) (cs : List (Command P)) (s : Redis P) : Redis P :=
  cs.foldl (fun s c => ((c.prog shardOf).run s).2) s

theorem visible_step {shardOf : String → Nat} {s : Redis P} (hv : ∀ q, VisibleAt shardOf s q)
    (c : Command P) (q : String) : VisibleAt shardOf ((c.prog shardOf).run s).2 q := by
  obtain ⟨honly, hself⟩ := visibleAt_command c (hv c.queueId)
  by_cases hq : q = c.queueId
  · subst hq
    exact hself
  · intro m x hm
    rw [(honly q hq).1] at hm
    rw [(honly q hq).2]
    exact hv q m x hm

/-- **七つの script をどの順に走らせても、空でない queue は master queue から見えている。** -/
theorem visible_runAll (shardOf : String → Nat) : ∀ (cs : List (Command P)) {s : Redis P},
    (∀ q, VisibleAt shardOf s q) → ∀ q, VisibleAt shardOf (runAll shardOf cs s) q
  | [], _, hv => hv
  | c :: cs, _, hv => visible_runAll shardOf cs fun q => visible_step hv c q

theorem visible_empty (shardOf : String → Nat) (q : String) :
    VisibleAt shardOf (Store.empty : Redis P) q := fun _ _ h => by cases h

/-! ## 文字列の key の上での実行 -/

/-- 文字列の keyspace の上で、command を順に実行する。途中で止まった script の書き込みは残る。 -/
def runAllText (kp : KeyProducer) (shardOf : String → Nat) (cs : List (Command P))
    (db : Db (Stored P)) : Db (Stored P) :=
  cs.foldl (fun db c => ((c.prog shardOf).runText kp.text db).2) db

theorem uses_command (shardOf : String → Nat) {Q : Set String} (c : Command P)
    (hc : c.queueId ∈ Q) : (c.prog shardOf).Uses (scriptKeys Q) := by
  have hm : ∀ n, (⟨_, .masterQueue n⟩ : Sigma Key) ∈ scriptKeys Q := ScriptKey.masterQueue
  have hf : ∀ n, (⟨_, .inflight n⟩ : Sigma Key) ∈ scriptKeys Q := ScriptKey.inflight
  have hd : ∀ n, (⟨_, .inflightData n⟩ : Sigma Key) ∈ scriptKeys Q := ScriptKey.inflightData
  have hq : (⟨_, .queue c.queueId⟩ : Sigma Key) ∈ scriptKeys Q := ScriptKey.queue hc
  have hi : (⟨_, .queueItems c.queueId⟩ : Sigma Key) ∈ scriptKeys Q := ScriptKey.queueItems hc
  cases c with
  | enqueueMessageAtomic q messageId timestamp message =>
    refine Prog.Uses.bind (Prog.Uses.bind (Prog.Uses.modify hq) fun _ => Prog.Uses.bind
      (Prog.Uses.modify hi) fun _ => Prog.Uses.bind (uses_updateMasterQueue hq (hm _) q) fun _ =>
        trivial) fun _ => trivial
  | enqueueBatchAtomic q messages =>
    refine Prog.Uses.bind (Prog.Uses.bind (uses_enqueueLoop hq hi _) fun _ => Prog.Uses.bind
      (uses_updateMasterQueue hq (hm _) q) fun _ => trivial) fun _ => trivial
  | claimMessage q now timeoutMs =>
    exact Prog.Uses.bind (uses_claimMessage hq hi (hf _) (hd _) q _) fun _ => trivial
  | claimMessageBatch q now timeoutMs maxCount =>
    exact Prog.Uses.bind (Prog.Uses.bind (Prog.Uses.query hq) fun _ =>
      uses_claimLoop hq hi (hf _) (hd _) q _ _) fun _ => trivial
  | releaseMessage shardId q messageId score =>
    refine Prog.Uses.bind (Prog.Uses.bind (uses_releaseOne (hf _) (hd _) hq hi _ _ _)
      fun released => ?_) fun _ => trivial
    split
    · exact trivial
    · exact Prog.Uses.bind (uses_updateMasterQueue hq (hm _) q) fun _ => trivial
  | releaseMessageBatch q score messageIds =>
    refine Prog.Uses.bind (Prog.Uses.bind (uses_releaseLoop (hf _) (hd _) hq hi _ _)
      fun released => ?_) fun _ => trivial
    split
    · exact trivial
    · exact Prog.Uses.bind (uses_updateMasterQueue hq (hm _) q) fun _ => trivial
  | updateMasterQueueIfEmpty shardId q =>
    refine Prog.Uses.bind (Prog.Uses.bind (Prog.Uses.query hq) fun count => ?_) fun _ => trivial
    split
    · exact Prog.Uses.bind (Prog.Uses.modify (hm _)) fun _ => trivial
    · exact Prog.Uses.bind (uses_updateMasterQueue hq (hm _) q) fun _ => trivial

section Text

variable {kp : KeyProducer} {Q : Set String}

/-- 重ならない queue id だけを使う実行は、型つきの状態を表し続け、ほかの key に触れない。 -/
theorem rep_runAllText (shardOf : String → Nat) (hQ : Separated kp Q) : ∀ (cs : List (Command P)) {db : Db (Stored P)}
    {s : Redis P}, (∀ c ∈ cs, c.queueId ∈ Q) → Rep kp.text (scriptKeys Q) db s →
    Rep kp.text (scriptKeys Q) (runAllText kp shardOf cs db) (runAll shardOf cs s) ∧
      ∀ key, (∀ p ∈ scriptKeys Q, kp.text p ≠ key) → runAllText kp shardOf cs db key = db key
  | [], _, _, _, h => ⟨h, fun _ _ => rfl⟩
  | c :: cs, db, s, hcs, h => by
    have huse := uses_command (P := P) shardOf c (hcs c List.mem_cons_self)
    obtain ⟨-, hrep⟩ := runText_eq (text_injOn hQ) huse h
    obtain ⟨hrep', hframe⟩ := rep_runAllText shardOf hQ cs
      (fun d hd => hcs d (List.mem_cons_of_mem _ hd)) hrep
    refine ⟨hrep', fun key hkey => ?_⟩
    exact (hframe key hkey).trans (runText_frame hkey huse)

/-- 別の種類の値を整列集合として読むと、空か error である。 -/
theorem readAt_encode_hash {db : Db (Stored P)} {key : String} {v : JsMap (Stored P)} {z : ZSet}
    (h : db key = Db.encode .hash v) (hz : db.readAt key .zset = some z) : z = ∅ := by
  unfold Db.readAt at hz
  rw [h, Db.encode] at hz
  split at hz
  · next hv =>
    split at hv
    · exact (Option.some.inj hz).symm
    · cases hv
  · next κ' v' hv =>
    split at hv
    · cases hv
    · obtain ⟨rfl, -⟩ := Sigma.mk.inj (Option.some.inj hv)
      cases hz

/-- 空でない queue の整列集合は、型つきの状態の queue である。 -/
theorem readAt_queue_eq {shardOf : String → Nat} (hQ : Separated kp Q) {cs : List (Command P)}
    (hcs : ∀ c ∈ cs, c.queueId ∈ Q) {q : String} {z : ZSet}
    (hz : (runAllText kp shardOf cs Db.empty).readAt (kp.queueKey q) .zset = some z)
    (hne : z ≠ ∅) : z = (runAll shardOf cs Store.empty).get (.queue q) := by
  obtain ⟨hrep, hframe⟩ := rep_runAllText shardOf hQ cs hcs rep_empty
  by_cases hq : q ∈ Q
  · have := Db.readAt_of_encode (hrep ⟨_, .queue q⟩ (ScriptKey.queue hq))
    exact Option.some.inj (hz.symm.trans this)
  · exfalso
    by_cases hused : ∃ p ∈ scriptKeys Q, kp.text p = kp.queueKey q
    · obtain ⟨p, hp, htext⟩ := hused
      have henc := hrep p hp
      rcases hp with hq' | hq' | n | n | n
      · exact hq ((build_inj (by simpa only [KeyProducer.text, KeyProducer.queueKey, buildKey_two]
          using htext)) ▸ hq')
      · exact hne (readAt_encode_hash (htext ▸ henc) hz)
      · exact build_ne (by simpa only [KeyProducer.text, KeyProducer.masterQueueKey,
          KeyProducer.queueKey, buildKey_two] using htext) rfl rfl (by decide)
      · exact build_ne (by simpa only [KeyProducer.text, KeyProducer.inflightKey,
          KeyProducer.queueKey, buildKey_two] using htext) rfl rfl (by decide)
      · exact build_ne (by simpa only [KeyProducer.text, KeyProducer.inflightDataKey,
          KeyProducer.queueKey, buildKey_two, buildKey_three] using htext) rfl rfl (by decide)
    · have hnone := hframe (kp.queueKey q) fun p hp h => hused ⟨p, hp, h⟩
      unfold Db.readAt at hz
      rw [hnone] at hz
      exact hne (Option.some.inj hz).symm

/-- **queue id が `:items` の形で重ならない実行では、空でない queue は見失われない。** 空でない queue は、
自分の shard の master queue に最小の score 以下の score で載っていて、期限の来た message を持てば、
その時刻までの走査で見つかる。 -/
theorem visible_runAllText (kp : KeyProducer) (shardOf : String → Nat) {Q : Set String}
    (hQ : Separated kp Q) (cs : List (Command P)) (hcs : ∀ c ∈ cs, c.queueId ∈ Q) (q : String)
    (z : ZSet) (x : ℚ)
    (hz : (runAllText kp shardOf cs Db.empty).readAt (kp.queueKey q) .zset = some z)
    (hx : z.minScore? = some x) :
    ∃ (master : ZSet) (y : ℚ),
      (runAllText kp shardOf cs Db.empty).readAt (kp.masterQueueKey (shardOf q)) .zset = some master ∧
      master.score? q = some y ∧ y ≤ x ∧
      ∀ now, (∃ m t, z.score? m = some t ∧ t ≤ now) → (q, y) ∈ master.rangeByScore now := by
  have hmin := z.minScore?_isMin
  rw [hx] at hmin
  obtain ⟨⟨m, hm⟩, hle⟩ := hmin
  have hne : z ≠ ∅ := by
    rintro rfl
    cases hx
  have heq := readAt_queue_eq hQ hcs hz hne
  obtain ⟨hrep, -⟩ := rep_runAllText shardOf hQ cs hcs rep_empty
  have hv := visible_runAll shardOf cs (visible_empty (P := P) shardOf) q m x (heq ▸ hm)
  obtain ⟨y, hy, hyx⟩ := hv
  refine ⟨_, y, Db.readAt_of_encode (hrep ⟨_, .masterQueue (shardOf q)⟩ (ScriptKey.masterQueue _)),
    hy, hyx, ?_⟩
  rintro now ⟨m', t, hm', ht⟩
  exact SortedSet.mem_rangeByScore.mpr ⟨hy, hyx.trans ((hle m' t hm').trans ht)⟩

/-- 一つの message を queue に入れる。 -/
def enqueueSample (queueId messageId : String) (timestamp : ℚ) : Command Unit :=
  .enqueueMessageAtomic queueId messageId timestamp
    { id := messageId, queueId := queueId, tenantId := "t", payload := (), timestamp := timestamp,
      attempt := 1 }

/-- `x:items` に入れた後で `x` に入れると、`x` の payload の `HSET` が `WRONGTYPE` になり、message は
queue に入るが、queue は master queue に載らない。 -/
theorem invisible_queue :
    let db := runAllText DefaultFairQueueKeyProducer (fun _ => 0)
      [enqueueSample "x:items" "m1" 0, enqueueSample "x" "m2" 0] Db.empty
    (db.readAt (DefaultFairQueueKeyProducer.queueKey "x") .zset).map SortedSet.entries =
        some [("m2", 0)] ∧
      (db.readAt (DefaultFairQueueKeyProducer.masterQueueKey 0) .zset).map
        (fun z => SortedSet.score? z "x") = some none := by
  decide +kernel

/-- 一つの queue に二件を入れ、一件を取り出した後。 -/
theorem visible_runAllText_sample :
    ∃ (master : ZSet) (y : ℚ),
      (runAllText DefaultFairQueueKeyProducer (fun _ => 0)
        [enqueueSample "x" "m1" 5, enqueueSample "x" "m2" 3, .claimMessage "x" 7 10]
        Db.empty).readAt (DefaultFairQueueKeyProducer.masterQueueKey 0) .zset = some master ∧
      master.score? "x" = some y ∧ y ≤ 5 := by
  have hz : ((runAllText DefaultFairQueueKeyProducer (fun _ => 0)
      [enqueueSample "x" "m1" 5, enqueueSample "x" "m2" 3, .claimMessage "x" 7 10]
      Db.empty).readAt (DefaultFairQueueKeyProducer.queueKey "x") .zset) =
        some ((∅ : ZSet).add "m1" 5) := by decide +kernel
  obtain ⟨master, y, h1, h2, h3, -⟩ := visible_runAllText DefaultFairQueueKeyProducer (fun _ => 0)
    (Q := {"x"}) (by simp [Separated, DefaultFairQueueKeyProducer]) _ (by
      intro c hc
      simp only [List.mem_cons, List.not_mem_nil, or_false] at hc
      rcases hc with rfl | rfl | rfl <;> rfl) "x" _ 5 hz (by decide +kernel)
  exact ⟨master, y, h1, h2, h3⟩

end Text

end FairQueue
