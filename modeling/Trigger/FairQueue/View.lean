import Trigger.FairQueue.Outcome

/-!
# 一つの message から見た Redis

message `m` についての Redis の内容 `view s m` は、どの queue にあるか、その payload、in-flight の data、dead
letter queue から成る。一つの command が `view` をどう変えるかを書き出す。`m` に関わらない command は `view` を
変えない（`view_of_not_about`）。
-/

namespace FairQueue

open Infra Infra.Keyspace
open Infra.Redis (ZSet)

variable {P : Type}

/-! ## view -/

/-- 一つの message についての Redis の内容。 -/
@[ext] structure View (P : Type) where
  queued : String → Bool
  items : String → Option (Stored P)
  data : Nat → Option (Stored P)
  dead : String → Bool
  deadData : String → Option (Stored P)

/-- message `m` の view。 -/
def view (s : Redis P) (m : String) : View P where
  queued q := (SortedSet.score? (s.get (.queue q)) m).isSome
  items q := JsMap.get (s.get (.queueItems q)) m
  data n := JsMap.get (s.get (.inflightData n)) m
  dead t := (SortedSet.score? (s.get (.deadLetterQueue t)) m).isSome
  deadData t := JsMap.get (s.get (.deadLetterQueueData t)) m

namespace View

variable (v : View P)

/-- どこにも無い。 -/
def empty : View P where
  queued _ := false
  items _ := none
  data _ := none
  dead _ := false
  deadData _ := none

/-- queue に入れる。 -/
def enqueue (q : String) (p : Stored P) : View P :=
  { v with queued := Function.update v.queued q true, items := Function.update v.items q (some p) }

/-- queue `q` から in-flight `n` へ移す。payload が無ければ queue から除くだけである。 -/
def claim (q : String) (n : Nat) : View P :=
  match v.items q with
  | none => { v with queued := Function.update v.queued q false }
  | some p =>
    { v with
      queued := Function.update v.queued q false
      items := Function.update v.items q none
      data := Function.update v.data n (some p) }

/-- in-flight `n` から queue `q` へ戻す。 -/
def release (q : String) (n : Nat) : View P :=
  match v.data n with
  | none => v
  | some p => View.enqueue { v with data := Function.update v.data n none } q p

variable {v}

theorem release_of_none {q : String} {n : Nat} (h : v.data n = none) : v.release q n = v := by
  simp only [release, h]

theorem release_of_some {q : String} {n : Nat} {p : Stored P} (h : v.data n = some p) :
    v.release q n = View.enqueue { v with data := Function.update v.data n none } q p := by
  simp only [release, h]

theorem claim_of_some {q : String} {n : Nat} {p : Stored P} (h : v.items q = some p) :
    v.claim q n =
      { v with
        queued := Function.update v.queued q false
        items := Function.update v.items q none
        data := Function.update v.data n (some p) } := by
  simp only [claim, h]

theorem claim_of_none {q : String} {n : Nat} (h : v.items q = none) :
    v.claim q n = { v with queued := Function.update v.queued q false } := by
  simp only [claim, h]

/-- 戻した後は、もう戻すものが無い。 -/
theorem release_release (v : View P) (q : String) (n : Nat) :
    (v.release q n).release q n = v.release q n := by
  refine release_of_none ?_
  rcases hd : v.data n with _ | p
  · rw [release_of_none hd, hd]
  · rw [release_of_some hd]
    exact Function.update_self ..

end View

section Set

variable (s : Redis P) (m : String)

@[simp] theorem view_set_queue (q : String) (z : ZSet) : view (s.set (.queue q) z) m =
    { view s m with queued := Function.update (view s m).queued q (z.score? m).isSome } := by
  refine View.ext (funext fun q' => ?_) ?_ ?_ ?_ ?_
  · by_cases h : q' = q
    · subst h
      simp [view]
    · simp [view, Store.get_set_of_ne, h]
  all_goals exact funext fun _ => by simp [view, Store.get_set_of_ne]

@[simp] theorem view_set_queueItems (q : String) (h : JsMap (Stored P)) :
    view (s.set (.queueItems q) h) m =
      { view s m with items := Function.update (view s m).items q (h.get m) } := by
  refine View.ext ?_ (funext fun q' => ?_) ?_ ?_ ?_
  rotate_left
  · by_cases hq : q' = q
    · subst hq
      simp [view]
    · simp [view, Store.get_set_of_ne, hq]
  all_goals exact funext fun _ => by simp [view, Store.get_set_of_ne]

@[simp] theorem view_set_inflightData (n : Nat) (h : JsMap (Stored P)) :
    view (s.set (.inflightData n) h) m =
      { view s m with data := Function.update (view s m).data n (h.get m) } := by
  refine View.ext ?_ ?_ (funext fun n' => ?_) ?_ ?_
  rotate_left 2
  · by_cases hn : n' = n
    · subst hn
      simp [view]
    · simp [view, Store.get_set_of_ne, hn]
  all_goals exact funext fun _ => by simp [view, Store.get_set_of_ne]

@[simp] theorem view_set_deadLetterQueue (t : String) (z : ZSet) :
    view (s.set (.deadLetterQueue t) z) m =
      { view s m with dead := Function.update (view s m).dead t (z.score? m).isSome } := by
  refine View.ext ?_ ?_ ?_ (funext fun t' => ?_) ?_
  rotate_left 3
  · by_cases ht : t' = t
    · subst ht
      simp [view]
    · simp [view, Store.get_set_of_ne, ht]
  all_goals exact funext fun _ => by simp [view, Store.get_set_of_ne]

@[simp] theorem view_set_deadLetterQueueData (t : String) (h : JsMap (Stored P)) :
    view (s.set (.deadLetterQueueData t) h) m =
      { view s m with deadData := Function.update (view s m).deadData t (h.get m) } := by
  refine View.ext ?_ ?_ ?_ ?_ (funext fun t' => ?_)
  rotate_left 4
  · by_cases ht : t' = t
    · subst ht
      simp [view]
    · simp [view, Store.get_set_of_ne, ht]
  all_goals exact funext fun _ => by simp [view, Store.get_set_of_ne]

/-- view に入らない key。 -/
theorem view_frame {α : Type} {U : Set (Sigma Key)} {p : Script P α} (hp : p.Uses U)
    (hq : ∀ q, ⟨_, .queue q⟩ ∉ U) (hi : ∀ q, ⟨_, .queueItems q⟩ ∉ U)
    (hd : ∀ n, ⟨_, .inflightData n⟩ ∉ U) (ht : ∀ t, ⟨_, .deadLetterQueue t⟩ ∉ U)
    (htd : ∀ t, ⟨_, .deadLetterQueueData t⟩ ∉ U) : view (p.run s).2 m = view s m := by
  refine View.ext ?_ ?_ ?_ ?_ ?_ <;> funext x
  · simp only [view, hp.frame (hq x)]
  · simp only [view, hp.frame (hi x)]
  · simp only [view, hp.frame (hd x)]
  · simp only [view, hp.frame (ht x)]
  · simp only [view, hp.frame (htd x)]

@[simp] theorem view_set_masterQueue (n : Nat) (z : ZSet) :
    view (s.set (.masterQueue n) z) m = view s m := by
  refine View.ext ?_ ?_ ?_ ?_ ?_ <;> exact funext fun _ => by simp [view, Store.get_set_of_ne]

@[simp] theorem view_set_inflight (n : Nat) (z : ZSet) :
    view (s.set (.inflight n) z) m = view s m := by
  refine View.ext ?_ ?_ ?_ ?_ ?_ <;> exact funext fun _ => by simp [view, Store.get_set_of_ne]

end Set

/-! ## 一つの書き込み -/

section Write

variable (s : Redis P) (q m m' t : String) (n : Nat)

theorem view_add_queue (x : ℚ) :
    view (s.set (.queue q) (SortedSet.add (s.get (.queue q)) m' x)) m =
      if m' = m then { view s m with queued := Function.update (view s m).queued q true }
      else view s m := by
  rw [view_set_queue, SortedSet.score?_add]
  by_cases h : m' = m
  · simp [h]
  · simp only [if_neg (Ne.symm h), if_neg h]
    exact View.ext (Function.update_eq_self q (view s m).queued) rfl rfl rfl rfl

theorem view_rem_queue :
    view (s.set (.queue q) (SortedSet.rem (s.get (.queue q)) m')) m =
      if m' = m then { view s m with queued := Function.update (view s m).queued q false }
      else view s m := by
  rw [view_set_queue, SortedSet.score?_rem]
  by_cases h : m' = m
  · simp [h]
  · simp only [if_neg (Ne.symm h), if_neg h]
    exact View.ext (Function.update_eq_self q (view s m).queued) rfl rfl rfl rfl

theorem view_set_items (p : Stored P) :
    view (s.set (.queueItems q) (JsMap.set (s.get (.queueItems q)) m' p)) m =
      if m' = m then { view s m with items := Function.update (view s m).items q (some p) }
      else view s m := by
  rw [view_set_queueItems, JsMap.get_set]
  by_cases h : m' = m
  · simp [h]
  · simp only [if_neg (Ne.symm h), if_neg h]
    exact View.ext rfl (Function.update_eq_self q (view s m).items) rfl rfl rfl

theorem view_delete_items :
    view (s.set (.queueItems q) (JsMap.delete (s.get (.queueItems q)) m')) m =
      if m' = m then { view s m with items := Function.update (view s m).items q none }
      else view s m := by
  rw [view_set_queueItems, JsMap.get_delete]
  by_cases h : m' = m
  · simp [h]
  · simp only [if_neg (Ne.symm h), if_neg h]
    exact View.ext rfl (Function.update_eq_self q (view s m).items) rfl rfl rfl

theorem view_set_data (p : Stored P) :
    view (s.set (.inflightData n) (JsMap.set (s.get (.inflightData n)) m' p)) m =
      if m' = m then { view s m with data := Function.update (view s m).data n (some p) }
      else view s m := by
  rw [view_set_inflightData, JsMap.get_set]
  by_cases h : m' = m
  · simp [h]
  · simp only [if_neg (Ne.symm h), if_neg h]
    exact View.ext rfl rfl (Function.update_eq_self n (view s m).data) rfl rfl

theorem view_delete_data :
    view (s.set (.inflightData n) (JsMap.delete (s.get (.inflightData n)) m')) m =
      if m' = m then { view s m with data := Function.update (view s m).data n none }
      else view s m := by
  rw [view_set_inflightData, JsMap.get_delete]
  by_cases h : m' = m
  · simp [h]
  · simp only [if_neg (Ne.symm h), if_neg h]
    exact View.ext rfl rfl (Function.update_eq_self n (view s m).data) rfl rfl

theorem view_add_dead (x : ℚ) :
    view (s.set (.deadLetterQueue t) (SortedSet.add (s.get (.deadLetterQueue t)) m' x)) m =
      if m' = m then { view s m with dead := Function.update (view s m).dead t true }
      else view s m := by
  rw [view_set_deadLetterQueue, SortedSet.score?_add]
  by_cases h : m' = m
  · simp [h]
  · simp only [if_neg (Ne.symm h), if_neg h]
    exact View.ext rfl rfl rfl (Function.update_eq_self t (view s m).dead) rfl

theorem view_set_deadData (p : Stored P) :
    view (s.set (.deadLetterQueueData t) (JsMap.set (s.get (.deadLetterQueueData t)) m' p)) m =
      if m' = m then { view s m with deadData := Function.update (view s m).deadData t (some p) }
      else view s m := by
  rw [view_set_deadLetterQueueData, JsMap.get_set]
  by_cases h : m' = m
  · simp [h]
  · simp only [if_neg (Ne.symm h), if_neg h]
    exact View.ext rfl rfl rfl rfl (Function.update_eq_self t (view s m).deadData)

end Write

/-! ## script -/

section Scripts

variable {s : Redis P} {q m m' : String} {n k : Nat}

theorem view_updateMasterQueue :
    view ((updateMasterQueue (.masterQueue k) (.queue q) q : Script P Unit).run s).2 m =
      view s m := by
  rw [run_updateMasterQueue]
  split
  · rfl
  · exact view_set_masterQueue ..

theorem view_claimOne (deadline : ℚ) :
    view ((claimOne (.queue q) (.queueItems q) (.inflight n) (.inflightData n) q deadline m' :
      Script P _).run s).2 m = if m' = m then (view s m).claim q n else view s m := by
  simp only [claimOne, Prog.run_bind, run_hget]
  rcases hp : JsMap.get (s.get (.queueItems q)) m' with _ | payload
  · simp only [Prog.run_bind, run_zrem, Prog.run_pure, view_rem_queue]
    split
    · next h =>
      subst h
      rw [View.claim_of_none hp]
    · rfl
  · simp only [Prog.run_bind, run_zrem, run_hdel, run_zadd, run_hset, Prog.run_pure, view_set_data,
      view_set_inflight, view_delete_items, view_rem_queue]
    split
    · next h =>
      subst h
      rw [View.claim_of_some hp]
    · rfl

theorem view_claimLoop (deadline : ℚ) : ∀ {ids : List String} {s : Redis P}, ids.Nodup →
    view ((claimLoop (.queue q) (.queueItems q) (.inflight n) (.inflightData n) q deadline ids :
      Script P _).run s).2 m = if m ∈ ids then (view s m).claim q n else view s m
  | [], _, _ => rfl
  | id :: rest, s, hnd => by
    obtain ⟨hid, hnd⟩ := List.nodup_cons.mp hnd
    simp only [claimLoop, Prog.run_bind, Prog.run_pure]
    rw [view_claimLoop deadline hnd, view_claimOne]
    by_cases h : id = m
    · subst h
      simp [hid]
    · simp [h, Ne.symm h]

theorem view_releaseOne (member : String) (score : ℚ) :
    view ((releaseOne (.inflight n) (.inflightData n) (.queue q) (.queueItems q) member m' score :
      Script P Nat).run s).2 m = if m' = m then (view s m).release q n else view s m := by
  simp only [releaseOne, Prog.run_bind, run_hget]
  rcases hp : JsMap.get (s.get (.inflightData n)) m' with _ | payload
  · simp only [Prog.run_pure]
    split
    · next h =>
      subst h
      rw [View.release_of_none hp]
    · rfl
  · simp only [Prog.run_bind, run_zrem, run_hdel, run_zadd, run_hset, Prog.run_pure, view_set_items,
      view_add_queue, view_delete_data, view_set_inflight]
    split
    · next h =>
      subst h
      rw [View.release_of_some hp]
      rfl
    · rfl

theorem view_releaseLoop (score : ℚ) : ∀ {messages : List (String × String)} {s : Redis P},
    view ((releaseLoop (.inflight n) (.inflightData n) (.queue q) (.queueItems q) score messages :
      Script P Nat).run s).2 m =
        if m ∈ messages.map Prod.snd then (view s m).release q n else view s m
  | [], _ => rfl
  | (member, id) :: rest, s => by
    simp only [releaseLoop, Prog.run_bind, Prog.run_pure]
    rw [view_releaseLoop score, view_releaseOne]
    by_cases h : id = m
    · subst h
      simp [View.release_release]
    · have hmem : m ∈ ((member, id) :: rest).map Prod.snd ↔ m ∈ rest.map Prod.snd := by
        rw [List.map_cons, List.mem_cons]
        exact or_iff_right (Ne.symm h)
      simp only [if_neg h, hmem]

theorem view_releaseMessage (member : String) (score : ℚ) :
    view ((releaseMessageLua (.inflight n) (.inflightData n) (.queue q) (.queueItems q)
      (.masterQueue k) member m' score q : Script P Nat).run s).2 m =
        if m' = m then (view s m).release q n else view s m := by
  simp only [releaseMessageLua, Prog.run_bind]
  split
  · exact view_releaseOne ..
  · rw [Prog.run_bind, Prog.run_pure, view_updateMasterQueue]
    exact view_releaseOne ..

theorem view_releaseMessageBatch (score : ℚ) (messages : List (String × String)) :
    view ((releaseMessageBatchLua (.inflight n) (.inflightData n) (.queue q) (.queueItems q)
      (.masterQueue k) score q messages : Script P Nat).run s).2 m =
        if m ∈ messages.map Prod.snd then (view s m).release q n else view s m := by
  simp only [releaseMessageBatchLua, Prog.run_bind]
  split
  · exact view_releaseLoop ..
  · rw [Prog.run_bind, Prog.run_pure, view_updateMasterQueue]
    exact view_releaseLoop ..

theorem view_enqueueLoop : ∀ {messages : List (String × ℚ × Stored P)} {s : Redis P},
    m ∉ messages.map Prod.fst →
    view ((enqueueLoop (.queue q) (.queueItems q) messages).run s).2 m = view s m
  | [], _, _ => rfl
  | (id, x, p) :: rest, s, h => by
    obtain ⟨hid, h⟩ := not_or.mp (mt List.mem_cons.mpr h)
    simp only [enqueueLoop, Prog.run_bind, run_zadd, run_hset]
    rw [view_enqueueLoop h, view_set_items, if_neg (Ne.symm hid), view_add_queue,
      if_neg (Ne.symm hid)]

end Scripts

/-! ## 一つの command -/

/-- message `m` の中身に関わる command。claim は、取る範囲で決まるので含めない。 -/
def Op.about (m : String) : Op P → Bool
  | .enqueueMessageAtomic message => message.id = m
  | .enqueueBatchAtomic _ messages => m ∈ messages.map StoredMessage.id
  | .reserve _ message rest => m ∈ (message :: rest).map Prod.fst
  | .push _ message rest => m ∈ (message :: rest).map Prod.fst
  | .releaseBatch _ messageIds => m ∈ messageIds
  | .getMessage _ _ m' _ => m' = m
  | .hdelInflightData m' _ => m' = m
  | .release m' .. => m' = m
  | .hsetItems _ message => message.id = m
  | .zaddDeadLetter _ m' _ => m' = m
  | .hsetDeadLetter _ message => message.id = m
  | .reclaimGet _ _ member => (parseMember member).1 = m
  | .reclaim _ _ member _ => (parseMember member).1 = m
  | .getDeadLetter _ _ m' => m' = m
  | .zremDeadLetter _ m' => m' = m
  | .hdelDeadLetter _ m' => m' = m
  | _ => false

section Ops

variable (options : FairQueueOptions P) (cache : Cache) (now : ℚ) {s : Redis P} {m : String}

theorem view_claimRange {op : Op P} {q : String} {stop : Int}
    (h : op.claimRange = some (q, stop)) :
    view ((op.prog options cache now).run s).2 m =
      if m ∈ takeTo stop (s.get (.queue q)) then (view s m).claim q (options.shardOf q)
      else view s m := by
  cases op with
  | claim queueId timeoutMs =>
    obtain ⟨rfl, rfl⟩ := Prod.mk.inj (Option.some.inj h)
    simp only [Op.prog, claimMessageLua, Prog.run_bind, run_zrange, Prog.run_pure]
    rcases htake : takeTo 0 (s.get (.queue queueId)) with _ | ⟨id, others⟩
    · rfl
    · have hlen := takeTo_zero_length (s.get (.queue queueId))
      rw [htake, List.length_cons] at hlen
      obtain rfl : others = [] := List.length_eq_zero_iff.mp (by omega)
      rw [Prog.run_bind, Prog.run_pure, view_claimOne]
      simp only [List.mem_singleton, eq_comm]
  | claimBatch call maxCount =>
    obtain ⟨rfl, rfl⟩ := Prod.mk.inj (Option.some.inj h)
    simp only [Op.prog, claimMessageBatchLua, Prog.run_bind, run_zrange, Prog.run_pure]
    exact view_claimLoop _ (takeTo_nodup _ _)
  | _ => cases h

/-- **`m` に関わらず、`m` を取らない command は、`m` の view を変えない。** -/
theorem view_of_not_about {op : Op P} (h : op.about m = false)
    (hc : ∀ r ∈ op.claimRange, m ∉ takeTo r.2 (s.get (.queue r.1))) :
    view ((op.prog options cache now).run s).2 m = view s m := by
  cases op with
  | claim queueId timeoutMs =>
    rw [view_claimRange options cache now rfl, if_neg (hc _ rfl)]
  | claimBatch call maxCount =>
    rw [view_claimRange options cache now rfl, if_neg (hc _ rfl)]
  | enqueueMessageAtomic message =>
    simp only [Op.prog, enqueueMessageAtomicLua, Prog.run_bind, run_zadd, run_hset, Prog.run_pure]
    rw [view_updateMasterQueue, view_set_items, if_neg (of_decide_eq_false h), view_add_queue,
      if_neg (of_decide_eq_false h)]
  | enqueueBatchAtomic queueId messages =>
    simp only [Op.prog, enqueueBatchAtomicLua, Prog.run_bind, Prog.run_pure]
    rw [view_updateMasterQueue, view_enqueueLoop]
    simpa [Op.about, Function.comp_def] using h
  | releaseBatch call messageIds =>
    simp only [Op.prog, Prog.run_bind, Prog.run_pure]
    rw [view_releaseMessageBatch, if_neg]
    simpa [Op.about, Function.comp_def] using h
  | release m' queueId delay =>
    simp only [Op.prog, Prog.run_bind, Prog.run_pure]
    rw [view_releaseMessage, if_neg (of_decide_eq_false h)]
  | reclaim shardId clock member score =>
    simp only [Op.prog, Prog.run_bind, Prog.run_pure]
    rw [view_releaseMessage, if_neg (of_decide_eq_false h)]
  | hdelInflightData m' queueId =>
    exact (view_delete_data ..).trans (if_neg (of_decide_eq_false h))
  | hsetItems queueId message =>
    exact (view_set_items ..).trans (if_neg (of_decide_eq_false h))
  | zaddDeadLetter tenantId m' score =>
    exact (view_add_dead ..).trans (if_neg (of_decide_eq_false h))
  | hsetDeadLetter tenantId message =>
    exact (view_set_deadData ..).trans (if_neg (of_decide_eq_false h))
  | getMessage inst purpose m' queueId =>
    simp only [Op.prog, Prog.run_bind, run_hget, Prog.run_pure]
  | reclaimGet shardId clock member =>
    simp only [Op.prog, Prog.run_bind, run_hget, Prog.run_pure]
  | getDeadLetter inst tenantId m' =>
    simp only [Op.prog, Prog.run_bind, run_hget]
    split <;> rfl
  | zremDeadLetter tenantId m' =>
    simp only [Op.prog, Prog.run_bind, run_zrem, Prog.run_pure]
    rw [view_set_deadLetterQueue, SortedSet.score?_rem,
      if_neg (Ne.symm (of_decide_eq_false h))]
    exact View.ext rfl rfl rfl (Function.update_eq_self tenantId (view s m).dead) rfl
  | hdelDeadLetter tenantId m' =>
    simp only [Op.prog, Prog.run_bind, run_hdel, Prog.run_pure]
    rw [view_set_deadLetterQueueData, JsMap.get_delete, if_neg (Ne.symm (of_decide_eq_false h))]
    exact View.ext rfl rfl rfl rfl (Function.update_eq_self tenantId (view s m).deadData)
  | updateMasterQueueIfEmpty inst shardId queueId =>
    simp only [Op.prog, updateMasterQueueIfEmptyLua, Prog.run_bind, run_zcard, Prog.run_pure]
    split
    · exact view_set_masterQueue ..
    · rw [Prog.run_bind, Prog.run_pure, view_updateMasterQueue]
  -- 残りの command は message の key に書かない
  | _ =>
    refine view_frame s m (Op.uses options cache now _) (fun _ => ?_) (fun _ => ?_) (fun _ => ?_)
      (fun _ => ?_) fun _ => ?_ <;> simp [Op.footprint, FairQueueOptions.groupKeys]

end Ops

/-! ## 保存された message の id -/

/-- message `m` の payload と data は、id が `m` である。 -/
structure View.Named (v : View P) (m : String) : Prop where
  items : ∀ q message, v.items q = some (.message message) → message.id = m
  data : ∀ n message, v.data n = some (.message message) → message.id = m

section Named

variable {v : View P} {m : String}

theorem View.Named.enqueue (h : v.Named m) (q : String) {p : Stored P}
    (hp : ∀ message, p = .message message → message.id = m) : (v.enqueue q p).Named m := by
  refine ⟨fun q' message hq => ?_, h.data⟩
  simp only [View.enqueue, Function.update_apply] at hq
  split at hq
  · exact hp message (Option.some.inj hq)
  · exact h.items q' message hq

theorem View.Named.claim (h : v.Named m) (q : String) (n : Nat) : (v.claim q n).Named m := by
  rcases hp : v.items q with _ | p
  · rw [View.claim_of_none hp]
    exact ⟨h.items, h.data⟩
  · rw [View.claim_of_some hp]
    refine ⟨fun q' message hq => ?_, fun n' message hn => ?_⟩
    · simp only [Function.update_apply] at hq
      split at hq
      · cases hq
      · exact h.items q' message hq
    · simp only [Function.update_apply] at hn
      split at hn
      · exact h.items q message (hp.trans hn)
      · exact h.data n' message hn

theorem View.Named.delete (h : v.Named m) (n : Nat) :
    View.Named { v with data := Function.update v.data n none } m := by
  refine ⟨h.items, fun n' message hn => ?_⟩
  simp only [Function.update_apply] at hn
  split at hn
  · cases hn
  · exact h.data n' message hn

theorem View.Named.release (h : v.Named m) (q : String) (n : Nat) : (v.release q n).Named m := by
  rcases hp : v.data n with _ | p
  · rw [View.release_of_none hp]
    exact h
  · rw [View.release_of_some hp]
    refine (h.delete n).enqueue q fun message hmessage => h.data n message ?_
    rw [hp, hmessage]

theorem named_enqueueLoop {q : String} : ∀ {messages : List (StoredMessage P)} {s : Redis P},
    (view s m).Named m → (view ((enqueueLoop (.queue q) (.queueItems q) (messages.map fun message =>
      (message.id, message.timestamp, .message message))).run s).2 m).Named m
  | [], _, h => h
  | message :: rest, s, h => by
    simp only [List.map_cons, enqueueLoop, Prog.run_bind, run_zadd, run_hset]
    refine named_enqueueLoop ?_
    rw [view_set_items, view_add_queue]
    split
    · next hid =>
      refine h.enqueue q fun message' hmessage => ?_
      rw [← Stored.message.inj hmessage, hid]
    · exact h

/-- どの command も、id の違う payload を作らない。 -/
theorem named_op (options : FairQueueOptions P) (cache : Cache) (now : ℚ) (op : Op P) {s : Redis P}
    (h : (view s m).Named m) : (view ((op.prog options cache now).run s).2 m).Named m := by
  cases op with
  | claim queueId timeoutMs =>
    rw [view_claimRange options cache now rfl]
    split
    · exact h.claim ..
    · exact h
  | claimBatch call maxCount =>
    rw [view_claimRange options cache now rfl]
    split
    · exact h.claim ..
    · exact h
  | enqueueMessageAtomic message =>
    simp only [Op.prog, enqueueMessageAtomicLua, Prog.run_bind, run_zadd, run_hset, Prog.run_pure]
    rw [view_updateMasterQueue]
    exact @named_enqueueLoop P m message.queueId [message] s h
  | enqueueBatchAtomic queueId messages =>
    simp only [Op.prog, enqueueBatchAtomicLua, Prog.run_bind, Prog.run_pure]
    rw [view_updateMasterQueue]
    exact named_enqueueLoop h
  | releaseBatch call messageIds =>
    simp only [Op.prog, Prog.run_bind, Prog.run_pure]
    rw [view_releaseMessageBatch]
    split
    · exact h.release ..
    · exact h
  | release m' queueId delay =>
    simp only [Op.prog, Prog.run_bind, Prog.run_pure]
    rw [view_releaseMessage]
    split
    · exact h.release ..
    · exact h
  | reclaim shardId clock member score =>
    simp only [Op.prog, Prog.run_bind, Prog.run_pure]
    rw [view_releaseMessage]
    split
    · exact h.release ..
    · exact h
  | hdelInflightData m' queueId =>
    simp only [Op.prog, Prog.run_bind, run_hdel, Prog.run_pure]
    rw [view_delete_data]
    split
    · exact h.delete _
    · exact h
  | hsetItems queueId message =>
    simp only [Op.prog, Prog.run_bind, run_hset, Prog.run_pure]
    rw [view_set_items]
    split
    · next hid =>
      refine ⟨(h.enqueue queueId fun message' hmessage => ?_).items, h.data⟩
      rw [← Stored.message.inj hmessage, hid]
    · exact h
  | getMessage inst purpose messageId queueId =>
    simp only [Op.prog, Prog.run_bind, run_hget, Prog.run_pure]
    exact h
  | reclaimGet shardId clock member =>
    simp only [Op.prog, Prog.run_bind, run_hget, Prog.run_pure]
    exact h
  | _ =>
    -- 残りの command は、payload にも data にも触れない。
    refine ⟨fun q message hq => h.items q message ?_, fun n message hn => h.data n message ?_⟩
    · rw [← hq]
      simp only [view]
      rw [Op.get_of_notMem]
      simp [Op.footprint, FairQueueOptions.groupKeys]
    · rw [← hn]
      simp only [view]
      rw [Op.get_of_notMem]
      simp [Op.footprint, FairQueueOptions.groupKeys]

/-- **どの実行でも、保存された message の id は、その key である。** -/
theorem named_exec (options : FairQueueOptions P) (ls : List (Label P)) (m : String) :
    (view (System.exec options ls).redis m).Named m :=
  System.redis_induction (I := fun s => (view s m).Named m) options
    ⟨(fun _ _ h => by cases h), (fun _ _ h => by cases h)⟩
    (fun _ cache now op h => named_op options cache now op h) ls

end Named

end FairQueue
