import Trigger.FairQueue.View

/-!
# message の段階

enqueue、claim、`failMessage` だけから成る実行では、一つの message は、enqueue の前から dead letter queue まで、
決まった段階を順に進む。段階 `Stage` は、配達の回数、`failMessage` の回数、message の view、その message に
関わる残りの command を一度に決める。

`m` に関わる command の一歩（`Stage.advance`）と、`m` を取る claim の一歩（`Stage.claim`）を除けば、ほかの一歩は
`m` に何もしない（`quiet`）。
-/

namespace FairQueue

open Infra Infra.Keyspace
open Infra.Redis (ZSet)

variable {P : Type}

/-! ## message の在りか -/

namespace View

/-- queue `q` だけにある。 -/
def inQueue (q : String) (p : Stored P) : View P := empty.enqueue q p

/-- in-flight `k` だけにある。 -/
def inFlight (k : Nat) (p : Stored P) : View P :=
  { (empty : View P) with data := Function.update empty.data k (some p) }

/-- tenant `t` の dead letter queue の zset だけにある。 -/
def inDead (t : String) : View P :=
  { (empty : View P) with dead := Function.update (empty : View P).dead t true }

/-- tenant `t` の dead letter queue だけにある。 -/
def deadLettered (t : String) (p : Stored P) : View P :=
  { (inDead t : View P) with deadData := Function.update empty.deadData t (some p) }

variable {q : String} {k : Nat} {p p' : Stored P}

theorem inQueue_claim : (inQueue q p).claim q k = inFlight k p := by
  rw [claim_of_some (p := p) (by simp [inQueue, enqueue])]
  refine View.ext ?_ ?_ rfl rfl rfl
  · simp [inQueue, inFlight, enqueue, empty]
  · simp [inQueue, inFlight, enqueue, empty]

theorem inFlight_release : (inFlight k p).release q k = inQueue q p := by
  rw [release_of_some (p := p) (by simp [inFlight])]
  refine View.ext rfl rfl ?_ rfl rfl
  simp [inQueue, inFlight, enqueue, empty]

theorem inFlight_delete :
    { inFlight k p with data := Function.update (inFlight k p).data k none } = (empty : View P) := by
  refine View.ext rfl rfl ?_ rfl rfl
  simp [inFlight, empty]

theorem inQueue_items :
    { inQueue q p with items := Function.update (inQueue q p).items q (some p') } =
      inQueue q p' := by
  refine View.ext rfl ?_ rfl rfl rfl
  simp [inQueue, enqueue]

theorem queued_inQueue {q' : String} : (inQueue q p).queued q' = true ↔ q' = q := by
  simp [inQueue, enqueue, empty, Function.update_apply]

end View

/-! ## task ごとの残り -/

/-- task `j` の残りのうち、message `m` に関わる command。 -/
def pending (tasks : List (List (Op P))) (m : String) (j : Nat) : List (Op P) :=
  (tasks.getD j []).filter (Op.about m)

section Pending

variable {tasks : List (List (Op P))} {m : String} {i j : Nat} {ops : List (Op P)}

theorem pending_of_getElem? (h : tasks[i]? = some ops) :
    pending tasks m i = ops.filter (Op.about m) := by
  simp [pending, h]

theorem pending_length : pending tasks m tasks.length = [] := by
  simp [pending]

theorem pending_start : pending (tasks ++ [ops]) m j =
    if j = tasks.length then ops.filter (Op.about m) else pending tasks m j := by
  split
  · next h =>
    subst h
    exact pending_of_getElem? (by simp)
  · next h =>
    rcases Nat.lt_or_gt_of_ne h with h | h
    · simp [pending, List.getElem?_append_left h]
    · have h' : tasks[j]? = none := List.getElem?_eq_none (by omega)
      have h'' : (tasks ++ [ops])[j]? = none := List.getElem?_eq_none (by simp; omega)
      simp [pending, h', h'']

theorem pending_set (hi : i < tasks.length) : pending (tasks.set i ops) m j =
    if j = i then ops.filter (Op.about m) else pending tasks m j := by
  split
  · next h =>
    subst h
    exact pending_of_getElem? (by simp [hi])
  · next h => simp [pending, Ne.symm h]

end Pending

/-! ## 段階 -/

/-- message `m` の、attempt `a` の payload である。 -/
structure Fits (st : StoredMessage P) (m q : String) (a : Nat) : Prop where
  id : st.id = m
  queueId : st.queueId = q
  attempt : st.attempt = a

/-- claim した message `x` を、まだ worker queue に入れていない command。 -/
inductive Carries (q : String) (x : String × StoredMessage P) : Op P → Prop
  | reserve (call : ClaimCall) (message : String × StoredMessage P)
      (rest : List (String × StoredMessage P)) (hq : call.queueId = q) (hx : x ∈ message :: rest)
      (hnodup : ((message :: rest).map Prod.fst).Nodup) : Carries q x (.reserve call message rest)
  | push (call : ClaimCall) (message : String × StoredMessage P)
      (rest : List (String × StoredMessage P)) (hq : call.queueId = q) (hx : x ∈ message :: rest)
      (hnodup : ((message :: rest).map Prod.fst).Nodup) : Carries q x (.push call message rest)
  | releaseBatch (call : ClaimCall) (messageIds : List String) (hq : call.queueId = q)
      (hx : x.1 ∈ messageIds) : Carries q x (.releaseBatch call messageIds)

/-- queue `q` に入れた message `m` の段階。添字は順に、配達の回数、`failMessage` の回数、view、残りの command。
`n` は配達の上限。 -/
inductive Stage (options : FairQueueOptions P) (n : Nat) (m q : String) :
    Nat → Nat → View P → List (Op P) → Prop
  | entering (st : StoredMessage P) (hst : Fits st m q 1) :
      Stage options n m q 0 0 .empty [.enqueueMessageAtomic st]
  | enteringBatch (st : StoredMessage P) (messages : List (StoredMessage P)) (hst : Fits st m q 1)
      (hmem : st ∈ messages) (hnodup : (messages.map StoredMessage.id).Nodup) :
      Stage options n m q 0 0 .empty [.enqueueBatchAtomic q messages]
  | queued (d : Nat) (st : StoredMessage P) (hst : Fits st m q (d + 1)) (hd : d < n) :
      Stage options n m q d d (.inQueue q (.message st)) []
  | claimed (d : Nat) (st : StoredMessage P) (hst : Fits st m q (d + 1)) (hd : d < n) (op : Op P)
      (hop : Carries q (m, st) op) :
      Stage options n m q d d (.inFlight (options.shardOf q) (.message st)) [op]
  | delivered (d : Nat) (st : StoredMessage P) (hst : Fits st m q (d + 1)) (hd : d < n) :
      Stage options n m q (d + 1) d (.inFlight (options.shardOf q) (.message st)) []
  | failing (d : Nat) (st : StoredMessage P) (hst : Fits st m q (d + 1)) (hd : d < n) (inst : Nat)
      (error : Option String) :
      Stage options n m q (d + 1) (d + 1) (.inFlight (options.shardOf q) (.message st))
        [.getMessage inst (.fail error) m q]
  | releasing (d : Nat) (st : StoredMessage P) (hst : Fits st m q (d + 1)) (hd : d + 1 < n)
      (delay : ℚ) :
      Stage options n m q (d + 1) (d + 1) (.inFlight (options.shardOf q) (.message st))
        [.release m q delay, .hsetItems q { st with attempt := d + 2 }]
  | released (d : Nat) (st : StoredMessage P) (hst : Fits st m q (d + 1)) (hd : d + 1 < n) :
      Stage options n m q (d + 1) (d + 1) (.inQueue q (.message st))
        [.hsetItems q { st with attempt := d + 2 }]
  | dying (st : StoredMessage P) (t : String) (x : ℚ) (dead : DeadLetterMessage P)
      (hdead : dead.id = m) :
      Stage options n m q n n (.inFlight (options.shardOf q) (.message st))
        [.hdelInflightData m q, .zaddDeadLetter t m x, .hsetDeadLetter t dead]
  | gone (t : String) (x : ℚ) (dead : DeadLetterMessage P) (hdead : dead.id = m) :
      Stage options n m q n n .empty [.zaddDeadLetter t m x, .hsetDeadLetter t dead]
  | half (t : String) (dead : DeadLetterMessage P) (hdead : dead.id = m) :
      Stage options n m q n n (.inDead t) [.hsetDeadLetter t dead]
  | dead (t : String) (dead : DeadLetterMessage P) (hdead : dead.id = m) :
      Stage options n m q n n (.deadLettered t (.deadLetter dead)) []

/-! ## `m` に関わる command の一歩 -/

section Filter

variable {options : FairQueueOptions P} {m q : String}

theorem filter_releaseSlots (queue : QueueDescriptor) (m' : String) :
    (options.releaseSlots queue m').filter (Op.about m) = [] := by
  simp [FairQueueOptions.releaseSlots, Op.about]

theorem filter_claimNext (options : FairQueueOptions P) {call : ClaimCall} {messages : List (String × StoredMessage P)}
    {st : StoredMessage P} (hq : call.queueId = q) (hx : (m, st) ∈ messages)
    (hnodup : (messages.map Prod.fst).Nodup) :
    ∃ op, (options.claimNext call messages).filter (Op.about m) = [op] ∧ Carries q (m, st) op := by
  rcases messages with _ | ⟨message, rest⟩
  · cases hx
  · have hmem : m ∈ (message :: rest).map Prod.fst := List.mem_map_of_mem hx
    simp only [FairQueueOptions.claimNext]
    split
    · exact ⟨_, List.filter_cons_of_pos (decide_eq_true hmem), .push call message rest hq hx hnodup⟩
    · exact ⟨_, List.filter_cons_of_pos (decide_eq_true hmem),
        .reserve call message rest hq hx hnodup⟩

theorem filter_claimNext_of_notMem {call : ClaimCall} {messages : List (String × StoredMessage P)}
    (h : m ∉ messages.map Prod.fst) : (options.claimNext call messages).filter (Op.about m) = [] := by
  rcases messages with _ | ⟨message, rest⟩
  · rfl
  · simp only [FairQueueOptions.claimNext]
    split <;> exact List.filter_cons_of_neg (by simpa [Op.about] using h)

end Filter

section Advance

variable {options : FairQueueOptions P} {s : Redis P} {m q : String} {n d f : Nat}
variable (cache : Cache) (now : ℚ)

theorem view_enqueueLoop_of_mem {st : StoredMessage P} : ∀ {messages : List (StoredMessage P)}
    {s : Redis P}, st ∈ messages → (messages.map StoredMessage.id).Nodup →
    view ((enqueueLoop (.queue q) (.queueItems q) (messages.map fun message =>
      (message.id, message.timestamp, .message message))).run s).2 st.id =
        (view s st.id).enqueue q (.message st)
  | message :: rest, s, hmem, hnodup => by
    obtain ⟨hid, hnodup⟩ := List.nodup_cons.mp hnodup
    simp only [List.map_cons, enqueueLoop, Prog.run_bind, run_zadd, run_hset]
    rcases List.mem_cons.mp hmem with rfl | hmem
    · rw [view_enqueueLoop (by simpa [Function.comp_def] using hid), view_set_items, if_pos rfl,
        view_add_queue, if_pos rfl]
      rfl
    · have hne : message.id ≠ st.id := fun e => hid (e ▸ List.mem_map_of_mem hmem)
      rw [view_enqueueLoop_of_mem hmem hnodup, view_set_items, if_neg hne, view_add_queue, if_neg hne]

/-- 回数が上限に達していなければ delay を返し、達していれば返さない。 -/
def Retries (options : FairQueueOptions P) (n : Nat) : Prop :=
  ∀ attempt error, 1 ≤ attempt →
    ((options.getNextDelay.bind fun next => next attempt error).isSome = true ↔ attempt < n)

/-- `failMessage` が in-flight の data を読んだ後。 -/
theorem Stage.failed (hretry : Retries options n) (hdlq : options.deadLetterQueue = true)
    {st : StoredMessage P} (hst : Fits st m q (d + 1)) (hd : d < n) (inst : Nat)
    (error : Option String) :
    Stage options n m q (d + 1) (d + 1) (.inFlight (options.shardOf q) (.message st))
      ((options.afterGet cache now inst m q (some st) (.fail error)).filter (Op.about m)) := by
  obtain ⟨rfl, rfl, hattempt⟩ := hst
  have hnext := hretry (d + 1) error (by omega)
  simp only [FairQueueOptions.afterGet, FairQueueOptions.handleMessageFailure, hattempt]
  rcases hdelay : options.getNextDelay.bind fun next => next (d + 1) error with _ | delay
  · rw [hdelay] at hnext
    obtain rfl : d + 1 = n := by
      have : ¬ d + 1 < n := fun h => by simpa using hnext.mpr h
      omega
    simp only [FairQueueOptions.moveToDeadLetterQueue, hdlq, if_true, filter_releaseSlots,
      List.filter_cons, Op.about, Bool.false_eq_true, if_false, decide_true, List.cons_append, List.nil_append]
    exact .dying st st.tenantId now _ rfl
  · rw [hdelay] at hnext
    simp only [List.filter_append, filter_releaseSlots, List.append_nil]
    simpa [Op.about] using Stage.releasing d st ⟨rfl, rfl, hattempt⟩ (hnext.mp rfl) delay

/-- command の結果から、message `m` の残りを作る。 -/
def Outcome.pending (out : Outcome P) (m : String) (rest : List (Op P)) : List (Op P) :=
  out.front.filter (Op.about m) ++ rest ++ out.back.filter (Op.about m)

/-- この command による message `m` の配達の回数。 -/
def Outcome.pushes (out : Outcome P) (m : String) : Nat :=
  if out.event = some (.pushed m) then 1 else 0

theorem Outcome.pending_cons {out : Outcome P} {op : Op P} (hfront : out.front = [op])
    (hback : out.back = []) (hop : op.about m = true) (rest : List (Op P)) :
    out.pending m rest = op :: rest := by
  simp [Outcome.pending, hfront, hback, hop]

theorem Outcome.pending_eq {out : Outcome P} (hfront : out.front.filter (Op.about m) = [])
    (hback : out.back.filter (Op.about m) = []) (rest : List (Op P)) :
    out.pending m rest = rest := by
  simp [Outcome.pending, hfront, hback]

theorem Outcome.add_pushes {out : Outcome P} (h : out.event ≠ some (.pushed m)) :
    d + out.pushes m = d := by
  simp [Outcome.pushes, h]

theorem Stage.congr {v : View P} {L L' : List (Op P)} {d' : Nat} (h : Stage options n m q d f v L)
    (hd : d' = d) (hL : L' = L) : Stage options n m q d' f v L' := by
  rw [hd, hL]
  exact h

/-- 何も続けない command は、残りを減らすだけである。 -/
theorem Stage.silent {v : View P} {rest : List (Op P)} (h : Stage options n m q d f v rest)
    {out : Outcome P} (hfront : out.front = []) (hback : out.back = [])
    (hevent : out.event ≠ some (.pushed m)) :
    Stage options n m q (d + out.pushes m) f v (out.pending m rest) :=
  h.congr (Outcome.add_pushes hevent) (Outcome.pending_eq (by rw [hfront]; rfl) (by rw [hback]; rfl) _)

/-- claim した message の一歩。 -/
theorem Stage.carried {st : StoredMessage P} (hst : Fits st m q (d + 1)) (hd : d < n) {op : Op P}
    (hop : Carries q (m, st) op)
    (hv : view s m = .inFlight (options.shardOf q) (.message st)) {r : Outcome P × Redis P}
    (hr : (op.prog options cache now).run s = r) :
    Stage options n m q (d + r.1.pushes m) d (view r.2 m) (r.1.pending m []) := by
  have hy := op.yields options cache now s
  rw [hr] at hy
  obtain ⟨out, s'⟩ := r
  -- claim した batch は、確保、一つずつの引き渡し、残りの返却のどれかにある
  cases hop with
  | reserve call message rest hq hx hnodup =>
    have hview : view s' m = view s m := by
      rw [show s' = _ from (congrArg Prod.snd hr).symm]
      refine view_frame s m (Op.uses options cache now _) (fun _ => ?_) (fun _ => ?_) (fun _ => ?_)
        (fun _ => ?_) fun _ => ?_ <;> simp [Op.footprint, FairQueueOptions.groupKeys]
    have hmem : m ∈ (message :: rest).map Prod.fst := List.mem_map_of_mem hx
    rw [hview, hv]
    cases hy with
    | idle hop c => cases hop
    | reserved call message rest hfree hadd =>
      have hop : (Op.push call message rest).about m = true := decide_eq_true hmem
      exact Stage.congr (.claimed d st hst hd _ (.push call message rest hq hx hnodup))
        (Outcome.add_pushes (by simp)) (Outcome.pending_cons rfl rfl hop [])
    | full call message rest =>
      have hop : (Op.releaseBatch call (message.1 :: rest.map Prod.fst) : Op P).about m = true :=
        decide_eq_true hmem
      exact Stage.congr (.claimed d st hst hd _ (.releaseBatch call _ hq hmem))
        (Outcome.add_pushes (by simp)) (Outcome.pending_cons rfl rfl hop [])
  | push call message rest hq hx hnodup =>
    have hview : view s' m = view s m := by
      rw [show s' = _ from (congrArg Prod.snd hr).symm]
      refine view_frame s m (Op.uses options cache now _) (fun _ => ?_) (fun _ => ?_) (fun _ => ?_)
        (fun _ => ?_) fun _ => ?_ <;> simp [Op.footprint]
    obtain ⟨hnotMem, hnodup⟩ := List.nodup_cons.mp hnodup
    rw [hview, hv]
    cases hy with
    | idle hop c => cases hop
    | push call message rest =>
      rcases List.mem_cons.mp hx with rfl | hx
      · exact Stage.congr (.delivered d st hst hd) (by simp [Outcome.pushes])
          (Outcome.pending_eq (filter_claimNext_of_notMem hnotMem) rfl [])
      · have hne : message.1 ≠ m := fun e => hnotMem (e ▸ List.mem_map_of_mem hx)
        obtain ⟨op, hfilter, hop⟩ := filter_claimNext options hq hx hnodup
        exact Stage.congr (.claimed d st hst hd op hop)
          (Outcome.add_pushes (by simpa using hne)) (by simp [Outcome.pending, hfilter])
  | releaseBatch call messageIds hq hx =>
    subst hq
    simp only [Op.prog, Prog.run_bind, Prog.run_pure] at hr
    obtain ⟨rfl, rfl⟩ := Prod.mk.inj hr
    have hmem : m ∈ (messageIds.map fun m => (makeMember m call.queueId, m)).map Prod.snd := by
      simpa [Function.comp_def] using hx
    rw [view_releaseMessageBatch, if_pos hmem, hv, View.inFlight_release]
    exact .queued d st hst hd

/-- **message `m` に関わる command は、段階を一つ進める。** -/
theorem Stage.advance (hn : 0 < n) (hretry : Retries options n)
    (hdlq : options.deadLetterQueue = true)
    {op : Op P} {rest : List (Op P)} (h : Stage options n m q d f (view s m) (op :: rest))
    {r : Outcome P × Redis P} (hr : (op.prog options cache now).run s = r) :
    Stage options n m q (d + r.1.pushes m) f (view r.2 m) (r.1.pending m rest) := by
  obtain ⟨out, s'⟩ := r
  generalize hv : view s m = v at h
  generalize hL : op :: rest = L at h
  -- 段階が決まると、先頭の command も決まる。
  cases h with
  | entering st hst =>
    obtain ⟨rfl, rfl⟩ := List.cons.inj hL
    obtain ⟨rfl, rfl, hattempt⟩ := hst
    simp only [Op.prog, enqueueMessageAtomicLua, Prog.run_bind, run_zadd, run_hset,
      Prog.run_pure] at hr
    obtain ⟨rfl, rfl⟩ := Prod.mk.inj hr
    rw [view_updateMasterQueue, view_set_items, if_pos rfl, view_add_queue, if_pos rfl, hv]
    exact Stage.silent (.queued 0 st ⟨rfl, rfl, hattempt⟩ hn) rfl rfl (by simp)
  | enteringBatch st messages hst hmem hnodup =>
    obtain ⟨rfl, rfl⟩ := List.cons.inj hL
    obtain ⟨rfl, rfl, hattempt⟩ := hst
    simp only [Op.prog, enqueueBatchAtomicLua, Prog.run_bind, Prog.run_pure] at hr
    obtain ⟨rfl, rfl⟩ := Prod.mk.inj hr
    rw [view_updateMasterQueue, view_enqueueLoop_of_mem hmem hnodup, hv]
    exact Stage.silent (.queued 0 st ⟨rfl, rfl, hattempt⟩ hn) rfl rfl (by simp)
  | queued d st hst hd => cases hL
  | claimed d st hst hd op' hop =>
    obtain ⟨rfl, rfl⟩ := List.cons.inj hL
    exact Stage.carried cache now hst hd hop hv hr
  | delivered d st hst hd => cases hL
  | failing d st hst hd inst error =>
    obtain ⟨rfl, rfl⟩ := List.cons.inj hL
    simp only [Op.prog, Prog.run_bind, run_hget, Prog.run_pure] at hr
    obtain ⟨rfl, rfl⟩ := Prod.mk.inj hr
    have hdata : JsMap.get (s.get (.inflightData (options.shardOf q))) m = some (.message st) := by
      simpa [View.inFlight, view] using congrFun (congrArg View.data hv) (options.shardOf q)
    rw [hv, hdata]
    exact Stage.congr (Stage.failed cache now hretry hdlq hst hd inst error)
      (Outcome.add_pushes (by simp)) (by simp [Outcome.pending, Stored.message?])
  | releasing d st hst hd delay =>
    obtain ⟨rfl, rfl⟩ := List.cons.inj hL
    simp only [Op.prog, Prog.run_bind, Prog.run_pure] at hr
    obtain ⟨rfl, rfl⟩ := Prod.mk.inj hr
    rw [view_releaseMessage, if_pos rfl, hv, View.inFlight_release]
    exact Stage.silent (.released d st hst hd) rfl rfl (by simp)
  | released d st hst hd =>
    obtain ⟨rfl, rfl⟩ := List.cons.inj hL
    obtain ⟨rfl, hqueue, -⟩ := hst
    simp only [Op.prog, Prog.run_bind, run_hset, Prog.run_pure] at hr
    obtain ⟨rfl, rfl⟩ := Prod.mk.inj hr
    rw [view_set_items, if_pos rfl, hv, View.inQueue_items]
    exact Stage.silent (.queued (d + 1) { st with attempt := d + 2 } ⟨rfl, hqueue, rfl⟩ hd) rfl rfl
      (by simp)
  | dying st t x dead hdead =>
    obtain ⟨rfl, rfl⟩ := List.cons.inj hL
    simp only [Op.prog, Prog.run_bind, run_hdel, Prog.run_pure] at hr
    obtain ⟨rfl, rfl⟩ := Prod.mk.inj hr
    rw [view_delete_data, if_pos rfl, hv, View.inFlight_delete]
    exact Stage.silent (.gone t x dead hdead) rfl rfl (by simp)
  | gone t x dead hdead =>
    obtain ⟨rfl, rfl⟩ := List.cons.inj hL
    simp only [Op.prog, Prog.run_bind, run_zadd, Prog.run_pure] at hr
    obtain ⟨rfl, rfl⟩ := Prod.mk.inj hr
    rw [view_add_dead, if_pos rfl, hv]
    exact Stage.silent (.half t dead hdead) rfl rfl (by simp)
  | half t dead hdead =>
    obtain ⟨rfl, rfl⟩ := List.cons.inj hL
    simp only [Op.prog, Prog.run_bind, run_hset, Prog.run_pure] at hr
    obtain ⟨rfl, rfl⟩ := Prod.mk.inj hr
    rw [view_set_deadData, if_pos hdead, hv]
    exact Stage.silent (.dead t dead hdead) rfl rfl (by simp)
  | dead t dead hdead => cases hL

/-- queue にある message は、claim を待っているか、`failMessage` が payload を書き直す前である。 -/
theorem Stage.queued_cases {v : View P} {L : List (Op P)} {q' : String}
    (h : Stage options n m q d f v L) (hq : v.queued q' = true) :
    q' = q ∧ (L = [] ∨ ∃ st : StoredMessage P, st.id = m ∧ L = [.hsetItems q st]) := by
  cases h with
  | queued d st hst hd => exact ⟨View.queued_inQueue.mp hq, .inl rfl⟩
  | released d st hst hd => exact ⟨View.queued_inQueue.mp hq, .inr ⟨{ st with attempt := d + 2 }, hst.id, rfl⟩⟩
  | _ => cases hq

/-- **message `m` を取る claim の一歩。** -/
theorem Stage.claim {call : ClaimCall} {maxCount : Nat}
    (h : Stage options n m q d f (view s m) [])
    (hm : m ∈ takeTo (maxCount - 1) (s.get (.queue call.queueId))) {r : Outcome P × Redis P}
    (hr : ((Op.claimBatch call maxCount).prog options cache now).run s = r) :
    Stage options n m q (d + r.1.pushes m) f (view r.2 m) (r.1.pending m []) := by
  obtain ⟨out, s'⟩ := r
  have hview : view s' m = (view s m).claim call.queueId (options.shardOf call.queueId) := by
    rw [show s' = _ from (congrArg Prod.snd hr).symm, view_claimRange options cache now rfl,
      if_pos hm]
  have hqueued : (view s m).queued call.queueId = true :=
    Option.isSome_iff_ne_none.mpr (score?_of_mem_takeTo hm)
  obtain ⟨rfl, -⟩ := h.queued_cases hqueued
  have hy := (Op.claimBatch call maxCount).yields options cache now s
  rw [hr] at hy
  generalize hv : view s m = v at h
  generalize hL : ([] : List (Op P)) = L at h
  cases h with
  | queued d st hst hd =>
    have hitems : JsMap.get (s.get (.queueItems call.queueId)) m = some (.message st) := by
      simpa [View.inQueue, View.enqueue, view] using
        congrFun (congrArg View.items hv) call.queueId
    rw [hview, hv, View.inQueue_claim]
    cases hy with
    | idle hop c => cases hop
    | claimNone call maxCount ids hids hnone => exact absurd hitems (hnone m hm st)
    | claimBatch call maxCount ids messages hids hmessages hnodup =>
      obtain ⟨op, hfilter, hop⟩ := filter_claimNext options rfl
        ((hmessages (m, st)).mpr ⟨hm, hitems⟩) hnodup
      exact Stage.congr (.claimed d st hst hd op hop) (Outcome.add_pushes (by simp))
        (by simp [Outcome.pending, hfilter])
  | delivered d st hst hd =>
    rw [hv] at hqueued
    cases hqueued
  | dead t dead hdead =>
    rw [hv] at hqueued
    cases hqueued
  | _ => cases hL

end Advance

/-! ## ほかの command -/

/-- enqueue、`#claimAndPushToWorkerQueue`、`failMessage` の command。 -/
def Op.plain : Op P → Bool
  | .claim .. | .reclaimScan .. | .reclaimGet .. | .reclaim .. | .heartbeat .. | .getDeadLetter ..
  | .zremDeadLetter .. | .hdelDeadLetter .. | .getMessage _ .complete .. | .getMessage _ .release ..
    => false
  | _ => true

section Quiet

variable {options : FairQueueOptions P} {cache : Cache} {now : ℚ} {s s' : Redis P} {op : Op P}
variable {out : Outcome P} {m : String}

theorem plain_claimNext {call : ClaimCall} {messages : List (String × StoredMessage P)} :
    ∀ op ∈ options.claimNext call messages, op.plain = true := by
  rcases messages with _ | ⟨message, rest⟩
  · simp [FairQueueOptions.claimNext]
  · simp only [FairQueueOptions.claimNext]
    split <;> simp [Op.plain]

theorem plain_afterGet_fail (m : String) {inst : Nat} {error : Option String} {q : String}
    {stored : Option (StoredMessage P)} :
    ∀ op ∈ options.afterGet cache now inst m q stored (.fail error), op.plain = true := by
  rcases stored with _ | message
  · simp [FairQueueOptions.afterGet]
  · simp only [FairQueueOptions.afterGet, FairQueueOptions.handleMessageFailure,
      FairQueueOptions.moveToDeadLetterQueue, FairQueueOptions.releaseSlots]
    split
    · simp [Op.plain]
    · split <;> simp [Op.plain]

/-- これらの command からは、これらの command だけが続く。 -/
theorem Yields.plain (h : Yields options cache now s s' op out) (hop : op.plain = true) :
    ∀ op' ∈ out.front ++ out.back, op'.plain = true := by
  cases h with
  | claimBatch call maxCount ids messages hids hmessages hnodup =>
    rw [List.append_nil]
    exact plain_claimNext
  | push call message rest =>
    rw [List.append_nil]
    exact plain_claimNext
  | getMessage inst purpose messageId queueId =>
    rw [List.append_nil]
    cases purpose with
    | complete => cases hop
    | release => cases hop
    | fail error => exact plain_afterGet_fail messageId
  | claim q timeoutMs ids hids => cases hop
  | scan shardId members hmembers => cases hop
  | reclaimGet shardId clock member score queue => cases hop
  | reclaimed shardId clock member score released => cases hop
  | extended messageId queueId hscore => cases hop
  | redrive inst tenantId messageId message c => cases hop
  | _ => simp [Op.plain]

theorem filter_afterGet_fail (m' : String) {inst : Nat} {error : Option String} {q : String}
    {stored : Option (StoredMessage P)} (hid : ∀ message ∈ stored, message.id ≠ m) :
    (options.afterGet cache now inst m' q stored (.fail error)).filter (Op.about m) = [] := by
  rcases stored with _ | message
  · rfl
  · have hid := hid message rfl
    simp only [FairQueueOptions.afterGet, FairQueueOptions.handleMessageFailure,
      FairQueueOptions.moveToDeadLetterQueue]
    split
    · simp [filter_releaseSlots, Op.about, hid]
    · split <;> simp [filter_releaseSlots, Op.about, hid]

/-- **message `m` に関わらず、`m` を取らない command からは、`m` に関わる command は続かない。** -/
theorem Yields.quiet (h : Yields options cache now s s' op out) (hplain : op.plain = true)
    (hop : op.about m = false) (hc : ∀ r ∈ op.claimRange, m ∉ takeTo r.2 (s.get (.queue r.1)))
    (hid : ∀ inst error m' q message, op = .getMessage inst (.fail error) m' q →
      JsMap.get (s.get (.inflightData (options.shardOf q))) m' = some (.message message) →
      message.id = m') :
    out.front.filter (Op.about m) = [] ∧ out.back.filter (Op.about m) = [] ∧
      out.event ≠ some (.pushed m) := by
  cases h with
  | claimBatch call maxCount ids messages hids hmessages hnodup =>
    refine ⟨filter_claimNext_of_notMem fun hm => ?_, rfl, by simp⟩
    obtain ⟨x, hx, rfl⟩ := List.mem_map.mp hm
    exact hc _ rfl ((hmessages x).mp hx).1
  | reserved call message rest hfree hadd =>
    exact ⟨List.filter_cons_of_neg (ne_true_of_eq_false hop), rfl, by simp⟩
  | full call message rest =>
    exact ⟨List.filter_cons_of_neg (ne_true_of_eq_false hop), rfl, by simp⟩
  | push call message rest =>
    have hm := of_decide_eq_false hop
    rw [List.map_cons, List.mem_cons, not_or] at hm
    exact ⟨filter_claimNext_of_notMem hm.2, rfl, by simpa [eq_comm] using hm.1⟩
  | getMessage inst purpose messageId queueId =>
    refine ⟨?_, rfl, by simp⟩
    cases purpose with
    | complete => cases hplain
    | release => cases hplain
    | fail error =>
      refine filter_afterGet_fail messageId fun message hmessage heq => of_decide_eq_false hop ?_
      obtain ⟨stored, hget, hstored⟩ := Option.bind_eq_some_iff.mp hmessage
      rcases stored with message' | dead | x
      · obtain rfl := Option.some.inj hstored
        exact (hid inst error messageId queueId message' rfl hget).symm.trans heq
      · cases hstored
      · cases hstored
  | claim q timeoutMs ids hids => cases hplain
  | scan shardId members hmembers => cases hplain
  | reclaimGet shardId clock member score queue => cases hplain
  | reclaimed shardId clock member score released => cases hplain
  | extended messageId queueId hscore => cases hplain
  | redrive inst tenantId messageId message c => cases hplain
  | _ => simp [Op.about]

end Quiet

end FairQueue
