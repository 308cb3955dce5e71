import Trigger.FairQueue.Slots
import Trigger.FairQueue.View

/-!
# slot を取る descriptor と返す descriptor

slot を取る側は、instance の `queueDescriptorCache` か、metadata の無い descriptor を使う（`claimDescriptor`）。返す側は、
`completeMessage`・`releaseMessage`・`failMessage` では返す instance の cache か保存された message、reclaim では
保存された message だけを使う。metadata を読む group では、二つの descriptor の group が異なることがある
（`slot_leaked`）。

返し終えた後に message がどの集合にも無いのは、取る側の key が全て返す側の key に含まれるとき、そのときに限る
（`slots_released_iff`）。
-/

namespace FairQueue

open Infra Infra.Keyspace
open Infra.Redis (ZSet)

variable {P : Type}

/-! ## descriptor -/

/-- `#claimAndPushToWorkerQueue` が slot を取る先の descriptor。 -/
def claimDescriptor (cache : Cache) (inst : Nat) (queueId tenantId : String) : QueueDescriptor :=
  (cache inst queueId).getD { id := queueId, tenantId := tenantId, metadata := [] }

/-- command が運ぶ `#claimAndPushToWorkerQueue` の呼び出し。 -/
def Op.call? : Op P → Option ClaimCall
  | .scard call .. | .claimBatch call _ | .reserve call .. | .push call .. | .releaseBatch call _ =>
    some call
  | _ => none

theorem call_claimStart {options : FairQueueOptions P} {s : System P} {inst : Nat}
    {queueId tenantId : String} {shardId : Nat} {op : Op P} {call : ClaimCall}
    (hop : op ∈ s.claimStart options inst queueId tenantId shardId) (hcall : op.call? = some call) :
    call.descriptor = claimDescriptor s.cache inst queueId tenantId := by
  simp only [System.claimStart] at hop
  split at hop
  · obtain rfl := List.mem_singleton.mp hop
    rw [← Option.some.inj hcall]
    rfl
  · obtain rfl := List.mem_singleton.mp hop
    rw [← Option.some.inj hcall]
    rfl

theorem call_claimNext {options : FairQueueOptions P} {call : ClaimCall}
    {messages : List (String × StoredMessage P)} {op : Op P}
    (h : op ∈ options.claimNext call messages) : op.call? = some call := by
  rcases messages with _ | ⟨message, rest⟩
  · cases h
  · simp only [FairQueueOptions.claimNext] at h
    split at h
    · obtain rfl := List.mem_singleton.mp h
      rfl
    · obtain rfl := List.mem_singleton.mp h
      rfl

/-- 後に続く command は、同じ呼び出しのものである。 -/
theorem Yields.call_eq {options : FairQueueOptions P} {cache : Cache} {now : ℚ} {s s' : Redis P}
    {op op' : Op P} {out : Outcome P} {call : ClaimCall}
    (h : Yields options cache now s s' op out) (hmem : op' ∈ out.front ++ out.back)
    (hcall : op'.call? = some call) : op.call? = some call := by
  have hclosing : op'.closing = false := by
    cases op' with
    | scard | claimBatch | reserve | push | releaseBatch => rfl
    | _ => cases hcall
  cases h with
  | claimBatch call' maxCount ids messages hids hmessages hnodup =>
    rw [List.append_nil] at hmem
    exact (call_claimNext hmem).symm.trans hcall
  | push call' message rest =>
    rw [List.append_nil] at hmem
    exact (call_claimNext hmem).symm.trans hcall
  | scard | capacity | reserved | full =>
    obtain rfl := List.mem_singleton.mp hmem
    exact hcall
  | claimNone =>
    obtain rfl := List.mem_singleton.mp hmem
    cases hcall
  | getMessage inst purpose messageId queueId =>
    rw [List.append_nil] at hmem
    rw [closing_afterGet options cache now hmem] at hclosing
    cases hclosing
  | scan shardId members hmembers =>
    rw [List.append_nil] at hmem
    obtain ⟨e, -, rfl⟩ := List.mem_map.mp hmem
    cases hcall
  | reclaimGet shardId clock member score queue =>
    rcases List.mem_append.mp hmem with hmem | hmem
    · obtain rfl := List.mem_singleton.mp hmem
      cases hcall
    · rw [closing_releaseSlots options hmem] at hclosing
      cases hclosing
  | redrive inst tenantId messageId message c =>
    simp only [List.append_nil, List.mem_cons, List.not_mem_nil, or_false] at hmem
    rcases hmem with rfl | rfl | rfl <;> cases hcall
  | _ => cases hmem

/-- 一歩の後に残っている呼び出しは、前からのものか、いま始めたものである。 -/
theorem call_step (options : FairQueueOptions P) (s : System P) (l : Label P) {ops : List (Op P)}
    {op : Op P} {call : ClaimCall} (hops : ops ∈ (s.step options l).tasks) (hop : op ∈ ops)
    (hcall : op.call? = some call) :
    (∃ ops' ∈ s.tasks, ∃ op' ∈ ops', op'.call? = some call) ∨
      ∃ inst queueId tenantId shardId, l = .claimAndPush inst queueId tenantId shardId ∧
        call.descriptor = claimDescriptor s.cache inst queueId tenantId := by
  -- 新しく始めた method には、呼び出しの command が無い。
  have hstart : ∀ {op₀ : Op P}, ops ∈ s.tasks ++ [[op₀]] → op₀.call? = none →
      ∃ ops' ∈ s.tasks, ∃ op' ∈ ops', op'.call? = some call := by
    intro op₀ hops hnone
    rcases List.mem_append.mp hops with hops | hops
    · exact ⟨ops, hops, op, hop, hcall⟩
    · rw [List.mem_singleton.mp hops] at hop
      rw [List.mem_singleton.mp hop, hnone] at hcall
      cases hcall
  cases l with
  | claimAndPush inst queueId tenantId shardId =>
    rcases List.mem_append.mp hops with hops | hops
    · exact .inl ⟨ops, hops, op, hop, hcall⟩
    · rw [List.mem_singleton.mp hops] at hop
      exact .inr ⟨inst, queueId, tenantId, shardId, rfl, call_claimStart hop hcall⟩
  | redrive inst tenantId messageId =>
    simp only [System.step] at hops
    split at hops
    · exact .inl (hstart hops rfl)
    · exact .inl ⟨ops, hops, op, hop, hcall⟩
  | run task now =>
    simp only [System.step] at hops
    split at hops
    · next op₀ rest htask =>
      have hmem := List.mem_of_getElem? htask
      rcases List.mem_or_eq_of_mem_set hops with hops | rfl
      · exact .inl ⟨ops, hops, op, hop, hcall⟩
      · by_cases hrest : op ∈ rest
        · exact .inl ⟨_, hmem, op, List.mem_cons_of_mem _ hrest, hcall⟩
        · have hout : op ∈ ((op₀.prog options s.cache now).run s.redis).1.front ++
              ((op₀.prog options s.cache now).run s.redis).1.back := by
            simp only [List.mem_append] at hop ⊢
            tauto
          exact .inl ⟨_, hmem, op₀, List.mem_cons_self,
            (op₀.yields options s.cache now s.redis).call_eq hout hcall⟩
    · exact .inl ⟨ops, hops, op, hop, hcall⟩
  | enqueue | enqueueBatch | claim | message | heartbeat | reclaim => exact .inl (hstart hops rfl)

/-- descriptor `d` は、`ls` の中で始めた呼び出しが、その時の cache から決めたものである。 -/
def Begun (options : FairQueueOptions P) (ls : List (Label P)) (d : QueueDescriptor) : Prop :=
  ∃ i inst queueId tenantId shardId,
    ls[i]? = some (.claimAndPush inst queueId tenantId shardId) ∧
      d = claimDescriptor (System.exec options (ls.take i)).cache inst queueId tenantId

theorem Begun.append {options : FairQueueOptions P} {ls : List (Label P)} {d : QueueDescriptor}
    (h : Begun options ls d) (l : Label P) : Begun options (ls ++ [l]) d := by
  obtain ⟨i, inst, queueId, tenantId, shardId, hi, hd⟩ := h
  have hlt : i < ls.length := (List.getElem?_eq_some_iff.mp hi).1
  refine ⟨i, inst, queueId, tenantId, shardId, ?_, ?_⟩
  · rw [List.getElem?_append_left hlt, hi]
  · rw [List.take_append_of_le_length hlt.le, hd]

/-- **どの実行でも、残っている command の descriptor は、呼び出しの初めに決まったものである。** -/
theorem begun_exec (options : FairQueueOptions P) (ls : List (Label P)) :
    ∀ ops ∈ (System.exec options ls).tasks, ∀ op ∈ ops, ∀ call, op.call? = some call →
      Begun options ls call.descriptor := by
  induction ls using List.reverseRecOn with
  | nil => intro ops hops; cases hops
  | append_singleton ls l ih =>
    rw [System.exec_append]
    intro ops hops op hop call hcall
    rcases call_step options _ l hops hop hcall with ⟨ops', hops', op', hop', hcall'⟩ |
        ⟨inst, queueId, tenantId, shardId, rfl, hd⟩
    · exact (ih ops' hops' op' hop' call hcall').append l
    · refine ⟨ls.length, inst, queueId, tenantId, shardId, by simp, ?_⟩
      rw [List.take_left, hd]

/-! ## slot を返す -/

/-- message `m` の slot を返す method の、data を読む command。 -/
inductive Releases (m : String) : Op P → Prop
  | method (inst : Nat) (purpose : Purpose) (queueId : String) :
      Releases m (.getMessage inst purpose m queueId)
  | reclaim (shardId : Nat) (clock : ℚ) (queueId : String) :
      Releases m (.reclaimGet shardId clock (makeMember m queueId))

/-- data を読む command が、message `m` の slot を返すと決める集合。 -/
def releasedKeys (options : FairQueueOptions P) (cache : Cache) (s : Redis P) (m : String) :
    Op P → List (Key .set)
  | .getMessage inst _ messageId queueId =>
    match (JsMap.get (s.get (.inflightData (options.shardOf queueId))) messageId).bind
      Stored.message? with
    | some message => options.groupKeys (FairQueueOptions.releaseDescriptor cache inst queueId message)
    | none => []
  | .reclaimGet shardId _ member =>
    let parsed := parseMember member
    if parsed.1 = m then
      options.groupKeys (options.reclaimDescriptor parsed.2
        ((JsMap.get (s.get (.inflightData shardId)) parsed.1).bind Stored.message?))
    else []
  | _ => []

/-- 残りの command `ops` を、ほかの command を間に挟みながら終わりまで進める。挟まれるものは、message `m` を
集合に入れも除きもしない。 -/
inductive Interleaved (options : FairQueueOptions P) (m : String) :
    List (Op P) → Redis P → Redis P → Prop
  | done (s : Redis P) : Interleaved options m [] s s
  | own (cache : Cache) (now : ℚ) {op : Op P} {rest : List (Op P)} {s s' : Redis P}
      (h : Interleaved options m (((op.prog options cache now).run s).1.front ++ rest ++
        ((op.prog options cache now).run s).1.back) ((op.prog options cache now).run s).2 s') :
      Interleaved options m (op :: rest) s s'
  | other {ops : List (Op P)} {s t s' : Redis P}
      (ht : ∀ k : Key .set, m ∈ (t.get k : Finset String) ↔ m ∈ (s.get k : Finset String))
      (h : Interleaved options m ops t s') : Interleaved options m ops s s'

section Sets

variable {options : FairQueueOptions P} {cache : Cache} {now : ℚ} {s : Redis P} {op : Op P}
variable {m : String}

/-- slot を取るほかに、集合に message を入れる command は無い。 -/
theorem mem_set_of_op (hop : ∀ call message rest, op ≠ .reserve call message rest) {k : Key .set}
    (h : m ∈ (((op.prog options cache now).run s).2.get k : Finset String)) :
    m ∈ (s.get k : Finset String) ∧ op ≠ .srem k m := by
  cases k with
  | concurrency group =>
    cases op with
    | scard call key limit rest minCapacity =>
      simp only [Op.prog, Prog.run_bind, run_scard] at h
      split at h <;> exact ⟨h, by simp⟩
    | reserve call message rest => exact absurd rfl (hop call message rest)
    | srem key m' =>
      simp only [Op.prog, Prog.run_bind, run_srem, Prog.run_pure] at h
      by_cases hkey : Key.concurrency group = key
      · subst hkey
        rw [Store.get_set_self] at h
        obtain ⟨hne, h⟩ := Finset.mem_erase.mp h
        exact ⟨h, by simpa using Ne.symm hne⟩
      · rw [Store.get_set_of_ne _ _ _ (by simpa using hkey)] at h
        exact ⟨h, by simpa using fun e => absurd e.symm hkey⟩
    | _ =>
      refine ⟨?_, by simp⟩
      rw [Op.get_of_notMem] at h
      · exact h
      · simp [Op.footprint, localKeys]

theorem mem_set_op_iff (hop : ∀ call message rest, op ≠ .reserve call message rest) {k : Key .set} :
    m ∈ (((op.prog options cache now).run s).2.get k : Finset String) ↔
      m ∈ (s.get k : Finset String) ∧ op ≠ .srem k m := by
  refine ⟨mem_set_of_op hop, fun h => ?_⟩
  exact (mem_set_op s options cache now op h.1).resolve_right h.2

theorem Yields.reserved_op {s' : Redis P} {out : Outcome P} {d : QueueDescriptor}
    (h : Yields options cache now s s' op out) (he : out.event = some (.reserved m d)) :
    ∃ call message rest, op = .reserve call message rest ∧ message.1 = m ∧ call.descriptor = d := by
  cases h with
  | reserved call message rest hfree hadd =>
    cases he
    exact ⟨_, _, _, rfl, rfl, rfl⟩
  | _ => cases he

/-- slot を取った後の集合。 -/
theorem mem_set_reserved {d : QueueDescriptor}
    (h : ((op.prog options cache now).run s).1.event = some (.reserved m d)) (k : Key .set) :
    m ∈ (((op.prog options cache now).run s).2.get k : Finset String) ↔
      k ∈ options.groupKeys d ∨ m ∈ (s.get k : Finset String) := by
  have hy := op.yields options cache now s
  refine ⟨fun hm => ?_, ?_⟩
  · obtain ⟨call, message, rest, rfl, rfl, rfl⟩ := hy.reserved_op h
    simp only [Op.prog, Prog.run_bind, Prog.run_pure] at hm
    rw [(run_reserve s _ _).2, groupData_map_fst] at hm
    split at hm
    · next hk => exact .inl hk.2
    · exact .inr hm
  · rintro (hk | hm)
    · exact (hy.reserved_sets h).2 k hk
    · refine (mem_set_op s options cache now op hm).resolve_right ?_
      rintro rfl
      cases h

/-- slot を返す method の、data を読んだ後の command。 -/
def Op.returns : Op P → Bool
  | .reclaim .. => true
  | op => op.closing

theorem Yields.returns_silent {s' : Redis P} {out : Outcome P}
    (h : Yields options cache now s s' op out) (hop : op.returns = true) :
    out.front = [] ∧ out.back = [] := by
  cases h with
  | idle | completed | released | reclaimed => exact ⟨rfl, rfl⟩
  | _ => cases hop

/-- **残りの command を終わりまで進めると、message は `SREM` された集合からだけ除かれる。** -/
theorem Interleaved.mem_iff {ops : List (Op P)} {s s' : Redis P}
    (h : Interleaved options m ops s s') (hops : ∀ op ∈ ops, op.returns = true) (k : Key .set) :
    m ∈ (s'.get k : Finset String) ↔ m ∈ (s.get k : Finset String) ∧ .srem k m ∉ ops := by
  induction h with
  | done s => simp
  | own cache now h ih =>
    next op rest s s' =>
    have hop := hops op List.mem_cons_self
    obtain ⟨hfront, hback⟩ := (op.yields options cache now s).returns_silent hop
    have hne : ∀ call message rest, op ≠ .reserve call message rest := by
      rintro call message rest rfl
      cases hop
    rw [hfront, hback, List.nil_append, List.append_nil] at ih
    rw [ih fun op' hop' => hops op' (List.mem_cons_of_mem _ hop'), mem_set_op_iff hne, and_assoc,
      List.mem_cons, not_or, ne_comm]
  | other ht h ih => rw [ih hops, ht]

/-- 残りの command は、終わりまで進められる。 -/
theorem exists_interleaved (options : FairQueueOptions P) (cache : Cache) (now : ℚ) (m : String) :
    ∀ {ops : List (Op P)} (s : Redis P), (∀ op ∈ ops, op.returns = true) →
      ∃ t, Interleaved options m ops s t
  | [], s, _ => ⟨s, .done s⟩
  | op :: rest, s, hops => by
    obtain ⟨hfront, hback⟩ :=
      (op.yields options cache now s).returns_silent (hops op List.mem_cons_self)
    obtain ⟨t, ht⟩ := exists_interleaved options cache now m ((op.prog options cache now).run s).2
      fun op' hop' => hops op' (List.mem_cons_of_mem _ hop')
    refine ⟨t, .own cache now ?_⟩
    rw [hfront, hback, List.nil_append, List.append_nil]
    exact ht

end Sets

theorem returns_of_closing {op : Op P} (h : op.closing = true) : op.returns = true := by
  cases op with
  | reclaim => rfl
  | _ => exact h

theorem srem_mem_releaseSlots {options : FairQueueOptions P} {queue : QueueDescriptor}
    {m : String} {k : Key .set} :
    .srem k m ∈ options.releaseSlots queue m ↔ k ∈ options.groupKeys queue := by
  simp [FairQueueOptions.releaseSlots]

theorem srem_mem_afterGet {options : FairQueueOptions P} {cache : Cache} {now : ℚ} {inst : Nat}
    {m q : String} {stored : Option (StoredMessage P)} {purpose : Purpose}
    (hid : ∀ message ∈ stored, message.id = m) {k : Key .set} :
    .srem k m ∈ options.afterGet cache now inst m q stored purpose ↔
      k ∈ match stored with
        | some message => options.groupKeys (FairQueueOptions.releaseDescriptor cache inst q message)
        | none => [] := by
  rcases stored with _ | message
  · cases purpose <;> simp [FairQueueOptions.afterGet]
  · obtain rfl := hid message rfl
    cases purpose with
    | complete => simp [FairQueueOptions.afterGet, srem_mem_releaseSlots]
    | release => simp [FairQueueOptions.afterGet, srem_mem_releaseSlots]
    | fail error =>
      simp only [FairQueueOptions.afterGet, FairQueueOptions.handleMessageFailure,
        FairQueueOptions.moveToDeadLetterQueue]
      split
      · simp [srem_mem_releaseSlots]
      · split <;> simp [srem_mem_releaseSlots]

/-- data を読む command の後に続くもの。 -/
theorem Releases.spec {s : Redis P} {op : Op P} {m : String} (h : Releases m op)
    (options : FairQueueOptions P) (cache : Cache) (now : ℚ) (hs : (view s m).Named m) :
    let r := (op.prog options cache now).run s
    r.2 = s ∧ (∀ op' ∈ r.1.front ++ r.1.back, op'.returns = true) ∧
      ∀ k, Op.srem k m ∈ r.1.front ++ r.1.back ↔ k ∈ releasedKeys options cache s m op := by
  cases h with
  | method inst purpose queueId =>
    simp only [Op.prog, Prog.run_bind, run_hget, Prog.run_pure, List.append_nil]
    refine ⟨trivial, fun op' hop' => ?_, fun k => srem_mem_afterGet fun message hmessage => ?_⟩
    · exact returns_of_closing (closing_afterGet options cache now hop')
    · obtain ⟨stored, hget, hstored⟩ := Option.bind_eq_some_iff.mp hmessage
      rcases stored with message' | dead | x
      · obtain rfl := Option.some.inj hstored
        exact hs.data _ message' hget
      · cases hstored
      · cases hstored
  | reclaim shardId clock queueId =>
    simp only [Op.prog, Prog.run_bind, run_hget, Prog.run_pure]
    refine ⟨trivial, fun op' hop' => ?_, fun k => ?_⟩
    · rcases List.mem_append.mp hop' with hop' | hop'
      · rw [List.mem_singleton.mp hop']
        rfl
      · exact returns_of_closing (closing_releaseSlots options hop')
    · simp only [List.singleton_append, List.mem_cons, reduceCtorEq, false_or, releasedKeys]
      split
      · next hid =>
        rw [hid]
        exact srem_mem_releaseSlots
      · next hid => simp [FairQueueOptions.releaseSlots, hid]

/-- 一歩で slot を取ったときは、task の先頭の command がそれを起こした。 -/
theorem reserved_step {options : FairQueueOptions P} {s : System P} {task : Nat} {now : ℚ}
    {m : String} {d : QueueDescriptor}
    (h : (s.step options (.run task now)).history = s.history ++ [(task, Event.reserved m d)]) :
    ∃ op rest, s.tasks[task]? = some (op :: rest) ∧
      ((op.prog options s.cache now).run s.redis).1.event = some (.reserved m d) ∧
      (s.step options (.run task now)).redis = ((op.prog options s.cache now).run s.redis).2 := by
  rcases htask : s.tasks[task]? with _ | (_ | ⟨op, rest⟩)
  · simp [System.step, htask] at h
  · simp [System.step, htask] at h
  · refine ⟨op, rest, rfl, ?_, by simp [System.step, htask, System.advance]⟩
    simp only [System.step, htask, System.advance, List.append_cancel_left_eq] at h
    rcases hevent : ((op.prog options s.cache now).run s.redis).1.event with _ | e
    · rw [hevent] at h
      cases h
    · rw [hevent] at h
      simpa using h

/-- **slot を取った message を返し終えた後、どの集合にもその message が無いのは、取った descriptor の集合が全て、
返す側の descriptor の集合に含まれるとき、そのときに限る。取った descriptor は、呼び出しの初めの cache で決まる。** -/
theorem slots_released_iff (options : FairQueueOptions P) (ls : List (Label P)) (task : Nat) (now : ℚ)
    (m : String) (d : QueueDescriptor)
    (hreserve : (System.exec options (ls ++ [Label.run task now])).history =
      (System.exec options ls).history ++ [(task, Event.reserved m d)])
    (ls' : List (Label P))
    (hkept : ∀ k : Key .set,
      m ∈ ((System.exec options (ls ++ [Label.run task now] ++ ls')).redis.get k : Finset String) ↔
        m ∈ ((System.exec options (ls ++ [Label.run task now])).redis.get k : Finset String))
    (cache : Cache) (now' : ℚ) (op : Op P) (hop : Releases m op) (t : Redis P)
    (hrun :
      let s := (System.exec options (ls ++ [Label.run task now] ++ ls')).redis
      let r := (op.prog options cache now').run s
      Interleaved options m (r.1.front ++ r.1.back) r.2 t) :
    let s := (System.exec options (ls ++ [Label.run task now] ++ ls')).redis
    Begun options ls d ∧
    ((∀ k ∈ options.groupKeys d, m ∉ (t.get k : Finset String)) ↔
      ∀ k ∈ options.groupKeys d, k ∈ releasedKeys options cache s m op) ∧
    ((∀ k : Key .set, m ∉ ((System.exec options ls).redis.get k : Finset String)) →
      ((∀ k : Key .set, m ∉ (t.get k : Finset String)) ↔
        ∀ k ∈ options.groupKeys d, k ∈ releasedKeys options cache s m op)) := by
  rw [System.exec_append] at hreserve hkept
  obtain ⟨op₁, rest, htask, hevent, hredis⟩ := reserved_step hreserve
  rw [hredis] at hkept
  have hnamed := named_exec options (ls ++ [Label.run task now] ++ ls') m
  obtain ⟨hsame, hreturns, hsrem⟩ := hop.spec options cache now' hnamed
  -- 返し終えた後に残るのは、取る前からあるか取った集合のうち、返さなかったものである。
  have hmem : ∀ k : Key .set, m ∈ (t.get k : Finset String) ↔
      (k ∈ options.groupKeys d ∨ m ∈ ((System.exec options ls).redis.get k : Finset String)) ∧
        k ∉ releasedKeys options cache
          (System.exec options (ls ++ [Label.run task now] ++ ls')).redis m op := by
    intro k
    rw [hrun.mem_iff hreturns, hsame, hkept, mem_set_reserved hevent, hsrem]
  refine ⟨?_, ?_, fun hfresh => ?_⟩
  · obtain ⟨call, message, others, rfl, -, rfl⟩ :=
      (op₁.yields options _ now _).reserved_op hevent
    exact begun_exec options ls _ (List.mem_of_getElem? htask) _ List.mem_cons_self call rfl
  · refine forall₂_congr fun k hk => ?_
    rw [hmem k]
    simp [hk]
  · refine forall_congr' fun k => ?_
    rw [hmem k]
    simp [hfresh k]

/-- metadata の `env` ごとの group。 -/
def envGroup : ConcurrencyGroupConfig where
  name := "env"
  extractGroupId := fun queue => (JsMap.get queue.metadata "env").getD "default"
  getLimit := fun _ => 2
  defaultLimit := 1

/-- `env` の group だけを持つ設定。 -/
def envOptions : FairQueueOptions Unit :=
  { sampleOptions with concurrencyGroups := [envGroup] }

/-- instance 0 が入れた message を、cache の無い instance 1 が配り、instance 0 が終える。 -/
def slotLeakedRun : List (Label Unit) :=
  [.enqueue 0 "q" "t" "m1" () 0 (some [("env", "a")]), .run 0 0,
    .claimAndPush 1 "q" "t" 0, .run 1 0, .run 1 0, .run 1 0, .run 1 0,
    .message 0 .complete "m1" "q", .run 2 0, .run 2 0, .run 2 0, .run 2 0, .run 2 0]

/-- 終えた後も、`m1` は取った集合に残る。 -/
theorem slot_leaked :
    let s := System.exec envOptions slotLeakedRun
    (1, .reserved "m1" { id := "q", tenantId := "t", metadata := [] }) ∈ s.history ∧
      (2, .completed "m1" "q") ∈ s.history ∧ s.tasks.all List.isEmpty = true ∧
      "m1" ∈ (s.redis.get (.concurrency "env:default") : Finset String) := by
  decide +kernel

/-- 同じ instance が入れて配る。 -/
def sameInstanceRun : List (Label Unit) :=
  [.enqueue 0 "q" "t" "m1" () 0 (some [("env", "a")]), .run 0 0, .claimAndPush 0 "q" "t" 0, .run 1 0,
    .run 1 0]

/-- 同じ instance が終えると、`m1` は取った集合に残らない。 -/
theorem slots_released_sameInstance :
    let s := System.exec envOptions (sameInstanceRun ++ [Label.run 1 0] ++ [])
    let r := ((Op.getMessage 0 .complete "m1" "q").prog envOptions s.cache 0).run s.redis
    ∃ t, Interleaved envOptions "m1" (r.1.front ++ r.1.back) r.2 t ∧
      "m1" ∉ (t.get (.concurrency "env:a") : Finset String) := by
  intro s r
  have hop : Releases "m1" (.getMessage 0 .complete "m1" "q" : Op Unit) := .method 0 .complete "q"
  obtain ⟨-, hreturns, -⟩ := hop.spec envOptions s.cache 0 (named_exec envOptions _ "m1")
  obtain ⟨t, ht⟩ := exists_interleaved envOptions s.cache 0 "m1" r.2 hreturns
  have hkeys := (slots_released_iff envOptions sameInstanceRun 1 0 "m1"
    { id := "q", tenantId := "t", metadata := [("env", "a")] } (by decide +kernel) []
    (fun _ => by rw [List.append_nil]) s.cache 0 _ hop t ht).2.1
  exact ⟨t, ht, hkeys.mpr (by decide +kernel) _ (by decide +kernel)⟩

end FairQueue
