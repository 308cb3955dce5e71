import Trigger.FairQueue.Outcome

/-!
# 配達中の message と concurrency の slot

consumer は claim した message の slot を `reserve` で取ってから worker queue に入れる。slot を返すのは
`completeMessage`・`releaseMessage`・`failMessage`・reclaim で、どれも message を in-flight から外した後の
別の command である。外してから返すまでの間に別の consumer が同じ message を claim すると、新しい配達の slot
が古い呼び出しに返される（`slot_lost`）。

どの claim も、slot を返し終えていない message を取らない実行では、配達中の message はすべての group の集合に
入っていて、group ごとの数は上限を超えない（`slots_cover`）。
-/

namespace FairQueue

open Infra Infra.Keyspace
open Infra.Redis (ZSet)

variable {P : Type}

/-! ## 配達 -/

/-- message の最新の claim。`task` はその claim をした task、`reserved` は slot を取った descriptor。 -/
structure Delivery where
  task : Nat
  reserved : Option QueueDescriptor := none
  pushed : Bool := false
deriving DecidableEq

/-- message `m` の配達を、起きた事に沿って追う。completed・released・reclaimed で配達は終わる。 -/
def track (m : String) (d : Option Delivery) (e : Nat × Event) : Option Delivery :=
  match e.2 with
  | .claimed _ ids => if m ∈ ids then some { task := e.1 } else d
  | .reserved m' queue =>
    if m' = m then d.map fun d => if d.task = e.1 then { d with reserved := some queue } else d
    else d
  | .pushed m' =>
    if m' = m then d.map fun d => if d.task = e.1 then { d with pushed := true } else d else d
  | .completed m' _ => if m' = m then none else d
  | .released m' _ => if m' = m then none else d
  | .reclaimed _ member .. => if (parseMember member).1 = m then none else d
  | .extended .. => d

/-- 終わっていない最新の配達。 -/
def delivery (history : List (Nat × Event)) (m : String) : Option Delivery :=
  history.foldl (track m) none

theorem delivery_append (history : List (Nat × Event)) (task : Nat) (event : Option Event)
    (m : String) :
    delivery (history ++ (event.map fun e => (task, e)).toList) m =
      match event with
      | none => delivery history m
      | some e => track m (delivery history m) (task, e) := by
  rcases event with _ | e <;> simp [delivery]

/-! ## slot を返す途中の task -/

/-- message `m` を in-flight から外す command。 -/
def Op.ends (m : String) : Op P → Bool
  | .zremInflight m' _ => m' = m
  | .release m' .. => m' = m
  | .reclaim _ _ member _ => (parseMember member).1 = m
  | _ => false

/-- message `m` の slot を返す command。 -/
def Op.frees (m : String) : Op P → Bool
  | .srem _ m' => m' = m
  | _ => false

/-- message `m` を in-flight から外す command が残っていないのに、slot を返す command が残っている。 -/
def exposed (m : String) : List (Op P) → Bool
  | [] => false
  | op :: rest => !op.ends m && (op.frees m || exposed m rest)

theorem exposed_append (m : String) : ∀ {a b : List (Op P)}, exposed m (a ++ b) = true →
    exposed m a = true ∨ (exposed m b = true ∧ ∀ op ∈ a, op.ends m = false)
  | [], _, h => .inr ⟨h, by simp⟩
  | op :: a, b, h => by
    simp only [List.cons_append, exposed, Bool.and_eq_true, Bool.not_eq_true',
      Bool.or_eq_true] at h ⊢
    obtain ⟨hends, hfrees | hrest⟩ := h
    · exact .inl ⟨hends, .inl hfrees⟩
    · rcases exposed_append m hrest with h | ⟨h, ha⟩
      · exact .inl ⟨hends, .inr h⟩
      · refine .inr ⟨h, fun op' hop' => ?_⟩
        rcases List.mem_cons.mp hop' with rfl | hop'
        · exact hends
        · exact ha op' hop'

theorem not_exposed_of_frees {m : String} : ∀ {ops : List (Op P)},
    (∀ op ∈ ops, op.frees m = false) → exposed m ops = false
  | [], _ => rfl
  | op :: rest, h => by
    simp only [exposed, h op List.mem_cons_self, Bool.false_or,
      not_exposed_of_frees fun op' hop' => h op' (List.mem_cons_of_mem _ hop'), Bool.and_false]

section Outcome

variable (options : FairQueueOptions P) (cache : Cache) (now : ℚ)

theorem frees_of_mem_releaseSlots {queue : QueueDescriptor} {m m' : String} (hne : m' ≠ m)
    {op : Op P} (h : op ∈ options.releaseSlots queue m') : op.frees m = false := by
  obtain ⟨key, -, rfl⟩ := List.mem_map.mp h
  exact decide_eq_false hne

/-- in-flight から外す command が先頭にあるので、読んだ直後は途中ではない。 -/
theorem not_exposed_afterGet (inst : Nat) (messageId queueId : String)
    (stored : Option (StoredMessage P)) (purpose : Purpose) (m : String) :
    exposed m (options.afterGet cache now inst messageId queueId stored purpose) = false := by
  rcases purpose with _ | _ | error
  · -- 自分の message なら先頭の command が終わらせ、他の message には関わらない
    by_cases hm : messageId = m
    · simp [FairQueueOptions.afterGet, exposed, Op.ends, hm]
    · refine not_exposed_of_frees fun op hop => ?_
      simp only [FairQueueOptions.afterGet, List.mem_append, List.mem_cons, List.not_mem_nil,
        or_false] at hop
      rcases hop with ((rfl | rfl) | hop) | rfl
      · rfl
      · rfl
      · rcases stored with _ | message
        · cases hop
        · exact frees_of_mem_releaseSlots options hm hop
      · rfl
  · by_cases hm : messageId = m
    · simp [FairQueueOptions.afterGet, exposed, Op.ends, hm]
    · refine not_exposed_of_frees fun op hop => ?_
      rcases List.mem_cons.mp hop with rfl | hop
      · rfl
      · rcases stored with _ | message
        · cases hop
        · exact frees_of_mem_releaseSlots options hm hop
  · rcases stored with _ | message
    · rfl
    · simp only [FairQueueOptions.afterGet, FairQueueOptions.handleMessageFailure]
      by_cases hm : message.id = m
      · split <;> simp [FairQueueOptions.moveToDeadLetterQueue, exposed, Op.ends, hm]
      · refine not_exposed_of_frees fun op hop => ?_
        split at hop
        · simp only [List.mem_append, List.mem_cons, List.not_mem_nil, or_false] at hop
          rcases hop with (rfl | rfl) | hop
          · rfl
          · rfl
          · exact frees_of_mem_releaseSlots options hm hop
        · simp only [FairQueueOptions.moveToDeadLetterQueue, List.mem_append, List.mem_cons,
            List.not_mem_nil, or_false] at hop
          rcases hop with ((rfl | rfl) | hop) | hop
          · rfl
          · rfl
          · split at hop
            · simp only [List.mem_cons, List.not_mem_nil, or_false] at hop
              rcases hop with rfl | rfl <;> rfl
            · cases hop
          · exact frees_of_mem_releaseSlots options hm hop

theorem frees_of_mem_claimNext {call : ClaimCall} {messages : List (String × StoredMessage P)}
    {op : Op P} (h : op ∈ options.claimNext call messages) (m : String) : op.frees m = false := by
  rcases messages with _ | ⟨message, rest⟩
  · cases h
  · simp only [FairQueueOptions.claimNext] at h
    split at h <;> · obtain rfl := List.mem_singleton.mp h
                     rfl

/-- message を in-flight から外し、その後を片づける command。 -/
def Op.closing : Op P → Bool
  | .zremInflight .. | .hdelInflightData .. | .release .. | .hsetItems .. | .zaddDeadLetter ..
  | .hsetDeadLetter .. | .srem .. | .updateMasterQueueIfEmpty .. => true
  | _ => false

theorem closing_releaseSlots {queue : QueueDescriptor} {m : String} {op : Op P}
    (h : op ∈ options.releaseSlots queue m) : op.closing = true := by
  obtain ⟨key, -, rfl⟩ := List.mem_map.mp h
  rfl

theorem closing_afterGet {inst : Nat} {messageId queueId : String}
    {stored : Option (StoredMessage P)} {purpose : Purpose} {op : Op P}
    (h : op ∈ options.afterGet cache now inst messageId queueId stored purpose) :
    op.closing = true := by
  rcases purpose with _ | _ | error
  · simp only [FairQueueOptions.afterGet, List.mem_append, List.mem_cons, List.not_mem_nil,
      or_false] at h
    rcases h with ((rfl | rfl) | h) | rfl
    · rfl
    · rfl
    · rcases stored with _ | message
      · cases h
      · exact closing_releaseSlots options h
    · rfl
  · rcases List.mem_cons.mp h with rfl | h
    · rfl
    · rcases stored with _ | message
      · cases h
      · exact closing_releaseSlots options h
  · rcases stored with _ | message
    · cases h
    · simp only [FairQueueOptions.afterGet, FairQueueOptions.handleMessageFailure] at h
      split at h
      · rcases List.mem_append.mp h with h | h
        · simp only [List.mem_cons, List.not_mem_nil, or_false] at h
          rcases h with rfl | rfl <;> rfl
        · exact closing_releaseSlots options h
      · rcases List.mem_append.mp h with h | h
        · simp only [FairQueueOptions.moveToDeadLetterQueue, List.mem_append, List.mem_cons,
            List.not_mem_nil, or_false] at h
          rcases h with (rfl | rfl) | h
          · rfl
          · rfl
          · split at h
            · simp only [List.mem_cons, List.not_mem_nil, or_false] at h
              rcases h with rfl | rfl <;> rfl
            · cases h
        · exact closing_releaseSlots options h

theorem concurrencyGroups_of_push_mem_claimNext {call call' : ClaimCall}
    {messages others : List (String × StoredMessage P)} {message : String × StoredMessage P}
    (h : .push call message others ∈ options.claimNext call' messages) :
    options.concurrencyGroups = [] := by
  rcases messages with _ | ⟨m, rest⟩
  · cases h
  · simp only [FairQueueOptions.claimNext] at h
    split at h
    · next hempty => exact List.isEmpty_iff.mp hempty
    · cases List.mem_singleton.mp h

end Outcome

namespace Yields

variable {options : FairQueueOptions P} {cache : Cache} {now : ℚ} {s s' : Redis P} {op : Op P}
  {out : Outcome P}

/-- command の直後に続く列は、どの message についても途中ではない。 -/
theorem not_exposed_front (h : Yields options cache now s s' op out) (m : String) :
    exposed m out.front = false := by
  cases h with
  | claimBatch call maxCount ids messages hids hmessages hnodup =>
    exact not_exposed_of_frees fun op hop => frees_of_mem_claimNext options hop m
  | push call message rest =>
    exact not_exposed_of_frees fun op hop => frees_of_mem_claimNext options hop m
  | getMessage inst purpose messageId queueId => exact not_exposed_afterGet ..
  | scan shardId members hmembers =>
    refine not_exposed_of_frees fun op hop => ?_
    obtain ⟨e, -, rfl⟩ := List.mem_map.mp hop
    rfl
  | _ => simp [exposed, Op.frees]

/-- 列の最後に加わるのは、reclaim が外そうとしている message の slot を返す command だけである。 -/
theorem back_cases (h : Yields options cache now s s' op out) :
    out.back = [] ∨ ∃ shardId clock member queue score,
      out.front = [.reclaim shardId clock member score] ∧
        out.back = options.releaseSlots queue (parseMember member).1 := by
  cases h with
  | reclaimGet shardId clock member score queue => exact .inr ⟨_, _, _, _, _, rfl, rfl⟩
  | _ => exact .inl rfl

/-- 一つの command の後で途中である message は、その command が外したものか、初めから途中だったもの。 -/
theorem exposed_cases (h : Yields options cache now s s' op out) {rest : List (Op P)} {m : String}
    (he : exposed m (out.front ++ rest ++ out.back) = true) :
    op.ends m = true ∨ exposed m (op :: rest) = true := by
  rw [List.append_assoc] at he
  rcases exposed_append m he with he | ⟨he, hends⟩
  · rw [h.not_exposed_front] at he
    cases he
  · rcases exposed_append m he with he | ⟨he, -⟩
    · by_cases hop : op.ends m = true
      · exact .inl hop
      · exact .inr (by simp [exposed, he, hop])
    · rcases h.back_cases with hb | ⟨shardId, clock, member, queue, score, hf, hb⟩
      · rw [hb] at he
        cases he
      · -- back が slot を返す message は、front の reclaim が外す。
        have hne : (parseMember member).1 ≠ m := by
          have := hends (.reclaim shardId clock member score) (by simp [hf])
          exact of_decide_eq_false this
        rw [hb, not_exposed_of_frees fun op hop => frees_of_mem_releaseSlots options hne hop] at he
        cases he

/-- push が続くのは、slot の要らない設定のときか、slot を取れたときである。 -/
theorem push_mem_front (h : Yields options cache now s s' op out) {call : ClaimCall}
    {message : String × StoredMessage P} {others : List (String × StoredMessage P)}
    (hp : .push call message others ∈ out.front) :
    options.concurrencyGroups = [] ∨
      out.event = some (.reserved message.1 call.descriptor) := by
  cases h with
  | claimBatch call maxCount ids messages hids hmessages hnodup =>
    exact .inl (concurrencyGroups_of_push_mem_claimNext options hp)
  | push call message rest => exact .inl (concurrencyGroups_of_push_mem_claimNext options hp)
  | reserved call' message' rest hfree hadd =>
    cases List.mem_singleton.mp hp
    exact .inr rfl
  | getMessage inst purpose messageId queueId => cases closing_afterGet options cache now hp
  | scan shardId members hmembers =>
    obtain ⟨e, -, he⟩ := List.mem_map.mp hp
    cases he
  | _ => simp at hp

theorem push_cases (h : Yields options cache now s s' op out) {rest : List (Op P)}
    {call : ClaimCall} {message : String × StoredMessage P}
    {others : List (String × StoredMessage P)}
    (hp : .push call message others ∈ out.front ++ rest ++ out.back) :
    options.concurrencyGroups = [] ∨ .push call message others ∈ rest ∨
      out.event = some (.reserved message.1 call.descriptor) := by
  rcases List.mem_append.mp hp with hp | hp
  · rcases List.mem_append.mp hp with hp | hp
    · rcases h.push_mem_front hp with h | h
      · exact .inl h
      · exact .inr (.inr h)
    · exact .inr (.inl hp)
  · rcases h.back_cases with hb | ⟨shardId, clock, member, queue, score, hf, hb⟩ <;> rw [hb] at hp
    · cases hp
    · cases closing_releaseSlots options hp

/-- claim した message は、`ZRANGE` の範囲にある。 -/
theorem claimed_range (h : Yields options cache now s s' op out) {q : String} {ids : List String}
    (he : out.event = some (.claimed q ids)) :
    ∃ stop, op.claimRange = some (q, stop) ∧ ∀ m ∈ ids, m ∈ takeTo stop (s.get (.queue q)) := by
  cases h with
  | claim q timeoutMs ids hids => cases he; exact ⟨_, rfl, hids⟩
  | claimNone call maxCount ids hids hnone => cases he; exact ⟨_, rfl, hids⟩
  | claimBatch call maxCount ids messages hids hmessages hnodup => cases he; exact ⟨_, rfl, hids⟩
  | _ => cases he

/-- slot を取れたときは、どの group にも空きがあり、全ての集合に message が入る。 -/
theorem reserved_sets (h : Yields options cache now s s' op out) {m : String}
    {queue : QueueDescriptor} (he : out.event = some (.reserved m queue)) :
    (∀ g ∈ options.groupData queue, Finset.card (s.get g.1) < g.2) ∧
      ∀ k ∈ options.groupKeys queue, m ∈ (s'.get k : Finset String) := by
  cases h with
  | reserved call message rest hfree hadd => cases he; exact ⟨hfree, hadd⟩
  | _ => cases he

theorem pushed_op (h : Yields options cache now s s' op out) {m : String}
    (he : out.event = some (.pushed m)) :
    ∃ call message rest, op = .push call message rest ∧ message.1 = m := by
  cases h with
  | push call message rest => cases he; exact ⟨_, _, _, rfl, rfl⟩
  | _ => cases he

/-- in-flight から外す command は、必ずそれを記録する。 -/
theorem track_of_ends (h : Yields options cache now s s' op out) {m : String}
    (hop : op.ends m = true) :
    ∃ e, out.event = some e ∧ ∀ d task, track m d (task, e) = none := by
  cases h with
  | completed m' q => exact ⟨_, rfl, fun d task => if_pos (of_decide_eq_true hop)⟩
  | released m' q delay => exact ⟨_, rfl, fun d task => if_pos (of_decide_eq_true hop)⟩
  | reclaimed shardId clock member score released =>
    exact ⟨_, rfl, fun d task => if_pos (of_decide_eq_true hop)⟩
  | idle hidle c =>
    cases op with
    | zremInflight | release | reclaim => cases hidle
    | _ => cases hop
  | _ => cases hop

end Yields

/-! ## claim だけの task -/

/-- claim までの command。 -/
def Op.opening : Op P → Bool
  | .scard .. | .claim .. | .claimBatch .. => true
  | _ => false

/-- claim までの command は、task に一つだけある。 -/
def Alone (ops : List (Op P)) : Prop := ∀ op ∈ ops, op.opening = true → ops = [op]

theorem opening_of_claimRange {op : Op P} {r : String × Int} (h : op.claimRange = some r) :
    op.opening = true := by
  cases op with
  | claim q timeoutMs => rfl
  | claimBatch call maxCount => rfl
  | _ => cases h

theorem opening_claimNext {options : FairQueueOptions P} {call : ClaimCall}
    {messages : List (String × StoredMessage P)} {op : Op P}
    (h : op ∈ options.claimNext call messages) : op.opening = false := by
  rcases messages with _ | ⟨message, rest⟩
  · cases h
  · simp only [FairQueueOptions.claimNext] at h
    split at h <;> · obtain rfl := List.mem_singleton.mp h
                     rfl

theorem not_opening_of_closing {op : Op P} (h : op.closing = true) : op.opening = false := by
  cases op with
  | scard | claim | claimBatch => cases h
  | _ => rfl

/-- 続きに claim までの command があるのは、`SCARD` の後だけである。 -/
theorem Yields.opening_front {options : FairQueueOptions P} {cache : Cache} {now : ℚ}
    {s s' : Redis P} {op op' : Op P} {out : Outcome P}
    (h : Yields options cache now s s' op out) (hop : op' ∈ out.front)
    (ho : op'.opening = true) : op.opening = true ∧ out.front = [op'] ∧ out.back = [] := by
  cases h with
  | scard => obtain rfl := List.mem_singleton.mp hop; exact ⟨rfl, rfl, rfl⟩
  | capacity => obtain rfl := List.mem_singleton.mp hop; exact ⟨rfl, rfl, rfl⟩
  | claimBatch call maxCount ids messages hids hmessages hnodup =>
    rw [opening_claimNext hop] at ho
    cases ho
  | push call message rest =>
    rw [opening_claimNext hop] at ho
    cases ho
  | getMessage inst purpose messageId queueId =>
    rw [not_opening_of_closing (closing_afterGet options cache now hop)] at ho
    cases ho
  | scan shardId members hmembers =>
    obtain ⟨e, -, rfl⟩ := List.mem_map.mp hop
    cases ho
  | redrive inst tenantId messageId message c =>
    simp only [List.mem_cons, List.not_mem_nil, or_false] at hop
    rcases hop with rfl | rfl | rfl <;> cases ho
  | claimNone | reserved | full | reclaimGet =>
    obtain rfl := List.mem_singleton.mp hop
    cases ho
  | _ => cases hop

theorem Alone.advance {options : FairQueueOptions P} {cache : Cache} {now : ℚ} {s s' : Redis P}
    {op : Op P} {out : Outcome P} {rest : List (Op P)} (h : Alone (op :: rest))
    (hy : Yields options cache now s s' op out) : Alone (out.front ++ rest ++ out.back) := by
  intro op' hop' ho
  rcases List.mem_append.mp hop' with hop' | hop'
  · rcases List.mem_append.mp hop' with hop' | hop'
    · obtain ⟨hopen, hfront, hback⟩ := hy.opening_front hop' ho
      obtain ⟨-, rfl⟩ := List.cons.inj (h op List.mem_cons_self hopen)
      rw [hfront, hback]
      rfl
    · obtain ⟨-, rfl⟩ := List.cons.inj (h op' (List.mem_cons_of_mem _ hop') ho)
      cases hop'
  · rcases hy.back_cases with hb | ⟨shardId, clock, member, queue, score, hf, hb⟩ <;>
      rw [hb] at hop'
    · cases hop'
    · rw [not_opening_of_closing (closing_releaseSlots options hop')] at ho
      cases ho

/-! ## 不変条件 -/

/-- claim が、slot を返し終えていない message を取らない。 -/
def Settled (s : System P) (l : Label P) : Prop :=
  ∀ op ∈ s.head? l, ∀ r ∈ op.claimRange, ∀ m ∈ takeTo r.2 (s.redis.get (.queue r.1)),
    ∀ ops ∈ s.tasks, exposed m ops = false

instance decidableSettled (s : System P) (l : Label P) : Decidable (Settled s l) :=
  inferInstanceAs (Decidable (∀ op ∈ s.head? l, ∀ r ∈ op.claimRange,
    ∀ m ∈ takeTo r.2 (s.redis.get (.queue r.1)), ∀ ops ∈ s.tasks, exposed m ops = false))

/-- message `m` の終わっていない配達が、group の `groupId` の slot を取っている。 -/
def HoldsSlot (history : List (Nat × Event)) (group : ConcurrencyGroupConfig) (groupId m : String) :
    Prop :=
  ∃ d queue, delivery history m = some d ∧ d.reserved = some queue ∧
    group.extractGroupId queue = groupId

/-- 状態の不変条件。 -/
structure Covered (options : FairQueueOptions P) (s : System P) : Prop where
  alone : ∀ ops ∈ s.tasks, Alone ops
  settled : ∀ m, ∀ ops ∈ s.tasks, exposed m ops = true → delivery s.history m = none
  covered : ∀ m d queue, delivery s.history m = some d → d.reserved = some queue →
    ∀ k ∈ options.groupKeys queue, m ∈ (s.redis.get k : Finset String)
  pushing : ∀ task ops call message others d, s.tasks[task]? = some ops →
    .push call message others ∈ ops → delivery s.history message.1 = some d → d.task = task →
    options.concurrencyGroups ≠ [] → d.reserved ≠ none
  pushed : ∀ m d, delivery s.history m = some d → d.pushed = true →
    options.concurrencyGroups ≠ [] → d.reserved ≠ none
  bounded : ∀ group ∈ options.concurrencyGroups, ∀ (groupId : String) (M : Finset String),
    (∀ m ∈ M, HoldsSlot s.history group groupId m) → M.card ≤ group.limit groupId

theorem covered_init (options : FairQueueOptions P) : Covered options (System.init : System P) where
  alone := by simp [System.init]
  settled := by simp [System.init]
  covered := by simp [System.init, delivery]
  pushing := by simp [System.init]
  pushed := by simp [System.init, delivery]
  bounded := by
    intro group hgroup groupId M hM
    have : M = ∅ := by
      refine Finset.eq_empty_of_forall_notMem fun m hm => ?_
      obtain ⟨d, queue, hd, -⟩ := hM m hm
      cases hd
    simp [this]

section Track

variable {m : String} {d : Option Delivery} {task : Nat} {e : Event} {d' : Delivery}

/-- slot を取っている配達は、初めから取っていたか、いま取ったものである。 -/
theorem track_reserved {queue : QueueDescriptor} (h : track m d (task, e) = some d')
    (hq : d'.reserved = some queue) :
    (∃ d₀, d = some d₀ ∧ d₀.reserved = some queue) ∨ e = .reserved m queue := by
  cases e with
  | claimed q ids =>
    simp only [track] at h
    split at h
    · obtain rfl := Option.some.inj h
      cases hq
    · exact .inl ⟨d', h, hq⟩
  | reserved m' queue' =>
    simp only [track] at h
    split at h
    · next hm =>
      obtain ⟨d₀, rfl, hd₀⟩ := Option.map_eq_some_iff.mp h
      split at hd₀
      · subst hd₀
        obtain rfl := Option.some.inj hq
        exact .inr (by rw [hm])
      · subst hd₀
        exact .inl ⟨d₀, rfl, hq⟩
    · exact .inl ⟨d', h, hq⟩
  | pushed m' =>
    simp only [track] at h
    split at h
    · obtain ⟨d₀, rfl, hd₀⟩ := Option.map_eq_some_iff.mp h
      refine .inl ⟨d₀, rfl, ?_⟩
      split at hd₀ <;> subst hd₀ <;> exact hq
    · exact .inl ⟨d', h, hq⟩
  | completed m' q | released m' q =>
    simp only [track] at h
    split at h
    · cases h
    · exact .inl ⟨d', h, hq⟩
  | reclaimed shardId member clock released =>
    simp only [track] at h
    split at h
    · cases h
    · exact .inl ⟨d', h, hq⟩
  | extended shardId member deadline => exact .inl ⟨d', h, hq⟩

/-- 配達は、いま claim されたものか、前からあったものである。前からあったものは、task も slot も失わない。 -/
theorem track_cases (h : track m d (task, e) = some d') :
    (d' = { task := task } ∧ ∃ q ids, e = .claimed q ids ∧ m ∈ ids) ∨
      ∃ d₀, d = some d₀ ∧ d'.task = d₀.task ∧ (d₀.reserved ≠ none → d'.reserved ≠ none) ∧
        (d'.pushed = true → d₀.pushed = true ∨ (e = .pushed m ∧ d₀.task = task)) ∧
        (∀ queue, e = .reserved m queue → d₀.task = task → d'.reserved ≠ none) := by
  cases e with
  | claimed q ids =>
    simp only [track] at h
    split at h
    · next hm => exact .inl ⟨(Option.some.inj h).symm, q, ids, rfl, hm⟩
    · exact .inr ⟨d', h, rfl, id, .inl, by simp⟩
  | reserved m' queue' =>
    simp only [track] at h
    split at h
    · obtain ⟨d₀, rfl, hd₀⟩ := Option.map_eq_some_iff.mp h
      refine .inr ⟨d₀, rfl, ?_⟩
      split at hd₀ <;> subst hd₀
      · exact ⟨rfl, by simp, .inl, by simp⟩
      · next hne => exact ⟨rfl, id, .inl, fun _ _ ht => absurd ht hne⟩
    · next hne => exact .inr ⟨d', h, rfl, id, .inl, fun _ he => absurd (by cases he; rfl) hne⟩
  | pushed m' =>
    simp only [track] at h
    split at h
    · next hm =>
      obtain ⟨d₀, rfl, hd₀⟩ := Option.map_eq_some_iff.mp h
      refine .inr ⟨d₀, rfl, ?_⟩
      split at hd₀ <;> subst hd₀
      · next ht => exact ⟨rfl, id, fun _ => .inr ⟨by rw [hm], ht⟩, by simp⟩
      · exact ⟨rfl, id, .inl, by simp⟩
    · exact .inr ⟨d', h, rfl, id, .inl, by simp⟩
  | completed m' q | released m' q =>
    simp only [track] at h
    split at h
    · cases h
    · exact .inr ⟨d', h, rfl, id, .inl, by simp⟩
  | reclaimed shardId member clock released =>
    simp only [track] at h
    split at h
    · cases h
    · exact .inr ⟨d', h, rfl, id, .inl, by simp⟩
  | extended shardId member deadline => exact .inr ⟨d', h, rfl, id, .inl, by simp⟩

end Track

/-! ## 一歩と実行 -/

section Step

variable {options : FairQueueOptions P} {s : System P}

/-- 始めたばかりの method は、slot を返す途中でも、push する途中でもない。 -/
theorem System.Starts.fresh {ops : List (Op P)} (h : System.Starts options s ops) :
    Alone ops ∧ (∀ m, exposed m ops = false) ∧
      ∀ call message others, .push call message others ∉ ops := by
  have hclaim : ∀ inst queueId tenantId shardId,
      ∃ op : Op P, s.claimStart options inst queueId tenantId shardId = [op] ∧
        op.opening = true ∧ ∀ m, op.frees m = false := by
    intro inst queueId tenantId shardId
    simp only [System.claimStart]
    split
    · exact ⟨_, rfl, rfl, fun _ => rfl⟩
    · exact ⟨_, rfl, rfl, fun _ => rfl⟩
  cases h with
  | claimAndPush inst queueId tenantId shardId =>
    obtain ⟨op, hops, hopen, hfrees⟩ := hclaim inst queueId tenantId shardId
    rw [hops]
    refine ⟨fun op' hop' _ => by rw [List.mem_singleton.mp hop'], fun m => ?_, ?_⟩
    · exact not_exposed_of_frees fun op' hop' => by rw [List.mem_singleton.mp hop', hfrees]
    · intro call message others hpush
      rw [← List.mem_singleton.mp hpush] at hopen
      cases hopen
  | _ =>
    refine ⟨fun op' hop' _ => by rw [List.mem_singleton.mp hop'], fun m => ?_, by simp⟩
    simp [exposed, Op.frees]

theorem Covered.start (h : Covered options s) {s' : System P} {ops : List (Op P)}
    (hops : System.Starts options s ops) (hredis : s'.redis = s.redis)
    (htasks : s'.tasks = s.tasks ++ [ops]) (hhistory : s'.history = s.history) :
    Covered options s' := by
  obtain ⟨halone, hexposed, hpush⟩ := hops.fresh
  refine ⟨fun ops' hops' => ?_, fun m ops' hops' he => ?_, ?_, ?_, ?_, ?_⟩
  · rw [htasks] at hops'
    rcases List.mem_append.mp hops' with hops' | hops'
    · exact h.alone ops' hops'
    · rw [List.mem_singleton.mp hops']
      exact halone
  · rw [htasks] at hops'
    rw [hhistory]
    rcases List.mem_append.mp hops' with hops' | hops'
    · exact h.settled m ops' hops' he
    · rw [List.mem_singleton.mp hops', hexposed] at he
      cases he
  · rw [hredis, hhistory]
    exact h.covered
  · intro task ops' call message others d hget hmem
    rw [hhistory]
    rw [htasks] at hget
    rw [List.getElem?_append] at hget
    split at hget
    · exact h.pushing task ops' call message others d hget hmem
    · rw [List.mem_singleton.mp (List.mem_of_getElem? hget)] at hmem
      exact absurd hmem (hpush call message others)
  · rw [hhistory]
    exact h.pushed
  · rw [hhistory]
    exact h.bounded

/-- 途中の message は、配達中でないままである。 -/
theorem delivery_exposed (h : Covered options s) {task : Nat} {now : ℚ} {op : Op P}
    {rest : List (Op P)} (htask : s.tasks[task]? = some (op :: rest))
    (hsettled : Settled s (.run task now)) {m : String} {ops : List (Op P)} (hops : ops ∈ s.tasks)
    (he : exposed m ops = true) :
    delivery (s.advance options task now op rest).history m = none := by
  have hnone := h.settled m ops hops he
  simp only [System.advance, delivery_append]
  split
  · exact hnone
  · next e hevent =>
    rw [hnone]
    cases e with
    | claimed q ids =>
      obtain ⟨stop, hop, hids⟩ := (op.yields options s.cache now s.redis).claimed_range hevent
      have hm : m ∉ ids := by
        intro hm
        have hhead : op ∈ s.head? (.run task now) := by simp [System.head?, htask]
        have := hsettled op hhead (q, stop) hop m (hids m hm) ops hops
        rw [this] at he
        cases he
      simp only [track, if_neg hm]
    | _ => simp [track]

/-- 一つの command の後の配達は、前からのものか、その command が起こした事で追ったものである。 -/
theorem delivery_advance {task : Nat} {now : ℚ} {op : Op P} {rest : List (Op P)} {m : String}
    {d : Delivery} (hd : delivery (s.advance options task now op rest).history m = some d) :
    (((op.prog options s.cache now).run s.redis).1.event = none ∧
      delivery s.history m = some d) ∨
      ∃ e, ((op.prog options s.cache now).run s.redis).1.event = some e ∧
        track m (delivery s.history m) (task, e) = some d := by
  simp only [System.advance, delivery_append] at hd
  split at hd
  · next hevent => exact .inl ⟨hevent, hd⟩
  · next e hevent => exact .inr ⟨e, hevent, hd⟩

/-- 配達中の message を集合から除く command は、先頭に来ない。 -/
theorem Covered.keeps (h : Covered options s) {task : Nat} {op : Op P} {rest : List (Op P)}
    (htask : s.tasks[task]? = some (op :: rest)) (now : ℚ) {m : String} {d : Delivery}
    (hd : delivery s.history m = some d) {k : Key .set} (hm : m ∈ (s.redis.get k : Finset String)) :
    m ∈ ((s.advance options task now op rest).redis.get k : Finset String) := by
  rcases mem_set_op s.redis options s.cache now op hm with hm | rfl
  · exact hm
  · have he : exposed m (.srem k m :: rest) = true := by simp [exposed, Op.ends, Op.frees]
    rw [h.settled m _ (List.mem_of_getElem? htask) he] at hd
    cases hd

theorem Covered.covered_advance (h : Covered options s) {task : Nat} {op : Op P}
    {rest : List (Op P)} (htask : s.tasks[task]? = some (op :: rest)) (now : ℚ) {m : String}
    {d : Delivery} {queue : QueueDescriptor}
    (hd : delivery (s.advance options task now op rest).history m = some d)
    (hq : d.reserved = some queue) {k : Key .set} (hk : k ∈ options.groupKeys queue) :
    m ∈ ((s.advance options task now op rest).redis.get k : Finset String) := by
  rcases delivery_advance hd with ⟨-, hd⟩ | ⟨e, hevent, htrack⟩
  · exact h.keeps htask now hd (h.covered m d queue hd hq k hk)
  · rcases track_reserved htrack hq with ⟨d₀, hd₀, hq₀⟩ | rfl
    · exact h.keeps htask now hd₀ (h.covered m d₀ queue hd₀ hq₀ k hk)
    · exact ((op.yields options s.cache now s.redis).reserved_sets hevent).2 k hk

theorem Covered.pushing_advance (h : Covered options s) {task : Nat} {op : Op P}
    {rest : List (Op P)} (htask : s.tasks[task]? = some (op :: rest)) (now : ℚ) {task' : Nat}
    {ops : List (Op P)} {call : ClaimCall} {message : String × StoredMessage P}
    {others : List (String × StoredMessage P)} {d : Delivery}
    (hget : (s.advance options task now op rest).tasks[task']? = some ops)
    (hpush : .push call message others ∈ ops)
    (hd : delivery (s.advance options task now op rest).history message.1 = some d)
    (ht : d.task = task') (hgroups : options.concurrencyGroups ≠ []) : d.reserved ≠ none := by
  have hlt : task < s.tasks.length := (List.getElem?_eq_some_iff.mp htask).1
  -- 前からあった push は、claim の後には残らない。
  have hold : ∀ ops₀, s.tasks[task']? = some ops₀ → .push call message others ∈ ops₀ →
      d.reserved ≠ none := by
    intro ops₀ hops₀ hpush₀
    rcases delivery_advance hd with ⟨-, hd⟩ | ⟨e, hevent, htrack⟩
    · exact h.pushing task' ops₀ call message others d hops₀ hpush₀ hd ht hgroups
    · rcases track_cases htrack with ⟨rfl, q, ids, rfl, -⟩ | ⟨d₀, hd₀, htask₀, hres, -⟩
      · obtain ⟨stop, hop, -⟩ := (op.yields options s.cache now s.redis).claimed_range hevent
        simp only at ht
        subst ht
        rw [htask] at hops₀
        obtain rfl := Option.some.inj hops₀
        rw [h.alone _ (List.mem_of_getElem? htask) op List.mem_cons_self
          (opening_of_claimRange hop)] at hpush₀
        obtain rfl := List.mem_singleton.mp hpush₀
        cases hop
      · exact hres (h.pushing task' ops₀ call message others d₀ hops₀ hpush₀ hd₀
          (htask₀.symm.trans ht) hgroups)
  simp only [System.advance] at hget
  rw [List.getElem?_set] at hget
  split at hget
  · next heq =>
    subst heq
    obtain rfl := Option.some.inj hget
    rcases (op.yields options s.cache now s.redis).push_cases hpush with h' | h' | h'
    · exact absurd h' hgroups
    · exact hold _ htask (List.mem_cons_of_mem _ h')
    · rcases delivery_advance hd with ⟨hevent, -⟩ | ⟨e, hevent, htrack⟩
      · rw [h'] at hevent
        cases hevent
      · rw [h'] at hevent
        obtain rfl := Option.some.inj hevent
        rcases track_cases htrack with ⟨-, q, ids, he, -⟩ | ⟨d₀, -, htask₀, -, -, hres⟩
        · cases he
        · exact hres _ rfl (htask₀.symm.trans ht)
  · exact hold ops hget hpush

theorem Covered.pushed_advance (h : Covered options s) {task : Nat} {op : Op P}
    {rest : List (Op P)} (htask : s.tasks[task]? = some (op :: rest)) (now : ℚ) {m : String}
    {d : Delivery} (hd : delivery (s.advance options task now op rest).history m = some d)
    (hp : d.pushed = true) (hgroups : options.concurrencyGroups ≠ []) : d.reserved ≠ none := by
  rcases delivery_advance hd with ⟨-, hd⟩ | ⟨e, hevent, htrack⟩
  · exact h.pushed m d hd hp hgroups
  · rcases track_cases htrack with ⟨rfl, -⟩ | ⟨d₀, hd₀, htask₀, hres, hpushed, -⟩
    · cases hp
    · refine hres ?_
      rcases hpushed hp with hp | ⟨rfl, ht⟩
      · exact h.pushed m d₀ hd₀ hp hgroups
      · obtain ⟨call, message, others, rfl, rfl⟩ :=
          (op.yields options s.cache now s.redis).pushed_op hevent
        exact h.pushing task _ call message others d₀ htask List.mem_cons_self hd₀ ht hgroups

theorem Covered.bounded_advance (h : Covered options s) {task : Nat} {op : Op P}
    {rest : List (Op P)} (now : ℚ)
    {group : ConcurrencyGroupConfig} (hgroup : group ∈ options.concurrencyGroups)
    {groupId : String} {M : Finset String}
    (hM : ∀ m ∈ M, HoldsSlot (s.advance options task now op rest).history group groupId m) :
    M.card ≤ group.limit groupId := by
  have hcases : ∀ m ∈ M, HoldsSlot s.history group groupId m ∨
      ∃ queue, ((op.prog options s.cache now).run s.redis).1.event = some (.reserved m queue) ∧
        group.extractGroupId queue = groupId := by
    intro m hm
    obtain ⟨d, queue, hd, hq, hid⟩ := hM m hm
    rcases delivery_advance hd with ⟨-, hd⟩ | ⟨e, hevent, htrack⟩
    · exact .inl ⟨d, queue, hd, hq, hid⟩
    · rcases track_reserved htrack hq with ⟨d₀, hd₀, hq₀⟩ | rfl
      · exact .inl ⟨d₀, queue, hd₀, hq₀, hid⟩
      · exact .inr ⟨queue, hevent, hid⟩
  by_cases hall : ∀ m ∈ M, HoldsSlot s.history group groupId m
  · exact h.bounded group hgroup groupId M hall
  · push Not at hall
    obtain ⟨m₀, hm₀, hnew⟩ := hall
    obtain ⟨queue, hevent, rfl⟩ := (hcases m₀ hm₀).resolve_left hnew
    -- 新しく slot を取った message のほかは、前から集合に入っている。
    have hsub : M.erase m₀ ⊆ (s.redis.get (options.concurrencyKey group queue) : Finset String) := by
      intro m hm
      obtain ⟨hne, hm⟩ := Finset.mem_erase.mp hm
      rcases hcases m hm with ⟨d, queue', hd, hq, hid⟩ | ⟨queue', hevent', -⟩
      · have hkey : options.concurrencyKey group queue' = options.concurrencyKey group queue := by
          simp only [FairQueueOptions.concurrencyKey, hid]
        rw [← hkey]
        exact h.covered m d queue' hd hq _ (List.mem_map_of_mem hgroup)
      · rw [hevent] at hevent'
        cases hevent'
        exact absurd rfl hne
    have hcard : Finset.card (s.redis.get (options.concurrencyKey group queue)) <
        group.limit (group.extractGroupId queue) :=
      ((op.yields options s.cache now s.redis).reserved_sets hevent).1 _
        (List.mem_map_of_mem hgroup)
    have hle := Finset.card_le_card hsub
    rw [Finset.card_erase_of_mem hm₀] at hle
    omega

theorem Covered.advance (h : Covered options s) {task : Nat} {now : ℚ} {op : Op P}
    {rest : List (Op P)} (htask : s.tasks[task]? = some (op :: rest))
    (hsettled : Settled s (.run task now)) : Covered options (s.advance options task now op rest) := by
  have hmem : op :: rest ∈ s.tasks := List.mem_of_getElem? htask
  have hyields := op.yields options s.cache now s.redis
  have htasks : ∀ ops ∈ (s.advance options task now op rest).tasks,
      ops ∈ s.tasks ∨ ops = ((op.prog options s.cache now).run s.redis).1.front ++ rest ++
        ((op.prog options s.cache now).run s.redis).1.back := by
    intro ops hops
    rcases List.mem_or_eq_of_mem_set hops with h | h
    · exact .inl h
    · exact .inr h
  refine ⟨fun ops hops => ?_, fun m ops hops he => ?_, ?_, ?_, ?_, ?_⟩
  · rcases htasks ops hops with hops | rfl
    · exact h.alone ops hops
    · exact (h.alone _ hmem).advance hyields
  · rcases htasks ops hops with hops | rfl
    · exact delivery_exposed h htask hsettled hops he
    · rcases hyields.exposed_cases he with hends | he
      · obtain ⟨e, hevent, htrack⟩ := hyields.track_of_ends hends
        simp only [System.advance, delivery_append, hevent, htrack]
      · exact delivery_exposed h htask hsettled hmem he
  · exact fun m d queue hd hq k hk => h.covered_advance htask now hd hq hk
  · exact fun task' ops call message others d hget hpush hd ht hgroups =>
      h.pushing_advance htask now hget hpush hd ht hgroups
  · exact fun m d hd hp hgroups => h.pushed_advance htask now hd hp hgroups
  · exact fun group hgroup groupId M hM => h.bounded_advance now hgroup hM

/-- **どの一歩も、claim が途中の message を取らなければ、不変条件を保つ。** -/
theorem Covered.step (h : Covered options s) {l : Label P} (hl : Settled s l) :
    Covered options (s.step options l) := by
  rcases System.step_cases options s l with heq | ⟨ops, hops, hredis, htasks, hhistory⟩ |
      ⟨task, now, op, rest, rfl, htask, heq⟩
  · rw [heq]
    exact h
  · exact h.start hops hredis htasks hhistory
  · rw [heq]
    exact h.advance htask hl

end Step

/-- **claim が slot を返し終えていない message を取らない実行では、どの時点でも、最新の claim が worker queue に
入れてまだ終わっていない message は、すべての group の集合に入っている。そのような message の数は、group の
上限を超えない。** -/
theorem slots_cover (options : FairQueueOptions P) (ls : List (Label P))
    (h : System.Along options Settled System.init ls) (n : Nat) :
    let s := System.exec options (ls.take n)
    (∀ m d, delivery s.history m = some d → d.pushed = true →
      ∀ group ∈ options.concurrencyGroups, ∃ queue, d.reserved = some queue ∧
        m ∈ (s.redis.get (options.concurrencyKey group queue) : Finset String)) ∧
    (∀ group ∈ options.concurrencyGroups, ∀ (groupId : String) (M : Finset String),
      (∀ m ∈ M, ∃ d queue, delivery s.history m = some d ∧ d.pushed = true ∧
        d.reserved = some queue ∧ group.extractGroupId queue = groupId) →
      M.card ≤ group.limit groupId) := by
  have hinv : Covered options (System.exec options (ls.take n)) :=
    System.Along.invariant (fun s l hs hl => hs.step hl) (covered_init options) (h.take n)
  refine ⟨fun m d hd hp group hgroup => ?_, fun group hgroup groupId M hM => ?_⟩
  · have hres := hinv.pushed m d hd hp (List.ne_nil_of_mem hgroup)
    obtain ⟨queue, hq⟩ := Option.ne_none_iff_exists'.mp hres
    exact ⟨queue, hq, hinv.covered m d queue hd hq _ (List.mem_map_of_mem hgroup)⟩
  · refine hinv.bounded group hgroup groupId M fun m hm => ?_
    obtain ⟨d, queue, hd, -, hq, hid⟩ := hM m hm
    exact ⟨d, queue, hd, hq, hid⟩

/-- tenant ごとに二つまで。 -/
def tenantGroup : ConcurrencyGroupConfig where
  name := "tenant"
  extractGroupId := QueueDescriptor.tenantId
  getLimit := fun _ => 2
  defaultLimit := 1

/-- tenant の group だけを持つ設定。 -/
def tenantOptions : FairQueueOptions Unit :=
  { sampleOptions with concurrencyGroups := [tenantGroup] }

/-- 一件を入れ、claim し、slot を取り、worker queue に入れる。 -/
def deliverOne : List (Label Unit) :=
  [.enqueue 0 "q" "t" "m1" () 0 none, .run 0 0, .claimAndPush 0 "q" "t" 0, .run 1 0, .run 1 0,
    .run 1 0, .run 1 0]

/-- `releaseMessage` が `m1` を queue に戻した後、別の consumer が `m1` を配り、それから `releaseMessage` が
slot を返す。空いたと見える二つの slot で `m2` と `m3` が配られる。 -/
def slotLostRun : List (Label Unit) :=
  deliverOne ++ [Label.message 0 .release "m1" "q", .run 2 0, .run 2 0,
    .claimAndPush 1 "q" "t" 0, .run 3 0, .run 3 0, .run 3 0, .run 3 0, .run 2 0,
    .enqueueBatch 0 "q" "t" [("m2", (), 0), ("m3", (), 0)] none, .run 4 0,
    .claimAndPush 0 "q" "t" 0, .run 5 0, .run 5 0, .run 5 0, .run 5 0, .run 5 0, .run 5 0]

/-- 配達中の `m1` が集合に無く、上限 2 の group で三件が配達中になる。 -/
theorem slot_lost :
    let s := System.exec tenantOptions slotLostRun
    (∀ m ∈ ["m1", "m2", "m3"], (delivery s.history m).map Delivery.pushed = some true ∧
      ((delivery s.history m).bind Delivery.reserved).map tenantGroup.extractGroupId = some "t") ∧
    "m1" ∉ (s.redis.get (.concurrency "tenant:t") : Finset String) ∧ tenantGroup.limit "t" = 2 := by
  decide +kernel

/-- 一件を配った後、その message は tenant の集合に入っている。 -/
theorem slots_cover_deliverOne :
    ∃ queue, "m1" ∈ ((System.exec tenantOptions deliverOne).redis.get
      (tenantOptions.concurrencyKey tenantGroup queue) : Finset String) := by
  have hd : delivery (System.exec tenantOptions deliverOne).history "m1" =
      some { task := 1, reserved := some { id := "q", tenantId := "t", metadata := [] },
             pushed := true } := by decide +kernel
  obtain ⟨hcover, -⟩ := slots_cover tenantOptions deliverOne (by decide +kernel) 7
  obtain ⟨queue, -, hm⟩ := hcover "m1" _ hd rfl tenantGroup List.mem_cons_self
  exact ⟨queue, hm⟩

end FairQueue

