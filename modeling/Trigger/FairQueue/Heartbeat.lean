import Trigger.FairQueue.Slots

/-!
# heartbeat と reclaim

heartbeat は in-flight の message の期限を延ばす。reclaim は期限切れの member を一度だけ読み、その後で一件ずつ、
期限を見直さずに queue へ戻す。読んでから戻すまでの間に成功した heartbeat は無視される
（`heartbeat_overridden`）。

heartbeat が成功する時にその member を読み終えた reclaim が残っておらず、後の command が期限を前に戻さない実行
では、延ばした期限より前の時刻を読んだ reclaim がその message を戻すことはない（`heartbeat_protects`）。
-/

namespace FairQueue

open Infra Infra.Keyspace
open Infra.Redis (ZSet)

variable {P : Type}

/-! ## 延ばした期限 -/

/-- member の in-flight を、`completeMessage`・`releaseMessage`・`failMessage` が終わらせた。 -/
def Event.finishes (shardOf : String → Nat) (shardId : Nat) (member : String) : Event → Bool
  | .completed m q => shardOf q = shardId ∧ makeMember m q = member
  | .released m q => shardOf q = shardId ∧ makeMember m q = member
  | _ => false

/-- heartbeat が延ばした期限を、起きた事に沿って追う。 -/
def extend (shardOf : String → Nat) (shardId : Nat) (member : String) (d : Option ℚ)
    (e : Nat × Event) : Option ℚ :=
  match e.2 with
  | .extended n member' deadline =>
    if n = shardId ∧ member' = member then some (max (d.getD deadline) deadline) else d
  | .completed m q => if shardOf q = shardId ∧ makeMember m q = member then none else d
  | .released m q => if shardOf q = shardId ∧ makeMember m q = member then none else d
  | _ => d

/-- 終わっていない heartbeat のうち、最も先の期限。 -/
def extension (shardOf : String → Nat) (history : List (Nat × Event)) (shardId : Nat)
    (member : String) : Option ℚ :=
  history.foldl (extend shardOf shardId member) none

section Extension

variable {shardOf : String → Nat} {shardId : Nat} {member : String}

theorem extension_append (history : List (Nat × Event)) (task : Nat) (event : Option Event) :
    extension shardOf (history ++ (event.map fun e => (task, e)).toList) shardId member =
      match event with
      | none => extension shardOf history shardId member
      | some e => extend shardOf shardId member (extension shardOf history shardId member)
          (task, e) := by
  rcases event with _ | e <;> simp [extension]

/-- 期限は、前からのものか、いま延ばしたものである。 -/
theorem extend_cases {d : Option ℚ} {e : Nat × Event} {d' : ℚ}
    (h : extend shardOf shardId member d e = some d') :
    d = some d' ∨ ∃ deadline, e.2 = .extended shardId member deadline ∧
      d' = max (d.getD deadline) deadline := by
  obtain ⟨task, e⟩ := e
  cases e with
  | extended n member' deadline =>
    simp only [extend] at h
    split at h
    · next heq =>
      obtain ⟨rfl, rfl⟩ := heq
      exact .inr ⟨deadline, rfl, (Option.some.inj h).symm⟩
    · exact .inl h
  | completed m q | released m q =>
    simp only [extend] at h
    split at h
    · cases h
    · exact .inl h
  | _ => exact .inl h

/-- 終わらない限り、延ばした期限は残る。 -/
theorem foldl_extend_ge : ∀ {history : List (Nat × Event)} {d : ℚ},
    (∀ e ∈ history, e.2.finishes shardOf shardId member = false) →
    ∃ d', history.foldl (extend shardOf shardId member) (some d) = some d' ∧ d ≤ d'
  | [], d, _ => ⟨d, rfl, le_refl d⟩
  | (task, e) :: rest, d, h => by
    have hstep : ∃ d', extend shardOf shardId member (some d) (task, e) = some d' ∧ d ≤ d' := by
      have hfin := h (task, e) List.mem_cons_self
      cases e with
      | extended n member' deadline =>
        simp only [extend]
        split
        · exact ⟨_, rfl, le_max_left _ _⟩
        · exact ⟨d, rfl, le_refl d⟩
      | completed m q | released m q =>
        exact ⟨d, if_neg (of_decide_eq_false hfin), le_refl d⟩
      | _ => exact ⟨d, rfl, le_refl d⟩
    obtain ⟨d₁, hd₁, hle₁⟩ := hstep
    obtain ⟨d₂, hd₂, hle₂⟩ := foldl_extend_ge (d := d₁) fun e he => h e (List.mem_cons_of_mem _ he)
    refine ⟨d₂, ?_, hle₁.trans hle₂⟩
    rw [List.foldl_cons, hd₁]
    exact hd₂

theorem extension_of_extended (h₁ : List (Nat × Event)) {h₂ : List (Nat × Event)} (task : Nat)
    (d : ℚ) (h : ∀ e ∈ h₂, e.2.finishes shardOf shardId member = false) :
    ∃ d', extension shardOf (h₁ ++ (task, Event.extended shardId member d) :: h₂) shardId member =
      some d' ∧ d ≤ d' := by
  obtain ⟨d', hd', hle⟩ :=
    foldl_extend_ge (d := max ((extension shardOf h₁ shardId member).getD d) d) h
  refine ⟨d', ?_, (le_max_right _ _).trans hle⟩
  have hext : extend shardOf shardId member (extension shardOf h₁ shardId member)
      (task, Event.extended shardId member d) =
        some (max ((extension shardOf h₁ shardId member).getD d) d) := if_pos ⟨rfl, rfl⟩
  rw [extension, List.foldl_append, List.foldl_cons]
  exact (congrArg (fun o => h₂.foldl (extend shardOf shardId member) o) hext).trans hd'

end Extension

/-! ## in-flight の期限 -/

section Score

variable {s : Redis P} {q : String} {k n : Nat} {member : String} {x : ℚ}

theorem score?_inflight_claimOne {deadline : ℚ} {m : String}
    (h : SortedSet.score? (((claimOne (.queue q) (.queueItems q) (.inflight n) (.inflightData n) q
      deadline m : Script P _).run s).2.get (.inflight k)) member = some x) :
    SortedSet.score? (s.get (.inflight k)) member = some x ∨
      (k = n ∧ member = makeMember m q ∧ x = deadline) := by
  simp only [claimOne, Prog.run_bind, run_hget] at h
  rcases hp : JsMap.get (s.get (.queueItems q)) m with _ | payload <;> rw [hp] at h
  · simp only [Prog.run_bind, run_zrem, Prog.run_pure] at h
    rw [Store.get_set_of_ne _ _ _ (by simp)] at h
    exact .inl h
  · simp only [Prog.run_bind, run_zrem, run_hdel, run_zadd, run_hset, Prog.run_pure] at h
    rw [Store.get_set_of_ne _ _ _ (by simp)] at h
    by_cases hk : k = n
    · subst hk
      rw [Store.get_set_self, SortedSet.score?_add] at h
      split at h
      · next heq => exact .inr ⟨rfl, heq, (Option.some.inj h).symm⟩
      · rw [Store.get_set_of_ne _ _ _ (by simp), Store.get_set_of_ne _ _ _ (by simp)] at h
        exact .inl h
    · rw [Store.get_set_of_ne _ _ _ (by simpa using hk), Store.get_set_of_ne _ _ _ (by simp),
        Store.get_set_of_ne _ _ _ (by simp)] at h
      exact .inl h

theorem score?_inflight_claimLoop {deadline : ℚ} : ∀ {ids : List String} {s : Redis P},
    SortedSet.score? (((claimLoop (.queue q) (.queueItems q) (.inflight n) (.inflightData n) q
      deadline ids : Script P _).run s).2.get (.inflight k)) member = some x →
    SortedSet.score? (s.get (.inflight k)) member = some x ∨
      (k = n ∧ (∃ m ∈ ids, member = makeMember m q) ∧ x = deadline)
  | [], _, h => .inl h
  | m :: rest, s, h => by
    simp only [claimLoop, Prog.run_bind, Prog.run_pure] at h
    rcases score?_inflight_claimLoop h with h | ⟨hk, ⟨m', hm', hmember⟩, hx⟩
    · rcases score?_inflight_claimOne h with h | ⟨hk, hmember, hx⟩
      · exact .inl h
      · exact .inr ⟨hk, ⟨m, List.mem_cons_self, hmember⟩, hx⟩
    · exact .inr ⟨hk, ⟨m', List.mem_cons_of_mem _ hm', hmember⟩, hx⟩

theorem score?_inflight_releaseOne {member' m : String} {score : ℚ}
    (h : SortedSet.score? (((releaseOne (.inflight n) (.inflightData n) (.queue q) (.queueItems q)
      member' m score : Script P Nat).run s).2.get (.inflight k)) member = some x) :
    SortedSet.score? (s.get (.inflight k)) member = some x := by
  simp only [releaseOne, Prog.run_bind, run_hget] at h
  rcases hp : JsMap.get (s.get (.inflightData n)) m with _ | payload <;> rw [hp] at h
  · exact h
  · simp only [Prog.run_bind, run_zrem, run_hdel, run_zadd, run_hset, Prog.run_pure] at h
    rw [Store.get_set_of_ne _ _ _ (by simp), Store.get_set_of_ne _ _ _ (by simp),
      Store.get_set_of_ne _ _ _ (by simp)] at h
    by_cases hk : k = n
    · subst hk
      rw [Store.get_set_self, SortedSet.score?_rem] at h
      split at h
      · cases h
      · exact h
    · rw [Store.get_set_of_ne _ _ _ (by simpa using hk)] at h
      exact h

theorem score?_inflight_releaseLoop {score : ℚ} :
    ∀ {messages : List (String × String)} {s : Redis P},
    SortedSet.score? (((releaseLoop (.inflight n) (.inflightData n) (.queue q) (.queueItems q)
      score messages : Script P Nat).run s).2.get (.inflight k)) member = some x →
    SortedSet.score? (s.get (.inflight k)) member = some x
  | [], _, h => h
  | (_, _) :: rest, s, h => by
    simp only [releaseLoop, Prog.run_bind, Prog.run_pure] at h
    exact score?_inflight_releaseOne (score?_inflight_releaseLoop h)

theorem get_inflight_updateMasterQueue {j : Nat} :
    ((updateMasterQueue (.masterQueue j) (.queue q) q : Script P Unit).run s).2.get (.inflight k) =
      s.get (.inflight k) :=
  (uses_updateMasterQueue (U := {⟨_, .queue q⟩, ⟨_, .masterQueue j⟩}) (by simp) (by simp) q).frame
    (by simp) s

theorem score?_inflight_releaseMessage {j : Nat} {member' m : String} {score : ℚ}
    (h : SortedSet.score? (((releaseMessageLua (.inflight n) (.inflightData n) (.queue q)
      (.queueItems q) (.masterQueue j) member' m score q : Script P Nat).run s).2.get
        (.inflight k)) member = some x) :
    SortedSet.score? (s.get (.inflight k)) member = some x := by
  simp only [releaseMessageLua, Prog.run_bind] at h
  split at h
  · exact score?_inflight_releaseOne h
  · rw [Prog.run_bind, Prog.run_pure, get_inflight_updateMasterQueue] at h
    exact score?_inflight_releaseOne h

theorem score?_inflight_releaseMessageBatch {j : Nat} {messages : List (String × String)}
    {score : ℚ}
    (h : SortedSet.score? (((releaseMessageBatchLua (.inflight n) (.inflightData n) (.queue q)
      (.queueItems q) (.masterQueue j) score q messages : Script P Nat).run s).2.get
        (.inflight k)) member = some x) :
    SortedSet.score? (s.get (.inflight k)) member = some x := by
  simp only [releaseMessageBatchLua, Prog.run_bind] at h
  split at h
  · exact score?_inflight_releaseLoop h
  · rw [Prog.run_bind, Prog.run_pure, get_inflight_updateMasterQueue] at h
    exact score?_inflight_releaseLoop h

end Score

/-- 期限を延ばすのは heartbeat だけで、何も続けない。 -/
theorem Yields.extended_op {options : FairQueueOptions P} {cache : Cache} {now : ℚ} {s s' : Redis P}
    {op : Op P} {out : Outcome P} (h : Yields options cache now s s' op out) {n : Nat}
    {member : String} {d : ℚ} (he : out.event = some (.extended n member d)) :
    out.front = [] ∧ out.back = [] ∧ ∃ m q, op = .heartbeat m q ∧ n = options.shardOf q ∧
      member = makeMember m q ∧ d = now + options.heartbeatIntervalMs ∧
      SortedSet.score? (s.get (.inflight n)) member ≠ none := by
  cases h with
  | extended m q hscore => cases he; exact ⟨rfl, rfl, m, q, rfl, rfl, rfl, rfl, hscore⟩
  | _ => cases he

/-- claim の期限。 -/
def Op.deadline (options : FairQueueOptions P) (now : ℚ) : Op P → ℚ
  | .claim _ timeoutMs => now + timeoutMs
  | _ => now + options.visibilityTimeoutMs

/-- **in-flight の期限を決めるのは、claim と heartbeat だけである。** -/
theorem score?_inflight_op (options : FairQueueOptions P) (cache : Cache) (now : ℚ) (op : Op P)
    {s : Redis P} {k : Nat} {member : String} {x : ℚ}
    (h : SortedSet.score? (((op.prog options cache now).run s).2.get (.inflight k)) member =
      some x) :
    (SortedSet.score? (s.get (.inflight k)) member = some x ∧ ∀ deadline,
      ((op.prog options cache now).run s).1.event ≠ some (.extended k member deadline)) ∨
      (∃ q stop m, op.claimRange = some (q, stop) ∧ m ∈ takeTo stop (s.get (.queue q)) ∧
        k = options.shardOf q ∧ member = makeMember m q ∧ x = op.deadline options now) ∨
      ((op.prog options cache now).run s).1.event = some (.extended k member x) := by
  cases op with
  | claim q timeoutMs =>
    simp only [Op.prog, claimMessageLua, Prog.run_bind, run_zrange, Prog.run_pure] at h ⊢
    rcases htake : takeTo 0 (s.get (.queue q)) with _ | ⟨m, others⟩ <;> rw [htake] at h
    · exact .inl ⟨h, by simp⟩
    · simp only [Prog.run_bind, Prog.run_pure] at h
      rcases score?_inflight_claimOne h with h | ⟨hk, hmember, hx⟩
      · exact .inl ⟨h, by simp⟩
      · exact .inr (.inl ⟨q, 0, m, rfl, by simp [htake], hk, hmember, hx⟩)
  | claimBatch call maxCount =>
    simp only [Op.prog, claimMessageBatchLua, Prog.run_bind, run_zrange, Prog.run_pure] at h ⊢
    rcases score?_inflight_claimLoop h with h | ⟨hk, ⟨m, hm, hmember⟩, hx⟩
    · exact .inl ⟨h, by simp⟩
    · exact .inr (.inl ⟨_, _, m, rfl, hm, hk, hmember, hx⟩)
  | releaseBatch call messageIds =>
    simp only [Op.prog, Prog.run_bind, Prog.run_pure] at h ⊢
    exact .inl ⟨score?_inflight_releaseMessageBatch h, by simp⟩
  | release messageId queueId delay =>
    simp only [Op.prog, Prog.run_bind, Prog.run_pure] at h ⊢
    exact .inl ⟨score?_inflight_releaseMessage h, by simp⟩
  | reclaim shardId clock member' score =>
    simp only [Op.prog, Prog.run_bind, Prog.run_pure] at h ⊢
    exact .inl ⟨score?_inflight_releaseMessage h, by simp⟩
  | zremInflight messageId queueId =>
    simp only [Op.prog, Prog.run_bind, run_zrem, Prog.run_pure] at h ⊢
    refine .inl ⟨?_, by simp⟩
    by_cases hk : k = options.shardOf queueId
    · subst hk
      rw [Store.get_set_self, SortedSet.score?_rem] at h
      split at h
      · cases h
      · exact h
    · rw [Store.get_set_of_ne _ _ _ (by simpa using hk)] at h
      exact h
  | reclaimScan shardId =>
    simp only [Op.prog, Prog.run_bind, run_zrangeByScore, Prog.run_pure] at h ⊢
    exact .inl ⟨h, by simp⟩
  | heartbeat messageId queueId =>
    simp only [Op.prog, heartbeatMessageLua, Prog.run_bind, run_zscore, Prog.run_pure] at h ⊢
    rcases hscore : SortedSet.score? (s.get (.inflight (options.shardOf queueId)))
        (makeMember messageId queueId) with _ | y <;> rw [hscore] at h
    · exact .inl ⟨h, by simp⟩
    · simp only [Prog.run_bind, run_zadd, Prog.run_pure] at h ⊢
      by_cases hk : k = options.shardOf queueId
      · subst hk
        rw [Store.get_set_self, SortedSet.score?_add] at h
        split at h
        · next heq =>
          subst heq
          exact .inr (.inr (by simpa using h))
        · next hne => exact .inl ⟨h, by simp [Ne.symm hne]⟩
      · rw [Store.get_set_of_ne _ _ _ (by simpa using hk)] at h
        exact .inl ⟨h, by simp [Ne.symm hk]⟩
  | _ =>
    -- 残りの command は、in-flight に触れない。
    rw [Op.get_of_notMem _ _ _ _ _ (by simp [Op.footprint, FairQueueOptions.groupKeys])] at h
    refine .inl ⟨h, fun deadline he => ?_⟩
    obtain ⟨-, -, m, q, hop, -⟩ := (Op.yields ..).extended_op he
    cases hop

/-! ## 条件 -/

/-- reclaim が member を読み終えて、まだ戻していない。値はその reclaim の時刻。 -/
def Op.reclaims (shardId : Nat) (member : String) : Op P → Option ℚ
  | .reclaimGet n clock member' => if n = shardId ∧ member' = member then some clock else none
  | .reclaim n clock member' _ => if n = shardId ∧ member' = member then some clock else none
  | _ => none

/-- heartbeat の message と queue。 -/
def Op.beats : Op P → Option (String × String)
  | .heartbeat m q => some (m, q)
  | _ => none

/-- 一歩の前に読む時刻。 -/
def Label.now : Label P → ℚ
  | .run _ now => now
  | _ => 0

/-- 成功する heartbeat の時に、新しい期限より前の時刻で member を読み終えた reclaim が残っていない。heartbeat は
延ばした期限を前に戻さない。 -/
def Beats (options : FairQueueOptions P) (s : System P) (now : ℚ) (m q : String) : Prop :=
  SortedSet.score? (s.redis.get (.inflight (options.shardOf q))) (makeMember m q) ≠ none →
    (∀ ops ∈ s.tasks, ∀ op ∈ ops, ∀ clock ∈ op.reclaims (options.shardOf q) (makeMember m q),
      now + options.heartbeatIntervalMs ≤ clock) ∧
    ∀ d ∈ extension options.shardOf s.history (options.shardOf q) (makeMember m q),
      d ≤ now + options.heartbeatIntervalMs

instance decidableBeats (options : FairQueueOptions P) (s : System P) (now : ℚ) (m q : String) :
    Decidable (Beats options s now m q) :=
  inferInstanceAs (Decidable (_ → (_ ∧ _)))

/-- 一歩の条件。heartbeat は `Beats` を満たし、claim は延ばした期限を前に戻さない。 -/
def Guarded (options : FairQueueOptions P) (s : System P) (l : Label P) : Prop :=
  ∀ op ∈ s.head? l, (∀ b ∈ op.beats, Beats options s l.now b.1 b.2) ∧
    ∀ r ∈ op.claimRange, ∀ m ∈ takeTo r.2 (s.redis.get (.queue r.1)),
      ∀ d ∈ extension options.shardOf s.history (options.shardOf r.1) (makeMember m r.1),
        d ≤ op.deadline options l.now

instance decidableGuarded (options : FairQueueOptions P) (s : System P) (l : Label P) :
    Decidable (Guarded options s l) :=
  inferInstanceAs (Decidable (∀ op ∈ s.head? l, _ ∧ _))

/-! ## 不変条件 -/

/-- 延ばした期限は、in-flight の期限と、読み終えた reclaim の時刻を超えない。戻した reclaim の時刻も超えない。 -/
structure Protected (options : FairQueueOptions P) (s : System P) : Prop where
  score : ∀ n member d x, extension options.shardOf s.history n member = some d →
    SortedSet.score? (s.redis.get (.inflight n)) member = some x → d ≤ x
  pending : ∀ n member d, extension options.shardOf s.history n member = some d →
    ∀ ops ∈ s.tasks, ∀ op ∈ ops, ∀ clock, op.reclaims n member = some clock → d ≤ clock
  kept : ∀ h₁ task n member d h₂ task' clock released h₃,
    s.history = h₁ ++ (task, Event.extended n member d) :: h₂ ++
      (task', Event.reclaimed n member clock released) :: h₃ →
    (∀ e ∈ h₂, e.2.finishes options.shardOf n member = false) → d ≤ clock

theorem protected_init (options : FairQueueOptions P) :
    Protected options (System.init : System P) where
  score := by simp [System.init, extension]
  pending := by simp [System.init]
  kept := by simp [System.init]

section Step

variable {options : FairQueueOptions P} {s : System P}

theorem reclaims_of_closing {op : Op P} (h : op.closing = true) (n : Nat) (member : String) :
    op.reclaims n member = none := by
  cases op with
  | reclaimGet | reclaim => cases h
  | _ => rfl

theorem reclaims_claimNext {call : ClaimCall} {messages : List (String × StoredMessage P)}
    {op : Op P} (h : op ∈ options.claimNext call messages) (n : Nat) (member : String) :
    op.reclaims n member = none := by
  rcases messages with _ | ⟨message, rest⟩
  · cases h
  · simp only [FairQueueOptions.claimNext] at h
    split at h <;> · obtain rfl := List.mem_singleton.mp h
                     rfl

/-- 読み終えた reclaim が増えるのは、期限切れの member を読んだときだけである。 -/
theorem Yields.reclaims_front {cache : Cache} {now : ℚ} {s s' : Redis P} {op op' : Op P}
    {out : Outcome P} (h : Yields options cache now s s' op out) (hop : op' ∈ out.front) {n : Nat}
    {member : String} {clock : ℚ} (hr : op'.reclaims n member = some clock) :
    op.reclaims n member = some clock ∨
      (clock = now ∧ ∃ x, SortedSet.score? (s.get (.inflight n)) member = some x ∧ x ≤ now) := by
  cases h with
  | claimBatch call maxCount ids messages hids hmessages hnodup =>
    rw [reclaims_claimNext hop] at hr
    cases hr
  | push call message rest =>
    rw [reclaims_claimNext hop] at hr
    cases hr
  | getMessage inst purpose messageId queueId =>
    rw [reclaims_of_closing (closing_afterGet options cache now hop)] at hr
    cases hr
  | scan shardId members hmembers =>
    obtain ⟨e, he, rfl⟩ := List.mem_map.mp hop
    simp only [Op.reclaims] at hr
    split at hr
    · next heq =>
      obtain ⟨rfl, rfl⟩ := heq
      exact .inr ⟨(Option.some.inj hr).symm, e.2, hmembers e he⟩
    · cases hr
  | reclaimGet shardId clock' member' score queue =>
    obtain rfl := List.mem_singleton.mp hop
    exact .inl hr
  | redrive inst tenantId messageId message c =>
    simp only [List.mem_cons, List.not_mem_nil, or_false] at hop
    rcases hop with rfl | rfl | rfl <;> cases hr
  | scard | capacity | claimNone | reserved | full =>
    obtain rfl := List.mem_singleton.mp hop
    cases hr
  | _ => cases hop

/-- queue へ戻すのは、読み終えた reclaim である。 -/
theorem Yields.reclaimed_op {cache : Cache} {now : ℚ} {s s' : Redis P} {op : Op P}
    {out : Outcome P} (h : Yields options cache now s s' op out) {n : Nat} {member : String}
    {clock : ℚ} {released : Bool} (he : out.event = some (.reclaimed n member clock released)) :
    op.reclaims n member = some clock := by
  cases h with
  | reclaimed shardId clock member score released => cases he; exact if_pos ⟨rfl, rfl⟩
  | _ => cases he

theorem System.Starts.reclaims {ops : List (Op P)} (h : System.Starts options s ops) {op : Op P}
    (hop : op ∈ ops) (n : Nat) (member : String) : op.reclaims n member = none := by
  cases h with
  | claimAndPush inst queueId tenantId shardId =>
    simp only [System.claimStart] at hop
    split at hop <;> · obtain rfl := List.mem_singleton.mp hop
                       rfl
  | _ =>
    obtain rfl := List.mem_singleton.mp hop
    rfl

theorem Protected.start (h : Protected options s) {s' : System P} {ops : List (Op P)}
    (hops : System.Starts options s ops) (hredis : s'.redis = s.redis)
    (htasks : s'.tasks = s.tasks ++ [ops]) (hhistory : s'.history = s.history) :
    Protected options s' := by
  refine ⟨?_, ?_, ?_⟩
  · rw [hhistory, hredis]
    exact h.score
  · intro n member d hd ops' hops' op hop clock hr
    rw [hhistory] at hd
    rw [htasks] at hops'
    rcases List.mem_append.mp hops' with hops' | hops'
    · exact h.pending n member d hd ops' hops' op hop clock hr
    · rw [List.mem_singleton.mp hops'] at hop
      rw [hops.reclaims hop] at hr
      cases hr
  · rw [hhistory]
    exact h.kept

section Advance

variable {task : Nat} {now : ℚ} {op : Op P} {rest : List (Op P)}

/-- 一つの command の後の期限は、前からのものか、成功した heartbeat の新しい期限である。 -/
theorem extension_advance (htask : s.tasks[task]? = some (op :: rest))
    (hg : Guarded options s (.run task now)) {n : Nat}
    {member : String} {d : ℚ}
    (hd : extension options.shardOf (s.advance options task now op rest).history n member = some d) :
    (extension options.shardOf s.history n member = some d) ∨
      (((op.prog options s.cache now).run s.redis).1.event = some (.extended n member d) ∧
        ∀ ops ∈ s.tasks, ∀ op ∈ ops, ∀ clock, op.reclaims n member = some clock → d ≤ clock) := by
  simp only [System.advance, extension_append] at hd
  split at hd
  · exact .inl hd
  · next e hevent =>
    rcases extend_cases hd with hd | ⟨deadline, rfl, hmax⟩
    · exact .inl hd
    · have hhead : op ∈ s.head? (.run task now) := by simp [System.head?, htask]
      obtain ⟨-, -, m, q, rfl, rfl, rfl, rfl, hscore⟩ :=
        (op.yields options s.cache now s.redis).extended_op hevent
      obtain ⟨hpending, hext⟩ := (hg _ hhead).1 (m, q) rfl hscore
      have hd' : d = now + options.heartbeatIntervalMs := by
        rw [hmax]
        rcases hold : extension options.shardOf s.history (options.shardOf q) (makeMember m q)
          with _ | d₀
        · exact max_self _
        · exact max_eq_right (hext d₀ hold)
      subst hd'
      exact .inr ⟨hevent, hpending⟩

theorem Protected.score_advance (h : Protected options s)
    (htask : s.tasks[task]? = some (op :: rest)) (hg : Guarded options s (.run task now)) {n : Nat}
    {member : String} {d x : ℚ}
    (hd : extension options.shardOf (s.advance options task now op rest).history n member = some d)
    (hx : SortedSet.score? ((s.advance options task now op rest).redis.get (.inflight n)) member =
      some x) : d ≤ x := by
  have hhead : op ∈ s.head? (.run task now) := by simp [System.head?, htask]
  rcases extension_advance htask hg hd with hold | ⟨hevent, -⟩
  · rcases score?_inflight_op options s.cache now op hx with ⟨hx, -⟩ |
        ⟨q, stop, m, hop, hm, rfl, rfl, rfl⟩ | hx
    · exact h.score n member d x hold hx
    · exact (hg op hhead).2 (q, stop) hop m hm d hold
    · obtain ⟨-, -, m, q, rfl, rfl, rfl, rfl, hscore⟩ :=
        (op.yields options s.cache now s.redis).extended_op hx
      exact ((hg _ hhead).1 (m, q) rfl hscore).2 d hold
  · rcases score?_inflight_op options s.cache now op hx with ⟨-, hne⟩ | ⟨q, stop, m, hop, -⟩ | hx
    · exact absurd hevent (hne d)
    · obtain ⟨-, -, m, q, rfl, -⟩ := (op.yields options s.cache now s.redis).extended_op hevent
      cases hop
    · rw [hevent] at hx
      cases hx
      exact le_refl d

theorem Protected.pending_advance (h : Protected options s)
    (htask : s.tasks[task]? = some (op :: rest)) (hg : Guarded options s (.run task now)) {n : Nat}
    {member : String} {d : ℚ}
    (hd : extension options.shardOf (s.advance options task now op rest).history n member = some d)
    {ops : List (Op P)} (hops : ops ∈ (s.advance options task now op rest).tasks) {op' : Op P}
    (hop : op' ∈ ops) {clock : ℚ} (hr : op'.reclaims n member = some clock) : d ≤ clock := by
  have hmem : op :: rest ∈ s.tasks := List.mem_of_getElem? htask
  have hyields := op.yields options s.cache now s.redis
  have hold : ∀ ops ∈ s.tasks, ∀ op ∈ ops, ∀ clock, op.reclaims n member = some clock →
      d ≤ clock := by
    rcases extension_advance htask hg hd with hd | ⟨-, hpending⟩
    · exact h.pending n member d hd
    · exact hpending
  rcases List.mem_or_eq_of_mem_set hops with hops | rfl
  · exact hold ops hops op' hop clock hr
  · rcases List.mem_append.mp hop with hop | hop
    · rcases List.mem_append.mp hop with hop | hop
      · rcases hyields.reclaims_front hop hr with hr | ⟨rfl, x, hx, hle⟩
        · exact hold _ hmem op List.mem_cons_self clock hr
        · rcases extension_advance htask hg hd with hd | ⟨hevent, -⟩
          · exact (h.score n member d x hd hx).trans hle
          · rw [(hyields.extended_op hevent).1] at hop
            cases hop
      · exact hold _ hmem op' (List.mem_cons_of_mem _ hop) clock hr
    · rcases hyields.back_cases with hb | ⟨shardId, clock, member, queue, score, hf, hb⟩ <;>
        rw [hb] at hop
      · cases hop
      · rw [reclaims_of_closing (closing_releaseSlots options hop)] at hr
        cases hr

theorem Protected.kept_advance (h : Protected options s)
    (htask : s.tasks[task]? = some (op :: rest)) {h₁ h₂ h₃ : List (Nat × Event)} {t t' n : Nat}
    {member : String} {d clock : ℚ} {released : Bool}
    (hhistory : (s.advance options task now op rest).history =
      h₁ ++ (t, Event.extended n member d) :: h₂ ++
        (t', Event.reclaimed n member clock released) :: h₃)
    (hkeep : ∀ e ∈ h₂, e.2.finishes options.shardOf n member = false) : d ≤ clock := by
  simp only [System.advance] at hhistory
  rcases hevent : ((op.prog options s.cache now).run s.redis).1.event with _ | e <;>
    rw [hevent] at hhistory
  · simp only [Option.map_none, Option.toList_none, List.append_nil] at hhistory
    exact h.kept _ _ _ _ _ _ _ _ _ _ hhistory hkeep
  · simp only [Option.map_some, Option.toList_some] at hhistory
    rcases List.eq_nil_or_concat h₃ with rfl | ⟨h₄, last, rfl⟩
    · -- いまの command が reclaim である。
      obtain ⟨hold, hlast⟩ := List.append_inj' hhistory rfl
      obtain rfl : e = .reclaimed n member clock released :=
        (Prod.mk.inj (List.cons.inj hlast).1).2
      obtain ⟨d', hd', hle⟩ := extension_of_extended h₁ t d hkeep
      rw [← hold] at hd'
      have hr : op.reclaims n member = some clock :=
        (op.yields options s.cache now s.redis).reclaimed_op hevent
      exact hle.trans (h.pending n member d' hd' _ (List.mem_of_getElem? htask) op
        List.mem_cons_self clock hr)
    · rw [List.concat_eq_append, ← List.cons_append, ← List.append_assoc] at hhistory
      obtain ⟨hold, -⟩ := List.append_inj' hhistory rfl
      exact h.kept _ _ _ _ _ _ _ _ _ _ hold hkeep

theorem Protected.advance (h : Protected options s) (htask : s.tasks[task]? = some (op :: rest))
    (hg : Guarded options s (.run task now)) :
    Protected options (s.advance options task now op rest) where
  score _ _ _ _ hd hx := h.score_advance htask hg hd hx
  pending _ _ _ hd _ hops _ hop _ hr := h.pending_advance htask hg hd hops hop hr
  kept _ _ _ _ _ _ _ _ _ _ hhistory hkeep := h.kept_advance htask hhistory hkeep

end Advance

/-- **条件を満たす一歩は、不変条件を保つ。** -/
theorem Protected.step (h : Protected options s) {l : Label P} (hl : Guarded options s l) :
    Protected options (s.step options l) := by
  rcases System.step_cases options s l with heq | ⟨ops, hops, hredis, htasks, hhistory⟩ |
      ⟨task, now, op, rest, rfl, htask, heq⟩
  · rw [heq]
    exact h
  · exact h.start hops hredis htasks hhistory
  · rw [heq]
    exact h.advance htask hl

end Step

/-- **heartbeat の成功する時に、新しい期限より前の時刻で読み終えた reclaim が残っておらず、後の heartbeat と claim
が期限を前に戻さない実行では、期限 `d` に延ばされた member を、`d` より前の時刻を読んだ reclaim が戻すことは
ない。** 間に `completeMessage`・`releaseMessage`・`failMessage` がその member を終わらせた場合を除く。 -/
theorem heartbeat_protects (options : FairQueueOptions P) (ls : List (Label P))
    (h : System.Along options (Guarded options) System.init ls)
    (h₁ h₂ h₃ : List (Nat × Event)) (task task' shardId : Nat) (member : String) (d clock : ℚ)
    (released : Bool)
    (hhistory : (System.exec options ls).history =
      h₁ ++ (task, Event.extended shardId member d) :: h₂ ++
        (task', Event.reclaimed shardId member clock released) :: h₃)
    (hkeep : ∀ e ∈ h₂, e.2.finishes options.shardOf shardId member = false) : d ≤ clock := by
  have hinv : Protected options (System.exec options ls) :=
    System.Along.invariant (fun s l hs hl => hs.step hl) (protected_init options) h
  exact hinv.kept _ _ _ _ _ _ _ _ _ _ hhistory hkeep

/-- 一件を配り、reclaim が時刻 40000 に期限切れの member を読む。 -/
def scanRun : List (Label Unit) :=
  [.enqueue 0 "q" "t" "m1" () 0 none, .run 0 0, .claimAndPush 0 "q" "t" 0, .run 1 0, .run 1 0]

/-- reclaim が時刻 40000 に `m1` を読んだ後、heartbeat が期限を 50000 に延ばし、それから reclaim が戻す。 -/
def overriddenRun : List (Label Unit) :=
  scanRun ++ [Label.reclaim 0, .run 2 40000, .heartbeat "m1" "q", .run 3 40000, .run 2 40000,
    .run 2 40000]

/-- 期限 50000 に延ばされた `m1` が、時刻 40000 を読んだ reclaim で queue に戻る。 -/
theorem heartbeat_overridden :
    let s := System.exec sampleOptions overriddenRun
    s.history.drop 2 =
      [(3, .extended 0 "m1:q" 50000), (2, .reclaimed 0 "m1:q" 40000 true)] ∧
    SortedSet.score? (s.redis.get (.queue "q")) "m1" = some 0 := by
  decide +kernel

/-- heartbeat が先なら、時刻 50000 に読んだ reclaim だけが戻す。 -/
theorem heartbeat_protects_sample :
    ∃ released, (System.exec sampleOptions (scanRun ++ [Label.heartbeat "m1" "q", .run 2 20000,
      .reclaim 0, .run 3 50000, .run 3 50000, .run 3 50000])).history.drop 2 =
        [(2, .extended 0 "m1:q" 30000), (3, .reclaimed 0 "m1:q" 50000 released)] ∧
      (30000 : ℚ) ≤ 50000 := by
  refine ⟨true, by decide +kernel, ?_⟩
  exact heartbeat_protects sampleOptions (scanRun ++ [Label.heartbeat "m1" "q", .run 2 20000,
    .reclaim 0, .run 3 50000, .run 3 50000, .run 3 50000]) (by decide +kernel)
    [(1, .claimed "q" ["m1"]), (1, .pushed "m1")] [] [] 2 3 0 "m1:q" _ _ true (by decide +kernel)
    (by simp)

end FairQueue
