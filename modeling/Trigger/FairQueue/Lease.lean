import Mathlib.Tactic.Linarith
import Trigger.FairQueue.Heartbeat
import Trigger.Infra.Machine

/-!
# in-flight の期限の長さ

claim は in-flight の期限を `visibilityTimeoutMs` だけ先に置き、`heartbeatMessage` は
`heartbeatIntervalMs`（既定では `visibilityTimeoutMs / 3`）だけ先に置き直す。`ZADD` は期限の前後を見ないので、
claim の直後の heartbeat は期限を縮める（`heartbeat_shortens`）。

claim と heartbeat の任意の列について、どの heartbeat も期限を縮めないことを、claim の後の最初の heartbeat の
時刻の条件で言い換える（`heartbeat_never_shortens_iff`）。
-/

namespace FairQueue

open Infra Infra.Keyspace Infra.Machine
open Infra.Redis (ZSet)

variable {P : Type}

/-- constructor が決める二つの長さ。 -/
def FairQueueOptions.withTimeouts (options : FairQueueOptions P)
    (visibilityTimeoutMs heartbeatIntervalMs : Option ℚ) : FairQueueOptions P :=
  let visibilityTimeoutMs := visibilityTimeoutMs.getD 30000
  { options with
    visibilityTimeoutMs := visibilityTimeoutMs
    heartbeatIntervalMs := heartbeatIntervalMs.getD (visibilityTimeoutMs / 3) }

/-! ## claim の後の期限 -/

section Claim

variable {s : Redis P} {q : String} {k n : Nat} {member : String}

/-- 一件の claim は、payload を返したときに限り、その member の期限を置く。 -/
theorem score?_claimOne (deadline : ℚ) (m : String) :
    let r := (claimOne (.queue q) (.queueItems q) (.inflight n) (.inflightData n) q deadline m :
      Script P _).run s
    SortedSet.score? (r.2.get (.inflight k)) member =
      if k = n ∧ r.1.isSome ∧ makeMember m q = member then some deadline
      else SortedSet.score? (s.get (.inflight k)) member := by
  simp only [claimOne, Prog.run_bind, run_hget]
  rcases hp : JsMap.get (s.get (.queueItems q)) m with _ | payload
  · simp only [Prog.run_bind, run_zrem, Prog.run_pure]
    rw [Store.get_set_of_ne _ _ _ (by simp), if_neg (by simp)]
  · simp only [Prog.run_bind, run_zrem, run_hdel, run_zadd, run_hset, Prog.run_pure,
      Option.isSome_some, true_and]
    rw [Store.get_set_of_ne _ _ _ (by simp)]
    by_cases hk : k = n
    · subst hk
      rw [Store.get_set_self, SortedSet.score?_add, Store.get_set_of_ne _ _ _ (by simp),
        Store.get_set_of_ne _ _ _ (by simp)]
      simp only [true_and, eq_comm]
    · rw [Store.get_set_of_ne _ _ _ (by simpa using hk), Store.get_set_of_ne _ _ _ (by simp),
        Store.get_set_of_ne _ _ _ (by simp), if_neg fun h => hk h.1]

/-- 返された message の member にだけ期限が置かれる。 -/
theorem score?_claimLoop (deadline : ℚ) : ∀ (ids : List String) (s : Redis P),
    let r := (claimLoop (.queue q) (.queueItems q) (.inflight n) (.inflightData n) q deadline ids :
      Script P _).run s
    SortedSet.score? (r.2.get (.inflight k)) member =
      if k = n ∧ ∃ m ∈ r.1.map Prod.fst, makeMember m q = member then some deadline
      else SortedSet.score? (s.get (.inflight k)) member
  | [], s => by simp [claimLoop]
  | m :: rest, s => by
    simp only [claimLoop, Prog.run_bind, Prog.run_pure]
    rw [score?_claimLoop deadline rest, score?_claimOne]
    generalize (claimOne (.queue q) (.queueItems q) (.inflight n) (.inflightData n) q deadline m :
      Script P _).run s = r
    rcases r with ⟨_ | payload, s'⟩
    · rw [if_neg (by simp : ¬ (k = n ∧ (none : Option (Stored P)).isSome ∧ _))]
      exact if_congr Iff.rfl rfl rfl
    · by_cases hm : k = n ∧ makeMember m q = member
      · simp [hm]
      -- この message の member は別のものなので、残りの message だけが効く。
      · have hother : ¬ (k = n ∧ (some payload).isSome ∧ makeMember m q = member) := by
          simpa using hm
        rw [if_neg hother]
        refine if_congr ?_ rfl rfl
        simp only [Option.map_some, Option.toList_some, List.singleton_append, List.map_cons,
          List.exists_mem_cons_iff]
        constructor
        · rintro ⟨hk, hex⟩
          exact ⟨hk, .inr hex⟩
        · rintro ⟨hk, heq | hex⟩
          · exact absurd ⟨hk, heq⟩ hm
          · exact ⟨hk, hex⟩

end Claim

/-! ## claim と heartbeat の列 -/

/-- claim と heartbeat の呼び出し。 -/
inductive LeaseCall
  | claim (queueId : String)
  | claimBatch (call : ClaimCall) (maxCount : Nat)
  | heartbeat (messageId queueId : String)
deriving DecidableEq

/-- 呼び出しの command。claim の長さは `visibilityTimeoutMs` である。 -/
def LeaseCall.op (options : FairQueueOptions P) : LeaseCall → Op P
  | .claim queueId => .claim queueId options.visibilityTimeoutMs
  | .claimBatch call maxCount => .claimBatch call maxCount
  | .heartbeat messageId queueId => .heartbeat messageId queueId

/-- 呼び出しの列の途中。`claimedAt` は、注目する member を claim した時刻で、その後に heartbeat があれば
`none` である。 -/
structure Lease (P : Type) where
  redis : Redis P
  clock : ℚ
  claimedAt : Option ℚ

section Run

variable (options : FairQueueOptions P) (shardId : Nat) (member : String)

/-- member を claim した時刻を、起きた事に沿って追う。 -/
def claimTime (now : ℚ) (claimedAt : Option ℚ) : Option Event → Option ℚ
  | some (.claimed q ids) =>
    if options.shardOf q = shardId ∧ ∃ m ∈ ids, makeMember m q = member then some now else claimedAt
  | some (.extended n member' _) => if n = shardId ∧ member' = member then none else claimedAt
  | _ => claimedAt

/-- 時刻 `e.1` に `e.2` を呼ぶ。 -/
def leaseStep (l : Lease P) (e : ℚ × LeaseCall) : Lease P :=
  let r := ((e.2.op options).prog options (fun _ _ => none) e.1).run l.redis
  { redis := r.2
    clock := e.1
    claimedAt := claimTime options shardId member e.1 l.claimedAt r.1.event }

/-- 注目する member の期限。 -/
def Lease.deadline? (l : Lease P) : Option ℚ :=
  SortedSet.score? (l.redis.get (.inflight shardId)) member

/-- 呼び出しが注目する member の heartbeat である。 -/
def LeaseCall.beats : LeaseCall → Prop
  | .heartbeat messageId queueId =>
    options.shardOf queueId = shardId ∧ makeMember messageId queueId = member
  | _ => False

instance (c : LeaseCall) : Decidable (c.beats options shardId member) := by
  cases c <;> unfold LeaseCall.beats <;> infer_instance

/-- 時刻は前に戻らない。 -/
def NonDecreasing (l : Lease P) (e : ℚ × LeaseCall) : Prop := l.clock ≤ e.1

instance (l : Lease P) (e : ℚ × LeaseCall) : Decidable (NonDecreasing l e) :=
  inferInstanceAs (Decidable (l.clock ≤ e.1))

/-- heartbeat が期限を縮めない。 -/
def KeepsDeadline (l : Lease P) (e : ℚ × LeaseCall) : Prop :=
  e.2.beats options shardId member → ∀ d ∈ l.deadline? shardId member,
    ∃ d' ∈ (leaseStep options shardId member l e).deadline? shardId member, d ≤ d'

/-- claim の後の最初の heartbeat は、長さの差だけ待ってから来る。 -/
def Timely (l : Lease P) (e : ℚ × LeaseCall) : Prop :=
  e.2.beats options shardId member → ∀ t ∈ l.claimedAt,
    options.visibilityTimeoutMs - options.heartbeatIntervalMs ≤ e.1 - t

instance (l : Lease P) (e : ℚ × LeaseCall) : Decidable (Timely options shardId member l e) :=
  inferInstanceAs (Decidable (_ → ∀ t ∈ l.claimedAt, _))

end Run

/-! ## 期限の不変条件 -/

section Invariant

variable {options : FairQueueOptions P} {shardId : Nat} {member : String} {l : Lease P}
  {e : ℚ × LeaseCall}

/-- 期限は、claim の時刻か、最後の heartbeat の時刻から決まる。 -/
structure LeaseInv (options : FairQueueOptions P) (shardId : Nat) (member : String) (l : Lease P) :
    Prop where
  claimed : ∀ t ∈ l.claimedAt, l.deadline? shardId member = some (t + options.visibilityTimeoutMs)
  extended : l.claimedAt = none → ∀ d ∈ l.deadline? shardId member,
    ∃ t, t ≤ l.clock ∧ d = t + options.heartbeatIntervalMs

variable (options shardId member l) in
/-- claim は、返した message の member の期限だけを置く。 -/
theorem leaseStep_claims (hc : ∀ m q, e.2 ≠ .heartbeat m q) :
    ∃ (q : String) (ids : List String), leaseStep options shardId member l e =
        { redis := (leaseStep options shardId member l e).redis, clock := e.1
          claimedAt := if options.shardOf q = shardId ∧ ∃ m ∈ ids, makeMember m q = member
            then some e.1 else l.claimedAt } ∧
      (leaseStep options shardId member l e).deadline? shardId member =
        if options.shardOf q = shardId ∧ ∃ m ∈ ids, makeMember m q = member
        then some (e.1 + options.visibilityTimeoutMs) else l.deadline? shardId member := by
  rcases e with ⟨now, call | ⟨call, maxCount⟩ | ⟨m, q⟩⟩
  · refine ⟨call, ?_⟩
    unfold leaseStep LeaseCall.op Lease.deadline?
    simp only [Op.prog, claimMessageLua, Prog.run_bind, run_zrange, Prog.run_pure]
    rcases htake : takeTo 0 (l.redis.get (.queue call)) with _ | ⟨m, others⟩
    · exact ⟨[], by simp [claimTime], by simp⟩
    · simp only [Prog.run_bind, Prog.run_pure]
      refine ⟨_, rfl, ?_⟩
      rw [score?_claimOne]
      refine if_congr ?_ rfl rfl
      generalize ((claimOne _ _ _ _ _ _ _ : Script P _).run _).1 = claimed
      rcases claimed with _ | payload
      · simp
      · simp [eq_comm]
  · refine ⟨call.queueId, ?_⟩
    unfold leaseStep LeaseCall.op Lease.deadline?
    simp only [Op.prog, claimMessageBatchLua, Prog.run_bind, run_zrange, Prog.run_pure]
    refine ⟨_, rfl, ?_⟩
    rw [score?_claimLoop]
    refine if_congr ?_ rfl rfl
    rw [eq_comm]
  · exact absurd rfl (hc m q)

variable (options shardId member l) in
/-- heartbeat は、in-flight の member の期限だけを置き直す。 -/
theorem leaseStep_heartbeat (m q : String) (now : ℚ) :
    leaseStep options shardId member l (now, .heartbeat m q) =
        { redis := (leaseStep options shardId member l (now, .heartbeat m q)).redis, clock := now
          claimedAt := if (options.shardOf q = shardId ∧ makeMember m q = member) ∧
            (l.deadline? shardId member).isSome then none else l.claimedAt } ∧
      (leaseStep options shardId member l (now, .heartbeat m q)).deadline? shardId member =
        if (options.shardOf q = shardId ∧ makeMember m q = member) ∧
          (l.deadline? shardId member).isSome then some (now + options.heartbeatIntervalMs)
        else l.deadline? shardId member := by
  unfold leaseStep LeaseCall.op Lease.deadline?
  simp only [Op.prog, heartbeatMessageLua, Prog.run_bind, run_zscore, Prog.run_pure]
  rcases hscore : SortedSet.score? (l.redis.get (.inflight (options.shardOf q)))
      (makeMember m q) with _ | y
  · have hfalse : ¬ ((options.shardOf q = shardId ∧ makeMember m q = member) ∧
        (SortedSet.score? (l.redis.get (.inflight shardId)) member).isSome) := by
      rintro ⟨⟨rfl, rfl⟩, hsome⟩
      rw [hscore] at hsome
      cases hsome
    rw [if_neg hfalse, if_neg hfalse]
    exact ⟨rfl, rfl⟩
  · simp only [Prog.run_bind, run_zadd, Prog.run_pure, if_true, claimTime]
    by_cases hsame : options.shardOf q = shardId ∧ makeMember m q = member
    · obtain ⟨rfl, rfl⟩ := hsame
      rw [hscore, Store.get_set_self, SortedSet.score?_add, if_pos rfl]
      simp
    · rw [if_neg hsame, if_neg fun h => hsame h.1, if_neg fun h => hsame h.1]
      refine ⟨rfl, ?_⟩
      by_cases hk : options.shardOf q = shardId
      · subst hk
        rw [Store.get_set_self, SortedSet.score?_add, if_neg fun h => hsame ⟨rfl, h.symm⟩]
      · rw [Store.get_set_of_ne _ _ _ (by simpa [eq_comm] using hk)]

theorem LeaseInv.step (h : LeaseInv options shardId member l) (hmono : NonDecreasing l e) :
    LeaseInv options shardId member (leaseStep options shardId member l e) := by
  by_cases hc : ∀ m q, e.2 ≠ .heartbeat m q
  · obtain ⟨q, ids, hstep, hdeadline⟩ := leaseStep_claims options shardId member l hc
    by_cases hclaimed : options.shardOf q = shardId ∧ ∃ m ∈ ids, makeMember m q = member
    · rw [if_pos hclaimed] at hstep hdeadline
      rw [hstep] at hdeadline ⊢
      refine ⟨fun t ht => ?_, fun hnone => by cases hnone⟩
      rw [← Option.some.inj ht]
      exact hdeadline
    · rw [if_neg hclaimed] at hstep hdeadline
      rw [hstep] at hdeadline ⊢
      refine ⟨fun t ht => hdeadline.trans (h.claimed t ht), fun hnone d hd => ?_⟩
      obtain ⟨t, hle, rfl⟩ := h.extended hnone d (hdeadline ▸ hd)
      exact ⟨t, hle.trans hmono, rfl⟩
  · simp only [not_forall, not_not] at hc
    obtain ⟨m, q, hcall⟩ := hc
    obtain ⟨now, call⟩ := e
    obtain rfl : call = .heartbeat m q := hcall
    obtain ⟨hstep, hdeadline⟩ := leaseStep_heartbeat options shardId member l m q now
    by_cases hbeat : (options.shardOf q = shardId ∧ makeMember m q = member) ∧
        (l.deadline? shardId member).isSome
    · rw [if_pos hbeat] at hstep hdeadline
      rw [hstep] at hdeadline ⊢
      refine ⟨fun t ht => (by cases ht), fun _ d hd => ⟨now, le_refl now, ?_⟩⟩
      exact Option.some.inj (hd.symm.trans hdeadline)
    · rw [if_neg hbeat] at hstep hdeadline
      rw [hstep] at hdeadline ⊢
      refine ⟨fun t ht => hdeadline.trans (h.claimed t ht), fun hnone d hd => ?_⟩
      obtain ⟨t, hle, rfl⟩ := h.extended hnone d (hdeadline ▸ hd)
      exact ⟨t, hle.trans hmono, rfl⟩

/-- heartbeat が期限を縮めないことは、claim の後の最初の heartbeat の時刻で決まる。 -/
theorem LeaseInv.keeps_iff (h : LeaseInv options shardId member l) (hmono : NonDecreasing l e) :
    KeepsDeadline options shardId member l e ↔ Timely options shardId member l e := by
  obtain ⟨now, call⟩ := e
  by_cases hbeat : call.beats options shardId member
  swap
  · exact ⟨fun _ hb => absurd hb hbeat, fun _ hb => absurd hb hbeat⟩
  obtain ⟨m, q, rfl, hsame⟩ : ∃ m q, call = .heartbeat m q ∧
      (options.shardOf q = shardId ∧ makeMember m q = member) := by
    cases call with
    | heartbeat m q => exact ⟨m, q, rfl, hbeat⟩
    | _ => exact hbeat.elim
  have hafter : ∀ d ∈ l.deadline? shardId member,
      (leaseStep options shardId member l (now, .heartbeat m q)).deadline? shardId member
        = some (now + options.heartbeatIntervalMs) := by
    intro d hd
    rw [(leaseStep_heartbeat options shardId member l m q now).2,
      if_pos ⟨hsame, Option.isSome_iff_exists.mpr ⟨d, hd⟩⟩]
  constructor
  · intro hkeeps _ t ht
    obtain ⟨d', hd', hle⟩ := hkeeps hbeat _ (h.claimed t ht)
    rw [hafter _ (h.claimed t ht)] at hd'
    rw [← Option.some.inj hd'] at hle
    change _ ≤ now - t
    linarith
  · intro htimely _ d hd
    refine ⟨_, hafter d hd, ?_⟩
    rcases hclaim : l.claimedAt with _ | t
    · obtain ⟨t, hle, rfl⟩ := h.extended hclaim d hd
      have hnow : l.clock ≤ now := hmono
      linarith
    · have hwait : _ ≤ now - t := htimely hbeat t hclaim
      rw [Option.some.inj (hd.symm.trans (h.claimed t hclaim))]
      linarith

end Invariant

/-! ## 列の全体 -/

/-- **どの heartbeat も期限を縮めないのは、claim の後の最初の heartbeat がどれも長さの差だけ待ってから来るとき、
そのときに限る。** 時刻の戻らない claim と heartbeat の任意の列について言う。二つの長さは任意の設定のもので、
`heartbeatIntervalMs` を省けば `visibilityTimeoutMs / 3` である。 -/
theorem heartbeat_never_shortens_iff (options : FairQueueOptions P)
    (visibility heartbeat : Option ℚ) (shardId : Nat) (member : String) (redis : Redis P)
    (clock : ℚ) (calls : List (ℚ × LeaseCall))
    (hfree : SortedSet.score? (redis.get (.inflight shardId)) member = none)
    (htimes : Along (leaseStep (options.withTimeouts visibility heartbeat) shardId member)
      NonDecreasing ⟨redis, clock, none⟩ calls) :
    Along (leaseStep (options.withTimeouts visibility heartbeat) shardId member)
        (KeepsDeadline (options.withTimeouts visibility heartbeat) shardId member)
        ⟨redis, clock, none⟩ calls ↔
      Along (leaseStep (options.withTimeouts visibility heartbeat) shardId member)
        (Timely (options.withTimeouts visibility heartbeat) shardId member)
        ⟨redis, clock, none⟩ calls := by
  generalize options.withTimeouts visibility heartbeat = options at htimes ⊢
  have hinit : LeaseInv options shardId member (⟨redis, clock, none⟩ : Lease P) := by
    constructor
    · intro t ht
      cases ht
    · intro _ d hd
      rw [Lease.deadline?, hfree] at hd
      cases hd
  constructor
  · intro h
    exact Along.of_invariant (fun l e hl he => hl.step he.1)
      (fun l e hl he => (hl.keeps_iff he.1).mp he.2) hinit (htimes.and h)
  · intro h
    exact Along.of_invariant (fun l e hl he => hl.step he.1)
      (fun l e hl he => (hl.keeps_iff he.1).mpr he.2) hinit (htimes.and h)

namespace Lease

def options : FairQueueOptions Unit :=
  { keys := DefaultFairQueueKeyProducer, shardOf := fun _ => 0, resolveWorkerQueue := fun _ => "w" }

/-- 一件の message が待っている状態。 -/
def waiting : Redis Unit :=
  ((enqueueMessageAtomicLua (.queue "q") (.queueItems "q") (.masterQueue 0) "q" "m" 0
    (.message { id := "m", queueId := "q", tenantId := "t", payload := (), timestamp := 0,
                attempt := 1 }) : Script Unit Nat).run Store.empty).2

/-- 20 秒待った heartbeat は期限を縮めない。 -/
theorem heartbeat_never_shortens_sample :
    Along (leaseStep (options.withTimeouts none none) 0 "m:q")
      (KeepsDeadline (options.withTimeouts none none) 0 "m:q") ⟨waiting, 0, none⟩
      [(0, .claim "q"), (20000, .heartbeat "m" "q")] :=
  (heartbeat_never_shortens_iff options none none 0 "m:q" waiting 0
    [(0, .claim "q"), (20000, .heartbeat "m" "q")] (by decide +kernel) (by decide +kernel)).mpr
    (by decide +kernel)

/-- claim の 1 秒後の heartbeat は、30 秒後の期限を 11 秒後に縮める。 -/
theorem heartbeat_shortens :
    let claimed := leaseStep (options.withTimeouts none none) 0 "m:q" ⟨waiting, 0, none⟩
      (0, .claim "q")
    claimed.deadline? 0 "m:q" = some 30000 ∧
      (leaseStep (options.withTimeouts none none) 0 "m:q" claimed
        (1000, .heartbeat "m" "q")).deadline? 0 "m:q" = some 11000 ∧
      ¬ Along (leaseStep (options.withTimeouts none none) 0 "m:q")
        (KeepsDeadline (options.withTimeouts none none) 0 "m:q") ⟨waiting, 0, none⟩
        [(0, .claim "q"), (1000, .heartbeat "m" "q")] := by
  intro claimed
  have hsecond : (leaseStep (options.withTimeouts none none) 0 "m:q" claimed
      (1000, .heartbeat "m" "q")).deadline? 0 "m:q" = some 11000 := by decide +kernel
  refine ⟨by decide +kernel, hsecond, fun h => ?_⟩
  obtain ⟨d, hd, hle⟩ := h.2.1 ⟨rfl, rfl⟩ 30000 (by decide +kernel)
  rw [← Option.some.inj (hsecond.symm.trans hd)] at hle
  exact absurd hle (by decide +kernel)

end Lease

end FairQueue
