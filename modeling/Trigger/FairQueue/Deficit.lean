import Mathlib.Algebra.Order.Ring.Rat
import Mathlib.Data.Nat.Cast.Order.Ring
import Mathlib.Tactic.Linarith
import Trigger.FairQueue.Consumer
import Trigger.FairQueue.Outcome

/-!
# tenant の取り分

`DRRScheduler` は、queue を選ぶときに quantum を足し、配った後で配った数だけ deficit を引き、0 で止める。配る数は
deficit を見ずに決まるので、deficit より多く配ると差が失われ、取り分の上限を超える（`deficit_overrun`）。

deficit は常に `[0, maxDeficit]` にある。どの claim も、取る message が deficit を超えない実行では、`k` 回の繰り返しで
一つの tenant に配る数は `maxDeficit + k * quantum` を超えない（`deficit_bounded`）。
-/

namespace FairQueue

open Infra Infra.Keyspace

variable {P : Type}

/-! ## script -/

/-- quantum を足し、`maxDeficit` で止めた deficit。 -/
def credited (drr : DRRSchedulerConfig) (x : ℚ) : ℚ :=
  if drr.maxDeficit < x + drr.quantum then drr.maxDeficit else x + drr.quantum

/-- 配った数を引き、0 で止めた deficit。 -/
def debited (count : Nat) (x : ℚ) : ℚ := if x - count < 0 then 0 else x - count

section Scripts

variable {s : Redis P} {drr : DRRSchedulerConfig}

@[simp] theorem run_hincrbyfloat (t : String) (x : ℚ) :
    (hincrbyfloat .deficit t x : Script P ℚ).run s =
      (deficit s t + x,
        s.set .deficit (JsMap.set (s.get .deficit) t (.number (deficit s t + x)))) := by
  simp only [hincrbyfloat, Prog.run_bind, run_hget, run_hset, Prog.run_pure, deficit]

/-- tenant の deficit だけが書き換わる。 -/
def Writes (s s' : Redis P) (t : String) (x : ℚ) : Prop :=
  ∀ t', JsMap.get (s'.get .deficit) t' =
    if t' = t then some (.number x) else JsMap.get (s.get .deficit) t'

theorem writes_set (s : Redis P) (t : String) (x : ℚ) :
    Writes s (s.set .deficit (JsMap.set (s.get .deficit) t (.number x))) t x := by
  intro t'
  rw [Store.get_set_self, JsMap.get_set]

theorem Writes.set {s s' : Redis P} {t : String} {x : ℚ} (h : Writes s s' t x) (y : ℚ) :
    Writes s (s'.set .deficit (JsMap.set (s'.get .deficit) t (.number y))) t y := by
  intro t'
  rw [Store.get_set_self, JsMap.get_set]
  split
  · rfl
  · next hne => rw [h t', if_neg hne]

theorem Writes.deficit_eq {s s' : Redis P} {t t' : String} {x : ℚ} (h : Writes s s' t x) :
    deficit s' t' = if t' = t then x else deficit s t' := by
  simp only [deficit, h t']
  split <;> rfl

theorem writes_drrDecrementDeficitBatch (s : Redis P) (t : String) (count : Nat) :
    let r := (drrDecrementDeficitBatchLua t count : Script P ℚ).run s
    r.1 = debited count (deficit s t) ∧ Writes s r.2 t (debited count (deficit s t)) := by
  simp only [drrDecrementDeficitBatchLua, Prog.run_bind, run_hincrbyfloat, debited, ← sub_eq_add_neg]
  split
  · exact ⟨rfl, (writes_set s t _).set 0⟩
  · exact ⟨rfl, writes_set s t _⟩

theorem drrAddQuantumLua_cons (drr : DRRSchedulerConfig) (tenantId : String) (rest : List String) (s : Redis P) :
    ∃ s', Writes s s' tenantId (credited drr (deficit s tenantId)) ∧
      (drrAddQuantumLua drr.quantum drr.maxDeficit (tenantId :: rest) : Script P (List ℚ)).run s =
        let r := (drrAddQuantumLua drr.quantum drr.maxDeficit rest).run s'
        (credited drr (deficit s tenantId) :: r.1, r.2) := by
  simp only [drrAddQuantumLua, Prog.run_bind, run_hincrbyfloat, credited]
  split
  · refine ⟨_, (writes_set s tenantId (deficit s tenantId + drr.quantum)).set drr.maxDeficit, ?_⟩
    simp only [Prog.run_bind, run_hset, Prog.run_pure]
  · refine ⟨_, writes_set s tenantId _, ?_⟩
    simp only [Prog.run_bind, Prog.run_pure]

/-- 並べた tenant に一度ずつ quantum を足す。 -/
theorem get_drrAddQuantum (drr : DRRSchedulerConfig) : ∀ {tenantIds : List String} {s : Redis P}, tenantIds.Nodup →
    let r := (drrAddQuantumLua drr.quantum drr.maxDeficit tenantIds : Script P (List ℚ)).run s
    r.1 = tenantIds.map (fun t => credited drr (deficit s t)) ∧
      ∀ t, JsMap.get (r.2.get .deficit) t =
        if t ∈ tenantIds then some (.number (credited drr (deficit s t)))
        else JsMap.get (s.get .deficit) t
  | [], _, _ => ⟨rfl, fun _ => rfl⟩
  | tenantId :: rest, s, hnd => by
    obtain ⟨hid, hnd⟩ := List.nodup_cons.mp hnd
    obtain ⟨s', hw, hrun⟩ := drrAddQuantumLua_cons drr tenantId rest s
    obtain ⟨hresults, hget⟩ := get_drrAddQuantum drr (s := s') hnd
    have hsame : ∀ t ∈ rest, deficit s' t = deficit s t := by
      intro t ht
      have hne : t ≠ tenantId := fun e => hid (e ▸ ht)
      rw [hw.deficit_eq, if_neg hne]
    simp only [hrun]
    refine ⟨?_, fun t => ?_⟩
    · rw [List.map_cons, hresults]
      exact congrArg _ (List.map_congr_left fun t ht => by rw [hsame t ht])
    · rw [hget t, hw t]
      by_cases ht : t ∈ rest
      · have hne : t ≠ tenantId := fun e => hid (e ▸ ht)
        simp [ht, hsame t ht]
      · by_cases he : t = tenantId
        · subst he
          simp [ht]
        · simp [ht, he]

end Scripts

/-! ## 範囲 -/

/-- 保存された deficit は、どれも `[0, maxDeficit]` の数である。 -/
def InRange (drr : DRRSchedulerConfig) (s : Redis P) : Prop :=
  ∀ t v, JsMap.get (s.get .deficit) t = some v → ∃ x, v = .number x ∧ 0 ≤ x ∧ x ≤ drr.maxDeficit

section Range

variable {drr : DRRSchedulerConfig} {s s' : Redis P}

theorem InRange.deficit_mem (h : InRange drr s) (hmax : 0 ≤ drr.maxDeficit) (t : String) :
    0 ≤ deficit s t ∧ deficit s t ≤ drr.maxDeficit := by
  simp only [deficit]
  rcases hv : JsMap.get (s.get .deficit) t with _ | v
  · exact ⟨le_rfl, hmax⟩
  · obtain ⟨x, rfl, hx⟩ := h t v hv
    exact hx

theorem credited_mem (hq : 0 ≤ drr.quantum) {x : ℚ} (hx : 0 ≤ x) (hmax : 0 ≤ drr.maxDeficit) :
    0 ≤ credited drr x ∧ credited drr x ≤ drr.maxDeficit ∧ credited drr x ≤ x + drr.quantum := by
  simp only [credited]
  split
  · next h => exact ⟨hmax, le_rfl, h.le⟩
  · next h => exact ⟨add_nonneg hx hq, not_lt.mp h, le_rfl⟩

theorem debited_mem {x : ℚ} (count : Nat) (hx : 0 ≤ x ∧ x ≤ drr.maxDeficit) :
    0 ≤ debited count x ∧ debited count x ≤ drr.maxDeficit := by
  have hcount : (0 : ℚ) ≤ count := Nat.cast_nonneg count
  simp only [debited]
  split
  · exact ⟨le_rfl, hx.1.trans hx.2⟩
  · next h => exact ⟨not_lt.mp h, by linarith [hx.2]⟩

/-- 配った数が deficit を超えなければ、ちょうどその数だけ減る。 -/
theorem debited_eq {x : ℚ} {count : Nat} (h : (count : ℚ) ≤ x) : debited count x = x - count :=
  if_neg (not_lt.mpr (sub_nonneg.mpr h))

end Range

/-! ## 帳簿 -/

/-- この tenant の claim が、deficit を超えない。 -/
def LoopEvent.affordable (tenantId : String) : LoopEvent → Prop
  | .claimed t size x => t = tenantId → (size : ℚ) ≤ x
  | _ => True

instance decidableAffordable (tenantId : String) :
    (e : LoopEvent) → Decidable (e.affordable tenantId)
  | .claimed t size x => inferInstanceAs (Decidable (t = tenantId → (size : ℚ) ≤ x))
  | .pushed .. | .stored .. => inferInstanceAs (Decidable True)

/-- この tenant のどの claim も、deficit を超えない。 -/
def Affordable (tenantId : String) (trace : List LoopEvent) : Prop :=
  ∀ e ∈ trace, e.affordable tenantId

instance decidableAffordableTrace (tenantId : String) (trace : List LoopEvent) :
    Decidable (Affordable tenantId trace) :=
  inferInstanceAs (Decidable (∀ e ∈ trace, e.affordable tenantId))

/-- この tenant の message を worker queue に入れた回数。 -/
def pushes (tenantId : String) (trace : List LoopEvent) : Nat :=
  trace.countP fun e => match e with
    | .pushed t _ => t = tenantId
    | _ => false

/-- 間に入る command は、deficit に触れない。 -/
def Calm (s : Loop P) : Prop :=
  ∀ e ∈ s.env, ∀ w, (e w).redis.get .deficit = w.redis.get .deficit

/-- tenant `t` の帳簿。`owed` は配ったがまだ引いていない数、`room` はこれから配ってよい数。 -/
structure Ledger (drr : DRRSchedulerConfig) (t : String) (bound : ℚ) (owed room : Nat)
    (s : Loop P) : Prop where
  calm : Calm s
  range : InRange drr s.world.redis
  stored : ∀ t' x, .stored t' x ∈ s.trace → 0 ≤ x ∧ x ≤ drr.maxDeficit
  balance : Affordable t s.trace →
    pushes t s.trace + deficit s.world.redis t ≤ bound + owed ∧
      (owed + room : ℚ) ≤ deficit s.world.redis t

section Ledger

variable {drr : DRRSchedulerConfig} {t : String} {bound : ℚ} {owed room : Nat} {s s' : Loop P}
variable {fail : Loop P → Prop}

/-- deficit と記録の変わらない間は、帳簿も変わらない。 -/
theorem Ledger.congr (h : Ledger drr t bound owed room s) (hcalm : Calm s')
    (hdeficit : s'.world.redis.get .deficit = s.world.redis.get .deficit)
    (htrace : s'.trace = s.trace) : Ledger drr t bound owed room s' := by
  have hd : deficit s'.world.redis t = deficit s.world.redis t := by simp only [deficit, hdeficit]
  refine ⟨hcalm, ?_, ?_, ?_⟩
  · intro t' v hv
    rw [hdeficit] at hv
    exact h.range t' v hv
  · rw [htrace]
    exact h.stored
  · rw [htrace, hd]
    exact h.balance

theorem Ledger.interfere (h : Ledger drr t bound owed room s) :
    Ledger drr t bound owed room s.interfere := by
  unfold Loop.interfere
  split
  · exact h
  · next e rest henv =>
    refine h.congr (fun e' he' => h.calm e' ?_) (h.calm e ?_ _) rfl
    · rw [henv]
      exact List.mem_cons_of_mem _ he'
    · rw [henv]
      exact List.mem_cons_self

/-- command の一歩。間に何か入った後の状態で確かめればよい。 -/
theorem triple_command {α : Type} {c : ℚ → Script P α} {events : World P → α → List LoopEvent}
    {post : α → Loop P → Prop}
    (h : ∀ s, Ledger drr t bound owed room s →
      let r := (c s.world.now).run s.world.redis
      post r.1 ((s.setRedis r.2).record (events s.world r.1))) :
    Triple (Ledger drr t bound owed room) (command c events) post fail :=
  fun _ hs => h _ hs.interfere

/-- deficit に触れず、記録もしない command。 -/
theorem triple_silent {α : Type} {c : ℚ → Script P α} {U : Set (Sigma Key)}
    (hc : ∀ now, (c now).Uses U) (hU : ⟨_, .deficit⟩ ∉ U) :
    Triple (Ledger drr t bound owed room) (silent c) (fun _ => Ledger drr t bound owed room) fail := by
  refine triple_command fun s hs => ?_
  refine hs.congr hs.calm ((hc s.world.now).frame hU _) ?_
  simp [Loop.record, Loop.setRedis]

theorem triple_setCooloff (f : ℚ → JsMap CooloffState → JsMap CooloffState) :
    Triple (Ledger drr t bound owed room) (setCooloff f : LoopM P Unit)
      (fun _ => Ledger drr t bound owed room) fail :=
  Triple.modify fun _ hs => hs.congr hs.calm rfl rfl

end Ledger

/-! ## 一つの queue -/

/-- 別の tenant の message は数えない。 -/
def share (tenantId t : String) (n : Nat) : Nat := if tenantId = t then n else 0

theorem share_add (tenantId t : String) (n k : Nat) :
    share tenantId t (n + k) = share tenantId t n + share tenantId t k := by
  simp only [share]
  split <;> rfl

theorem share_le {tenantId t : String} {n k : Nat} (h : n ≤ k) :
    share tenantId t n ≤ share tenantId t k := by
  simp only [share]
  split
  · exact h
  · exact le_rfl

theorem pushes_append (t : String) (l l' : List LoopEvent) :
    pushes t (l ++ l') = pushes t l + pushes t l' := List.countP_append

theorem Affordable.of_append {t : String} {l l' : List LoopEvent} (h : Affordable t (l ++ l')) :
    Affordable t l ∧ Affordable t l' :=
  ⟨fun e he => h e (List.mem_append_left _ he), fun e he => h e (List.mem_append_right _ he)⟩

section Queue

variable (options : FairQueueOptions P) (cooloff : CooloffOptions) {drr : DRRSchedulerConfig}
variable {t : String} {bound : ℚ} {owed room : Nat} {fail : Loop P → Prop}

theorem triple_getAvailableCapacity : ∀ (groups : List (Key .set × Nat)) (least : Option Nat),
    Triple (Ledger drr t bound owed room) (getAvailableCapacity groups least : LoopM P Nat)
      (fun _ => Ledger drr t bound owed room) fail
  | [], _ => Triple.pure fun _ hs => hs
  | (key, _) :: rest, _ =>
    Triple.bind (triple_silent (fun _ => Prog.Uses.query (U := {⟨_, key⟩}) rfl) (by simp))
      fun _ => triple_getAvailableCapacity rest _

theorem triple_isAtCapacity (groupName groupId : String)
    (hfail : ∀ s : Loop P, Ledger drr t bound owed room s → fail s) :
    Triple (Ledger drr t bound owed room) (isAtCapacity options groupName groupId)
      (fun _ => Ledger drr t bound owed room) fail := by
  refine Triple.ite (fun _ => Triple.pure fun _ hs => hs) fun _ => ?_
  refine Triple.bind (triple_silent (fun _ => Prog.Uses.query
    (U := {⟨_, Key.concurrency (options.keys.concurrencyGroup groupName groupId)⟩}) rfl) (by simp))
    fun current => ?_
  split
  · exact Triple.throw hfail
  · exact Triple.pure fun _ hs => hs

theorem triple_isInCooloff (queueId : String) :
    Triple (Ledger drr t bound owed room) (isInCooloff queueId : LoopM P Bool)
      (fun _ => Ledger drr t bound owed room) fail := by
  refine Triple.bind Triple.get fun s₀ => ?_
  have hkeep : ∀ s : Loop P, s₀ = s ∧ Ledger drr t bound owed room s →
      Ledger drr t bound owed room s := fun _ h => h.2
  split
  · refine Triple.ite (fun _ => ?_) fun _ => Triple.pure hkeep
    exact Triple.bind (Triple.strengthen _ hkeep (triple_setCooloff _))
      fun _ => Triple.pure fun _ hs => hs
  · exact Triple.pure hkeep

/-- message を一つ worker queue に入れる。 -/
theorem Ledger.push {s : Loop P} {tenantId messageId : String}
    (h : Ledger drr t bound owed room s) (hroom : share tenantId t 1 ≤ room) {redis : Redis P}
    (hredis : redis.get .deficit = s.world.redis.get .deficit) :
    Ledger drr t bound (owed + share tenantId t 1) (room - share tenantId t 1)
      ((s.setRedis redis).record [.pushed tenantId messageId]) := by
  have hd : deficit redis t = deficit s.world.redis t := by simp only [deficit, hredis]
  refine ⟨h.calm, ?_, ?_, fun haff => ?_⟩
  · intro t' v hv
    exact h.range t' v (hredis ▸ hv)
  · intro t' x hx
    rcases List.mem_append.mp hx with hx | hx
    · exact h.stored t' x hx
    · cases List.mem_singleton.mp hx
  · have hpush : pushes t [.pushed tenantId messageId] = share tenantId t 1 := by
      simp [pushes, share, List.countP_singleton]
    obtain ⟨hbal, hcov⟩ := h.balance haff.of_append.1
    simp only [Loop.record, Loop.setRedis, pushes_append, hpush, hd]
    push_cast [Nat.cast_sub hroom]
    constructor <;> linarith

theorem triple_push {tenantId : String} (key : Key .list) (member messageId : String)
    (hroom : share tenantId t 1 ≤ room) :
    Triple (Ledger drr t bound owed room)
      (command (fun _ => rpush key member) fun _ _ => [.pushed tenantId messageId] : LoopM P Unit)
      (fun _ => Ledger drr t bound (owed + share tenantId t 1) (room - share tenantId t 1)) fail :=
  triple_command fun _ hs => hs.push hroom (Store.get_set_of_ne _ _ _ (by simp))

theorem Ledger.settle {s : Loop P} (h : Ledger drr t bound owed room s) :
    Ledger drr t bound owed 0 s := by
  refine ⟨h.calm, h.range, h.stored, fun haff => ?_⟩
  obtain ⟨hbal, hcov⟩ := h.balance haff
  have hroom : (0 : ℚ) ≤ room := Nat.cast_nonneg room
  exact ⟨hbal, by push_cast; linarith⟩

theorem triple_reserve (descriptor : QueueDescriptor) (messageId : String) :
    Triple (Ledger drr t bound owed room) (reserve options descriptor messageId)
      (fun _ => Ledger drr t bound owed room) fail := by
  refine Triple.ite (fun _ => Triple.pure fun _ hs => hs) fun _ => ?_
  refine triple_silent (fun _ => uses_reserve
    (U := {p | ∃ k ∈ options.groupKeys descriptor, p = ⟨_, k⟩}) options descriptor messageId
    fun k hk => ⟨k, hk, rfl⟩) ?_
  simp [FairQueueOptions.groupKeys]

/-- **入れた数は、残りの枠に収まる。** -/
theorem triple_pushMessages (descriptor : QueueDescriptor) (queueId tenantId : String)
    (shardId : Nat) : ∀ (messages : List (String × StoredMessage P)) (owed room : Nat),
    share tenantId t messages.length ≤ room →
    Triple (Ledger drr t bound owed room)
      (pushMessages options descriptor queueId tenantId shardId messages)
      (fun n => Ledger drr t bound (owed + share tenantId t n) 0) fail
  | [], owed, room, _ => Triple.pure fun _ hs => by
    rw [show share tenantId t 0 = 0 from ite_self 0]
    exact hs.settle
  | message :: rest, owed, room, hlen => by
    rw [List.length_cons, share_add] at hlen
    refine Triple.bind (triple_reserve options descriptor message.1) fun reserved => ?_
    refine Triple.ite (fun _ => ?_) fun _ => ?_
    · refine Triple.bind (triple_push _ _ message.1 (by omega)) fun _ => ?_
      refine Triple.bind (triple_pushMessages descriptor queueId tenantId shardId rest
        (owed + share tenantId t 1) (room - share tenantId t 1) (by omega)) fun n => ?_
      refine Triple.pure fun s hs => ?_
      rw [Nat.add_comm n 1, share_add, ← Nat.add_assoc]
      exact hs
    · refine Triple.bind (triple_silent (fun _ => uses_releaseMessageBatch
        (U := insert ⟨_, .masterQueue shardId⟩ (localKeys queueId (options.shardOf queueId)))
        ?_ ?_ ?_ ?_ ?_ _ _ _) ?_) fun _ => Triple.pure fun s hs => ?_
      all_goals first | simp [localKeys] | skip
      rw [show share tenantId t 0 = 0 from ite_self 0]
      exact hs.settle

/-- claim の script が返す message の数は、取られる message の数を超えない。 -/
theorem length_claimMessageBatch (queueId : String) (n : Nat) (deadline : ℚ) (maxCount : Int)
    (s : Redis P) :
    ((claimMessageBatchLua (.queue queueId) (.queueItems queueId) (.inflight n) (.inflightData n)
      queueId deadline maxCount : Script P _).run s).1.length ≤
        (takeTo (maxCount - 1) (s.get (.queue queueId))).length := by
  simp only [claimMessageBatchLua, Prog.run_bind, run_zrange]
  have h := (claimLoop_sublist (q := queueId) (n := n) deadline
    (takeTo (maxCount - 1) (s.get (.queue queueId))) s).length_le
  rwa [List.length_map] at h

theorem uses_claimBatch (queueId : String) (deadline : ℚ) (maxCount : Int) :
    (claimMessageBatchLua (.queue queueId) (.queueItems queueId)
      (.inflight (options.shardOf queueId)) (.inflightData (options.shardOf queueId)) queueId deadline
      maxCount : Script P _).Uses (localKeys queueId (options.shardOf queueId)) :=
  Prog.Uses.bind (Prog.Uses.query mem_localKeys_queue) fun _ =>
    uses_claimLoop mem_localKeys_queue mem_localKeys_queueItems mem_localKeys_inflight
      mem_localKeys_inflightData _ _ _

/-- claim の script。この tenant の枠は、返った message の数だけある。 -/
theorem triple_claim (queueId tenantId : String) (maxCount : Nat) :
    Triple (Ledger drr t bound 0 0)
      (command (fun now => claimMessageBatchLua (.queue queueId) (.queueItems queueId)
          (.inflight (options.shardOf queueId)) (.inflightData (options.shardOf queueId)) queueId
          (now + options.visibilityTimeoutMs) maxCount)
        fun world _ => [.claimed tenantId
          (takeTo ((maxCount : Int) - 1) (world.redis.get (.queue queueId))).length
          (deficit world.redis tenantId)])
      (fun claimed => Ledger drr t bound 0 (share tenantId t claimed.length)) fail := by
  refine triple_command fun s hs => ?_
  have hframe := (uses_claimBatch options queueId (s.world.now + options.visibilityTimeoutMs)
    maxCount).frame (k := Key.deficit) (by simp [localKeys]) s.world.redis
  have hlen := length_claimMessageBatch queueId (options.shardOf queueId)
    (s.world.now + options.visibilityTimeoutMs) maxCount s.world.redis
  generalize (claimMessageBatchLua (.queue queueId) (.queueItems queueId)
    (.inflight (options.shardOf queueId)) (.inflightData (options.shardOf queueId)) queueId
    (s.world.now + options.visibilityTimeoutMs) maxCount).run s.world.redis = r at hframe hlen ⊢
  obtain ⟨claimed, redis⟩ := r
  have hd : deficit redis t = deficit s.world.redis t := by simp only [deficit, hframe]
  refine ⟨hs.calm, ?_, ?_, fun haff => ?_⟩
  · intro t' v hv
    exact hs.range t' v (hframe ▸ hv)
  · intro t' x hx
    rcases List.mem_append.mp hx with hx | hx
    · exact hs.stored t' x hx
    · cases List.mem_singleton.mp hx
  · obtain ⟨hold, hnew⟩ := haff.of_append
    obtain ⟨hbal, hcov⟩ := hs.balance hold
    have hclaim := hnew _ List.mem_cons_self
    simp only [Loop.record, Loop.setRedis, pushes_append, hd]
    refine ⟨by simpa [pushes] using hbal, ?_⟩
    simp only [share]
    split
    · next heq =>
      subst heq
      have hle : ((claimed.length : Nat) : ℚ) ≤ _ := Nat.cast_le.mpr hlen
      have := hle.trans (hclaim rfl)
      push_cast
      linarith
    · simpa using hcov

theorem share_zero (tenantId t : String) : share tenantId t 0 = 0 := ite_self 0

theorem triple_claimAndPush (descriptor : QueueDescriptor) (queueId tenantId : String)
    (shardId maxClaimCount : Nat) :
    Triple (Ledger drr t bound 0 0)
      (claimAndPush options descriptor queueId tenantId shardId maxClaimCount)
      (fun n => Ledger drr t bound (share tenantId t n) 0) fail := by
  refine Triple.bind (triple_claim options queueId tenantId maxClaimCount) fun claimed => ?_
  refine Triple.ite (fun _ => ?_) fun _ => ?_
  · refine Triple.strengthen (Ledger drr t bound 0 0) (fun _ hs => hs.settle) ?_
    refine Triple.bind (triple_silent (fun _ => uses_updateMasterQueueIfEmpty
      (U := {⟨_, .masterQueue shardId⟩, ⟨_, .queue queueId⟩}) (by simp) (by simp) queueId)
      (by simp)) fun removed => ?_
    refine Triple.ite (fun _ => ?_) fun _ => Triple.pure fun _ hs => ?_
    · refine Triple.bind (Triple.modify fun s hs => hs.congr hs.calm rfl rfl) fun _ => ?_
      refine Triple.bind (triple_setCooloff _) fun _ => Triple.pure fun _ hs => ?_
      rw [share_zero]
      exact hs
    · rw [share_zero]
      exact hs
  · have hle : (parseClaimed claimed).length ≤ claimed.length := List.length_filterMap_le _ _
    refine Triple.bind (triple_pushMessages options descriptor queueId tenantId shardId
      (parseClaimed claimed) 0 _ (share_le hle)) fun n => ?_
    refine Triple.strengthen (Ledger drr t bound (share tenantId t n) 0)
      (fun _ hs => Nat.zero_add (share tenantId t n) ▸ hs) ?_
    refine Triple.ite (fun _ => ?_) fun _ => Triple.pure fun _ hs => hs
    exact Triple.bind (triple_setCooloff _) fun _ => Triple.pure fun _ hs => hs

/-- 配る数は deficit から引く前なので、そのまま借りになる。 -/
theorem triple_claimAndPushToWorkerQueue (queueId tenantId : String) (shardId : Nat) :
    Triple (Ledger drr t bound 0 0)
      (claimAndPushToWorkerQueue options cooloff queueId tenantId shardId)
      (fun n => Ledger drr t bound (share tenantId t n) 0) fail := by
  refine Triple.bind Triple.get fun s₀ => ?_
  refine Triple.strengthen (Ledger drr t bound 0 0) (fun _ h => h.2) ?_
  refine Triple.ite (fun _ => triple_claimAndPush options _ queueId tenantId shardId _) fun _ => ?_
  refine Triple.bind (triple_getAvailableCapacity _ _) fun capacity => ?_
  refine Triple.ite (fun _ => ?_) fun _ => triple_claimAndPush options _ queueId tenantId shardId _
  refine Triple.bind (triple_setCooloff _) fun _ => Triple.pure fun _ hs => ?_
  rw [share_zero]
  exact hs

/-- 一つの tenant の deficit を範囲の中で書き換えた後の範囲。 -/
theorem Writes.inRange {s s' : Redis P} {t : String} {x : ℚ} (hw : Writes s s' t x)
    (h : InRange drr s) (hx : 0 ≤ x ∧ x ≤ drr.maxDeficit) : InRange drr s' := by
  intro t' v hv
  rw [hw t'] at hv
  split at hv
  · exact ⟨x, (Option.some.inj hv).symm, hx⟩
  · exact h t' v hv

/-- 借りのある tenant の deficit から、借りの分を引く。 -/
theorem Ledger.debit {s : Loop P} {tenantId : String} {n : Nat}
    (h : Ledger drr t bound (share tenantId t n) 0 s) (hmax : 0 ≤ drr.maxDeficit) {redis : Redis P}
    (hw : Writes s.world.redis redis tenantId (debited n (deficit s.world.redis tenantId))) :
    Ledger drr t bound 0 0 ((s.setRedis redis).record
      [.stored tenantId (debited n (deficit s.world.redis tenantId))]) := by
  have hmem := debited_mem n (h.range.deficit_mem hmax tenantId)
  have hrange := hw.inRange h.range hmem
  refine ⟨h.calm, hrange, ?_, fun haff => ?_⟩
  · intro t' x hx
    rcases List.mem_append.mp hx with hx | hx
    · exact h.stored t' x hx
    · cases List.mem_singleton.mp hx
      exact hmem
  · obtain ⟨hbal, hcov⟩ := h.balance haff.of_append.1
    have hnonneg := (hrange.deficit_mem hmax t).1
    simp only [Loop.record, Loop.setRedis, pushes_append]
    refine ⟨?_, by simpa using hnonneg⟩
    rw [hw.deficit_eq]
    by_cases heq : tenantId = t
    · subst heq
      simp only [share, if_true] at hbal hcov
      rw [if_pos rfl, debited_eq (by push_cast at hcov; linarith)]
      simp only [pushes, List.countP_singleton, Bool.false_eq_true, if_false] at hbal ⊢
      push_cast
      linarith
    · rw [if_neg (Ne.symm heq)]
      simp only [share, if_neg heq] at hbal
      simpa [pushes] using hbal

theorem triple_recordProcessedBatch (tenantId : String) (n : Nat) (hmax : 0 ≤ drr.maxDeficit) :
    Triple (Ledger drr t bound (share tenantId t n) 0)
      (recordProcessedBatch tenantId n : LoopM P Unit)
      (fun _ => Ledger drr t bound 0 0) fail := by
  have hcommand : Triple (Ledger drr t bound (share tenantId t n) 0)
      (command (fun _ => drrDecrementDeficitBatchLua tenantId n)
        fun _ newDeficit => [.stored tenantId newDeficit] : LoopM P ℚ)
      (fun _ => Ledger drr t bound 0 0) fail := by
    refine triple_command fun s hs => ?_
    obtain ⟨hfst, hw⟩ := writes_drrDecrementDeficitBatch s.world.redis tenantId n
    simp only [hfst]
    exact hs.debit hmax hw
  exact Triple.bind hcommand fun _ => Triple.pure fun _ hs => hs

theorem triple_processQueues (hmax : 0 ≤ drr.maxDeficit) (tenantId : String) (shardId : Nat) :
    ∀ queues : List String,
      Triple (Ledger drr t bound 0 0) (processQueues options cooloff tenantId shardId queues)
        (fun _ => Ledger drr t bound 0 0) (Ledger drr t bound 0 0)
  | [] => Triple.pure fun _ hs => hs
  | queueId :: rest => by
    have hrest := triple_processQueues hmax tenantId shardId rest
    have hskip : Triple (Ledger drr t bound 0 0) (skipsQueue cooloff queueId : LoopM P Bool)
        (fun _ => Ledger drr t bound 0 0) (Ledger drr t bound 0 0) :=
      Triple.ite (fun _ => triple_isInCooloff queueId) fun _ => Triple.pure fun _ hs => hs
    refine Triple.bind hskip fun skipped => ?_
    refine Triple.ite (fun _ => hrest) fun _ => ?_
    refine Triple.bind (triple_isAtCapacity options _ _ fun _ hs => hs) fun atCapacity => ?_
    refine Triple.ite (fun _ => Triple.pure fun _ hs => hs) fun _ => ?_
    refine Triple.bind (triple_claimAndPushToWorkerQueue options cooloff queueId tenantId shardId)
      fun n => ?_
    refine Triple.ite (fun _ => ?_) fun hzero => ?_
    · refine Triple.bind (triple_recordProcessedBatch tenantId n hmax) fun _ => ?_
      exact Triple.bind hrest fun _ => Triple.pure fun _ hs => hs
    · obtain rfl : n = 0 := Nat.eq_zero_of_not_pos hzero
      rw [share_zero]
      exact hrest

theorem triple_processTenants (hmax : 0 ≤ drr.maxDeficit) (shardId : Nat) :
    ∀ tenants : List (String × List String),
      Triple (Ledger drr t bound 0 0) (processTenants options cooloff shardId tenants)
        (fun _ => Ledger drr t bound 0 0) (Ledger drr t bound 0 0)
  | [] => Triple.pure fun _ hs => hs
  | (tenantId, queues) :: rest => by
    refine Triple.bind (triple_processQueues options cooloff hmax tenantId shardId queues) fun _ => ?_
    exact Triple.bind (triple_processTenants hmax shardId rest) fun _ => Triple.pure fun _ hs => hs

end Queue

/-! ## 一回の繰り返し -/

section Iteration

variable (options : FairQueueOptions P) (drr : DRRSchedulerConfig) (cooloff : CooloffOptions)
variable {t : String} {bound : ℚ}

/-- 同じ tenant は一度だけ並ぶ。 -/
theorem nodup_groupQueuesByTenant (queues : List (String × String)) :
    ((groupQueuesByTenant queues).map Prod.fst).Nodup := by
  have h : ∀ (queues : List (String × String)) (grouped : JsMap (List String)),
      (grouped.map Prod.fst).Nodup → ((queues.foldl (fun grouped q =>
        JsMap.set grouped q.2 ((JsMap.get grouped q.2).getD [] ++ [q.1])) grouped).map
          Prod.fst).Nodup := by
    intro queues
    induction queues with
    | nil => exact fun _ h => h
    | cons q queues ih => exact fun grouped h => ih _ (JsMap.nodup_keys_set h _ _)
  exact h queues [] List.nodup_nil

theorem pushes_stored (t : String) (l : List (String × ℚ)) :
    pushes t (l.map fun r => .stored r.1 r.2) = 0 := by
  simp [pushes, List.countP_eq_zero]

variable {drr}

/-- quantum を一度足すと、上限が quantum だけ増える。 -/
theorem Ledger.credit {s : Loop P} (h : Ledger drr t bound 0 0 s) (hq : 0 ≤ drr.quantum)
    (hmax : 0 ≤ drr.maxDeficit) {tenantIds : List String} {redis : Redis P}
    (hget : ∀ t', JsMap.get (redis.get .deficit) t' =
      if t' ∈ tenantIds then some (.number (credited drr (deficit s.world.redis t')))
      else JsMap.get (s.world.redis.get .deficit) t') :
    Ledger drr t (bound + drr.quantum) 0 0 ((s.setRedis redis).record
      ((tenantIds.zip (tenantIds.map fun t' => credited drr (deficit s.world.redis t'))).map
        fun r => .stored r.1 r.2)) := by
  have hcredit : ∀ t', 0 ≤ credited drr (deficit s.world.redis t') ∧
      credited drr (deficit s.world.redis t') ≤ drr.maxDeficit ∧
      credited drr (deficit s.world.redis t') ≤ deficit s.world.redis t' + drr.quantum :=
    fun t' => credited_mem hq (h.range.deficit_mem hmax t').1 hmax
  have hrange : InRange drr redis := by
    intro t' v hv
    rw [hget t'] at hv
    split at hv
    · exact ⟨_, (Option.some.inj hv).symm, (hcredit t').1, (hcredit t').2.1⟩
    · exact h.range t' v hv
  have hle : deficit redis t ≤ deficit s.world.redis t + drr.quantum := by
    simp only [deficit, hget t]
    split
    · exact (hcredit t).2.2
    · exact le_add_of_nonneg_right hq
  refine ⟨h.calm, hrange, ?_, fun haff => ?_⟩
  · intro t' x hx
    rcases List.mem_append.mp hx with hx | hx
    · exact h.stored t' x hx
    · obtain ⟨r, hr, heq⟩ := List.mem_map.mp hx
      obtain ⟨t₁, -, hx'⟩ := List.mem_map.mp (List.of_mem_zip hr).2
      obtain rfl : r.2 = x := (LoopEvent.stored.inj heq).2
      rw [← hx']
      exact ⟨(hcredit t₁).1, (hcredit t₁).2.1⟩
  · obtain ⟨hbal, -⟩ := h.balance haff.of_append.1
    have hnonneg := (hrange.deficit_mem hmax t).1
    simp only [Loop.record, Loop.setRedis, pushes_append, pushes_stored]
    push_cast at hbal ⊢
    exact ⟨by linarith, by linarith⟩

theorem Ledger.mono {s : Loop P} {bound' : ℚ} (h : Ledger drr t bound 0 0 s)
    (hle : bound ≤ bound') : Ledger drr t bound' 0 0 s :=
  ⟨h.calm, h.range, h.stored, fun haff => ⟨(h.balance haff).1.trans (by linarith),
    (h.balance haff).2⟩⟩

theorem triple_addQuantum (hq : 0 ≤ drr.quantum) (hmax : 0 ≤ drr.maxDeficit)
    {tenantIds : List String} (hnodup : tenantIds.Nodup) {fail : Loop P → Prop} :
    Triple (Ledger drr t bound 0 0)
      (command (fun _ => drrAddQuantumLua drr.quantum drr.maxDeficit tenantIds)
        fun _ results => (tenantIds.zip results).map fun r => .stored r.1 r.2 : LoopM P (List ℚ))
      (fun _ => Ledger drr t (bound + drr.quantum) 0 0) fail := by
  refine triple_command fun s hs => ?_
  obtain ⟨hresults, hget⟩ := get_drrAddQuantum drr (s := s.world.redis) hnodup
  simp only [hresults]
  exact hs.credit hq hmax hget

theorem triple_selectQueues (hq : 0 ≤ drr.quantum) (hmax : 0 ≤ drr.maxDeficit) (shardId : Nat) :
    Triple (Ledger drr t bound 0 0) (selectQueues options drr shardId)
      (fun _ => Ledger drr t (bound + drr.quantum) 0 0)
      (Ledger drr t (bound + drr.quantum) 0 0) := by
  have hqueues : Triple (Ledger drr t bound 0 0) (getQueuesFromShard options drr shardId)
      (fun _ => Ledger drr t bound 0 0) (Ledger drr t (bound + drr.quantum) 0 0) :=
    Triple.bind (triple_silent (fun _ => Prog.Uses.query (U := {⟨_, Key.masterQueue shardId⟩}) rfl)
      (by simp)) fun _ => Triple.pure fun _ hs => hs
  refine Triple.bind hqueues fun queues => ?_
  refine Triple.ite (fun _ => Triple.pure fun _ hs => hs.mono (le_add_of_nonneg_right hq)) fun _ => ?_
  refine Triple.bind (triple_addQuantum hq hmax (nodup_groupQueuesByTenant queues)) fun deficits => ?_
  refine Triple.bind (Triple.mapM fun r _ => ?_) fun _ => Triple.pure fun _ hs => hs
  exact Triple.bind (triple_isAtCapacity options _ _ fun _ hs => hs)
    fun _ => Triple.pure fun _ hs => hs

theorem triple_processMasterQueueShard (hq : 0 ≤ drr.quantum) (hmax : 0 ≤ drr.maxDeficit)
    (shardId : Nat) :
    Triple (Ledger drr t bound 0 0) (processMasterQueueShard options drr cooloff shardId)
      (fun _ => Ledger drr t (bound + drr.quantum) 0 0)
      (Ledger drr t (bound + drr.quantum) 0 0) :=
  Triple.bind (triple_selectQueues options hq hmax shardId) fun tenants =>
    Triple.bind (triple_processTenants options cooloff hmax shardId tenants) fun _ =>
      Triple.pure fun _ hs => hs

/-- 繰り返すたびに、上限が quantum だけ増える。 -/
theorem ledger_runIterations (hq : 0 ≤ drr.quantum) (hmax : 0 ≤ drr.maxDeficit) :
    ∀ (shards : List Nat) {bound : ℚ} {s : Loop P}, Ledger drr t bound 0 0 s →
      Ledger drr t (bound + shards.length * drr.quantum) 0 0
        (runIterations options drr cooloff shards s)
  | [], _, _, h => h.mono (by simp)
  | shardId :: shards, bound, s, h => by
    have hstep := (triple_processMasterQueueShard options cooloff hq hmax shardId).result_snd h
    refine (ledger_runIterations hq hmax shards hstep).mono ?_
    rw [List.length_cons]
    push_cast
    linarith

end Iteration

/-- **deficit は常に `[0, maxDeficit]` にある。どの claim も、取る message が tenant の deficit を超えない実行では、
`k` 回の繰り返しでその tenant に配る数は `maxDeficit + k * quantum` を超えない。** -/
theorem deficit_bounded (options : FairQueueOptions P) (drr : DRRSchedulerConfig)
    (cooloff : CooloffOptions) (hq : 0 ≤ drr.quantum) (hmax : 0 ≤ drr.maxDeficit) (s : Loop P)
    (htrace : s.trace = []) (hcalm : Calm s) (hrange : InRange drr s.world.redis)
    (shards : List Nat) (tenantId : String) :
    let s' := runIterations options drr cooloff shards s
    InRange drr s'.world.redis ∧
    (∀ t x, .stored t x ∈ s'.trace → 0 ≤ x ∧ x ≤ drr.maxDeficit) ∧
    (Affordable tenantId s'.trace →
      (pushes tenantId s'.trace : ℚ) ≤ drr.maxDeficit + shards.length * drr.quantum) := by
  obtain ⟨hnonneg, hle⟩ := hrange.deficit_mem hmax tenantId
  have hstart : Ledger drr tenantId drr.maxDeficit 0 0 s := by
    refine ⟨hcalm, hrange, ?_, fun _ => ⟨?_, by simpa using hnonneg⟩⟩
    · intro t x hx
      rw [htrace] at hx
      cases hx
    · simpa [htrace, pushes] using hle
  have hend := ledger_runIterations options cooloff hq hmax shards hstart
  refine ⟨hend.range, hend.stored, fun haff => ?_⟩
  obtain ⟨hbal, hcov⟩ := hend.balance haff
  push_cast at hbal hcov
  linarith

/-- 一回に 1 だけ足す設定。 -/
def drrOne : DRRSchedulerConfig where
  quantum := 1
  maxDeficit := 1

/-- 一つの queue に message が並ぶ。 -/
def loopOf (messages : List String) : Loop Unit where
  world :=
    { redis := (System.exec sampleOptions
        [.enqueueBatch 0 "q" "t" (messages.map fun m => (m, (), 0)) none, .run 0 0]).redis
      queueDescriptorCache := fun _ => none
      queueCooloffStates := []
      now := 0 }
  env := []
  trace := []

/-- 三件の message が、一回の繰り返しで全て配られる。 -/
theorem deficit_overrun :
    pushes "q" (runIterations sampleOptions drrOne {} [0] (loopOf ["m1", "m2", "m3"])).trace = 3 ∧
      ¬ ((3 : ℚ) ≤ drrOne.maxDeficit + 1 * drrOne.quantum) := by
  decide +kernel

/-- 一件ずつなら、上限に収まる。 -/
theorem deficit_bounded_one :
    (pushes "q" (runIterations sampleOptions drrOne {} [0] (loopOf ["m1"])).trace : ℚ) ≤
      drrOne.maxDeficit + ([0] : List Nat).length * drrOne.quantum := by
  have hrange : InRange drrOne (loopOf ["m1"]).world.redis := by
    intro t v hv
    cases hv
  refine (deficit_bounded sampleOptions drrOne {} (by decide) (by decide) (loopOf ["m1"]) rfl
    (fun e he => by cases he) hrange [0] "q").2.2 ?_
  decide +kernel

end FairQueue
