import Mathlib.Data.List.Perm.Basic
import Trigger.Ipc.Connection

/-!
# 呼び出しがちょうど一度扱われること

一つの呼び出しは、送られてから、届く前の packet、走っている handler、終わった handler のどれか一つにある。値が返るのは、終わった
handler が送った ACK が届いたときに限る。
-/

namespace Ipc

open Infra.Machine

variable {μ ρ : Type}

/-! ## 列から一つ取り除く -/

section EraseIdx

variable {α β : Type} {l : List α} {i : Nat} {a : α}

theorem perm_cons_eraseIdx (h : l[i]? = some a) : l.Perm (a :: l.eraseIdx i) := by
  obtain ⟨hlt, rfl⟩ := List.getElem?_eq_some_iff.mp h
  exact (List.getElem_cons_eraseIdx_perm hlt).symm

theorem mem_eraseIdx (h : l[i]? = some a) {b : α} (hne : b ≠ a) : b ∈ l.eraseIdx i ↔ b ∈ l := by
  rw [(perm_cons_eraseIdx h).mem_iff, List.mem_cons]
  exact ⟨.inr, fun hb => hb.resolve_left hne⟩

theorem filterMap_eraseIdx_of_none {f : α → Option β} (h : l[i]? = some a) (ha : f a = none) :
    (l.filterMap f).Perm ((l.eraseIdx i).filterMap f) := by
  have hperm := (perm_cons_eraseIdx h).filterMap f
  rwa [List.filterMap_cons_none ha] at hperm

theorem filterMap_eraseIdx_of_some {f : α → Option β} (h : l[i]? = some a) {b : β}
    (ha : f a = some b) : (l.filterMap f).Perm (b :: (l.eraseIdx i).filterMap f) := by
  have hperm := (perm_cons_eraseIdx h).filterMap f
  rwa [List.filterMap_cons_some ha] at hperm

end EraseIdx

/-! ## 呼ぶ側と扱う側 -/

/-- `c` の呼び出しは、`d` のどこか一箇所にある。 -/
structure Linked (c d : Connection μ ρ) : Prop where
  perm : d.received.Perm c.calls
  nodup : (c.calls.map Prod.fst).Nodup
  fresh : ∀ id ∈ c.calls.map Prod.fst, id < c.messageCounter
  registered : ∀ id, c.acks id = none ↔ c.messageCounter ≤ id
  acked : ∀ id v, Packet.ack id v ∈ c.inbox → ∃ m, (⟨m, some id, some v⟩ : Handled μ ρ) ∈ d.handled
  resolved : ∀ id v, c.acks id = some (.resolved v) →
    ∃ m, (⟨m, some id, some v⟩ : Handled μ ρ) ∈ d.handled
  answered : ∀ m id v, (⟨m, some id, some v⟩ : Handled μ ρ) ∈ d.handled →
    Packet.ack id v ∈ c.inbox ∨ c.acks id ≠ some .waiting

section Linked

variable {c d : Connection μ ρ}

/-- 扱われた呼び出しは、送ったものである。 -/
theorem Linked.mem_calls (h : Linked c d) {m : μ} {id : Nat} {r : Option ρ}
    (hmem : (⟨m, some id, r⟩ : Handled μ ρ) ∈ d.handled) : (id, m) ∈ c.calls := by
  refine h.perm.mem_iff.mp (List.mem_append_right _ (List.mem_filterMap.mpr ⟨_, hmem, ?_⟩))
  rfl

/-- 扱った側の変化。呼び出しのある所が変わるだけである。 -/
theorem Linked.callee (h : Linked c d) {d' : Connection μ ρ}
    (hreceived : d.received.Perm d'.received) (hhandled : d'.handled = d.handled) :
    Linked c d' where
  perm := hreceived.symm.trans h.perm
  nodup := h.nodup
  fresh := h.fresh
  registered := h.registered
  acked id v hmem := hhandled ▸ h.acked id v hmem
  resolved id v hget := hhandled ▸ h.resolved id v hget
  answered m id v hmem := h.answered m id v (hhandled ▸ hmem)

/-- 呼ぶ側の変化。届く ACK は変わらない。 -/
theorem Linked.caller (h : Linked c d) {c' : Connection μ ρ} (hcalls : c'.calls = c.calls)
    (hcounter : c'.messageCounter = c.messageCounter) (hacks : c'.acks = c.acks)
    (hinbox : ∀ id v, Packet.ack id v ∈ c'.inbox ↔ Packet.ack id v ∈ c.inbox) : Linked c' d where
  perm := hcalls ▸ h.perm
  nodup := hcalls ▸ h.nodup
  fresh := by
    rw [hcalls, hcounter]
    exact h.fresh
  registered := by
    rw [hacks, hcounter]
    exact h.registered
  acked id v hmem := h.acked id v ((hinbox id v).mp hmem)
  resolved id v hget := h.resolved id v (hacks ▸ hget)
  answered m id v hmem := by
    rw [hacks, hinbox]
    exact h.answered m id v hmem

/-- 呼び出しでない packet が、扱う側へ送られる。 -/
theorem Linked.push_callee (h : Linked c d) {packet : Packet μ ρ} (hpacket : packet.call = none) :
    Linked c { d with inbox := d.inbox ++ [packet] } := by
  refine h.callee (.of_eq ?_) rfl
  unfold Connection.received
  rw [List.filterMap_append, List.filterMap_cons_none hpacket, List.filterMap_nil, List.append_nil]

/-- ACK でない packet が、呼ぶ側へ送られる。 -/
theorem Linked.push_caller (h : Linked c d) {packet : Packet μ ρ}
    (hpacket : ∀ id v, packet ≠ .ack id v) : Linked { c with inbox := c.inbox ++ [packet] } d := by
  refine h.caller rfl rfl rfl fun id v => ?_
  rw [List.mem_append, List.mem_singleton]
  exact ⟨fun hmem => hmem.resolve_right (Ne.symm (hpacket id v)), .inl⟩

/-- `sendWithAck` で EVENT を送る。 -/
theorem Linked.call (h : Linked c d) (message : μ) :
    Linked { c with
      messageCounter := c.messageCounter + 1
      acks := Function.update c.acks c.messageCounter (some .waiting)
      calls := c.calls ++ [(c.messageCounter, message)] }
      { d with inbox := d.inbox ++ [.event message (some c.messageCounter)] } := by
  -- 番号は増えるだけなので、新しい番号はまだ使われていない
  have hnew : c.messageCounter ∉ c.calls.map Prod.fst := fun hmem =>
    Nat.lt_irrefl _ (h.fresh _ hmem)
  have hne : ∀ {m : μ} {id : Nat} {r : Option ρ}, (⟨m, some id, r⟩ : Handled μ ρ) ∈ d.handled →
      id ≠ c.messageCounter := by
    rintro m id r hmem rfl
    exact hnew (List.mem_map_of_mem (h.mem_calls hmem))
  constructor
  case perm =>
    unfold Connection.received
    dsimp only
    rw [List.filterMap_append]
    refine List.Perm.trans ?_ (h.perm.append_right _)
    unfold Connection.received
    rw [List.append_assoc, List.append_assoc, List.append_assoc, List.append_assoc]
    exact List.Perm.append_left _ (List.perm_append_comm.trans (.of_eq (List.append_assoc _ _ _)))
  case nodup =>
    dsimp only
    rw [List.map_append]
    exact List.Nodup.append h.nodup (List.nodup_singleton _)
      (List.disjoint_singleton.mpr hnew)
  case fresh =>
    intro id hid
    dsimp only at hid ⊢
    rw [List.map_append] at hid
    rcases List.mem_append.mp hid with hid | hid
    · have := h.fresh id hid
      omega
    · rw [List.mem_singleton.mp hid]
      exact Nat.lt_succ_self _
  case registered =>
    intro id
    dsimp only
    by_cases hid : id = c.messageCounter
    · rw [hid, Function.update_self]
      exact ⟨fun h => absurd h (Option.some_ne_none _), fun h => absurd h (Nat.not_succ_le_self _)⟩
    · rw [Function.update_of_ne hid, h.registered]
      omega
  case acked => exact h.acked
  case resolved =>
    intro id v hget
    dsimp only at hget
    by_cases hid : id = c.messageCounter
    · rw [hid, Function.update_self] at hget
      cases hget
    · rw [Function.update_of_ne hid] at hget
      exact h.resolved id v hget
  case answered =>
    intro m id v hmem
    dsimp only
    rw [Function.update_of_ne (hne hmem)]
    exact h.answered m id v hmem

/-- schema に合わない `sendWithAck`。 -/
theorem Linked.reject (h : Linked c d) :
    Linked { c with
      messageCounter := c.messageCounter + 1
      acks := Function.update c.acks c.messageCounter (some .rejected) } d := by
  constructor
  case perm => exact h.perm
  case nodup => exact h.nodup
  case fresh => exact fun id hid => Nat.lt_succ_of_lt (h.fresh id hid)
  case registered =>
    intro id
    dsimp only
    by_cases hid : id = c.messageCounter
    · rw [hid, Function.update_self]
      exact ⟨fun h => absurd h (Option.some_ne_none _), fun h => absurd h (Nat.not_succ_le_self _)⟩
    · rw [Function.update_of_ne hid, h.registered]
      omega
  case acked => exact h.acked
  case resolved =>
    intro id v hget
    dsimp only at hget
    by_cases hid : id = c.messageCounter
    · rw [hid, Function.update_self] at hget
      cases hget
    · rw [Function.update_of_ne hid] at hget
      exact h.resolved id v hget
  case answered =>
    intro m id v hmem
    dsimp only
    have hid : id ≠ c.messageCounter := by
      rintro rfl
      exact Nat.lt_irrefl _ (h.fresh _ (List.mem_map_of_mem (h.mem_calls hmem)))
    rw [Function.update_of_ne hid]
    exact h.answered m id v hmem

/-- 待っている promise が決まる。 -/
theorem Linked.settle (h : Linked c d) {id : Nat} {ack : Ack ρ} (hget : c.acks id = some .waiting)
    (hack : ack ≠ .waiting) (hresolved : ∀ v, ack = .resolved v →
      ∃ m, (⟨m, some id, some v⟩ : Handled μ ρ) ∈ d.handled) :
    Linked { c with acks := Function.update c.acks id (some ack) } d := by
  constructor
  case perm => exact h.perm
  case nodup => exact h.nodup
  case fresh => exact h.fresh
  case registered =>
    intro id'
    dsimp only
    by_cases hid : id' = id
    · rw [hid, Function.update_self]
      have hnone := h.registered id
      rw [hget] at hnone
      exact ⟨fun h => absurd h (Option.some_ne_none _),
        fun hle => absurd (hnone.mpr hle) (Option.some_ne_none _)⟩
    · rw [Function.update_of_ne hid]
      exact h.registered id'
  case acked => exact h.acked
  case resolved =>
    intro id' v hv
    dsimp only at hv
    by_cases hid : id' = id
    · rw [hid, Function.update_self] at hv
      exact hid ▸ hresolved v (Option.some.inj hv)
    · rw [Function.update_of_ne hid] at hv
      exact h.resolved id' v hv
  case answered =>
    intro m id' v hmem
    dsimp only
    by_cases hid : id' = id
    · rw [hid, Function.update_self]
      exact .inr fun heq => hack (Option.some.inj heq)
    · rw [Function.update_of_ne hid]
      exact h.answered m id' v hmem

/-- 決まった promise の ACK が取り除かれる。 -/
theorem Linked.erase_ack (h : Linked c d) {i id : Nat} {v : ρ} (hi : c.inbox[i]? = some (.ack id v))
    (hsettled : c.acks id ≠ some .waiting) : Linked { c with inbox := c.inbox.eraseIdx i } d where
  perm := h.perm
  nodup := h.nodup
  fresh := h.fresh
  registered := h.registered
  acked id' v' hmem := h.acked id' v' (List.mem_of_mem_eraseIdx hmem)
  resolved := h.resolved
  answered m id' v' hmem := by
    by_cases hid : id' = id
    · exact .inr (hid ▸ hsettled)
    · refine (h.answered m id' v' hmem).imp (fun hin => ?_) fun hin => hin
      exact (mem_eraseIdx hi fun heq => hid (by cases heq; rfl)).mpr hin

/-- handler が終わり、値があれば ACK が送られる。 -/
theorem Linked.finish (h : Linked c d) {i : Nat} {handling : Handling μ}
    (hi : d.running[i]? = some handling) (result : Option ρ) {c' : Connection μ ρ}
    (hcalls : c'.calls = c.calls) (hcounter : c'.messageCounter = c.messageCounter)
    (hacks : c'.acks = c.acks)
    (hinbox : ∀ id v, Packet.ack id v ∈ c'.inbox ↔
      Packet.ack id v ∈ c.inbox ∨ (handling.id = some id ∧ result = some v)) :
    Linked c' { d with
      running := d.running.eraseIdx i
      handled := d.handled ++ [⟨handling.message, handling.id, result⟩] } := by
  constructor
  case perm =>
    rw [hcalls]
    refine List.Perm.trans ?_ h.perm
    unfold Connection.received
    dsimp only
    rw [List.filterMap_append, List.append_assoc, List.append_assoc]
    refine List.Perm.append_left _ ?_
    -- id を持つ handler だけが送った call に対応し、実行中から処理済みへ移る
    cases hid : handling.id with
    | none =>
      have hcall : handling.call = none := by
        unfold Handling.call
        rw [hid]
        rfl
      rw [List.filterMap_cons_none (by rfl), List.filterMap_nil, List.append_nil]
      exact (filterMap_eraseIdx_of_none hi hcall).symm.append_right _
    | some id =>
      have hcall : handling.call = some (id, handling.message) := by
        unfold Handling.call
        rw [hid]
        rfl
      have hlast : [(⟨handling.message, some id, result⟩ : Handled μ ρ)].filterMap Handled.call =
          [(id, handling.message)] := rfl
      rw [hlast]
      refine List.Perm.trans ?_ ((filterMap_eraseIdx_of_some hi hcall).symm.append_right _)
      rw [← List.append_assoc]
      exact List.perm_append_singleton _ _
  case nodup => exact hcalls ▸ h.nodup
  case fresh =>
    rw [hcalls, hcounter]
    exact h.fresh
  case registered =>
    rw [hacks, hcounter]
    exact h.registered
  case acked =>
    intro id v hmem
    rcases (hinbox id v).mp hmem with hmem | ⟨hid, hresult⟩
    · obtain ⟨m, hm⟩ := h.acked id v hmem
      exact ⟨m, List.mem_append_left _ hm⟩
    · refine ⟨handling.message, List.mem_append_right _ (List.mem_singleton.mpr ?_)⟩
      rw [hid, hresult]
  case resolved =>
    intro id v hget
    obtain ⟨m, hm⟩ := h.resolved id v (hacks ▸ hget)
    exact ⟨m, List.mem_append_left _ hm⟩
  case answered =>
    intro m id v hmem
    rw [hacks, hinbox]
    rcases List.mem_append.mp hmem with hmem | hmem
    · exact (h.answered m id v hmem).imp .inl fun hsettled => hsettled
    · have heq := List.mem_singleton.mp hmem
      injection heq with hm hid hresult
      exact .inl (.inr ⟨hid.symm, hresult.symm⟩)

end Linked

/-! ## 一歩 -/

/-- どちらの側の呼び出しも、相手の側のどこか一箇所にある。 -/
def Inv (s : State μ ρ) : Prop := ∀ side : Side, Linked (s side) (s side.other)

section Step

variable {s s' : State μ ρ} {side : Side}

theorem Inv.of (side : Side) (h : Linked (s' side) (s' side.other))
    (h' : Linked (s' side.other) (s' side)) : Inv s' := by
  intro x
  rcases eq_or_eq_other side x with rfl | rfl
  · exact h
  · rw [other_other]
    exact h'

theorem Inv.back (h : Inv s) (side : Side) : Linked (s side.other) (s side) := by
  have := h side.other
  rwa [other_other] at this

theorem inv_initial : Inv (initial : State μ ρ) := fun _ =>
  { perm := .refl _
    nodup := List.nodup_nil
    fresh := fun _ hid => absurd hid List.not_mem_nil
    registered := fun _ => ⟨fun _ => Nat.zero_le _, fun _ => rfl⟩
    acked := fun _ _ hmem => absurd hmem List.not_mem_nil
    resolved := fun _ _ hget => absurd hget.symm (Option.some_ne_none _)
    answered := fun _ _ _ hmem => absurd hmem List.not_mem_nil }

theorem Inv.sendPacket (h : Inv s) {packet : Packet μ ρ} (hcall : packet.call = none)
    (hack : ∀ id v, packet ≠ .ack id v) : Inv (sendPacket s side packet) := by
  unfold Ipc.sendPacket
  refine .of side ?_ ?_
  · rw [update_other_self, update_self]
    exact (h side).push_callee hcall
  · rw [update_other_self, update_self]
    exact (h.back side).push_caller hack

theorem Inv.sendWithAck (h : Inv s) (message : μ) (valid : Bool) :
    Inv (sendWithAck s side message valid) := by
  unfold Ipc.sendWithAck
  dsimp only
  split
  · unfold Ipc.sendPacket
    refine .of side ?_ ?_
    · rw [update_other_self, update_self, update_self, update_other]
      exact (h side).call message
    · rw [update_other_self, update_self, update_self, update_other]
      refine ((h.back side).push_caller ?_).callee (.refl _) rfl
      intro _ _ heq
      cases heq
  · refine .of side ?_ ?_
    · rw [update_self, update_other]
      exact (h side).reject
    · rw [update_self, update_other]
      exact (h.back side).callee (.refl _) rfl

theorem Inv.timeout (h : Inv s) (id : Nat) : Inv (settle s side id .rejected) := by
  unfold Ipc.settle
  split
  · next hget =>
    refine .of side ?_ ?_
    · rw [update_self, update_other]
      exact (h side).settle hget (fun heq => by cases heq) fun v heq => by cases heq
    · rw [update_self, update_other]
      exact (h.back side).callee (.refl _) rfl
  · exact h

/-- packet が届いて inbox から取り除かれた側を、扱う側として見る。 -/
theorem received_eraseIdx {d : Connection μ ρ} {i : Nat} {packet : Packet μ ρ}
    (hi : d.inbox[i]? = some packet) (hcall : packet.call = none) :
    d.received.Perm { d with inbox := d.inbox.eraseIdx i }.received := by
  unfold Connection.received
  dsimp only
  rw [List.append_assoc, List.append_assoc]
  exact (filterMap_eraseIdx_of_none hi hcall).append_right _

theorem Inv.deliver_ack (h : Inv s) {i id : Nat} {v : ρ}
    (hi : (s side).inbox[i]? = some (.ack id v)) :
    Inv (settle (update s side fun c => { c with inbox := c.inbox.eraseIdx i }) side id
      (.resolved v)) := by
  have hback : Linked (s side.other) { s side with inbox := (s side).inbox.eraseIdx i } :=
    (h.back side).callee (received_eraseIdx hi rfl) rfl
  have hhandled := (h side).acked id v (List.mem_of_getElem? hi)
  unfold Ipc.settle
  rw [update_self]
  dsimp only
  split
  · next hget =>
    refine .of side ?_ ?_
    · rw [update_self, update_self, update_other, update_other]
      refine Linked.erase_ack (c := { s side with
        acks := Function.update (s side).acks id (some (.resolved v)) }) ?_ hi ?_
      · refine (h side).settle hget (fun heq => by cases heq) fun v' heq => ?_
        cases heq
        exact hhandled
      · dsimp only
        rw [Function.update_self]
        exact fun heq => by cases heq
    · rw [update_self, update_self, update_other, update_other]
      exact hback.callee (.refl _) rfl
  · next hne =>
    refine .of side ?_ ?_
    · rw [update_self, update_other]
      exact (h side).erase_ack hi hne
    · rw [update_self, update_other]
      exact hback

/-- 呼び出しでも ACK でもない packet が届く。 -/
theorem Inv.erase (h : Inv s) {i : Nat} {packet : Packet μ ρ}
    (hi : (s side).inbox[i]? = some packet) (hcall : packet.call = none)
    (hack : ∀ id v, packet ≠ .ack id v) :
    Inv (update s side fun c => { c with inbox := c.inbox.eraseIdx i }) := by
  refine .of side ?_ ?_
  · rw [update_self, update_other]
    exact (h side).caller rfl rfl rfl fun id v => mem_eraseIdx hi (Ne.symm (hack id v))
  · rw [update_self, update_other]
    exact (h.back side).callee (received_eraseIdx hi hcall) rfl

theorem Inv.deliver_event (h : Inv s) {i : Nat} {message : μ} {id : Option Nat}
    (hi : (s side).inbox[i]? = some (.event message id)) :
    Inv (update (update s side fun c => { c with inbox := c.inbox.eraseIdx i }) side
      fun c => { c with running := c.running ++ [⟨message, id⟩] }) := by
  refine .of side ?_ ?_
  · rw [update_self, update_self, update_other, update_other]
    exact (h side).caller rfl rfl rfl fun id v => mem_eraseIdx hi fun heq => by cases heq
  · rw [update_self, update_self, update_other, update_other]
    refine (h.back side).callee ?_ rfl
    unfold Connection.received
    dsimp only
    rw [List.filterMap_append]
    refine List.Perm.append_right _ ?_
    cases id with
    | none =>
      rw [List.filterMap_cons_none (by rfl), List.filterMap_nil, List.append_nil]
      exact (filterMap_eraseIdx_of_none hi rfl).append_right _
    | some id =>
      have hlast : [(⟨message, some id⟩ : Handling μ)].filterMap Handling.call =
          [(id, message)] := rfl
      rw [hlast]
      have hcall : (Packet.event message (some id) : Packet μ ρ).call = some (id, message) := rfl
      refine ((filterMap_eraseIdx_of_some hi hcall).append_right _).trans ?_
      rw [← List.append_assoc]
      exact (List.perm_append_singleton _ _).symm

theorem Inv.finish (h : Inv s) (i : Nat) (result : Option ρ) : Inv (finish s side i result) := by
  unfold Ipc.finish
  split
  · exact h
  · next handling hi =>
    dsimp only
    have hcaller : Linked { s side with
        running := (s side).running.eraseIdx i
        handled := (s side).handled ++ [⟨handling.message, handling.id, result⟩] } (s side.other) :=
      (h side).caller rfl rfl rfl fun _ _ => Iff.rfl
    split
    · next id message hid =>
      unfold Ipc.sendPacket
      refine .of side ?_ ?_
      · rw [update_other_self, update_self, update_self, update_other]
        exact hcaller.push_callee rfl
      · rw [update_other_self, update_self, update_self, update_other]
        refine (h.back side).finish hi _ rfl rfl rfl fun id' v' => ?_
        rw [List.mem_append, List.mem_singleton, hid]
        refine or_congr Iff.rfl ⟨fun heq => ?_, fun heq => ?_⟩
        · cases heq
          exact ⟨rfl, rfl⟩
        · obtain ⟨h1, h2⟩ := heq
          cases h1
          cases h2
          rfl
    · next hnone =>
      refine .of side ?_ ?_
      · rw [update_self, update_other]
        exact hcaller
      · rw [update_self, update_other]
        refine (h.back side).finish hi _ rfl rfl rfl fun id' v' => ?_
        exact ⟨.inl, fun h => h.resolve_right fun heq => hnone id' v' heq.1 heq.2⟩

theorem inv_step (h : Inv s) (e : Event μ ρ) : Inv (step s e) := by
  cases e with
  | connect side => exact h.sendPacket rfl fun _ _ heq => by cases heq
  | send side message => exact h.sendPacket rfl fun _ _ heq => by cases heq
  | sendWithAck side message valid => exact h.sendWithAck message valid
  | finish side i result => exact h.finish i result
  | timeout side id => exact h.timeout id
  | deliver side i uuid =>
    show Inv (Ipc.deliver s side i uuid)
    unfold Ipc.deliver
    split
    · exact h
    · next packet hi =>
      cases packet with
      | ack id message => exact h.deliver_ack hi
      | event message id => exact h.deliver_event hi
      | connect sessionId =>
        have herase := h.erase hi rfl fun _ _ heq => by cases heq
        cases sessionId with
        | none => exact herase.sendPacket rfl fun _ _ heq => by cases heq
        | some id =>
          show Inv (if _ then _ else _)
          split
          · exact herase
          · refine .of side ?_ ?_
            · rw [update_self, update_other]
              exact (herase side).caller rfl rfl rfl fun _ _ => Iff.rfl
            · rw [update_self, update_other]
              exact (herase.back side).callee (.refl _) rfl

end Step

/-! ## 呼び出しの結果 -/

/-- 番号の重ならない記録では、番号から結果が一つに決まる。 -/
theorem filter_handled {id : Nat} {e : Handled μ ρ} (hid : e.id = some id) :
    ∀ {l : List (Handled μ ρ)}, ((l.filterMap Handled.call).map Prod.fst).Nodup → e ∈ l →
      l.filter (·.id = some id) = [e]
  | [], _, he => absurd he List.not_mem_nil
  | a :: l, hnodup, he => by
    have hrest : ∀ b ∈ l, b.id = some id → id ∈ (l.filterMap Handled.call).map Prod.fst := by
      intro b hb hbid
      refine List.mem_map.mpr ⟨(id, b.message), List.mem_filterMap.mpr ⟨b, hb, ?_⟩, rfl⟩
      unfold Handled.call
      rw [hbid]
      rfl
    cases ha : a.id with
    | none =>
      have hne : e ≠ a := by
        rintro rfl
        rw [ha] at hid
        cases hid
      have hcall : a.call = none := by
        unfold Handled.call
        rw [ha]
        rfl
      rw [List.filterMap_cons_none hcall] at hnodup
      rw [List.filter_cons_of_neg (by simp [ha])]
      exact filter_handled hid hnodup ((List.mem_cons.mp he).resolve_left hne)
    | some k =>
      have hcall : a.call = some (k, a.message) := by
        unfold Handled.call
        rw [ha]
        rfl
      rw [List.filterMap_cons_some hcall, List.map_cons, List.nodup_cons] at hnodup
      by_cases hk : k = id
      · -- `a` のほかに、同じ番号のものは無い
        have hnone : ∀ b ∈ l, b.id ≠ some id := fun b hb hbid =>
          hnodup.1 (hk ▸ hrest b hb hbid)
        obtain rfl : e = a := (List.mem_cons.mp he).resolve_right fun hmem => hnone e hmem hid
        rw [List.filter_cons_of_pos (by simp [hid]),
          List.filter_eq_nil_iff.mpr fun b hb => by simpa using hnone b hb]
      · have hne : e ≠ a := by
          rintro rfl
          rw [ha] at hid
          exact hk (Option.some.inj hid)
        rw [List.filter_cons_of_neg (by simp [ha, hk])]
        exact filter_handled hid hnodup.2 ((List.mem_cons.mp he).resolve_left hne)

section Result

variable {c d : Connection μ ρ}

theorem Linked.nodup_received (h : Linked c d) : (d.received.map Prod.fst).Nodup :=
  (h.perm.map Prod.fst).nodup_iff.mpr h.nodup

theorem Linked.filter_handled (h : Linked c d) {m : μ} {id : Nat} {r : Option ρ}
    (hmem : (⟨m, some id, r⟩ : Handled μ ρ) ∈ d.handled) :
    d.handled.filter (·.id = some id) = [⟨m, some id, r⟩] := by
  have hnodup := h.nodup_received
  unfold Connection.received at hnodup
  rw [List.map_append] at hnodup
  exact Ipc.filter_handled rfl hnodup.of_append_right hmem

/-- 決まった promise は、handler の値か、時間切れである。 -/
theorem Linked.settled (h : Linked c d) {m : μ} {id : Nat} {v : ρ}
    (hmem : (⟨m, some id, some v⟩ : Handled μ ρ) ∈ d.handled)
    (hsettled : c.acks id ≠ some .waiting) :
    c.acks id = some (.resolved v) ∨ c.acks id = some .rejected := by
  have hlt := h.fresh id (List.mem_map_of_mem (h.mem_calls hmem))
  cases hget : c.acks id with
  | none =>
    have hle := (h.registered id).mp hget
    omega
  | some ack =>
    cases ack with
    | waiting => exact absurd hget hsettled
    | rejected => exact .inr rfl
    | resolved v' =>
      obtain ⟨m', hm'⟩ := h.resolved id v' hget
      have heq := (h.filter_handled hm').symm.trans (h.filter_handled hmem)
      injection heq with heq
      injection heq with _ _ heq
      rw [Option.some.inj heq]
      exact .inl rfl

end Result

section Main

variable (es : List (Event μ ρ)) {side : Side}

/-- 二つの呼び出しの ACK が、逆の順に届く。 -/
def sampleEvents : List (Event String Nat) :=
  [.connect .worker, .sendWithAck .worker "a" true, .sendWithAck .worker "b" false,
    .sendWithAck .worker "c" true, .deliver .executor 2 "", .deliver .executor 1 "",
    .finish .executor 0 (some 3), .finish .executor 0 (some 1), .deliver .worker 0 "",
    .timeout .worker 0, .deliver .executor 0 "session_1", .deliver .worker 0 "",
    .deliver .worker 0 ""]

end Main

end Ipc
