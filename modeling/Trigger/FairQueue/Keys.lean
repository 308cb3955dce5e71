import Trigger.Infra.Keyspace
import Trigger.Infra.Text

/-!
# FairQueue の key

`fair-queue/keyProducer.ts` の `DefaultFairQueueKeyProducer`。key は接頭辞と種類の名前と id を区切りで
つないだ文字列である。queue の整列集合は `queue:{queueId}`、その payload の hash は
`queue:{queueId}:items` なので、`x` と `x:items` という二つの queue id は同じ文字列の key を持つ。
五つの script が使う key の衝突は、この形のものだけである（`text_injOn`）。
-/

namespace FairQueue

open Infra Infra.Text Infra.Keyspace

/-! ## key の種類 -/

/-- FairQueue が使う key。`concurrency` は `{groupName}:{groupId}` の文字列で区別される。 -/
inductive Key : Kind → Type
  | queue (queueId : String) : Key .zset
  | queueItems (queueId : String) : Key .hash
  | masterQueue (shardId : Nat) : Key .zset
  | inflight (shardId : Nat) : Key .zset
  | inflightData (shardId : Nat) : Key .hash
  | concurrency (group : String) : Key .set
  | workerQueue (workerQueueId : String) : Key .list
  | deadLetterQueue (tenantId : String) : Key .zset
  | deadLetterQueueData (tenantId : String) : Key .hash
  | deficit : Key .hash
deriving DecidableEq

/-- `FairQueueKeyProducer`。tenant の取り出し方は差し替えられる。 -/
structure KeyProducer where
  keyPrefix : String := "fq"
  separator : String := ":"
  extractTenantId : String → String

namespace KeyProducer

variable (kp : KeyProducer)

/-- `#buildKey`。 -/
def buildKey (parts : List String) : String :=
  parts.foldl (fun acc part => acc ++ kp.separator ++ part) kp.keyPrefix

def masterQueueKey (shardId : Nat) : String := kp.buildKey ["master", toString shardId]

def queueKey (queueId : String) : String := kp.buildKey ["queue", queueId]

def queueItemsKey (queueId : String) : String := kp.buildKey ["queue", queueId, "items"]

/-- `concurrencyKey`。`group` は `concurrencyGroup` の文字列。 -/
def concurrencyKey (group : String) : String := kp.buildKey ["concurrency", group]

/-- group の名前と id をつないだもの。 -/
def concurrencyGroup (groupName groupId : String) : String := groupName ++ kp.separator ++ groupId

def inflightKey (shardId : Nat) : String := kp.buildKey ["inflight", toString shardId]

def inflightDataKey (shardId : Nat) : String := kp.buildKey ["inflight", toString shardId, "data"]

def workerQueueKey (consumerId : String) : String := kp.buildKey ["worker", consumerId]

def deadLetterQueueKey (tenantId : String) : String := kp.buildKey ["dlq", tenantId]

def deadLetterQueueDataKey (tenantId : String) : String := kp.buildKey ["dlq", tenantId, "data"]

/-- `DRRScheduler` の `#deficitKey`。master queue の key の、最初の `:` までを使う。 -/
def deficitKey : String := (splitColon (kp.masterQueueKey 0)).headD "" ++ ":drr:deficit"

/-- key の文字列。 -/
def text : Sigma Key → String
  | ⟨_, .queue queueId⟩ => kp.queueKey queueId
  | ⟨_, .queueItems queueId⟩ => kp.queueItemsKey queueId
  | ⟨_, .masterQueue shardId⟩ => kp.masterQueueKey shardId
  | ⟨_, .inflight shardId⟩ => kp.inflightKey shardId
  | ⟨_, .inflightData shardId⟩ => kp.inflightDataKey shardId
  | ⟨_, .concurrency group⟩ => kp.concurrencyKey group
  | ⟨_, .workerQueue workerQueueId⟩ => kp.workerQueueKey workerQueueId
  | ⟨_, .deadLetterQueue tenantId⟩ => kp.deadLetterQueueKey tenantId
  | ⟨_, .deadLetterQueueData tenantId⟩ => kp.deadLetterQueueDataKey tenantId
  | ⟨_, .deficit⟩ => kp.deficitKey

end KeyProducer

/-- `DefaultFairQueueKeyProducer.extractTenantId`。`tenant:{tenantId}:…` でなければ最初の成分。 -/
def defaultExtractTenantId (queueId : String) : String :=
  match splitColon queueId with
  | "tenant" :: tenantId :: _ => if tenantId = "" then "tenant" else tenantId
  | part :: _ => part
  | [] => ""

/-- 既定の設定の key producer。 -/
def DefaultFairQueueKeyProducer : KeyProducer := { extractTenantId := defaultExtractTenantId }

/-! ## 文字列の重なり -/

/-- queue の script が触れる key。`Q` は使われる queue id。 -/
inductive ScriptKey (Q : Set String) : Sigma Key → Prop
  | queue {q : String} : q ∈ Q → ScriptKey Q ⟨_, .queue q⟩
  | queueItems {q : String} : q ∈ Q → ScriptKey Q ⟨_, .queueItems q⟩
  | masterQueue (n : Nat) : ScriptKey Q ⟨_, .masterQueue n⟩
  | inflight (n : Nat) : ScriptKey Q ⟨_, .inflight n⟩
  | inflightData (n : Nat) : ScriptKey Q ⟨_, .inflightData n⟩

/-- `scriptKeys Q` は `ScriptKey Q` の集合。 -/
def scriptKeys (Q : Set String) : Set (Sigma Key) := {p | ScriptKey Q p}

/-- 一方がもう一方に `:items` を付けた形の queue id が、一緒に使われない。 -/
def Separated (kp : KeyProducer) (Q : Set String) : Prop :=
  ∀ q ∈ Q, q ++ kp.separator ++ "items" ∉ Q

section Text

variable {kp : KeyProducer} {Q : Set String}

theorem buildKey_two (name part : String) :
    kp.buildKey [name, part] = kp.keyPrefix ++ kp.separator ++ (name ++ kp.separator ++ part) := by
  simp [KeyProducer.buildKey, String.append_assoc]

theorem buildKey_three (name part last : String) : kp.buildKey [name, part, last] =
    kp.keyPrefix ++ kp.separator ++ (name ++ kp.separator ++ (part ++ kp.separator ++ last)) := by
  simp [KeyProducer.buildKey, String.append_assoc]

/-- 種類の名前の先頭の文字が違えば、key は違う。 -/
theorem build_ne {a b p q : String} {c d : Char} {as bs : List Char}
    (h : kp.keyPrefix ++ kp.separator ++ (a ++ kp.separator ++ p) =
      kp.keyPrefix ++ kp.separator ++ (b ++ kp.separator ++ q))
    (ha : a.toList = c :: as) (hb : b.toList = d :: bs) (hcd : c ≠ d) : False := by
  have h' := congrArg String.toList (append_left_cancel h)
  simp only [String.toList_append, ha, hb, List.cons_append, List.cons.injEq] at h'
  exact hcd h'.1

/-- 種類の名前が同じ key は、残りで決まる。 -/
theorem build_inj {a p q : String} (h : kp.keyPrefix ++ kp.separator ++ (a ++ kp.separator ++ p) =
    kp.keyPrefix ++ kp.separator ++ (a ++ kp.separator ++ q)) : p = q :=
  append_left_cancel (append_left_cancel h)

/-- 番号だけの key と `data` の付いた key は違う。 -/
theorem toString_ne_data (n m : Nat) : toString n ≠ toString m ++ kp.separator ++ "data" := by
  intro h
  have hmem : 'a' ∈ (toString n).toList := by
    rw [h, String.toList_append]
    exact List.mem_append_right _ (by decide)
  exact absurd (isDigit_of_mem_toString_nat hmem) (by decide)

/-- **queue id が `:items` の形で重ならなければ、script の key の文字列はすべて異なる。** -/
theorem text_injOn (hQ : Separated kp Q) : Set.InjOn kp.text (scriptKeys Q) := by
  intro p hp p' hp' h
  rcases hp with hq | hq | n | n | n <;> rcases hp' with hq' | hq' | m | m | m <;>
    simp only [KeyProducer.text, KeyProducer.queueKey, KeyProducer.queueItemsKey,
      KeyProducer.masterQueueKey, KeyProducer.inflightKey, KeyProducer.inflightDataKey,
      buildKey_two, buildKey_three] at h <;>
    first
      | exact (build_ne h rfl rfl (by decide)).elim
      | replace h := build_inj h
  · rw [h]
  · exact absurd (h ▸ hq) (hQ _ hq')
  · exact absurd (h ▸ hq') (hQ _ hq)
  · rw [append_right_cancel (append_right_cancel h)]
  · rw [toString_nat_injective h]
  · rw [toString_nat_injective h]
  · exact absurd h (toString_ne_data n m)
  · exact absurd h.symm (toString_ne_data m n)
  · rw [toString_nat_injective (append_right_cancel (append_right_cancel h))]

end Text

end FairQueue
