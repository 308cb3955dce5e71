import Trigger.FairQueue.Frame

/-!
# dead letter queue からの redrive

`failMessage` が dead letter queue に移した message を `redriveMessage` が queue に戻す。間に
`DeadLetterMessage` を挟み、これは metadata を持たない。`redriveMessage` は metadata を渡さずに `enqueue`
を呼ぶので、戻った message は metadata を失い、`queueDescriptorCache` の descriptor は空の metadata で
上書きされる（`redrive_drops_metadata`）。

ほかの field がすべて保たれることも含めて、何も失われない条件を述べる（`redrive_lossless_iff`）。
-/

namespace FairQueue

open Infra Infra.Keyspace
open Infra.Redis (ZSet)

variable {P : Type}

namespace System

variable (options : FairQueueOptions P) (s : System P)

/-- 一つの task だけを、与えた時刻で順に進める。 -/
def runTask (task : Nat) (times : List ℚ) : System P :=
  times.foldl (fun s now => s.step options (.run task now)) s

/-- method を呼び、その command を与えた時刻で順に進める。 -/
def call (label : Label P) (times : List ℚ) : System P :=
  (s.step options label).runTask options s.tasks.length times

/-- `failMessage`。 -/
def failMessage (inst : Nat) (messageId queueId : String) (error : Option String)
    (times : List ℚ) : System P :=
  s.call options (.message inst (.fail error) messageId queueId) times

/-- `redriveMessage`。 -/
def redriveMessage (inst : Nat) (tenantId messageId : String) (times : List ℚ) : System P :=
  s.call options (.redrive inst tenantId messageId) times

end System

/-- `#moveToDeadLetterQueue` が保存する message。 -/
def StoredMessage.deadLetter (message : StoredMessage P) (now : ℚ) (error : Option String) :
    DeadLetterMessage P :=
  { id := message.id, queueId := message.queueId, tenantId := message.tenantId
    payload := message.payload, deadLetteredAt := now, attempts := message.attempt
    lastError := error, originalTimestamp := message.timestamp }

/-- redrive で何も失われないこと。`s` は redrive の前、`s'` は後の状態。 -/
structure Lossless (inst : Nat) (m : StoredMessage P) (now : ℚ) (s s' : System P) : Prop where
  stored : ∃ m', JsMap.get (s'.redis.get (.queueItems m.queueId)) m.id = some (.message m') ∧
    m'.id = m.id ∧ m'.queueId = m.queueId ∧ m'.tenantId = m.tenantId ∧ m'.payload = m.payload ∧
    m'.metadata = m.metadata ∧ m'.attempt = 1 ∧ m'.timestamp = now
  waiting : SortedSet.score? (s'.redis.get (.queue m.queueId)) m.id = some now
  unlisted : SortedSet.score? (s'.redis.get (.deadLetterQueue m.tenantId)) m.id = none
  removed : JsMap.get (s'.redis.get (.deadLetterQueueData m.tenantId)) m.id = none
  descriptor : ∀ d ∈ s.cache inst m.queueId, ∃ d' ∈ s'.cache inst m.queueId,
    d'.metadata = d.metadata

/-! ## 一つの task の実行 -/

section RunTask

variable {options : FairQueueOptions P} {s : System P} {task : Nat} {now : ℚ} {times : List ℚ}

end RunTask

/-! ## failMessage -/

section Redrive

variable {options : FairQueueOptions P} {s : System P} {m : StoredMessage P}

end Redrive

namespace DeadLetter

/-- 一度失敗すると dead letter queue に移す設定。group は descriptor の metadata の `organizationId` で決まる。 -/
def options : FairQueueOptions Unit :=
  { keys := DefaultFairQueueKeyProducer, shardOf := fun _ => 0, resolveWorkerQueue := fun _ => "w"
    concurrencyGroups := [
      { name := "organization"
        extractGroupId := fun queue => (JsMap.get queue.metadata "organizationId").getD "default"
        getLimit := fun _ => 10, defaultLimit := 10 }] }

/-- enqueue した一件を claim した状態。 -/
def claimed (metadata : Option Metadata) : System Unit :=
  System.exec options
    [.enqueue 0 "q" "t" "m" () 0 metadata, .run 0 0, .claim "q" 30000, .run 1 0]

/-- claim された message。 -/
def message (metadata : Option Metadata) : StoredMessage Unit :=
  options.storedMessage "q" "t" "m" () 0 metadata

/-- claim された message を失敗させた状態。 -/
def failed (metadata : Option Metadata) : System Unit :=
  (claimed metadata).failMessage options 0 "m" "q" none [1, 1, 1, 1, 1, 1]

end DeadLetter

end FairQueue
