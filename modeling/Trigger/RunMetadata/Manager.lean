import Trigger.Infra.Machine
import Trigger.Infra.Record
import Trigger.RunMetadata.Operations

/-!
# StandardMetadataManager

一つの run の metadata を溜めて送る `StandardMetadataManager` と、request を届いた順に適用する server。

一つの flush は、送信（`flush`）、server への到着（`arrive`）、応答（`respond`）に分かれ、到着の前に失敗しうる。
`initial` と `calls` は、code が残さない記録（最初の metadata と呼び出しの列）である。
-/

namespace RunMetadata

open Infra.Machine

/-- 送られた request。`response` は server に届いた後の metadata である。 -/
structure Request where
  operations : List Operation
  response : Option Metadata
  periodic : Bool
deriving DecidableEq

structure ManagerState where
  store : Metadata
  queuedOperations : List Operation := []
  isFlushing : Bool := false
  requests : List Request := []
  /-- `finally` を待つ `periodicFlush` の数。 -/
  settling : Nat := 0
  server : Metadata
  initial : Metadata
  calls : List Operation := []
deriving DecidableEq

section Step

variable (p : JSONHeroPath)

/-- `getKey`。 -/
def getKey (s : ManagerState) (key : String) : Option DeserializedJson := s.store.lookup key

/-- `enqueueOperation`。 -/
def enqueueOperation (op : Operation) (s : ManagerState) : ManagerState :=
  match applyOperation? p s.store op with
  | none => s
  | some newMetadata =>
    if s.store = newMetadata then s
    else { s with queuedOperations := s.queuedOperations ++ [op], store := newMetadata }

/-- `flush` が request を送るまで。 -/
def flush (periodic : Bool) (s : ManagerState) : ManagerState :=
  if s.queuedOperations = [] then
    -- 定期の flush は、送るものが無くても `finally` で印を下ろす
    if periodic then { s with settling := s.settling + 1 } else s
  else if s.isFlushing then s
  else
    { s with isFlushing := true, queuedOperations := []
             requests := s.requests ++ [⟨collapseOperations s.queuedOperations, none, periodic⟩] }

/-- `startPeriodicFlush` の timer。 -/
def periodicFlush (s : ManagerState) : ManagerState := if s.isFlushing then s else flush true s

/-- `periodicFlush` の `finally`。 -/
def settle (s : ManagerState) : ManagerState :=
  if s.settling = 0 then s else { s with isFlushing := false, settling := s.settling - 1 }

/-- server が request を適用する。 -/
def arrive (i : Nat) (s : ManagerState) : ManagerState :=
  match s.requests[i]? with
  | some ⟨operations, none, periodic⟩ =>
    let server := applyMetadataOperations p s.server operations
    { s with server := server, requests := s.requests.set i ⟨operations, some server, periodic⟩ }
  | _ => s

/-- flush の終わり。 -/
def finish (i : Nat) (periodic : Bool) (s : ManagerState) : ManagerState :=
  { s with isFlushing := false, requests := s.requests.eraseIdx i
           settling := if periodic then s.settling + 1 else s.settling }

/-- 応答が届く。 -/
def respond (i : Nat) (s : ManagerState) : ManagerState :=
  match s.requests[i]? with
  | some ⟨_, some metadata, periodic⟩ => finish i periodic { s with store := metadata }
  | _ => s

/-- request が server に届く前に失敗する。 -/
def fail (i : Nat) (s : ManagerState) : ManagerState :=
  match s.requests[i]? with
  | some ⟨_, none, periodic⟩ => finish i periodic s
  | _ => s

/-- `stopAndReturnLastFlush` が返す操作。 -/
def lastFlush (s : ManagerState) : List Operation := collapseOperations s.queuedOperations

inductive Label
  | call (op : Operation)
  | flush
  | periodicFlush
  | settle
  | arrive (i : Nat)
  | respond (i : Nat)
  | fail (i : Nat)
  | stopAndReturnLastFlush

def step (s : ManagerState) : Label → ManagerState
  | .call op => enqueueOperation p op { s with calls := s.calls ++ [op] }
  | .flush => RunMetadata.flush false s
  | .periodicFlush => RunMetadata.periodicFlush s
  | .settle => RunMetadata.settle s
  | .arrive i => RunMetadata.arrive p i s
  | .respond i => RunMetadata.respond i s
  | .fail i => RunMetadata.fail i s
  | .stopAndReturnLastFlush => { s with isFlushing := true }

end Step

/-! ## 性質 -/

variable {p : JSONHeroPath}

/-- server に届いていない操作。 -/
def unserved (requests : List Request) : List Operation :=
  (requests.filter (·.response = none)).flatMap Request.operations

/-- 溜めた操作の代わりに、まとめた操作を送ってもよい。 -/
def Queued (s : ManagerState) (ops : List Operation) : Prop :=
  ops = s.queuedOperations ∨ ops = lastFlush s

/-- 一段の条件。 -/
def Undisturbed (p : JSONHeroPath) (s : ManagerState) : Label → Prop
  | .call op => applyOperation p s.store op ≠ s.store → ∀ pre last, lastFlush s = pre ++ [last] →
    MergesExactly p (applyMetadataOperations p s.server (unserved s.requests ++ pre)) last op
  | .arrive i => ∀ r, s.requests[i]? = some r → r.response = none → ∀ ops, Queued s ops →
    applyMetadataOperations p s.server (r.operations ++ unserved (s.requests.eraseIdx i) ++ ops) =
      applyMetadataOperations p s.server (unserved s.requests ++ ops)
  | .respond i => ∀ r, s.requests[i]? = some r → ∀ metadata, r.response = some metadata →
    metadata = s.store
  | .fail i => ∀ r, s.requests[i]? = some r → r.response = none → ∀ ops, Queued s ops →
    applyMetadataOperations p s.server (unserved (s.requests.eraseIdx i) ++ ops) =
      applyMetadataOperations p s.server (unserved s.requests ++ ops)
  | _ => True

/-! ## 一段 -/

variable {s : ManagerState}

end RunMetadata
