import Mathlib.Algebra.Order.Ring.Rat
import Mathlib.Algebra.BigOperators.Group.List.Basic
import Mathlib.Algebra.Order.Group.Multiset
import Mathlib.Data.List.Sort
import Trigger.Infra.Machine
import Trigger.Infra.Record
import Trigger.RunMetadata.Operations

/-!
# UpdateMetadataService

`updateMetadata.server.ts` の `UpdateMetadataService` を、一つの run について写す。

request は自分の操作を optimistic lock で書き込み、`MAX_RETRIES` 回を超えて失敗すると service の buffer に移す。
子の run から来た操作は初めから buffer に入り、flush が buffer を取り出して書き込む。読み出しと条件付きの更新が
それぞれ一段である。`accepted`・`writes` は、code が残さない記録（受け付けた操作、成功した書き込みの数）である。
-/

namespace RunMetadata

open Infra (Number)
open Infra.Machine

/-! ## 状態 -/

/-- TaskRun の行の metadata に関わる列。 -/
structure Row where
  metadata : Option Metadata
  metadataType : String := "application/json"
  metadataVersion : Nat := 1
deriving DecidableEq

/-- `BufferedRunMetadataChangeOperation` と、それを持つ service。 -/
structure Buffered where
  service : Nat
  timestamp : Int
  operation : Operation
deriving DecidableEq

/-- 操作を書き込もうとする request か flush。`attempts` は request だけが数え、`row` は読み出した行である。 -/
structure Update where
  service : Nat
  operations : List Operation
  attempts : Option Nat
  row : Option Row
deriving DecidableEq

structure UpdateState where
  row : Row
  buffered : List Buffered := []
  updates : List Update := []
  accepted : List Operation := []
  writes : Nat := 0
deriving DecidableEq

def MAX_RETRIES : Nat := 3

/-! ## buffer -/

/-- `latestSetOps`。 -/
def latestSetOps (ops : List Buffered) : Infra.JsMap Buffered :=
  ops.foldl (fun latest op =>
    match op.operation with
    | .set key _ => latest.set key op
    | _ => latest) []

def Operation.isSet : Operation → Bool
  | .set _ _ => true
  | _ => false

/-- `_cullOperations`。 -/
def cullOperations (operations : List Buffered) : List Buffered :=
  let sortedOps := operations.mergeSort fun a b => a.timestamp ≤ b.timestamp
  sortedOps.filter (!·.operation.isSet) ++ (latestSetOps sortedOps).map Prod.snd

/-- `#ingestRunOperations`。 -/
def ingestRunOperations (service : Nat) (operations : List (Int × Operation)) (s : UpdateState) :
    UpdateState :=
  { s with buffered := s.buffered ++ operations.map fun o => ⟨service, o.1, o.2⟩ }

/-! ## 一段 -/

section Step

variable (p : JSONHeroPath)

/-- 適用できない操作の数。 -/
def unappliedCount (m : Metadata) : List Operation → Nat
  | [] => 0
  | op :: rest =>
    (if (applyOperation? p m op).isNone then 1 else 0) + unappliedCount (applyOperation p m op) rest

/-- 受け付けた request。`operations` はこの run 自身の操作、`ingested` は buffer に入る操作である。 -/
def call (service : Nat) (ingested : List (Int × Operation)) (operations : Option (List Operation))
    (s : UpdateState) : UpdateState :=
  let s := { s with accepted := s.accepted ++ ingested.map Prod.snd ++ operations.getD [] }
  let s := ingestRunOperations service ingested s
  match operations with
  | none => s
  | some operations => { s with updates := s.updates ++ [⟨service, operations, some 0, none⟩] }

/-- `#updateRunMetadataDirectly`。`existing` は request の初めに読んだ metadata である。 -/
def updateRunMetadataDirectly (metadata : Metadata) (existing : Option Metadata) (s : UpdateState) :
    UpdateState :=
  if metadata ≠ ∅ ∨ existing.any (· ≠ ∅) then
    { s with row := ⟨some metadata, "application/json", s.row.metadataVersion + 1⟩
             writes := s.writes + 1 }
  else s

/-- buffer を取り出す。 -/
def flushBuffer (service : Nat) (s : UpdateState) : UpdateState :=
  let operations := (cullOperations (s.buffered.filter (·.service = service))).map Buffered.operation
  let s := { s with buffered := s.buffered.filter (·.service ≠ service) }
  if operations = [] then s
  else { s with updates := s.updates ++ [⟨service, operations, none, none⟩] }

/-- 行を読み出す。 -/
def findFirst (i : Nat) (s : UpdateState) : UpdateState :=
  match s.updates[i]? with
  | some ⟨service, operations, attempts, none⟩ =>
    { s with updates := s.updates.set i ⟨service, operations, attempts, some s.row⟩ }
  | _ => s

/-- 版が違えば、やり直すか、操作を buffer に移す。 -/
def lockFailed (i : Nat) (now : Nat → Int) (service : Nat) (operations : List Operation)
    (attempts : Option Nat) (s : UpdateState) : UpdateState :=
  match attempts with
  | none => { s with updates := s.updates.set i ⟨service, operations, none, none⟩ }
  | some attempts =>
    if attempts = MAX_RETRIES then
      ingestRunOperations service (operations.mapIdx fun k op => (now k, op))
        { s with updates := s.updates.eraseIdx i }
    else { s with updates := s.updates.set i ⟨service, operations, some (attempts + 1), none⟩ }

/-- 読み出した行に操作を適用し、版が同じなら書く。 -/
def updateMany (i : Nat) (now : Nat → Int) (s : UpdateState) : UpdateState :=
  match s.updates[i]? with
  | some ⟨service, operations, attempts, some row⟩ =>
    let metadata := row.metadata.getD ∅
    if unappliedCount p metadata operations = operations.length then
      { s with updates := s.updates.eraseIdx i }
    -- `handleMetadataPacket` が packet を作らない型では、request は失敗し、flush は読み飛ばす
    else if row.metadataType ≠ "application/json" then { s with updates := s.updates.eraseIdx i }
    else if s.row.metadataVersion = row.metadataVersion then
      { s with row := ⟨some (applyMetadataOperations p metadata operations),
                 if attempts.isSome then "application/json" else s.row.metadataType,
                 s.row.metadataVersion + 1⟩
               updates := s.updates.eraseIdx i
               writes := s.writes + 1 }
    else lockFailed i now service operations attempts s
  | _ => s

inductive UpdateLabel
  | call (service : Nat) (ingested : List (Int × Operation)) (operations : Option (List Operation))
  | replace (metadata : Metadata) (existing : Option Metadata)
  | flush (service : Nat)
  | findFirst (i : Nat)
  | updateMany (i : Nat) (now : Nat → Int)

def updateStep (s : UpdateState) : UpdateLabel → UpdateState
  | .call service ingested operations => RunMetadata.call service ingested operations s
  | .replace metadata existing => updateRunMetadataDirectly metadata existing s
  | .flush service => flushBuffer service s
  | .findFirst i => RunMetadata.findFirst i s
  | .updateMany i now => RunMetadata.updateMany p i now s

end Step

/-! ## 数える -/

/-- 配列の要素。配列でない値は一つの要素とみなす。 -/
def itemsOf : Option DeserializedJson → Multiset DeserializedJson
  | none => 0
  | some (.arr items) => items
  | some value => {value}

section Keys

variable (p : JSONHeroPath) (counter list : String)

/-- 二つの key を別々に読み書きできる。 -/
structure Separate : Prop where
  counterOwn : counter ∉ inheritedKeys
  listOwn : list ∉ inheritedKeys
  counterBack : ∀ m v, read p counter (write p counter m v) = some v
  listBack : ∀ m v, read p list (write p list m v) = some v
  counterFrame : ∀ m v, read p counter (write p list m v) = read p counter m
  listFrame : ∀ m v, read p list (write p counter m v) = read p list m

/-- counter の増分か list への追加。 -/
def Operation.Counts (op : Operation) : Prop :=
  (∃ n, op = .increment counter n) ∨ ∃ value, op = .append list value

end Keys

/-- 増分があれば整数である。 -/
def Operation.Integral : Operation → Prop
  | .increment _ n => n = .ofInt n.toInt
  | _ => True

/-- 操作の増分。 -/
def incrementOf : Operation → ℤ
  | .increment _ n => n.toInt
  | _ => 0

/-- 操作が追加する値。 -/
def appendOf : Operation → Multiset DeserializedJson
  | .append _ value => {value}
  | _ => 0

def increments (ops : List Operation) : ℤ := (ops.map incrementOf).sum

/-- 増分の絶対値の和。 -/
def magnitude (ops : List Operation) : ℤ := (ops.map fun op => |incrementOf op|).sum

def appends (ops : List Operation) : Multiset DeserializedJson := (ops.map appendOf).sum

theorem abs_increments_le (ops : List Operation) : |increments ops| ≤ magnitude ops := by
  induction ops with
  | nil => exact le_refl _
  | cons op ops ih =>
    unfold increments magnitude at *
    rw [List.map_cons, List.map_cons, List.sum_cons, List.sum_cons]
    exact (abs_add_le _ _).trans (by gcongr)

section Growth

variable {p : JSONHeroPath} {counter list : String}

/--
`m` は `initial` に `ops` を一度ずつ適用した値を持つ。counter は、元の値も増分も整数で、絶対値の和が `2^53` までのとき、増分の
和だけ正確に増える。
-/
structure Grown (p : JSONHeroPath) (counter list : String) (initial m : Metadata)
    (ops : List Operation) : Prop where
  list : itemsOf (read p list m) = itemsOf (read p list initial) + appends ops
  counter : ∀ n : ℤ, numberOf (read p counter initial) = .ofInt n → (∀ op ∈ ops, op.Integral) →
    |n| + magnitude ops ≤ 2 ^ 53 → numberOf (read p counter m) = .ofInt (n + increments ops)

theorem Grown.refl (m : Metadata) : Grown p counter list m m [] where
  list := (add_zero _).symm
  counter n hn _ _ := hn.trans (congrArg Number.ofInt (add_zero n).symm)

theorem Grown.perm {initial m : Metadata} {ops ops' : List Operation}
    (h : Grown p counter list initial m ops) (hperm : ops.Perm ops') :
    Grown p counter list initial m ops' where
  list := h.list.trans (congrArg _ (hperm.map appendOf).sum_eq)
  counter n hn hintegral hbound := by
    have hincrements : increments ops = increments ops' := (hperm.map incrementOf).sum_eq
    have hmagnitude : magnitude ops = magnitude ops' := (hperm.map _).sum_eq
    rw [← hincrements]
    exact h.counter n hn (fun op hop => hintegral op (hperm.mem_iff.mp hop)) (by rw [hmagnitude]; exact hbound)

theorem itemsOf_appended (existing : Option DeserializedJson) (value : DeserializedJson) :
    itemsOf (some (appended existing value)) = itemsOf existing + {value} := by
  unfold appended
  split
  · rfl
  · exact (Multiset.coe_add _ _).symm
  · next existing hne =>
    have hone : itemsOf (some existing) = {existing} := by
      cases existing with
      | arr items => exact absurd rfl (hne items)
      | _ => rfl
    rw [hone]
    rfl

theorem Grown.apply {initial m : Metadata} {ops : List Operation} (hsep : Separate p counter list)
    (h : Grown p counter list initial m ops) {op : Operation} (hop : op.Counts counter list) :
    Grown p counter list initial (applyOperation p m op) (ops ++ [op]) := by
  have hincrements : increments (ops ++ [op]) = increments ops + incrementOf op := by simp [increments]
  have hmagnitude : magnitude (ops ++ [op]) = magnitude ops + |incrementOf op| := by simp [magnitude]
  have happends : appends (ops ++ [op]) = appends ops + appendOf op := by simp [appends]
  have hbefore {n : ℤ} (hn : numberOf (read p counter initial) = .ofInt n)
      (hintegral : ∀ o ∈ ops ++ [op], o.Integral) (hbound : |n| + magnitude (ops ++ [op]) ≤ 2 ^ 53) :
      numberOf (read p counter m) = .ofInt (n + increments ops) := by
    have := abs_nonneg (incrementOf op)
    exact h.counter n hn (fun o ho => hintegral o (List.mem_append_left _ ho)) (by omega)
  rcases hop with ⟨v, rfl⟩ | ⟨value, rfl⟩
  · refine ⟨?_, fun n hn hintegral hbound => ?_⟩
    · rw [happends]
      simp only [applyOperation, applyOperation?, Option.getD_some]
      rw [hsep.listFrame, h.list, show appendOf (.increment counter v) = 0 from rfl, add_zero]
    · have hv : v = .ofInt v.toInt :=
        hintegral (.increment counter v) (List.mem_append_right _ List.mem_cons_self)
      have hthis : incrementOf (.increment counter v) = v.toInt := rfl
      have hsum : |n + increments ops| ≤ |n| + magnitude ops :=
        (abs_add_le _ _).trans (by gcongr; exact abs_increments_le ops)
      have hold := (abs_nonneg (n + increments ops)).trans hsum
      have hstep := abs_nonneg v.toInt
      simp only [applyOperation, applyOperation?, Option.getD_some]
      rw [hsep.counterBack, numberOf, hbefore hn hintegral hbound, hincrements, hthis, ← add_assoc]
      rw [hmagnitude, hthis, ← add_assoc] at hbound
      calc Number.ofInt (n + increments ops) + v
          = .ofInt (n + increments ops) + .ofInt v.toInt := congrArg _ hv
        _ = .ofInt (n + increments ops + v.toInt) :=
          Number.ofInt_add (hsum.trans (by omega)) (by omega)
  · refine ⟨?_, fun n hn hintegral hbound => ?_⟩
    · rw [happends, ← add_assoc, ← h.list]
      simp only [applyOperation, applyOperation?, Option.getD_some]
      rw [hsep.listBack]
      exact itemsOf_appended _ value
    · simp only [applyOperation, applyOperation?, Option.getD_some]
      rw [hsep.counterFrame, hbefore hn hintegral hbound, hincrements,
        show incrementOf (.append list value) = 0 from rfl, add_zero]

theorem Grown.applyAll (hsep : Separate p counter list) {initial : Metadata} :
    ∀ {ops' : List Operation} {ops : List Operation} {m : Metadata},
      Grown p counter list initial m ops → (∀ op ∈ ops', op.Counts counter list) →
      Grown p counter list initial (applyMetadataOperations p m ops') (ops ++ ops')
  | [], ops, m, h, _ => by
    rw [List.append_nil]
    exact h
  | op :: ops', ops, m, h, hops => by
    have hnext := (h.apply hsep (hops op List.mem_cons_self)).applyAll hsep
      (fun o ho => hops o (List.mem_cons_of_mem op ho))
    rw [List.append_assoc] at hnext
    exact hnext

end Growth

variable {p : JSONHeroPath} {counter list : String}

/-- 数える操作は必ず適用できる。 -/
theorem unappliedCount_of_counts {ops : List Operation} (hops : ∀ op ∈ ops, op.Counts counter list)
    (m : Metadata) : unappliedCount p m ops = 0 := by
  induction ops generalizing m with
  | nil => rfl
  | cons op ops ih =>
    have hsome : (applyOperation? p m op).isNone = false := by
      rcases hops op List.mem_cons_self with ⟨n, rfl⟩ | ⟨value, rfl⟩ <;> rfl
    rw [unappliedCount, hsome, ih (fun o ho => hops o (List.mem_cons_of_mem op ho))]
    rfl

/-- `set` の無い buffer は、並べ替えられるだけである。 -/
theorem cullOperations_perm {ops : List Buffered} (hops : ∀ b ∈ ops, b.operation.Counts counter list) :
    (cullOperations ops).Perm ops := by
  have hnotSet : ∀ b ∈ ops.mergeSort (fun a b => a.timestamp ≤ b.timestamp),
      b.operation.isSet = false := by
    intro b hb
    rcases hops b ((List.mergeSort_perm _ _).mem_iff.mp hb) with ⟨n, h⟩ | ⟨value, h⟩ <;> rw [h] <;> rfl
  have hlatest : ∀ l : List Buffered, (∀ b ∈ l, b.operation.isSet = false) → latestSetOps l = [] := by
    intro l hl
    unfold latestSetOps
    induction l with
    | nil => rfl
    | cons b l ih =>
      have hb := hl b List.mem_cons_self
      rw [List.foldl_cons]
      cases hop : b.operation with
      | set key value =>
        rw [hop] at hb
        cases hb
      | _ => exact ih fun b' hb' => hl b' (List.mem_cons_of_mem b hb')
  unfold cullOperations
  simp only [hlatest _ hnotSet, List.map_nil, List.append_nil]
  rw [List.filter_eq_self.mpr fun b hb => by rw [hnotSet b hb]; rfl]
  exact List.mergeSort_perm _ _

/-! ## 不変条件 -/

/-- まだ書かれない操作。 -/
def pending (s : UpdateState) : List Operation :=
  s.buffered.map Buffered.operation ++ s.updates.flatMap Update.operations

/-- 数える操作だけの実行の不変条件。 -/
structure Counted (p : JSONHeroPath) (counter list : String) (initial : Row) (s : UpdateState) :
    Prop where
  json : s.row.metadataType = "application/json"
  /-- 読み出した行は、版が同じなら今の行である。 -/
  fresh : ∀ u ∈ s.updates, ∀ row, u.row = some row →
    row.metadataType = "application/json" ∧ row.metadataVersion ≤ s.row.metadataVersion ∧
      (row.metadataVersion = s.row.metadataVersion → row.metadata = s.row.metadata)
  counts : ∀ op ∈ pending s, op.Counts counter list
  /-- 受け付けた操作は、書かれたか、まだ書かれないかのどちらか一方である。 -/
  written : ∃ written, (written ++ pending s).Perm s.accepted ∧
    Grown p counter list (initial.metadata.getD ∅) (s.row.metadata.getD ∅) written

/-- 数える操作だけの label。 -/
def UpdateLabel.Counts (counter list : String) : UpdateLabel → Prop
  | .call _ ingested operations => (∀ o ∈ ingested, o.2.Counts counter list) ∧
    ∀ op ∈ operations.getD [], op.Counts counter list
  | .replace _ _ => False
  | _ => True

theorem Counted.init {initial : Row} (hjson : initial.metadataType = "application/json") :
    Counted p counter list initial { row := initial } where
  json := hjson
  fresh u hu := by cases hu
  counts op hop := by cases hop
  written := ⟨[], .refl _, .refl _⟩

variable {initial : Row} {s : UpdateState}

theorem Counted.call (h : Counted p counter list initial s) {service : Nat}
    {ingested : List (Int × Operation)} {operations : Option (List Operation)}
    (hingested : ∀ o ∈ ingested, o.2.Counts counter list)
    (hoperations : ∀ op ∈ operations.getD [], op.Counts counter list) :
    Counted p counter list initial (call service ingested operations s) := by
  -- 呼び出しの操作は、溜まる側と待つ側のどちらかに入る
  have hpending : (pending (RunMetadata.call service ingested operations s)).Perm
      (pending s ++ (ingested.map Prod.snd ++ operations.getD [])) := by
    have hbuffered : (ingested.map fun o => (⟨service, o.1, o.2⟩ : Buffered)).map Buffered.operation =
        ingested.map Prod.snd := by
      rw [List.map_map]
      rfl
    cases operations with
    | none =>
      change ((s.buffered ++ _).map Buffered.operation ++ _).Perm _
      rw [List.map_append, hbuffered, List.append_assoc, pending, List.append_assoc]
      refine List.Perm.append_left _ ?_
      rw [Option.getD_none, List.append_nil]
      exact List.perm_append_comm
    | some operations =>
      change ((s.buffered ++ _).map Buffered.operation ++ (s.updates ++ _).flatMap _).Perm _
      rw [List.map_append, hbuffered, List.flatMap_append, List.append_assoc, pending,
        List.append_assoc, Option.getD_some]
      refine List.Perm.append_left _ ?_
      rw [List.flatMap_singleton, ← List.append_assoc, ← List.append_assoc]
      exact List.Perm.append_right _ List.perm_append_comm
  have hrow : (RunMetadata.call service ingested operations s).row = s.row := by
    cases operations <;> rfl
  have haccepted : (RunMetadata.call service ingested operations s).accepted =
      s.accepted ++ ingested.map Prod.snd ++ operations.getD [] := by
    cases operations <;> rfl
  refine ⟨hrow ▸ h.json, ?_, ?_, ?_⟩
  · rw [hrow]
    intro u hu row hurow
    cases operations with
    | none => exact h.fresh u hu row hurow
    | some operations =>
      rcases List.mem_append.mp hu with hu | hu
      · exact h.fresh u hu row hurow
      · rw [List.mem_singleton.mp hu] at hurow
        cases hurow
  · intro op hop
    rcases List.mem_append.mp (hpending.mem_iff.mp hop) with hop | hop
    · exact h.counts op hop
    · rcases List.mem_append.mp hop with hop | hop
      · obtain ⟨o, ho, rfl⟩ := List.mem_map.mp hop
        exact hingested o ho
      · exact hoperations op hop
  · obtain ⟨written, hperm, hgrown⟩ := h.written
    refine ⟨written, ?_, hrow ▸ hgrown⟩
    rw [haccepted, List.append_assoc]
    refine (hpending.append_left written).trans ?_
    rw [← List.append_assoc]
    exact hperm.append_right _

/-- 書かれない操作を並べ替えるだけの一歩。 -/
theorem Counted.rearrange {s' : UpdateState} (h : Counted p counter list initial s)
    (hrow : s'.row = s.row) (haccepted : s'.accepted = s.accepted)
    (hpending : (pending s').Perm (pending s))
    (hfresh : ∀ u ∈ s'.updates, ∀ row, u.row = some row → u ∈ s.updates ∨ row = s.row) :
    Counted p counter list initial s' where
  json := hrow ▸ h.json
  fresh u hu row hurow := by
    rw [hrow]
    rcases hfresh u hu row hurow with hu | rfl
    · exact h.fresh u hu row hurow
    · exact ⟨h.json, le_refl _, fun _ => rfl⟩
  counts op hop := h.counts op (hpending.mem_iff.mp hop)
  written := by
    obtain ⟨written, hperm, hgrown⟩ := h.written
    exact ⟨written, haccepted ▸ (hpending.append_left written).trans hperm, hrow ▸ hgrown⟩

theorem Counted.flush (h : Counted p counter list initial s) (service : Nat) :
    Counted p counter list initial (flushBuffer service s) := by
  have hcounts : ∀ b ∈ s.buffered.filter (·.service = service), b.operation.Counts counter list := by
    intro b hb
    refine h.counts _ (List.mem_append_left _ (List.mem_map_of_mem ?_))
    exact List.mem_of_mem_filter hb
  have hcull := (cullOperations_perm hcounts).map Buffered.operation
  have hsplit : ((s.buffered.filter (·.service ≠ service)).map Buffered.operation ++
      (s.buffered.filter (·.service = service)).map Buffered.operation).Perm
        (s.buffered.map Buffered.operation) := by
    have hother : s.buffered.filter (·.service ≠ service) =
        s.buffered.filter fun b => !decide (b.service = service) :=
      List.filter_congr fun b _ => by simp
    rw [← List.map_append, hother]
    exact (List.perm_append_comm.trans (List.filter_append_perm _ _)).map _
  unfold flushBuffer
  simp only
  split
  · next hnil =>
    refine h.rearrange rfl rfl ?_ fun u hu _ _ => .inl hu
    rw [hnil] at hcull
    rw [List.nil_perm.mp hcull, List.append_nil] at hsplit
    exact hsplit.append_right _
  · refine h.rearrange rfl rfl ?_ fun u hu row hrow => ?_
    · unfold pending
      rw [List.flatMap_append, List.flatMap_singleton]
      refine (List.Perm.append_left _ List.perm_append_comm).trans ?_
      rw [← List.append_assoc]
      exact ((List.Perm.append_left _ hcull).trans hsplit).append_right _
    · rcases List.mem_append.mp hu with hu | hu
      · exact .inl hu
      · rw [List.mem_singleton.mp hu] at hrow
        cases hrow

theorem pending_set {i : Nat} {u u' : Update} (hi : s.updates[i]? = some u)
    (hops : u'.operations = u.operations) :
    pending { s with updates := s.updates.set i u' } = pending s := by
  obtain ⟨l₁, l₂, hupdates, -, hset⟩ := Infra.getElem?_split hi
  unfold pending
  rw [hset u', hupdates, List.flatMap_append, List.flatMap_append, List.flatMap_cons, List.flatMap_cons,
    hops]

theorem pending_erase {i : Nat} {u : Update} (hi : s.updates[i]? = some u) :
    (pending { s with updates := s.updates.eraseIdx i } ++ u.operations).Perm (pending s) := by
  obtain ⟨l₁, l₂, hupdates, herase, -⟩ := Infra.getElem?_split hi
  unfold pending
  simp only [herase]
  rw [hupdates, List.flatMap_append, List.flatMap_append, List.flatMap_cons, List.append_assoc,
    List.append_assoc]
  refine List.Perm.append_left _ (List.Perm.append_left _ ?_)
  exact List.perm_append_comm

theorem Counted.findFirst (h : Counted p counter list initial s) (i : Nat) :
    Counted p counter list initial (findFirst i s) := by
  unfold RunMetadata.findFirst
  split
  · next service operations attempts hi =>
    refine h.rearrange rfl rfl (List.Perm.of_eq (by exact pending_set hi rfl)) fun u hu row hrow => ?_
    rcases List.mem_or_eq_of_mem_set hu with hu | rfl
    · exact .inl hu
    · exact .inr (Option.some.inj hrow).symm
  · exact h

theorem Counted.lockFailed (h : Counted p counter list initial s) {i : Nat} {u : Update}
    (hi : s.updates[i]? = some u) (now : Nat → Int) (attempts : Option Nat) :
    Counted p counter list initial (lockFailed i now u.service u.operations attempts s) := by
  have hretry : ∀ attempts, Counted p counter list initial
      { s with updates := s.updates.set i ⟨u.service, u.operations, attempts, none⟩ } := by
    intro attempts
    refine h.rearrange rfl rfl (List.Perm.of_eq (by exact pending_set hi rfl)) fun u' hu row hrow => ?_
    rcases List.mem_or_eq_of_mem_set hu with hu | rfl
    · exact .inl hu
    · cases hrow
  unfold RunMetadata.lockFailed
  cases attempts with
  | none => exact hretry none
  | some attempts =>
    simp only
    split
    · refine h.rearrange rfl rfl ?_ fun u' hu _ _ => .inl (List.mem_of_mem_eraseIdx hu)
      refine List.Perm.trans ?_ (pending_erase hi)
      have hops : ((u.operations.mapIdx fun k op => (now k, op)).map
          fun o => (⟨u.service, o.1, o.2⟩ : Buffered)).map Buffered.operation = u.operations := by
        exact List.ext_getElem (by simp) (by simp)
      unfold ingestRunOperations pending
      rw [List.map_append, hops, List.append_assoc, List.append_assoc]
      exact List.Perm.append_left _ List.perm_append_comm
    · exact hretry _

theorem Counted.updateMany (h : Counted p counter list initial s) (hsep : Separate p counter list)
    (i : Nat) (now : Nat → Int) : Counted p counter list initial (updateMany p i now s) := by
  unfold RunMetadata.updateMany
  split
  · next service operations attempts row hi =>
    have hmem := List.mem_of_getElem? hi
    obtain ⟨hjson, hle, hsame⟩ := h.fresh _ hmem row rfl
    have hops : ∀ op ∈ operations, op.Counts counter list := by
      intro op hop
      exact h.counts op (List.mem_append_right _ (List.mem_flatMap.mpr ⟨_, hmem, hop⟩))
    simp only
    split
    · next hnone =>
      rw [unappliedCount_of_counts hops] at hnone
      have hnil : operations = [] := List.length_eq_zero_iff.mp hnone.symm
      subst hnil
      refine h.rearrange rfl rfl ?_ fun u hu _ _ => .inl (List.mem_of_mem_eraseIdx hu)
      have hperm := pending_erase hi
      rwa [List.append_nil] at hperm
    · split
      · next htype => exact absurd hjson htype
      · split
        · next hversion =>
          have hrow := hsame hversion.symm
          refine ⟨?_, fun u hu r hr => ?_, fun op hop => ?_, ?_⟩
          · change (if attempts.isSome then "application/json" else s.row.metadataType) = _
            split
            · rfl
            · exact h.json
          · -- 先に読み出された行の版は、書いた後の版より古い
            obtain ⟨hrjson, hrle, -⟩ := h.fresh u (List.mem_of_mem_eraseIdx hu) r hr
            exact ⟨hrjson, hrle.trans (Nat.le_succ _), fun heq => by simp only at heq; omega⟩
          · exact h.counts op ((pending_erase hi).mem_iff.mp (List.mem_append_left _ hop))
          · obtain ⟨written, hperm, hgrown⟩ := h.written
            refine ⟨written ++ operations, ?_, ?_⟩
            · rw [List.append_assoc]
              refine (List.Perm.append_left written ?_).trans hperm
              exact List.perm_append_comm.trans (pending_erase hi)
            · rw [← hrow] at hgrown
              exact hgrown.applyAll hsep hops
        · exact h.lockFailed hi now attempts
  · exact h

theorem Counted.step (hsep : Separate p counter list) (s : UpdateState) (l : UpdateLabel)
    (h : Counted p counter list initial s) (hl : l.Counts counter list) :
    Counted p counter list initial (updateStep p s l) := by
  cases l with
  | call service ingested operations => exact h.call hl.1 hl.2
  | replace metadata existing => exact hl.elim
  | flush service => exact h.flush service
  | findFirst i => exact h.findFirst i
  | updateMany i now => exact h.updateMany hsep i now

/-! ## 版 -/

end RunMetadata
