import Mathlib.Data.Rat.Cast.Order
import Mathlib.Tactic.Linarith
import Trigger.Infra.Machine
import Trigger.Infra.Redis
import Trigger.Infra.Record

/-!
# redis-worker の SimpleQueue

`packages/redis-worker/src/queue.ts` の Lua script を、四つの key
（`queue` / `items` / `dlq` / `dlq:items`）の上の関数として写す。
script の途中の error は、それまでの書き込みを残したまま script を終わらせる。

* `consistent_exec` — どの script も `queue` と `items`、`dlq` と `dlq:items` の id を揃えて保つ
* `hidden_exec` — 取り出された id は、その id への操作が無い限り、見えない時刻が早まらない
-/

namespace Worker

open Infra
open Infra.Redis (ZSet)

variable {P : Type}

/-! ## 保存される値 -/

/-- `items` hash の値。`JSON.stringify` された object を record で表す。 -/
structure Item (P : Type) where
  job : String
  item : P
  visibilityTimeoutMs : ℕ
  attempt : Option ℕ
  deduplicationKey : Option String
  errorMessage : Option String
deriving DecidableEq

/-- SimpleQueue が使う key の中身。`cancellationKeys` は存在する `cancellationKey:*` の集まりである。 -/
structure Store (P : Type) where
  queue : ZSet
  items : JsMap (Item P)
  dlq : ZSet
  dlqItems : JsMap (Item P)
  cancellationKeys : List String
deriving DecidableEq

def Store.empty : Store P := ⟨∅, [], ∅, [], []⟩

/-- `dequeueItems` が返す三つ組。 -/
structure Dequeued (P : Type) where
  id : String
  serializedItem : Item P
  score : ℚ
deriving DecidableEq

/-! ## script -/

/-- `enqueueItem`。 -/
def enqueueItem (id : String) (score : ℚ) (serializedItem : Item P) (s : Store P) : Store P :=
  { s with queue := s.queue.add id score, items := s.items.set id serializedItem }

/-- `enqueueItemWithCancellationKey`。 -/
def enqueueItemWithCancellationKey (cancellationKey id : String) (score : ℚ)
    (serializedItem : Item P) (s : Store P) : Store P :=
  if cancellationKey ∈ s.cancellationKeys then s else enqueueItem id score serializedItem s

/-- `ZADD key NX score id`。 -/
def zaddNX (z : ZSet) (id : String) (score : ℚ) : ZSet :=
  if z.score? id = none then z.add id score else z

/-- `ZADD key XX score id`。 -/
def zaddXX (z : ZSet) (id : String) (score : ℚ) : ZSet :=
  if z.score? id = none then z else z.add id score

/-- `enqueueItemOnce`。`HSETNX` が効いたときだけ `ZADD NX` へ進む。 -/
def enqueueItemOnce (id : String) (score : ℚ) (serializedItem : Item P) (s : Store P) :
    ℕ × Store P :=
  match s.items.get id with
  | none =>
    (1, { s with items := s.items.set id serializedItem, queue := zaddNX s.queue id score })
  | some _ => (0, s)

/-- `reschedule`。 -/
def reschedule (id : String) (availableAt : ℚ) (s : Store P) : Store P :=
  { s with queue := zaddXX s.queue id availableAt }

/-- `ackItem` が `deduplicationKey` の違いを理由に断るか。 -/
def Item.mismatches (item : Item P) (deduplicationKey : String) : Bool :=
  deduplicationKey ≠ "" && item.deduplicationKey.any (· ≠ deduplicationKey)

section Cjson

/-!
`cjson` は Redis に組み込まれた library なので parameter とする。`cjson item` は decode した object を
再び encode したときの値で、decode が error になるなら `none` である。
-/
variable (cjson : Item P → Option (Item P))

/-- `ackItem`。decode は `pcall` の中なので、失敗すれば比較を飛ばして削除へ進む。 -/
def ackItem (id deduplicationKey : String) (s : Store P) : Int × Store P :=
  match s.items.get id with
  | none => (-1, s)
  | some item =>
    if (cjson item).any (·.mismatches deduplicationKey) then (0, s)
    else (1, { s with queue := s.queue.rem id, items := s.items.delete id })

/-- `dequeueItems` の loop。decode の error は loop を打ち切り、済んだ `ZADD` は残る。 -/
def dequeueLoop (now : ℚ) : List (String × ℚ) → Store P → Option (List (Dequeued P)) × Store P
  | [], s => (some [], s)
  | (id, score) :: rest, s =>
    if now < score then (some [], s)
    else
      match s.items.get id with
      | none => dequeueLoop now rest { s with queue := s.queue.rem id }
      | some serializedItem =>
        match cjson serializedItem with
        | none => (none, s)
        | some item =>
          let r := dequeueLoop now rest
            { s with queue := s.queue.add id (now + item.visibilityTimeoutMs) }
          (r.1.map (⟨id, serializedItem, score⟩ :: ·), r.2)

/-- `LIMIT 0 count`。負の `count` は全部を表す。 -/
def limit {α : Type} (count : Int) (l : List α) : List α := if count < 0 then l else l.take count.toNat

/-- `dequeueItems`。 -/
def dequeueItems (now : ℚ) (count : Int) (s : Store P) : Option (List (Dequeued P)) × Store P :=
  dequeueLoop cjson now (limit count (s.queue.rangeByScore now)) s

/-- `moveToDeadLetterQueue`。`now` は `TIME` の値である。 -/
def moveToDeadLetterQueue (now : ℚ) (id errorMessage : String) (s : Store P) :
    Option ℕ × Store P :=
  match s.items.get id with
  | none => (some 0, s)
  | some item =>
    match cjson item with
    | none => (none, s)
    | some parsedItem =>
      (some 1,
        { s with
          queue := s.queue.rem id
          items := s.items.delete id
          dlq := s.dlq.add id now
          dlqItems := s.dlqItems.set id { parsedItem with errorMessage := some errorMessage } })

/-- `redriveFromDeadLetterQueue`。 -/
def redriveFromDeadLetterQueue (now : ℚ) (id : String) (s : Store P) : Option ℕ × Store P :=
  match s.dlqItems.get id with
  | none => (some 0, s)
  | some item =>
    match cjson item with
    | none => (none, s)
    | some parsedItem =>
      (some 1,
        { s with
          dlq := s.dlq.rem id
          dlqItems := s.dlqItems.delete id
          queue := s.queue.add id now
          items := s.items.set id { parsedItem with errorMessage := none } })

/-! ## 操作の列 -/

/-- 一つの Redis command または script。時刻と payload は呼び出し側が選ぶ。 -/
inductive Op (P : Type)
  | enqueueItem (id : String) (score : ℚ) (item : Item P)
  | enqueueItemWithCancellationKey (cancellationKey id : String) (score : ℚ) (item : Item P)
  | enqueueItemOnce (id : String) (score : ℚ) (item : Item P)
  | dequeueItems (now : ℚ) (count : Int)
  | ackItem (id deduplicationKey : String)
  | reschedule (id : String) (availableAt : ℚ)
  | moveToDeadLetterQueue (now : ℚ) (id errorMessage : String)
  | redriveFromDeadLetterQueue (now : ℚ) (id : String)
  | cancel (cancellationKey : String)
  | cancellationExpires (cancellationKey : String)

/-- 操作の後の store。 -/
def Op.exec (s : Store P) : Op P → Store P
  | .enqueueItem id score item => Worker.enqueueItem id score item s
  | .enqueueItemWithCancellationKey key id score item =>
    Worker.enqueueItemWithCancellationKey key id score item s
  | .enqueueItemOnce id score item => (Worker.enqueueItemOnce id score item s).2
  | .dequeueItems now count => (Worker.dequeueItems cjson now count s).2
  | .ackItem id key => (Worker.ackItem cjson id key s).2
  | .reschedule id availableAt => Worker.reschedule id availableAt s
  | .moveToDeadLetterQueue now id message =>
    (Worker.moveToDeadLetterQueue cjson now id message s).2
  | .redriveFromDeadLetterQueue now id => (Worker.redriveFromDeadLetterQueue cjson now id s).2
  | .cancel key => { s with cancellationKeys := key :: s.cancellationKeys }
  | .cancellationExpires key =>
    { s with cancellationKeys := s.cancellationKeys.filter (· ≠ key) }

/-- 空の store から操作の列を実行した結果。 -/
def run (ops : List (Op P)) : Store P := Machine.exec (Op.exec cjson) Store.empty ops

/-- `dequeueItems` が呼び出し側へ返す item。error の reply は何も返さない。 -/
def delivered (now : ℚ) (count : Int) (s : Store P) : List (Dequeued P) :=
  (dequeueItems cjson now count s).1.getD []

end Cjson

/-- 操作が id への enqueue / reschedule / redrive / ack であるか。 -/
def Op.Touches (id : String) : Op P → Prop
  | .enqueueItem id' _ _ | .enqueueItemWithCancellationKey _ id' _ _ | .enqueueItemOnce id' _ _
  | .ackItem id' _ | .reschedule id' _ | .redriveFromDeadLetterQueue _ id' => id' = id
  | .dequeueItems _ _ | .moveToDeadLetterQueue _ _ _ | .cancel _ | .cancellationExpires _ => False

/-! ## 二組の id の一致 -/

/-- 整列集合と hash が同じ id を持つ。 -/
def SameIds (z : ZSet) (h : JsMap (Item P)) : Prop :=
  ∀ id, (z.score? id).isSome ↔ (h.get id).isSome

/-- `queue` と `items`、`dlq` と `dlq:items` の id がそれぞれ一致する。 -/
structure Consistent (s : Store P) : Prop where
  live : SameIds s.queue s.items
  dead : SameIds s.dlq s.dlqItems

namespace SameIds

variable {z : ZSet} {h : JsMap (Item P)} {id : String} {x : ℚ} {item : Item P}

theorem add_set (hs : SameIds z h) : SameIds (z.add id x) (h.set id item) := by
  intro n
  rw [SortedSet.score?_add, JsMap.get_set]
  by_cases hn : n = id
  · rw [if_pos hn, if_pos hn]
    simp
  · rw [if_neg hn, if_neg hn]
    exact hs n

theorem rem_delete (hs : SameIds z h) : SameIds (z.rem id) (h.delete id) := by
  intro n
  rw [SortedSet.score?_rem, JsMap.get_delete]
  by_cases hn : n = id
  · rw [if_pos hn, if_pos hn]
    simp
  · rw [if_neg hn, if_neg hn]
    exact hs n

/-- 既に hash にある id の score だけを書き換える。 -/
theorem add_of_get (hs : SameIds z h) (hi : h.get id = some item) : SameIds (z.add id x) h := by
  intro n
  rw [SortedSet.score?_add]
  by_cases hn : n = id
  · rw [if_pos hn, hn, hi]
    simp
  · rw [if_neg hn]
    exact hs n

theorem score_none (hs : SameIds z h) (hi : h.get id = none) : z.score? id = none := by
  rcases hz : z.score? id with _ | x
  · rfl
  · have := (hs id).mp (by rw [hz]; rfl)
    rw [hi] at this
    cases this

theorem zaddNX_set (hs : SameIds z h) (hi : h.get id = none) :
    SameIds (zaddNX z id x) (h.set id item) := by
  rw [zaddNX, if_pos (hs.score_none hi)]
  exact hs.add_set

theorem zaddXX (hs : SameIds z h) : SameIds (zaddXX z id x) h := by
  unfold Worker.zaddXX
  split
  · exact hs
  · next hz =>
    obtain ⟨y, hy⟩ := Option.ne_none_iff_exists'.mp hz
    obtain ⟨item, hi⟩ := Option.isSome_iff_exists.mp ((hs id).mp (by rw [hy]; rfl))
    exact hs.add_of_get hi

end SameIds

section Invariant

variable {cjson : Item P → Option (Item P)} {s : Store P}

theorem consistent_empty : Consistent (Store.empty : Store P) :=
  ⟨fun id => by simp [Store.empty, JsMap.get], fun id => by simp [Store.empty, JsMap.get]⟩

/-- loop は `queue` の外を変えない。 -/
theorem dequeueLoop_queue_only {now : ℚ} : ∀ (l : List (String × ℚ)) {s : Store P},
    (dequeueLoop cjson now l s).2 = { s with queue := (dequeueLoop cjson now l s).2.queue }
  | [], _ => rfl
  | (n, score) :: rest, s => by
    unfold dequeueLoop
    split
    · rfl
    · split
      · exact dequeueLoop_queue_only rest
      · split
        · rfl
        · exact dequeueLoop_queue_only rest

theorem items_dequeueLoop {now : ℚ} (l : List (String × ℚ)) {s : Store P} :
    (dequeueLoop cjson now l s).2.items = s.items := by rw [dequeueLoop_queue_only]

theorem dlqItems_dequeueLoop {now : ℚ} (l : List (String × ℚ)) {s : Store P} :
    (dequeueLoop cjson now l s).2.dlqItems = s.dlqItems := by rw [dequeueLoop_queue_only]

/-- loop は `queue` の score しか変えない。孤児の削除にも id の一致は保たれる。 -/
theorem consistent_dequeueLoop {now : ℚ} : ∀ (l : List (String × ℚ)) {s : Store P}, Consistent s →
    Consistent (dequeueLoop cjson now l s).2
  | [], _, hs => hs
  | (id, score) :: rest, s, hs => by
    unfold dequeueLoop
    split
    · exact hs
    · split
      · next hi =>
        refine consistent_dequeueLoop rest ⟨fun n => ?_, hs.dead⟩
        show ((s.queue.rem id).score? n).isSome ↔ (s.items.get n).isSome
        rw [SortedSet.score?_rem]
        by_cases hn : n = id
        · rw [if_pos hn, hn, hi]
          simp
        · rw [if_neg hn]
          exact hs.live n
      · next item hi =>
        split
        · exact hs
        · exact consistent_dequeueLoop rest ⟨hs.live.add_of_get hi, hs.dead⟩

theorem consistent_enqueueItem {id : String} {score : ℚ} {item : Item P} (hs : Consistent s) :
    Consistent (enqueueItem id score item s) := ⟨hs.live.add_set, hs.dead⟩

/-- **どの操作も id の一致を保つ。** -/
theorem consistent_exec (cjson : Item P → Option (Item P)) (hs : Consistent s) (op : Op P) :
    Consistent (op.exec cjson s) := by
  cases op with
  | enqueueItem id score item => exact consistent_enqueueItem hs
  | enqueueItemWithCancellationKey key id score item =>
    show Consistent (enqueueItemWithCancellationKey key id score item s)
    unfold enqueueItemWithCancellationKey
    split
    · exact hs
    · exact consistent_enqueueItem hs
  | enqueueItemOnce id score item =>
    show Consistent (enqueueItemOnce id score item s).2
    unfold enqueueItemOnce
    split
    · next hi => exact ⟨hs.live.zaddNX_set hi, hs.dead⟩
    · exact hs
  | dequeueItems now count => exact consistent_dequeueLoop _ hs
  | ackItem id key =>
    show Consistent (ackItem cjson id key s).2
    unfold ackItem
    split
    · exact hs
    · split
      · exact hs
      · exact ⟨hs.live.rem_delete, hs.dead⟩
  | reschedule id availableAt => exact ⟨hs.live.zaddXX, hs.dead⟩
  | moveToDeadLetterQueue now id message =>
    show Consistent (moveToDeadLetterQueue cjson now id message s).2
    unfold moveToDeadLetterQueue
    split
    · exact hs
    · split
      · exact hs
      · exact ⟨hs.live.rem_delete, hs.dead.add_set⟩
  | redriveFromDeadLetterQueue now id =>
    show Consistent (redriveFromDeadLetterQueue cjson now id s).2
    unfold redriveFromDeadLetterQueue
    split
    · exact hs
    · split
      · exact hs
      · exact ⟨hs.live.add_set, hs.dead.rem_delete⟩
  | cancel key => exact ⟨hs.live, hs.dead⟩
  | cancellationExpires key => exact ⟨hs.live, hs.dead⟩

theorem consistent_run (ops : List (Op P)) : Consistent (run cjson ops) :=
  Machine.exec_invariant (I := Consistent) (fun _ op hs => consistent_exec cjson hs op) consistent_empty

end Invariant

/-! ## 取り出した id が見えない期間 -/

/-- id は `queue` に無いか、時刻 `t` より前には取り出されない。 -/
def Hidden (id : String) (t : ℚ) (s : Store P) : Prop := ∀ x, s.queue.score? id = some x → t ≤ x

section Hidden

variable {cjson : Item P → Option (Item P)} {s : Store P} {id : String} {t now : ℚ}

theorem Hidden.add_of_ne {n : String} {x : ℚ} (h : ∀ y, s.queue.score? id = some y → t ≤ y)
    (hn : n ≠ id) : ∀ y, (s.queue.add n x).score? id = some y → t ≤ y := by
  intro y hy
  rw [SortedSet.score?_add, if_neg (Ne.symm hn)] at hy
  exact h y hy

theorem Hidden.rem {n : String} (h : ∀ y, s.queue.score? id = some y → t ≤ y) :
    ∀ y, (s.queue.rem n).score? id = some y → t ≤ y := by
  intro y hy
  rw [SortedSet.score?_rem] at hy
  split at hy
  · cases hy
  · exact h y hy

theorem mem_of_mem_limit {α : Type} {count : Int} {l : List α} {a : α} (h : a ∈ limit count l) :
    a ∈ l := by
  unfold limit at h
  split at h
  · exact h
  · exact List.mem_of_mem_take h

theorem nodup_limit {count : Int} {l : List (String × ℚ)} (h : (l.map Prod.fst).Nodup) :
    ((limit count l).map Prod.fst).Nodup := by
  unfold limit
  split
  · exact h
  · rw [List.map_take]
    exact h.sublist (List.take_sublist _ _)

/-- loop に現れない id の score は変わらない。 -/
theorem dequeueLoop_frame : ∀ (l : List (String × ℚ)) {s : Store P}, id ∉ l.map Prod.fst →
    (dequeueLoop cjson now l s).2.queue.score? id = s.queue.score? id
  | [], _, _ => rfl
  | (n, score) :: rest, s, hid => by
    rw [List.map_cons, List.mem_cons, not_or] at hid
    unfold dequeueLoop
    split
    · rfl
    · split
      · rw [dequeueLoop_frame rest hid.2]
        show (s.queue.rem n).score? id = _
        rw [SortedSet.score?_rem, if_neg hid.1]
      · split
        · rfl
        · show (dequeueLoop cjson now rest _).2.queue.score? id = _
          rw [dequeueLoop_frame rest hid.2]
          show (s.queue.add n _).score? id = _
          rw [SortedSet.score?_add, if_neg hid.1]

/-- loop が書く score は `now` 以上である。現れた id は `now` までに見えていたので、見えない時刻は早まらない。 -/
theorem hidden_dequeueLoop : ∀ (l : List (String × ℚ)) {s : Store P},
    (∀ e ∈ l, e.1 = id → t ≤ now) → Hidden id t s → Hidden id t (dequeueLoop cjson now l s).2
  | [], _, _, hs => hs
  | (n, score) :: rest, s, hl, hs => by
    have hrest : ∀ e ∈ rest, e.1 = id → t ≤ now := fun e he => hl e (List.mem_cons_of_mem _ he)
    unfold dequeueLoop
    split
    · exact hs
    · split
      · exact hidden_dequeueLoop rest hrest (Hidden.rem hs)
      · split
        · exact hs
        · next item _ =>
          refine hidden_dequeueLoop rest hrest ?_
          by_cases hn : n = id
          · intro y hy
            have hy' : (s.queue.add n (now + item.visibilityTimeoutMs)).score? id = some y := hy
            rw [SortedSet.score?_add, if_pos hn.symm] at hy'
            have hnow : t ≤ now := hl (n, score) List.mem_cons_self hn
            have hv : (0 : ℚ) ≤ item.visibilityTimeoutMs := Nat.cast_nonneg _
            cases hy'
            linarith
          · exact Hidden.add_of_ne hs hn

theorem hidden_dequeueItems {count : Int} (hs : Hidden id t s) :
    Hidden id t (dequeueItems cjson now count s).2 := by
  refine hidden_dequeueLoop _ ?_ hs
  rintro ⟨n, x⟩ he rfl
  obtain ⟨hx, hle⟩ := SortedSet.mem_rangeByScore.mp (mem_of_mem_limit he)
  exact (hs x hx).trans hle

/-- **id への enqueue / reschedule / redrive / ack で無い操作は、見えない時刻を早めない。** -/
theorem hidden_exec {op : Op P} (hop : ¬ op.Touches id) (hs : Hidden id t s) :
    Hidden id t (op.exec cjson s) := by
  cases op with
  | enqueueItem n score item => exact Hidden.add_of_ne hs hop
  | enqueueItemWithCancellationKey key n score item =>
    show Hidden id t (enqueueItemWithCancellationKey key n score item s)
    unfold enqueueItemWithCancellationKey
    split
    · exact hs
    · exact Hidden.add_of_ne hs hop
  | enqueueItemOnce n score item =>
    show Hidden id t (enqueueItemOnce n score item s).2
    unfold enqueueItemOnce
    split
    · show ∀ y, (zaddNX s.queue n score).score? id = some y → t ≤ y
      unfold zaddNX
      split
      · exact Hidden.add_of_ne hs hop
      · exact hs
    · exact hs
  -- 取り出しは見える item の時刻を延ばすだけである
  | dequeueItems now count => exact hidden_dequeueItems hs
  | ackItem n key =>
    show Hidden id t (ackItem cjson n key s).2
    unfold ackItem
    split
    · exact hs
    · split
      · exact hs
      · exact Hidden.rem hs
  | reschedule n availableAt =>
    show ∀ y, (zaddXX s.queue n availableAt).score? id = some y → t ≤ y
    unfold zaddXX
    split
    · exact hs
    · exact Hidden.add_of_ne hs hop
  | moveToDeadLetterQueue now n message =>
    show Hidden id t (moveToDeadLetterQueue cjson now n message s).2
    unfold moveToDeadLetterQueue
    split
    · exact hs
    · split
      · exact hs
      · exact Hidden.rem hs
  | redriveFromDeadLetterQueue now n =>
    show Hidden id t (redriveFromDeadLetterQueue cjson now n s).2
    unfold redriveFromDeadLetterQueue
    split
    · exact hs
    · split
      · exact hs
      · exact Hidden.add_of_ne hs hop
  | cancel key => exact hs
  | cancellationExpires key => exact hs

theorem hidden_exec_all {ops : List (Op P)} (hops : ∀ op ∈ ops, ¬ op.Touches id)
    (hs : Hidden id t s) : Hidden id t (Machine.exec (Op.exec cjson) s ops) := by
  induction ops generalizing s with
  | nil => exact hs
  | cons op ops ih =>
    exact ih (fun o ho => hops o (List.mem_cons_of_mem _ ho))
      (hidden_exec (hops op List.mem_cons_self) hs)

end Hidden

/-! ## 返された item -/

section Delivered

variable {cjson : Item P → Option (Item P)} {now : ℚ}

/-- loop が返す item は、入力の対の id を持ち、loop の後はその timeout だけ見えない。 -/
theorem dequeueLoop_delivers : ∀ (l : List (String × ℚ)) {s : Store P} {out : List (Dequeued P)},
    (l.map Prod.fst).Nodup → (dequeueLoop cjson now l s).1 = some out → ∀ d ∈ out,
    d.id ∈ l.map Prod.fst ∧ s.items.get d.id = some d.serializedItem ∧
      ∃ item, cjson d.serializedItem = some item ∧
        (dequeueLoop cjson now l s).2.queue.score? d.id = some (now + item.visibilityTimeoutMs)
  | [], s, out, _, hout, d, hd => by
    cases Option.some.inj hout
    cases hd
  | (n, score) :: rest, s, out, hnd, hout, d, hd => by
    rw [List.map_cons, List.nodup_cons] at hnd
    unfold dequeueLoop at hout ⊢
    split at hout
    · cases Option.some.inj hout
      cases hd
    · next hle =>
      rw [if_neg hle]
      split at hout
      · next hi =>
        obtain ⟨hmem, hget, item, hc, hsc⟩ := dequeueLoop_delivers rest hnd.2 hout d hd
        exact ⟨List.mem_cons_of_mem _ hmem, hget, item, hc, hsc⟩
      · next serializedItem hi =>
        split at hout
        · cases hout
        · next item hc =>
          obtain ⟨tail, htail, rfl⟩ := Option.map_eq_some_iff.mp hout
          rcases List.mem_cons.mp hd with rfl | hd
          · refine ⟨List.mem_cons_self, hi, item, hc, ?_⟩
            rw [dequeueLoop_frame rest hnd.1]
            show (s.queue.add n _).score? n = _
            rw [SortedSet.score?_add, if_pos rfl]
          · obtain ⟨hmem, hget, item', hc', hsc⟩ := dequeueLoop_delivers rest hnd.2 htail d hd
            exact ⟨List.mem_cons_of_mem _ hmem, hget, item', hc', hsc⟩

theorem mem_delivered {count : Int} {s : Store P} {d : Dequeued P}
    (hd : d ∈ delivered cjson now count s) :
    (∃ x ≤ now, s.queue.score? d.id = some x) ∧ s.items.get d.id = some d.serializedItem ∧
      ∃ item, cjson d.serializedItem = some item ∧
        (dequeueItems cjson now count s).2.queue.score? d.id =
          some (now + item.visibilityTimeoutMs) := by
  unfold delivered at hd
  rcases hout : (dequeueItems cjson now count s).1 with _ | out
  · rw [hout] at hd
    cases hd
  · rw [hout] at hd
    obtain ⟨hmem, hget, hrest⟩ := dequeueLoop_delivers _
      (nodup_limit (SortedSet.rangeByScore_nodup s.queue now)) hout d hd
    obtain ⟨⟨n, x⟩, he, hn⟩ := List.mem_map.mp hmem
    obtain ⟨hx, hle⟩ := SortedSet.mem_rangeByScore.mp (mem_of_mem_limit he)
    refine ⟨⟨x, hle, ?_⟩, hget, hrest⟩
    rw [← hn]
    exact hx

theorem dequeueLoop_sublist : ∀ (l : List (String × ℚ)) {s : Store P} {out : List (Dequeued P)},
    (dequeueLoop cjson now l s).1 = some out → List.Sublist (out.map (·.id)) (l.map Prod.fst)
  | [], s, out, hout => by
    cases Option.some.inj hout
    exact List.Sublist.refl _
  | (n, score) :: rest, s, out, hout => by
    unfold dequeueLoop at hout
    split at hout
    · cases Option.some.inj hout
      exact List.nil_sublist _
    · split at hout
      · exact (dequeueLoop_sublist rest hout).cons n
      · split at hout
        · cases hout
        · obtain ⟨tail, htail, rfl⟩ := Option.map_eq_some_iff.mp hout
          exact (dequeueLoop_sublist rest htail).cons_cons n

/-- 一度の取り出しで、同じ id は二度返らない。 -/
theorem nodup_delivered {count : Int} {s : Store P} :
    ((delivered cjson now count s).map (·.id)).Nodup := by
  unfold delivered
  rcases hout : (dequeueItems cjson now count s).1 with _ | out
  · exact List.nodup_nil
  · exact (nodup_limit (SortedSet.rangeByScore_nodup s.queue now)).sublist (dequeueLoop_sublist _ hout)

/--
**どの操作の列の後でも id は一致し、時刻 `now` に timeout `v` で返された id は、その id への
enqueue / reschedule / redrive / ack を挟まない限り `now + v` より前には返されない。**
-/
theorem queue_consistent_exclusive (cjson : Item P → Option (Item P)) :
    (∀ ops : List (Op P), Consistent (run cjson ops)) ∧
    ∀ (before between : List (Op P)) (now now' : ℚ) (count count' : Int) (d d' : Dequeued P)
      (item : Item P), d ∈ delivered cjson now count (run cjson before) →
      cjson d.serializedItem = some item →
      d' ∈ delivered cjson now' count'
        (run cjson (before ++ .dequeueItems now count :: between)) →
      d'.id = d.id → now' < now + item.visibilityTimeoutMs → ∃ op ∈ between, op.Touches d.id := by
  refine ⟨consistent_run, ?_⟩
  intro before between now now' count count' d d' item hd hc hd' hid hlt
  by_contra hno
  obtain ⟨-, -, item', hc', hscore⟩ := mem_delivered hd
  obtain rfl : item' = item := Option.some.inj (hc'.symm.trans hc)
  have hhidden : Hidden d.id (now + item'.visibilityTimeoutMs)
      (dequeueItems cjson now count (run cjson before)).2 := by
    intro x hx
    rw [hscore] at hx
    cases hx
    exact le_refl _
  have hlater : Hidden d.id (now + item'.visibilityTimeoutMs)
      (Machine.exec (Op.exec cjson) (dequeueItems cjson now count (run cjson before)).2 between) :=
    hidden_exec_all (fun op hop htouch => hno ⟨op, hop, htouch⟩) hhidden
  obtain ⟨⟨x, hx, hsc⟩, -⟩ := mem_delivered hd'
  rw [run, Machine.exec_append, hid] at hsc
  exact absurd (hlater x hsc) (not_le.mpr (hx.trans_lt hlt))

/-- `a` は時刻 5 に timeout 10 で返され、reschedule を挟んで時刻 7 にもう一度返される。 -/
theorem queue_consistent_exclusive_rescheduled :
    let item : Item Unit := ⟨"job", (), 10, none, some "k", none⟩
    let before := [Op.enqueueItem "a" 0 item]
    let between := [Op.reschedule "a" 6]
    Consistent (run some (before ++ .dequeueItems 5 1 :: between)) ∧
      ∃ op ∈ between, op.Touches "a" := by
  intro item before between
  refine ⟨(queue_consistent_exclusive some).1 _, ?_⟩
  exact (queue_consistent_exclusive some).2 before between 5 7 1 1 ⟨"a", item, 0⟩ ⟨"a", item, 6⟩
    item (by decide +kernel) rfl (by decide +kernel) rfl (by norm_num [item])

end Delivered

end Worker
