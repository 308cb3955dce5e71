import Mathlib.Data.List.Induction
import Mathlib.Data.Nat.Notation
import Trigger.Infra.Machine

/-!
# v2 の stream の購読

`SSEStreamSubscription.connectStream` と `retryConnection`（v2）。

再開位置 `lastEventId` は record を読み取ったときに進むが、chunk はまだ内部の queue にあり、接続が切れると
捨てられる。また、見た id の集合は接続ごとに作り直される。接続が切れるときに queue が空で、前の接続で読んだ
id の record が再び来ないなら、どの record もちょうど一度ずつ渡る（`chunks_once`）。
-/

namespace Realtime.V2

open Infra.Machine

variable {δ : Type}

/-! ## stream -/

/-- `batch` event の record。`body` は JSON の `{ id, data }` である。 -/
structure Record (δ : Type) where
  seqNum : ℕ
  timestamp : ℕ
  id : String
  data : δ
deriving DecidableEq

/-- 読み手に渡る `SSEStreamPart`。`id` は record の `seq_num` である。 -/
structure StreamPart (δ : Type) where
  id : ℕ
  chunk : δ
  timestamp : ℕ
deriving DecidableEq

def Record.part (r : Record δ) : StreamPart δ where
  id := r.seqNum
  chunk := r.data
  timestamp := r.timestamp

/-- `seq_num` の順に並んだ stream。 -/
structure Stream (δ : Type) where
  records : List (Record δ)
  increasing : records.Pairwise fun a b => a.seqNum < b.seqNum

/-- `Last-Event-ID` より後ろ。 -/
def isAfter (lastEventId : Option ℕ) (r : Record δ) : Bool :=
  match lastEventId with
  | none => true
  | some n => n < r.seqNum

/-- server が送る record。 -/
def resume (stream : Stream δ) (lastEventId : Option ℕ) : List (Record δ) :=
  stream.records.filter (isAfter lastEventId)

/-! ## 購読の状態 -/

inductive Status
  | connecting
  | reading
  | closed
  | errored
deriving DecidableEq

/-- `seenIds` と `queue` は接続ごとのもの、`enqueued` は読み手の controller に渡した chunk である。 -/
structure Subscription (δ : Type) where
  lastEventId : Option ℕ := none
  retryCount : ℕ := 0
  status : Status := .connecting
  seenIds : List String := []
  queue : List (StreamPart δ) := []
  enqueued : List (StreamPart δ) := []

def maxRetries : ℕ := 5

/-- record を一つ読み取る。位置は、見た id の record でも進む。 -/
def readRecord (s : Subscription δ) (r : Record δ) : Subscription δ :=
  if r.id ∈ s.seenIds then { s with lastEventId := some r.seqNum }
  else
    { s with
      lastEventId := some r.seqNum
      seenIds := r.id :: s.seenIds
      queue := s.queue ++ [r.part] }

/-- `TransformStream` の `transform`。`batch` 以外の event は読み捨てる。 -/
def transform (s : Subscription δ) (event : String) (records : List (Record δ)) :
    Subscription δ :=
  if event = "batch" then records.foldl readRecord s else s

/-- `retryConnection`。 -/
def retryConnection (s : Subscription δ) : Subscription δ :=
  if s.retryCount ≥ maxRetries then { s with status := .errored }
  else { s with status := .connecting, retryCount := s.retryCount + 1 }

/-- 起こること。`message` は、まだ送られていない record の最初の `n` 個を持つ event である。 -/
inductive Event
  | connected
  | refused
  | message (event : String) (n : ℕ)
  | read
  | broken
  | ended
deriving DecidableEq

/-- 一歩。起こり得ない event では何も起きない。 -/
def step (stream : Stream δ) (s : Subscription δ) : Event → Subscription δ
  | .connected =>
    if s.status = .connecting then
      { s with status := .reading, retryCount := 0, seenIds := [], queue := [] }
    else s
  | .refused => if s.status = .connecting then retryConnection s else s
  | .message event n =>
    if s.status = .reading then transform s event ((resume stream s.lastEventId).take n) else s
  | .read =>
    if s.status = .reading then
      { s with enqueued := s.enqueued ++ s.queue.take 1, queue := s.queue.drop 1 }
    else s
  -- エラーになった stream の、queue に残る chunk は捨てられる
  | .broken => if s.status = .reading then retryConnection { s with queue := [] } else s
  | .ended =>
    if s.status = .reading ∧ s.queue = [] ∧ resume stream s.lastEventId = [] then
      { s with status := .closed }
    else s

/-! ## 最初に現れた record -/

/-- `seen` にない id の record を、最初に現れたものだけ残す。 -/
def firsts (seen : List String) : List (Record δ) → List (Record δ)
  | [] => []
  | r :: rest => if r.id ∈ seen then firsts seen rest else r :: firsts (r.id :: seen) rest

/-- `pre` に record が一つ続くときは、その id が新しければ増える。 -/
theorem firsts_concat (pre : List (Record δ)) (r : Record δ) (seen : List String) :
    firsts seen (pre ++ [r]) =
      firsts seen pre ++ if r.id ∈ seen ∨ ∃ p ∈ pre, p.id = r.id then [] else [r] := by
  induction pre generalizing seen with
  | nil => simp [firsts]
  | cons p pre ih =>
    rw [List.cons_append]
    unfold firsts
    by_cases hp : p.id ∈ seen
    · -- `p` が飛ばされるとき、`p` の id は既に `seen` にある
      have hcond : (r.id ∈ seen ∨ ∃ q ∈ p :: pre, q.id = r.id) ↔
          (r.id ∈ seen ∨ ∃ q ∈ pre, q.id = r.id) := by
        constructor
        · rintro (h | ⟨q, hq, heq⟩)
          · exact .inl h
          · rcases List.mem_cons.mp hq with rfl | hq
            · exact .inl (heq ▸ hp)
            · exact .inr ⟨q, hq, heq⟩
        · rintro (h | ⟨q, hq, heq⟩)
          · exact .inl h
          · exact .inr ⟨q, List.mem_cons_of_mem p hq, heq⟩
      rw [if_pos hp, if_pos hp, ih]
      simp only [hcond]
    · have hcond : (r.id ∈ p.id :: seen ∨ ∃ q ∈ pre, q.id = r.id) ↔
          (r.id ∈ seen ∨ ∃ q ∈ p :: pre, q.id = r.id) := by
        simp only [List.mem_cons, exists_eq_or_imp, eq_comm (a := r.id)]
        exact ⟨fun h => by tauto, fun h => by tauto⟩
      rw [if_neg hp, if_neg hp, ih]
      simp only [hcond, List.cons_append]

/-! ## 再開位置 -/

section Resume

variable {stream : Stream δ} {start last : Option ℕ}

/-- ある record の位置から再開すると、その後ろが送られる。 -/
theorem resume_record {r : Record δ} {rest : List (Record δ)}
    (h : resume stream last = r :: rest) : resume stream (some r.seqNum) = rest := by
  have hsorted : (r :: rest).Pairwise fun a b => a.seqNum < b.seqNum :=
    h ▸ stream.increasing.filter _
  obtain ⟨hafter, -⟩ := List.pairwise_cons.mp hsorted
  have hr : isAfter last r = true := by
    have hmem : r ∈ resume stream last := h ▸ List.mem_cons_self
    exact (List.mem_filter.mp hmem).2
  -- `r` より後ろの record は、`last` よりも後ろにある
  have hfilter : resume stream (some r.seqNum) =
      (resume stream last).filter (isAfter (some r.seqNum)) := by
    unfold resume
    rw [List.filter_filter]
    refine List.filter_congr fun p _ => ?_
    by_cases hp : r.seqNum < p.seqNum
    · have hlast : isAfter last p = true := by
        cases last with
        | none => rfl
        | some n =>
          have : n < r.seqNum := of_decide_eq_true hr
          exact decide_eq_true (by omega)
      rw [hlast, Bool.and_true]
    · have hfalse : isAfter (some r.seqNum) p = false := decide_eq_false hp
      rw [hfalse, Bool.false_and]
  rw [hfilter, h, List.filter_cons_of_neg (by simp [isAfter])]
  exact List.filter_eq_self.mpr fun p hp => decide_eq_true (hafter p hp)

/-- 既に読み取った record。 -/
def parsed (stream : Stream δ) (start : Option ℕ) (s : Subscription δ) : List (Record δ) :=
  (resume stream start).filter fun r => !isAfter s.lastEventId r

/-- `parsed` の後ろに、これから送られる record が続く。 -/
def Split (stream : Stream δ) (start last : Option ℕ) (pre : List (Record δ)) : Prop :=
  resume stream start = pre ++ resume stream last ∧ ∀ p ∈ pre, isAfter last p = false

theorem Split.parsed_eq {s : Subscription δ} {pre : List (Record δ)}
    (h : Split stream start s.lastEventId pre) : parsed stream start s = pre := by
  have hpre : pre.filter (fun r => !isAfter s.lastEventId r) = pre :=
    List.filter_eq_self.mpr fun p hp => by rw [h.2 p hp, Bool.not_false]
  have hrest : (resume stream s.lastEventId).filter (fun r => !isAfter s.lastEventId r) = [] := by
    refine List.filter_eq_nil_iff.mpr fun p hp => ?_
    rw [(List.mem_filter.mp hp).2]
    exact Bool.false_ne_true
  unfold parsed
  rw [h.1, List.filter_append, hpre, hrest, List.append_nil]

/-- 一つ読み取った後の分かれ目。 -/
theorem Split.record {pre rest : List (Record δ)} {r : Record δ}
    (h : Split stream start last pre) (hr : resume stream last = r :: rest) :
    Split stream start (some r.seqNum) (pre ++ [r]) := by
  have hall : resume stream start = pre ++ r :: rest := by rw [h.1, hr]
  refine ⟨?_, fun p hp => decide_eq_false ?_⟩
  · rw [resume_record hr, hall, List.append_assoc, List.singleton_append]
  · have hsorted : (pre ++ r :: rest).Pairwise fun a b => a.seqNum < b.seqNum :=
      hall ▸ stream.increasing.filter _
    obtain ⟨-, -, hcross⟩ := List.pairwise_append.mp hsorted
    rcases List.mem_append.mp hp with hp | hp
    · have := hcross p hp r List.mem_cons_self
      omega
    · rw [List.mem_singleton.mp hp]
      exact Nat.lt_irrefl _

end Resume

/-! ## 不変条件 -/

/--
読み取った record の最初のものが、渡した chunk と queue に、順に一つずつある。見た id は読み取った record の id で、
読んでいる間でなければ queue は空である。
-/
structure Lossless (stream : Stream δ) (start : Option ℕ) (s : Subscription δ)
    (pre : List (Record δ)) : Prop where
  split : Split stream start s.lastEventId pre
  parts : s.enqueued ++ s.queue = (firsts [] pre).map Record.part
  seen : ∀ id ∈ s.seenIds, ∃ p ∈ pre, p.id = id
  idle : s.status ≠ .reading → s.queue = []
  fresh : s.status = .reading → s.retryCount = 0
  alive : s.status ≠ .errored
  complete : s.status = .closed → resume stream s.lastEventId = []

section Steps

variable {stream : Stream δ} {start : Option ℕ} {s : Subscription δ} {pre : List (Record δ)}

/-- 前の接続で読んだ id の record が来ない。 -/
def NoReplay (s : Subscription δ) (pre records : List (Record δ)) : Prop :=
  ∀ r ∈ records, ∀ p ∈ pre, p.id = r.id → r.id ∈ s.seenIds

theorem readRecord_status (s : Subscription δ) (r : Record δ) :
    (readRecord s r).status = s.status ∧ (readRecord s r).retryCount = s.retryCount ∧
      (readRecord s r).lastEventId = some r.seqNum := by
  unfold readRecord
  split <;> exact ⟨rfl, rfl, rfl⟩

theorem mem_readRecord_seenIds (s : Subscription δ) (r : Record δ) (id : String) :
    id ∈ (readRecord s r).seenIds ↔ id = r.id ∨ id ∈ s.seenIds := by
  unfold readRecord
  split
  · next hseen =>
    refine ⟨.inr, ?_⟩
    rintro (rfl | h)
    · exact hseen
    · exact h
  · exact List.mem_cons

/-- 一つ読み取る。id が前の接続のものでなければ、見た id かどうかは、最初の record かどうかである。 -/
theorem Lossless.readRecord {r : Record δ} {rest : List (Record δ)}
    (h : Lossless stream start s pre) (hs : s.status = .reading)
    (hr : resume stream s.lastEventId = r :: rest) (hfresh : NoReplay s pre [r]) :
    Lossless stream start (readRecord s r) (pre ++ [r]) := by
  obtain ⟨hstatus, hcount, hlast⟩ := readRecord_status s r
  refine ⟨hlast ▸ h.split.record hr, ?_, fun id hid => ?_, fun hne => absurd (hstatus.trans hs) hne,
    fun _ => hcount.trans (h.fresh hs), ?_, ?_⟩
  · have hiff : (r.id ∈ ([] : List String) ∨ ∃ p ∈ pre, p.id = r.id) ↔ r.id ∈ s.seenIds := by
      constructor
      · rintro (h' | ⟨p, hp, heq⟩)
        · cases h'
        · exact hfresh r (List.mem_singleton.mpr rfl) p hp heq
      · exact fun h' => .inr (h.seen r.id h')
    rw [firsts_concat]
    simp only [hiff]
    unfold V2.readRecord
    split
    · rw [List.append_nil]
      exact h.parts
    · rw [List.map_append, ← h.parts, List.append_assoc]
      rfl
  · rcases (mem_readRecord_seenIds s r id).mp hid with rfl | hid
    · exact ⟨r, by simp, rfl⟩
    · obtain ⟨p, hp, heq⟩ := h.seen id hid
      exact ⟨p, List.mem_append_left _ hp, heq⟩
  · rw [hstatus, hs]
    exact fun h' => by cases h'
  · rw [hstatus, hs]
    exact fun h' => by cases h'

/-- event の record を順に読み取る。 -/
theorem Lossless.records : ∀ {records : List (Record δ)} {s : Subscription δ}
    {pre rest : List (Record δ)}, Lossless stream start s pre → s.status = .reading →
      resume stream s.lastEventId = records ++ rest → NoReplay s pre records →
      Lossless stream start (records.foldl V2.readRecord s) (pre ++ records)
  | [], _, _, _, h, _, _, _ => by
    rw [List.append_nil]
    exact h
  | r :: records, s, pre, rest, h, hs, hrest, hfresh => by
    obtain ⟨hstatus, -, hlast⟩ := readRecord_status s r
    have hone : Lossless stream start (V2.readRecord s r) (pre ++ [r]) :=
      h.readRecord hs hrest fun r' hr' => hfresh r' (by
        rw [List.mem_singleton.mp hr']
        exact List.mem_cons_self)
    -- 同じ event の中で繰り返された id は、見た id に入っている
    have hnext : NoReplay (V2.readRecord s r) (pre ++ [r]) records := by
      intro r' hr' p hp heq
      refine (mem_readRecord_seenIds s r r'.id).mpr ?_
      rcases List.mem_append.mp hp with hp | hp
      · exact .inr (hfresh r' (List.mem_cons_of_mem r hr') p hp heq)
      · exact .inl (by rw [← heq, List.mem_singleton.mp hp])
    have hall := Lossless.records hone (hstatus.trans hs)
      (by rw [hlast]; exact resume_record hrest) hnext
    rw [List.append_assoc, List.singleton_append] at hall
    exact hall

/-- 読み直しの待ちに入る。 -/
theorem Lossless.retry {s' : Subscription δ} (h : Lossless stream start s' pre)
    (hq : s'.queue = []) (hcount : s'.retryCount < maxRetries) :
    Lossless stream start (retryConnection s') pre := by
  unfold retryConnection
  rw [if_neg (by omega)]
  exact ⟨h.split, h.parts, h.seen, fun _ => hq, fun h' => (by cases h'), fun h' => (by cases h'),
    fun h' => (by cases h')⟩

/--
chunk が失われず、繰り返されない一歩。接続は queue が空のときに切れ、接続の試みは再試行が残っているときに断られ、
event の record に前の接続で読んだ id がない。
-/
def SafeStep (stream : Stream δ) (start : Option ℕ) (s : Subscription δ) : Event → Prop
  | .message event n => s.status = .reading → event = "batch" →
      NoReplay s (parsed stream start s) ((resume stream s.lastEventId).take n)
  | .refused => s.status = .connecting → s.retryCount < maxRetries
  | .broken => s.status = .reading → s.queue = []
  | _ => True

theorem Lossless.step (h : Lossless stream start s pre) {e : Event}
    (hsafe : SafeStep stream start s e) :
    ∃ pre', Lossless stream start (step stream s e) pre' := by
  cases e with
  | connected =>
    unfold V2.step
    dsimp only
    split
    · next hs =>
      have hq : s.queue = [] := h.idle (by rw [hs]; exact fun h' => by cases h')
      have hparts := h.parts
      rw [hq] at hparts
      exact ⟨pre, h.split, hparts, fun _ h' => (by cases h'), fun h' => absurd rfl h',
        fun _ => rfl, fun h' => (by cases h'), fun h' => (by cases h')⟩
    · exact ⟨pre, h⟩
  | refused =>
    unfold V2.step
    dsimp only
    split
    · next hs =>
      exact ⟨pre, h.retry (h.idle (by rw [hs]; exact fun h' => by cases h')) (hsafe hs)⟩
    · exact ⟨pre, h⟩
  | message event n =>
    unfold V2.step transform
    dsimp only
    split
    · next hs =>
      split
      · next hevent =>
        have hnew := hsafe hs hevent
        rw [h.split.parsed_eq] at hnew
        exact ⟨_, h.records hs (List.take_append_drop n _).symm hnew⟩
      · exact ⟨pre, h⟩
    · exact ⟨pre, h⟩
  | read =>
    unfold V2.step
    dsimp only
    split
    · next hs =>
      refine ⟨pre, h.split, ?_, h.seen, fun h' => absurd hs h', h.fresh, h.alive, h.complete⟩
      show s.enqueued ++ s.queue.take 1 ++ s.queue.drop 1 = _
      rw [List.append_assoc, List.take_append_drop]
      exact h.parts
    · exact ⟨pre, h⟩
  | broken =>
    unfold V2.step
    dsimp only
    split
    · next hs =>
      -- queue が空なら、捨てられる chunk は無い
      have hq : s.queue = [] := hsafe hs
      have hdrop : Lossless stream start { s with queue := [] } pre :=
        ⟨h.split, hq ▸ h.parts, h.seen, fun _ => rfl, h.fresh, h.alive, h.complete⟩
      refine ⟨pre, hdrop.retry rfl ?_⟩
      show s.retryCount < maxRetries
      rw [h.fresh hs]
      decide
    · exact ⟨pre, h⟩
  | ended =>
    unfold V2.step
    dsimp only
    split
    · next hs =>
      exact ⟨pre, h.split, h.parts, h.seen, fun _ => hs.2.1, fun h' => (by cases h'),
        fun h' => (by cases h'), fun _ => hs.2.2⟩
    · exact ⟨pre, h⟩

end Steps

/-! ## 購読の全体 -/

/-- 渡した chunk は、異なる id の record の最初のものを順に並べた列の初めの部分で、閉じたときにはその全体である。
購読がエラーで終わることはない。 -/
def DeliversOnce (stream : Stream δ) (start : Option ℕ) (s : Subscription δ) : Prop :=
  s.enqueued <+: (firsts [] (resume stream start)).map Record.part ∧
    (s.status = .closed →
      s.enqueued = (firsts [] (resume stream start)).map Record.part) ∧
    s.status ≠ .errored

/-- 列の初めの部分の最初の record は、全体の最初の record の初めの部分である。 -/
theorem firsts_prefix (pre post : List (Record δ)) :
    firsts [] pre <+: firsts [] (pre ++ post) := by
  induction post using List.reverseRecOn with
  | nil => exact ⟨[], by rw [List.append_nil, List.append_nil]⟩
  | append_singleton post r ih =>
    rw [← List.append_assoc, firsts_concat]
    exact ih.trans (List.prefix_append _ _)

theorem Lossless.deliversOnce {stream : Stream δ} {start : Option ℕ} {s : Subscription δ}
    {pre : List (Record δ)} (h : Lossless stream start s pre) : DeliversOnce stream start s := by
  refine ⟨?_, fun hclosed => ?_, h.alive⟩
  · have hparts : s.enqueued <+: (firsts [] pre).map Record.part :=
      h.parts ▸ List.prefix_append _ _
    have hfirsts : firsts [] pre <+: firsts [] (resume stream start) := by
      rw [h.split.1]
      exact firsts_prefix pre _
    exact hparts.trans (hfirsts.map _)
  · have hpre : resume stream start = pre := by
      rw [h.split.1, h.complete hclosed, List.append_nil]
    have hq : s.queue = [] := h.idle (by rw [hclosed]; exact fun h' => by cases h')
    have hparts := h.parts
    rwa [hq, List.append_nil, ← hpre] at hparts

/--
**どの stream でも、どの位置から始めても、どの順に event が起きても、すべての一歩が `SafeStep` なら、途中の
どの状態でも chunk は失われず、繰り返されない。**
-/
theorem chunks_once (stream : Stream δ) (start : Option ℕ) (events : List Event)
    (h : Along (step stream) (SafeStep stream start) { lastEventId := start } events) :
    Throughout (step stream) (DeliversOnce stream start) { lastEventId := start } events := by
  have hinit : ∃ pre, Lossless stream start { lastEventId := start } pre :=
    ⟨[], ⟨⟨rfl, fun _ h' => (by cases h')⟩, rfl, fun _ h' => (by cases h'), fun _ => rfl,
      fun h' => (by cases h'), fun h' => (by cases h'), fun h' => (by cases h')⟩⟩
  have hthrough := throughout_of_along (I := fun s => ∃ pre, Lossless stream start s pre)
    (fun s e hs he => by
      obtain ⟨pre, hpre⟩ := hs
      exact hpre.step he) hinit h
  refine hthrough.mono fun s hs => ?_
  obtain ⟨pre, hpre⟩ := hs
  exact hpre.deliversOnce

instance [DecidableEq δ] (stream : Stream δ) (start : Option ℕ) :
    DecidablePred (DeliversOnce stream start) := fun _ =>
  inferInstanceAs (Decidable (_ ∧ _ ∧ _))

instance (stream : Stream δ) (start : Option ℕ) (s : Subscription δ) (e : Event) :
    Decidable (SafeStep stream start s e) :=
  match e with
  | .message event n =>
    inferInstanceAs (Decidable (s.status = .reading → event = "batch" →
      ∀ r ∈ (resume stream s.lastEventId).take n, ∀ p ∈ parsed stream start s, p.id = r.id →
        r.id ∈ s.seenIds))
  | .refused => inferInstanceAs (Decidable (s.status = .connecting → s.retryCount < maxRetries))
  | .broken => inferInstanceAs (Decidable (s.status = .reading → s.queue = []))
  | .connected => isTrue trivial
  | .read => isTrue trivial
  | .ended => isTrue trivial

/-- 同じ id の record を二つ持つ stream。 -/
def retriedAppend : Stream ℕ where
  records := [⟨1, 10, "a", 7⟩, ⟨2, 11, "b", 8⟩, ⟨3, 12, "a", 7⟩]
  increasing := by decide

/-- 一つの接続の中の繰り返しは除かれ、queue が空のときの切断と、断られた接続から回復する。 -/
theorem chunks_once_retriedAppend : ∃ events : List Event, events.length = 11 ∧
    Throughout (step retriedAppend) (DeliversOnce retriedAppend none) {} events ∧
    (exec (step retriedAppend) {} events).enqueued = [⟨1, 7, 10⟩, ⟨2, 8, 11⟩] ∧
    (exec (step retriedAppend) {} events).status = .closed :=
  ⟨[.connected, .broken, .refused, .connected, .message "ping" 0, .message "batch" 2, .read, .read,
      .message "batch" 1, .read, .ended], rfl,
    chunks_once retriedAppend none _ (by decide), by decide, by decide⟩

/--
queue に chunk が残ったまま接続が切れると、その chunk は失われる。前の接続で読んだ id の record が切断の後に
来ると、同じ chunk が二度渡る。
-/
theorem chunk_lost_or_repeated :
    ¬ Throughout (step retriedAppend) (DeliversOnce retriedAppend none) {}
        [.connected, .message "batch" 3, .read, .broken, .connected, .ended] ∧
      ¬ Throughout (step retriedAppend) (DeliversOnce retriedAppend none) {}
        [.connected, .message "batch" 2, .read, .read, .broken, .connected, .message "batch" 1,
          .read, .ended] := by
  decide

end Realtime.V2
