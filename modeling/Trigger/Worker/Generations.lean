import Mathlib.Algebra.Order.Floor.Defs
import Mathlib.Data.Rat.Floor
import Trigger.Worker.SimpleQueue

/-!
# Worker の processItem と job の世代

`packages/redis-worker/src/worker.ts` の `processItem` は、取り出した item の handler が終わると
`ack`、再 enqueue、dead letter queue への移動のどれかで item を片付ける。同じ id で producer が
enqueue し直した新しい世代は、`ack` では `deduplicationKey` の比較で守られるが、残る二つでは守られない。

* `structure_step` — key の一意性などは、どの一歩でも保たれる
* `kept_step_iff` — 一歩が待っている世代を残すのは、その一歩が `Clean` であるとき、かつそのときに限る
-/

namespace Worker

open Infra

variable {P : Type}

/-! ## 再試行の間隔 -/

/-- `RetryOptions`。既定値を埋めた後の値を持つ。 -/
structure RetryOptions where
  maxAttempts : ℕ
  factor : ℚ
  minTimeoutInMs : ℚ
  maxTimeoutInMs : ℚ
  randomize : Bool

/-- `defaultRetrySettings`。 -/
def defaultRetrySettings : RetryOptions := ⟨12, 2, 1000, 3600000, true⟩

/-- `calculateNextRetryDelay`。`random` は `Math.random()` の値である。 -/
def calculateNextRetryDelay (opts : RetryOptions) (random : ℚ) (attempt : ℕ) : Option ℚ :=
  if opts.maxAttempts ≤ attempt then none
  else
    let random := if opts.randomize then random + 1 else 1
    let timeout := min opts.maxTimeoutInMs (random * opts.minTimeoutInMs * opts.factor ^ (attempt - 1))
    some ⌊timeout + 1 / 2⌋

/-! ## Worker の状態 -/

/-- `dequeue` が `processItem` へ渡す値。 -/
structure QueueItem (P : Type) where
  id : String
  job : String
  item : P
  visibilityTimeoutMs : ℕ
  attempt : ℕ
  timestamp : ℚ
  deduplicationKey : Option String
deriving DecidableEq

/--
src の外にある部品。`nanoid n` は `n` 回目の呼び出しの値、`schema` は job の zod schema による検査で、
`retry` は catalog の再試行設定である。
-/
structure Env (P : Type) where
  nanoid : ℕ → String
  cjson : Item P → Option (Item P)
  schema : String → P → Option P
  retry : String → RetryOptions

/-- 部品について使う事実。nanoid は重ならず空でなく、cjson は文字列を変えない。 -/
structure Env.Lawful (env : Env P) : Prop where
  nanoid_injective : Function.Injective env.nanoid
  nanoid_ne_empty : ∀ n, env.nanoid n ≠ ""
  cjson_key : ∀ item item', env.cjson item = some item' →
    item'.deduplicationKey = item.deduplicationKey

/-- Redis の中身と、handler が動いている item。`nanoids` は `nanoid` を呼んだ回数である。 -/
structure State (P : Type) where
  store : Store P
  processing : List (QueueItem P)
  nanoids : ℕ

def State.empty : State P := ⟨Store.empty, [], 0⟩

section Semantics

variable (env : Env P)

/-- `SimpleQueue.enqueue`。呼ぶたびに新しい `deduplicationKey` を作る。 -/
def enqueue (id job : String) (item : P) (attempt : Option ℕ) (availableAt : ℚ)
    (visibilityTimeoutMs : ℕ) (cancellationKey : Option String) (s : State P) : State P :=
  let serializedItem :=
    ⟨job, item, visibilityTimeoutMs, attempt, some (env.nanoid s.nanoids), none⟩
  { s with
    store :=
      match cancellationKey with
      | some key => enqueueItemWithCancellationKey key id availableAt serializedItem s.store
      | none => enqueueItem id availableAt serializedItem s.store
    nanoids := s.nanoids + 1 }

/-- `SimpleQueue.enqueueOnce`。 -/
def enqueueOnce (id job : String) (item : P) (attempt : Option ℕ) (availableAt : ℚ)
    (visibilityTimeoutMs : ℕ) (s : State P) : State P :=
  let serializedItem :=
    ⟨job, item, visibilityTimeoutMs, attempt, some (env.nanoid s.nanoids), none⟩
  { s with
    store := (enqueueItemOnce id availableAt serializedItem s.store).2
    nanoids := s.nanoids + 1 }

/-- schema に合う item だけが `processItem` へ渡る。 -/
def toQueueItem (d : Dequeued P) : Option (QueueItem P) :=
  (env.schema d.serializedItem.job d.serializedItem.item).map fun data =>
    { id := d.id
      job := d.serializedItem.job
      item := data
      visibilityTimeoutMs := d.serializedItem.visibilityTimeoutMs
      attempt := d.serializedItem.attempt.getD 0
      timestamp := d.score
      deduplicationKey := d.serializedItem.deduplicationKey }

/-- `SimpleQueue.dequeue` と、返った item の `processItem` の開始。 -/
def dequeue (now : ℚ) (count : Int) (s : State P) : State P :=
  { s with
    store := (dequeueItems env.cjson now count s.store).2
    processing := s.processing ++ (delivered env.cjson now count s.store).filterMap (toQueueItem env) }

/-- handler の失敗後、再試行の余地がある間の遅延。0 は JavaScript では偽なので余地なしと扱われる。 -/
def retryDelay (q : QueueItem P) (random : ℚ) : Option ℚ :=
  (calculateNextRetryDelay (env.retry q.job) random (q.attempt + 1)).filter (· ≠ 0)

/-- 成功した `processItem` の終わり。 -/
def succeed [DecidableEq P] (q : QueueItem P) (s : State P) : State P :=
  { s with
    store := (ackItem env.cjson q.id (q.deduplicationKey.getD "") s.store).2
    processing := s.processing.erase q }

/-- 失敗した `processItem` の終わり。再 enqueue も dead letter も `deduplicationKey` を比べない。 -/
def fail [DecidableEq P] (q : QueueItem P) (now random : ℚ) (errorMessage : String) (s : State P) :
    State P :=
  let s := { s with processing := s.processing.erase q }
  match retryDelay env q random with
  | none => { s with store := (moveToDeadLetterQueue env.cjson now q.id errorMessage s.store).2 }
  | some delay =>
    enqueue env q.id q.job q.item (some (q.attempt + 1)) (now + delay) q.visibilityTimeoutMs none s

/-- producer と worker の一歩。 -/
inductive Label (P : Type)
  | enqueue (id job : String) (item : P) (availableAt : ℚ) (visibilityTimeoutMs : ℕ)
      (cancellationKey : Option String)
  | enqueueOnce (id job : String) (item : P) (availableAt : ℚ) (visibilityTimeoutMs : ℕ)
  | cancel (cancellationKey : String)
  | dequeue (now : ℚ) (count : Int)
  | succeed (q : QueueItem P)
  | fail (q : QueueItem P) (now random : ℚ) (errorMessage : String)

/-- 一歩の後の状態。動いていない item の終わりは起こらない。 -/
def State.step [DecidableEq P] (s : State P) : Label P → State P
  | .enqueue id job item availableAt v key => Worker.enqueue env id job item none availableAt v key s
  | .enqueueOnce id job item availableAt v => Worker.enqueueOnce env id job item none availableAt v s
  | .cancel key =>
    { s with store := { s.store with cancellationKeys := key :: s.store.cancellationKeys } }
  | .dequeue now count => Worker.dequeue env now count s
  | .succeed q => if q ∈ s.processing then Worker.succeed env q s else s
  | .fail q now random message =>
    if q ∈ s.processing then Worker.fail env q now random message s else s

/-! ## 待っている世代 -/

/-- `dequeueItems` の loop が取り出した id。 -/
def takenLoop (now : ℚ) (items : JsMap (Item P)) : List (String × ℚ) → List String
  | [] => []
  | (id, score) :: rest =>
    if now < score then []
    else
      match items.get id with
      | none => takenLoop now items rest
      | some item =>
        match env.cjson item with
        | none => []
        | some _ => id :: takenLoop now items rest

def taken (now : ℚ) (count : Int) (s : Store P) : List String :=
  takenLoop env now s.items (limit count (s.queue.rangeByScore now))

/-- 状態に、producer が enqueue してまだ取り出されていない世代を書き添える。code の状態ではない。 -/
structure History (P : Type) where
  state : State P
  waiting : String → Option (Item P × ℚ)

def History.empty : History P := ⟨State.empty, fun _ => none⟩

/-- producer の enqueue は世代を始め、取り出しは終わらせる。worker の片付けは世代に触れない。 -/
def History.note (h : History P) : Label P → String → Option (Item P × ℚ)
  | .enqueue id job item availableAt v key =>
    if key.any (· ∈ h.state.store.cancellationKeys) then h.waiting
    else
      Function.update h.waiting id
        (some (⟨job, item, v, none, some (env.nanoid h.state.nanoids), none⟩, availableAt))
  | .enqueueOnce id job item availableAt v =>
    match h.state.store.items.get id with
    | none =>
      Function.update h.waiting id
        (some (⟨job, item, v, none, some (env.nanoid h.state.nanoids), none⟩, availableAt))
    | some _ => h.waiting
  | .dequeue now count => fun id =>
    if id ∈ taken env now count h.state.store then none else h.waiting id
  | .cancel _ | .succeed _ | .fail _ _ _ _ => h.waiting

def History.step [DecidableEq P] (h : History P) (l : Label P) : History P :=
  ⟨h.state.step env l, h.note env l⟩

/-- 待っている世代は、その payload と時刻のまま `items` と `queue` にある。 -/
def Kept (h : History P) : Prop :=
  ∀ id item availableAt, h.waiting id = some (item, availableAt) →
    h.state.store.items.get id = some item ∧ h.state.store.queue.score? id = some availableAt

/--
一歩が待っている世代を壊さない条件。失敗した handler の再 enqueue は、その id に世代が待っていないとき。
dead letter と `ack` は、待っている世代を cjson が読めるかで決まる。
-/
def Clean (h : History P) : Label P → Prop
  | .succeed q => q ∈ h.state.processing →
    ∀ g, h.waiting q.id = some g → env.cjson g.1 ≠ none
  | .fail q _ random _ => q ∈ h.state.processing →
    match retryDelay env q random with
    | none => ∀ g, h.waiting q.id = some g → env.cjson g.1 = none
    | some _ => h.waiting q.id = none
  | .enqueue .. | .enqueueOnce .. | .cancel _ | .dequeue .. => True

end Semantics

section Loop

variable {env : Env P} {now : ℚ}

/-- 取り出されなかった item の score は変わらない。 -/
theorem score_dequeueLoop {id : String} {item : Item P} : ∀ (l : List (String × ℚ)) {s : Store P},
    s.items.get id = some item → id ∉ takenLoop env now s.items l →
    (dequeueLoop env.cjson now l s).2.queue.score? id = s.queue.score? id
  | [], _, _, _ => rfl
  | (n, score) :: rest, s, hi, hid => by
    unfold takenLoop at hid
    unfold dequeueLoop
    split
    · rfl
    · next hle =>
      rw [if_neg hle] at hid
      split
      · next hn =>
        have hne : id ≠ n := by
          rintro rfl
          rw [hi] at hn
          cases hn
        rw [hn] at hid
        refine (score_dequeueLoop (s := { s with queue := s.queue.rem n }) rest hi hid).trans ?_
        show (s.queue.rem n).score? id = _
        rw [SortedSet.score?_rem, if_neg hne]
      · next serializedItem hn =>
        rw [hn] at hid
        split
        · rfl
        · next parsed hc =>
          simp only [hc, List.mem_cons, not_or] at hid
          refine (score_dequeueLoop
            (s := { s with queue := s.queue.add n (now + parsed.visibilityTimeoutMs) })
            rest hi hid.2).trans ?_
          show (s.queue.add n _).score? id = _
          rw [SortedSet.score?_add, if_neg hid.1]

/-- 返された item の id は取り出されている。 -/
theorem mem_takenLoop : ∀ (l : List (String × ℚ)) {s : Store P} {out : List (Dequeued P)},
    (dequeueLoop env.cjson now l s).1 = some out → ∀ d ∈ out, d.id ∈ takenLoop env now s.items l
  | [], s, out, hout, d, hd => by
    cases Option.some.inj hout
    cases hd
  | (n, score) :: rest, s, out, hout, d, hd => by
    unfold dequeueLoop at hout
    unfold takenLoop
    split at hout
    · cases Option.some.inj hout
      cases hd
    · next hle =>
      rw [if_neg hle]
      cases hn : s.items.get n with
      | none =>
        rw [hn] at hout
        exact mem_takenLoop rest hout d hd
      | some serializedItem =>
        rw [hn] at hout
        dsimp only at hout ⊢
        cases hc : env.cjson serializedItem with
        | none =>
          rw [hc] at hout
          cases hout
        | some item =>
          rw [hc] at hout
          obtain ⟨tail, htail, rfl⟩ := Option.map_eq_some_iff.mp hout
          rcases List.mem_cons.mp hd with rfl | hd
          · exact List.mem_cons_self
          · exact List.mem_cons_of_mem _ (mem_takenLoop rest htail d hd)

theorem mem_taken_of_delivered {count : Int} {s : Store P} {d : Dequeued P}
    (hd : d ∈ delivered env.cjson now count s) : d.id ∈ taken env now count s := by
  unfold delivered at hd
  rcases hout : (dequeueItems env.cjson now count s).1 with _ | out
  · rw [hout] at hd
    cases hd
  · rw [hout] at hd
    exact mem_takenLoop _ hout d hd

end Loop

/-! ## key の一意性 -/

/-- `n` 回目より前の `nanoid` が返した key。 -/
def Issued (env : Env P) (n : ℕ) (key : Option String) : Prop := ∃ m < n, key = some (env.nanoid m)

/-- 世代を区別するための不変条件。待っている世代の key は、動いているどの handler の key とも違う。 -/
structure Structured (env : Env P) (h : History P) : Prop where
  consistent : Consistent h.state.store
  stored : ∀ id item, h.state.store.items.get id = some item →
    Issued env h.state.nanoids item.deduplicationKey
  waiting : ∀ id g, h.waiting id = some g → Issued env h.state.nanoids g.1.deduplicationKey
  running : ∀ q ∈ h.state.processing, Issued env h.state.nanoids q.deduplicationKey
  distinct : ∀ q ∈ h.state.processing, ∀ g, h.waiting q.id = some g →
    g.1.deduplicationKey ≠ q.deduplicationKey

section Structure

variable {env : Env P} {h : History P}

theorem Issued.mono {n n' : ℕ} {key : Option String} (hn : n ≤ n') (hk : Issued env n key) :
    Issued env n' key := by
  obtain ⟨m, hm, hkey⟩ := hk
  exact ⟨m, lt_of_lt_of_le hm hn, hkey⟩

theorem Issued.ne_next (henv : env.Lawful) {n : ℕ} {key : Option String} (hk : Issued env n key) :
    key ≠ some (env.nanoid n) := by
  obtain ⟨m, hm, rfl⟩ := hk
  intro heq
  have := henv.nanoid_injective (Option.some.inj heq)
  omega

theorem structured_empty : Structured env (History.empty : History P) where
  consistent := consistent_empty
  stored := fun id item hi => by cases hi
  waiting := fun id g hg => by cases hg
  running := fun q hq => by cases hq
  distinct := fun q hq => by cases hq

/--
一歩の後の値がどれも前からあったか、この一歩で作った key を持つかであれば、不変条件は保たれる。
新しく動き出した handler の id には、待っている世代が無い。
-/
theorem Structured.next (henv : env.Lawful) (hs : Structured env h) {h' : History P}
    (hc : Consistent h'.state.store) (hn : h.state.nanoids ≤ h'.state.nanoids)
    (hstored : ∀ id item, h'.state.store.items.get id = some item →
      h.state.store.items.get id = some item ∨
        (h.state.nanoids < h'.state.nanoids ∧
          item.deduplicationKey = some (env.nanoid h.state.nanoids)))
    (hwaiting : ∀ id g, h'.waiting id = some g → h.waiting id = some g ∨
      (h.state.nanoids < h'.state.nanoids ∧
        g.1.deduplicationKey = some (env.nanoid h.state.nanoids)))
    (hrunning : ∀ q ∈ h'.state.processing, q ∈ h.state.processing ∨
      (h'.waiting q.id = none ∧ ∃ id item, h.state.store.items.get id = some item ∧
        q.deduplicationKey = item.deduplicationKey)) : Structured env h' where
  consistent := hc
  stored := by
    intro id item hi
    rcases hstored id item hi with hold | ⟨hlt, hkey⟩
    · exact (hs.stored id item hold).mono hn
    · exact ⟨_, hlt, hkey⟩
  waiting := by
    intro id g hg
    rcases hwaiting id g hg with hold | ⟨hlt, hkey⟩
    · exact (hs.waiting id g hold).mono hn
    · exact ⟨_, hlt, hkey⟩
  running := by
    intro q hq
    rcases hrunning q hq with hold | ⟨-, id, item, hi, hkey⟩
    · exact (hs.running q hold).mono hn
    · rw [hkey]
      exact (hs.stored id item hi).mono hn
  distinct := by
    intro q hq g hg
    rcases hrunning q hq with hold | ⟨hnone, -⟩
    · rcases hwaiting q.id g hg with hg | ⟨-, hkey⟩
      · exact hs.distinct q hold g hg
      · rw [hkey]
        exact ((hs.running q hold).ne_next henv).symm
    · rw [hnone] at hg
      cases hg

theorem get_set_cases {m : JsMap (Item P)} {id id' : String} {item item' : Item P}
    (hi : (m.set id item).get id' = some item') : m.get id' = some item' ∨ item' = item := by
  rw [JsMap.get_set] at hi
  split at hi
  · exact .inr (Option.some.inj hi).symm
  · exact .inl hi

theorem get_of_get_delete {m : JsMap (Item P)} {id id' : String} {item : Item P}
    (hi : (m.delete id).get id' = some item) : m.get id' = some item := by
  rw [JsMap.get_delete] at hi
  split at hi
  · cases hi
  · exact hi

theorem update_cases {f : String → Option (Item P × ℚ)} {id id' : String} {g g' : Item P × ℚ}
    (hg : Function.update f id (some g) id' = some g') : f id' = some g' ∨ g' = g := by
  rw [Function.update_apply] at hg
  split at hg
  · exact .inr (Option.some.inj hg).symm
  · exact .inl hg

/-- `ack` と dead letter は `items` から消すだけである。 -/
theorem items_ackItem {s : Store P} {id key id' : String} {item : Item P}
    (hi : (ackItem env.cjson id key s).2.items.get id' = some item) :
    s.items.get id' = some item := by
  unfold ackItem at hi
  split at hi
  · exact hi
  · split at hi
    · exact hi
    · exact get_of_get_delete hi

theorem items_moveToDeadLetterQueue {s : Store P} {now : ℚ} {id message id' : String}
    {item : Item P}
    (hi : (moveToDeadLetterQueue env.cjson now id message s).2.items.get id' = some item) :
    s.items.get id' = some item := by
  unfold moveToDeadLetterQueue at hi
  split at hi
  · exact hi
  · split at hi
    · exact hi
    · exact get_of_get_delete hi

variable [DecidableEq P]

/-- **どの一歩も `Structured` を保つ。** -/
theorem structure_step (henv : env.Lawful) (hs : Structured env h) (l : Label P) :
    Structured env (h.step env l) := by
  cases l with
  | enqueue id job item availableAt v key =>
    refine hs.next henv ?_ (Nat.le_succ _) ?_ ?_ (fun q hq => .inl hq)
    · cases key with
      | none => exact consistent_exec env.cjson hs.consistent (.enqueueItem ..)
      | some key =>
        exact consistent_exec env.cjson hs.consistent
          (.enqueueItemWithCancellationKey key ..)
    · intro id' item' hi
      cases key with
      | none =>
        rcases get_set_cases hi with hold | rfl
        · exact .inl hold
        · exact .inr ⟨Nat.lt_succ_self _, rfl⟩
      | some key =>
        change (enqueueItemWithCancellationKey key _ _ _ _).items.get id' = some item' at hi
        unfold enqueueItemWithCancellationKey at hi
        split at hi
        · exact .inl hi
        · rcases get_set_cases hi with hold | rfl
          · exact .inl hold
          · exact .inr ⟨Nat.lt_succ_self _, rfl⟩
    · intro id' g hg
      change h.note env (.enqueue id job item availableAt v key) id' = some g at hg
      simp only [History.note] at hg
      split at hg
      · exact .inl hg
      · rcases update_cases hg with hold | rfl
        · exact .inl hold
        · exact .inr ⟨Nat.lt_succ_self _, rfl⟩
  | enqueueOnce id job item availableAt v =>
    refine hs.next henv (consistent_exec env.cjson hs.consistent (.enqueueItemOnce ..))
      (Nat.le_succ _) ?_ ?_ (fun q hq => .inl hq)
    · intro id' item' hi
      change (enqueueItemOnce _ _ _ _).2.items.get id' = some item' at hi
      unfold enqueueItemOnce at hi
      split at hi
      · rcases get_set_cases hi with hold | rfl
        · exact .inl hold
        · exact .inr ⟨Nat.lt_succ_self _, rfl⟩
      · exact .inl hi
    · intro id' g hg
      change h.note env (.enqueueOnce id job item availableAt v) id' = some g at hg
      simp only [History.note] at hg
      cases hget : h.state.store.items.get id with
      | none =>
        rw [hget] at hg
        rcases update_cases hg with hold | rfl
        · exact .inl hold
        · exact .inr ⟨Nat.lt_succ_self _, rfl⟩
      | some old =>
        rw [hget] at hg
        exact .inl hg
  | cancel key =>
    exact hs.next henv ⟨hs.consistent.live, hs.consistent.dead⟩ le_rfl (fun _ _ hi => .inl hi)
      (fun _ _ hg => .inl hg) (fun q hq => .inl hq)
  | dequeue now count =>
    refine hs.next henv (consistent_exec env.cjson hs.consistent (.dequeueItems ..))
      le_rfl ?_ ?_ ?_
    · intro id' item' hi
      change (dequeueItems env.cjson now count h.state.store).2.items.get id' = some item' at hi
      rw [dequeueItems, items_dequeueLoop] at hi
      exact .inl hi
    · intro id' g hg
      change (if id' ∈ taken env now count h.state.store then none else h.waiting id') = some g at hg
      split at hg
      · cases hg
      · exact .inl hg
    · intro q hq
      rcases List.mem_append.mp hq with hold | hnew
      · exact .inl hold
      · obtain ⟨d, hd, hq⟩ := List.mem_filterMap.mp hnew
        obtain ⟨data, -, rfl⟩ := Option.map_eq_some_iff.mp hq
        refine .inr ⟨?_, d.id, d.serializedItem, (mem_delivered hd).2.1, rfl⟩
        show (if d.id ∈ taken env now count h.state.store then none else h.waiting d.id) = none
        rw [if_pos (mem_taken_of_delivered hd)]
  | succeed q =>
    show Structured env ⟨if q ∈ h.state.processing then succeed env q h.state else h.state, h.waiting⟩
    split
    · refine hs.next henv (consistent_exec env.cjson hs.consistent (.ackItem ..)) le_rfl
        (fun _ _ hi => .inl (items_ackItem hi)) (fun _ _ hg => .inl hg) ?_
      exact fun q' hq' => .inl (List.mem_of_mem_erase hq')
    · exact hs
  | fail q now random message =>
    show Structured env
      ⟨if q ∈ h.state.processing then fail env q now random message h.state else h.state, h.waiting⟩
    split
    · -- 試行が尽きれば dead letter に移し、そうでなければ同じ id で入れ直す。
      unfold fail
      split
      · refine hs.next henv (consistent_exec env.cjson hs.consistent (.moveToDeadLetterQueue ..)) le_rfl
          (fun _ _ hi => .inl (items_moveToDeadLetterQueue hi)) (fun _ _ hg => .inl hg) ?_
        exact fun q' hq' => .inl (List.mem_of_mem_erase hq')
      · refine hs.next henv (consistent_exec env.cjson hs.consistent (.enqueueItem ..))
          (Nat.le_succ _) ?_ (fun _ _ hg => .inl hg)
          (fun q' hq' => .inl (List.mem_of_mem_erase hq'))
        intro id' item' hi
        rcases get_set_cases hi with hold | rfl
        · exact .inl hold
        · exact .inr ⟨Nat.lt_succ_self _, rfl⟩
    · exact hs

end Structure

/-! ## 待っている世代の保存 -/

section Kept

variable {env : Env P} {h : History P}

theorem kept_empty : Kept (History.empty : History P) := fun id item availableAt hg => by cases hg

/-- id `n` の外を変えない操作は、`n` に世代が待っていなければ `Kept` を保つ。 -/
theorem Kept.of_untouched (hk : Kept h) {n : String} {s' : State P}
    (hs' : ∀ id, id ≠ n → s'.store.items.get id = h.state.store.items.get id ∧
      s'.store.queue.score? id = h.state.store.queue.score? id)
    (hn : h.waiting n = none) : Kept ⟨s', h.waiting⟩ := by
  intro id item availableAt hg
  have hne : id ≠ n := by
    rintro rfl
    rw [hn] at hg
    cases hg
  obtain ⟨hitems, hscore⟩ := hs' id hne
  show s'.store.items.get id = _ ∧ s'.store.queue.score? id = _
  rw [hitems, hscore]
  exact hk id item availableAt hg

theorem Kept.enqueueItem (hk : Kept h) {id : String} {item : Item P} {availableAt : ℚ}
    {p : List (QueueItem P)} {n : ℕ} : Kept ⟨⟨enqueueItem id availableAt item h.state.store, p, n⟩,
      Function.update h.waiting id (some (item, availableAt))⟩ := by
  intro id' item' availableAt' hg
  show ((h.state.store.items.set id item).get id' = some item') ∧
    ((h.state.store.queue.add id availableAt).score? id' = some availableAt')
  rw [JsMap.get_set, SortedSet.score?_add]
  by_cases hid : id' = id
  · rw [if_pos hid, if_pos hid]
    change Function.update h.waiting id (some (item, availableAt)) id' = _ at hg
    rw [hid, Function.update_self] at hg
    cases hg
    exact ⟨rfl, rfl⟩
  · rw [if_neg hid, if_neg hid]
    change Function.update h.waiting id (some (item, availableAt)) id' = _ at hg
    rw [Function.update_of_ne hid] at hg
    exact hk id' item' availableAt' hg

theorem Kept.dequeue (hk : Kept h) {now : ℚ} {count : Int} {p : List (QueueItem P)} {n : ℕ} :
    Kept ⟨⟨(dequeueItems env.cjson now count h.state.store).2, p, n⟩,
      h.note env (.dequeue now count)⟩ := by
  intro id item availableAt hg
  change (if id ∈ taken env now count h.state.store then none else h.waiting id) = _ at hg
  split at hg
  · cases hg
  · next hid =>
    obtain ⟨hi, hx⟩ := hk id item availableAt hg
    refine ⟨?_, ?_⟩
    · show (dequeueItems env.cjson now count h.state.store).2.items.get id = _
      rw [dequeueItems, items_dequeueLoop]
      exact hi
    · rw [← hx]
      exact score_dequeueLoop _ hi hid

/-- 違う世代の key を渡した `ack` は何もしない。 -/
theorem ackItem_of_ne (henv : env.Lawful) {s : Store P} {id : String} {item : Item P} {m m' : ℕ}
    (hget : s.items.get id = some item) (hc : env.cjson item ≠ none)
    (hkey : item.deduplicationKey = some (env.nanoid m')) (hne : m' ≠ m) :
    (ackItem env.cjson id (env.nanoid m) s).2 = s := by
  obtain ⟨parsed, hparsed⟩ := Option.ne_none_iff_exists'.mp hc
  unfold ackItem
  rw [hget]
  simp only [hparsed, Option.any_some]
  rw [if_pos]
  unfold Item.mismatches
  rw [henv.cjson_key _ _ hparsed, hkey]
  simp [henv.nanoid_ne_empty m, henv.nanoid_injective.ne hne]

/-- 待っている世代の id への `ack` は、その世代を cjson が読めるなら断られる。 -/
theorem ackItem_waiting (henv : env.Lawful) (hs : Structured env h) (hk : Kept h) {q : QueueItem P}
    (hq : q ∈ h.state.processing) {g : Item P × ℚ} (hg : h.waiting q.id = some g)
    (hc : env.cjson g.1 ≠ none) :
    (ackItem env.cjson q.id (q.deduplicationKey.getD "") h.state.store).2 = h.state.store := by
  obtain ⟨m, -, hqkey⟩ := hs.running q hq
  obtain ⟨m', -, hgkey⟩ := hs.waiting q.id g hg
  have hne : m' ≠ m := by
    intro heq
    refine hs.distinct q hq g hg ?_
    rw [hgkey, hqkey, heq]
  rw [hqkey]
  exact ackItem_of_ne henv (hk q.id g.1 g.2 hg).1 hc hgkey hne

theorem items_ackItem_of_cjson_none (env : Env P) (key : String) {s : Store P} {id : String}
    {item : Item P}
    (hi : s.items.get id = some item) (hc : env.cjson item = none) :
    (ackItem env.cjson id key s).2.items.get id = none := by
  unfold ackItem
  rw [hi]
  simp only [hc, Option.any_none]
  rw [if_neg (by simp)]
  show (s.items.delete id).get id = none
  rw [JsMap.get_delete, if_pos rfl]

theorem ackItem_frame {s : Store P} {n key id : String} (hid : id ≠ n) :
    (ackItem env.cjson n key s).2.items.get id = s.items.get id ∧
      (ackItem env.cjson n key s).2.queue.score? id = s.queue.score? id := by
  unfold ackItem
  split
  · exact ⟨rfl, rfl⟩
  · split
    · exact ⟨rfl, rfl⟩
    · refine ⟨?_, ?_⟩
      · show (s.items.delete n).get id = _
        rw [JsMap.get_delete, if_neg hid]
      · show (s.queue.rem n).score? id = _
        rw [SortedSet.score?_rem, if_neg hid]

theorem moveToDeadLetterQueue_frame {s : Store P} {now : ℚ} {n message id : String} (hid : id ≠ n) :
    (moveToDeadLetterQueue env.cjson now n message s).2.items.get id = s.items.get id ∧
      (moveToDeadLetterQueue env.cjson now n message s).2.queue.score? id = s.queue.score? id := by
  unfold moveToDeadLetterQueue
  split
  · exact ⟨rfl, rfl⟩
  · split
    · exact ⟨rfl, rfl⟩
    · refine ⟨?_, ?_⟩
      · show (s.items.delete n).get id = _
        rw [JsMap.get_delete, if_neg hid]
      · show (s.queue.rem n).score? id = _
        rw [SortedSet.score?_rem, if_neg hid]

/-- dead letter への移動は、cjson が読めない item には何もせず、読める item は `items` から消す。 -/
theorem moveToDeadLetterQueue_cases (env : Env P) (now : ℚ) (message : String) {s : Store P}
    {id : String} {item : Item P}
    (hi : s.items.get id = some item) :
    (env.cjson item = none ∧ (moveToDeadLetterQueue env.cjson now id message s).2 = s) ∨
      (env.cjson item ≠ none ∧
        (moveToDeadLetterQueue env.cjson now id message s).2.items.get id = none) := by
  unfold moveToDeadLetterQueue
  rw [hi]
  rcases hc : env.cjson item with _ | parsed
  · exact .inl ⟨rfl, by simp [hc]⟩
  · refine .inr ⟨by simp, ?_⟩
    simp only [hc]
    rw [JsMap.get_delete, if_pos rfl]

theorem enqueueItem_frame {s : Store P} {n id : String} {x : ℚ} {item : Item P} (hid : id ≠ n) :
    (enqueueItem n x item s).items.get id = s.items.get id ∧
      (enqueueItem n x item s).queue.score? id = s.queue.score? id := by
  refine ⟨?_, ?_⟩
  · show (s.items.set n item).get id = _
    rw [JsMap.get_set, if_neg hid]
  · show (s.queue.add n x).score? id = _
    rw [SortedSet.score?_add, if_neg hid]

variable [DecidableEq P]

theorem kept_succeed_iff (henv : env.Lawful) (hs : Structured env h) (hk : Kept h) {q : QueueItem P}
    (hq : q ∈ h.state.processing) : Kept ⟨succeed env q h.state, h.waiting⟩ ↔
      ∀ g, h.waiting q.id = some g → env.cjson g.1 ≠ none := by
  constructor
  · intro hafter g hg hc
    have hi := (hafter q.id g.1 g.2 hg).1
    have hnone := items_ackItem_of_cjson_none env (q.deduplicationKey.getD "")
      (hk q.id g.1 g.2 hg).1 hc
    exact absurd (hi.symm.trans hnone) (by simp)
  · intro hclean
    rcases hw : h.waiting q.id with _ | g
    · exact hk.of_untouched (fun id hid => ackItem_frame hid) hw
    · have hsame := ackItem_waiting henv hs hk hq hw (hclean g hw)
      intro id item availableAt hg
      show (ackItem _ _ _ _).2.items.get id = _ ∧ (ackItem _ _ _ _).2.queue.score? id = _
      rw [hsame]
      exact hk id item availableAt hg

theorem kept_fail_iff (henv : env.Lawful) (hs : Structured env h) (hk : Kept h) {q : QueueItem P}
    {now random : ℚ} {message : String} : Kept ⟨fail env q now random message h.state, h.waiting⟩ ↔
      match retryDelay env q random with
      | none => ∀ g, h.waiting q.id = some g → env.cjson g.1 = none
      | some _ => h.waiting q.id = none := by
  unfold fail
  cases retryDelay env q random with
  | none =>
    constructor
    · intro hafter g hg
      rcases moveToDeadLetterQueue_cases env now message
        (hk q.id g.1 g.2 hg).1 with ⟨hc, -⟩ | ⟨-, hnone⟩
      · exact hc
      · have hi := (hafter q.id g.1 g.2 hg).1
        exact absurd (hi.symm.trans hnone) (by simp)
    · intro hclean
      rcases hw : h.waiting q.id with _ | g
      · exact hk.of_untouched (fun id hid => moveToDeadLetterQueue_frame hid) hw
      · intro id item availableAt hg
        rcases moveToDeadLetterQueue_cases env now message
          (hk q.id g.1 g.2 hw).1 with ⟨-, hsame⟩ | ⟨hc, -⟩
        · show (moveToDeadLetterQueue _ _ _ _ _).2.items.get id = _ ∧
            (moveToDeadLetterQueue _ _ _ _ _).2.queue.score? id = _
          rw [hsame]
          exact hk id item availableAt hg
        · exact absurd (hclean g hw) hc
  | some delay =>
    constructor
    · intro hafter
      rcases hw : h.waiting q.id with _ | g
      · rfl
      · -- 書き込まれた item の key はこの一歩で作られたので、待っていた世代の key ではあり得ない
        have hi := (hafter q.id g.1 g.2 hw).1
        have hkey : g.1.deduplicationKey = some (env.nanoid h.state.nanoids) := by
          change (h.state.store.items.set q.id _).get q.id = some g.1 at hi
          rw [JsMap.get_set_self] at hi
          rw [← Option.some.inj hi]
        exact absurd hkey ((hs.waiting q.id g hw).ne_next henv)
    · intro hw
      exact hk.of_untouched (fun id hid => enqueueItem_frame hid) hw

/-- **一歩の後も世代が残るのは、その一歩が `Clean` であるとき、かつそのときに限る。** -/
theorem kept_step_iff (henv : env.Lawful) (hs : Structured env h) (hk : Kept h) (l : Label P) :
    Kept (h.step env l) ↔ Clean env h l := by
  cases l with
  | enqueue id job item availableAt v key =>
    refine ⟨fun _ => trivial, fun _ => ?_⟩
    cases key with
    | none =>
      show Kept ⟨⟨_, _, _⟩, h.note env (.enqueue id job item availableAt v none)⟩
      simp only [History.note, Option.any_none]
      exact hk.enqueueItem
    | some key =>
      show Kept ⟨⟨enqueueItemWithCancellationKey key _ _ _ h.state.store, _, _⟩,
        h.note env (.enqueue id job item availableAt v (some key))⟩
      simp only [History.note, Option.any_some, decide_eq_true_eq]
      unfold enqueueItemWithCancellationKey
      -- 取り消し済みの key なら、何も加わらない
      by_cases hmem : key ∈ h.state.store.cancellationKeys
      · rw [if_pos hmem, if_pos hmem]
        exact hk
      · rw [if_neg hmem, if_neg hmem]
        exact hk.enqueueItem
  | enqueueOnce id job item availableAt v =>
    refine ⟨fun _ => trivial, fun _ => ?_⟩
    show Kept ⟨⟨(enqueueItemOnce id availableAt _ h.state.store).2, _, _⟩,
      h.note env (.enqueueOnce id job item availableAt v)⟩
    simp only [History.note]
    unfold enqueueItemOnce zaddNX
    cases hget : h.state.store.items.get id with
    | none =>
      simp only [hs.consistent.live.score_none hget, if_true]
      exact hk.enqueueItem
    | some old => exact hk
  | cancel key => exact ⟨fun _ => trivial, fun _ => hk⟩
  | dequeue now count => exact ⟨fun _ => trivial, fun _ => hk.dequeue⟩
  | succeed q =>
    show Kept ⟨if q ∈ h.state.processing then succeed env q h.state else h.state, h.waiting⟩ ↔
      (q ∈ h.state.processing → _)
    by_cases hq : q ∈ h.state.processing
    · rw [if_pos hq]
      exact (kept_succeed_iff henv hs hk hq).trans ⟨fun hc _ => hc, fun hc => hc hq⟩
    · rw [if_neg hq]
      exact ⟨fun _ hmem => absurd hmem hq, fun _ => hk⟩
  | fail q now random message =>
    show Kept ⟨if q ∈ h.state.processing then fail env q now random message h.state else h.state,
      h.waiting⟩ ↔ (q ∈ h.state.processing → _)
    by_cases hq : q ∈ h.state.processing
    · rw [if_pos hq]
      exact (kept_fail_iff henv hs hk).trans ⟨fun hc _ => hc, fun hc => hc hq⟩
    · rw [if_neg hq]
      exact ⟨fun _ hmem => absurd hmem hq, fun _ => hk⟩

/--
**空の queue から始まるどの実行でも、待っている世代がどの時点でも残っているのは、どの一歩も `Clean` で
あるとき、かつそのときに限る。**
-/
theorem generations_kept_iff (henv : env.Lawful) (ls : List (Label P)) :
    Machine.Throughout (History.step env) Kept History.empty ls ↔
      Machine.Along (History.step env) (Clean env) History.empty ls :=
  Machine.throughout_iff_along (I := Structured env) (fun _ l hs => structure_step henv hs l)
    (fun _ l hs hk => kept_step_iff henv hs hk l) structured_empty kept_empty

end Kept

/-! ### 失われる実行 -/

/-- 長さの違う文字列を順に返す nanoid と、何も変えない cjson と schema。 -/
def sampleEnv (maxAttempts : ℕ) : Env ℕ where
  nanoid n := String.ofList (List.replicate (n + 1) 'x')
  cjson := some
  schema _ p := some p
  retry _ := { defaultRetrySettings with maxAttempts := maxAttempts }

theorem sampleEnv_lawful (maxAttempts : ℕ) : (sampleEnv maxAttempts).Lawful where
  nanoid_injective := by
    intro n m h
    have hl : List.replicate (n + 1) 'x' = List.replicate (m + 1) 'x' := String.ofList_injective h
    have := congrArg List.length hl
    simpa using this
  nanoid_ne_empty := by
    intro n h
    have hl : List.replicate (n + 1) 'x' = [] := String.ofList_injective h
    simp at hl
  cjson_key := by
    intro item item' h
    cases h
    rfl

/-- 世代 1 が取り出されてから終わるまでに、producer が世代 2 を enqueue する。 -/
def supersededRun (finish : QueueItem ℕ → Label ℕ) : List (Label ℕ) :=
  [.enqueue "a" "job" 1 0 10 none, .dequeue 0 1, .enqueue "a" "job" 2 5 10 none,
    finish ⟨"a", "job", 1, 10, 0, 0, some "x"⟩]

/-- 再試行が残っていれば世代 1 が世代 2 を上書きし、残っていなければ世代 2 が dead letter queue へ移る。 -/
theorem generation_lost :
    (¬ Machine.Throughout (History.step (sampleEnv 12)) Kept History.empty
      (supersededRun fun q => .fail q 1 0 "error")) ∧
    ¬ Machine.Throughout (History.step (sampleEnv 1)) Kept History.empty
      (supersededRun fun q => .fail q 1 0 "error") := by
  constructor
  · intro h
    have hkept := h.last "a" ⟨"job", 2, 10, none, some "xx", none⟩ 5 (by decide +kernel)
    exact absurd hkept.1 (by decide +kernel)
  · intro h
    have hkept := h.last "a" ⟨"job", 2, 10, none, some "xx", none⟩ 5 (by decide +kernel)
    exact absurd hkept.1 (by decide +kernel)

theorem generations_kept_iff_acked :
    Machine.Throughout (History.step (sampleEnv 12)) Kept History.empty
      (supersededRun fun q => .succeed q) :=
  (generations_kept_iff (sampleEnv_lawful 12) _).mpr
    ⟨trivial, trivial, trivial, fun _ g _ => by simp [sampleEnv], trivial⟩

end Worker
