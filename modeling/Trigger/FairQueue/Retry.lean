import Trigger.FairQueue.Slots
import Trigger.FairQueue.Stage

/-!
# 再試行の数え方

`failMessage` は message を queue に戻し、その後の別の command で、attempt を一つ増やした message を items に書く。
二つの間に別の consumer が message を claim すると、古い attempt のまま配られ、遅れた書き込みは queue に無い
message の payload として残る（`attempt_lost`）。

どの配達も `failMessage` で終わり、claim がこの間に入らない実行では、message は高々 `maxAttempts` 回配られて dead
letter queue に入り、queue に無い message の payload は残らない（`retries_exact`）。
-/

namespace FairQueue

open Infra Infra.Keyspace
open Infra.Redis (ZSet)

variable {P : Type}

/-! ## retry strategy -/

/-- `RetryStrategy`。`none` は dead letter queue に送る。 -/
structure RetryStrategy where
  maxAttempts : Nat
  getNextDelay : Nat → Option String → Option ℚ

namespace RetryStrategy

/-- `attempt >= maxAttempts` なら `null`、そうでなければ `delay` の値を返す。 -/
def upTo (maxAttempts : Nat) (delay : Nat → Option String → Option ℚ) : RetryStrategy where
  maxAttempts := maxAttempts
  getNextDelay attempt error := if maxAttempts ≤ attempt then none else delay attempt error

/-- 上限より前の attempt にだけ delay を返す。 -/
def Exact (r : RetryStrategy) : Prop :=
  ∀ attempt error, 1 ≤ attempt →
    ((r.getNextDelay attempt error).isSome = true ↔ attempt < r.maxAttempts)

theorem exact_upTo_iff {n : Nat} {delay : Nat → Option String → Option ℚ} :
    (upTo n delay).Exact ↔
      ∀ attempt error, 1 ≤ attempt → attempt < n → (delay attempt error).isSome = true := by
  refine forall₂_congr fun attempt error => imp_congr_right fun _ => ?_
  by_cases hle : n ≤ attempt
  · simp [upTo, hle]
  · have hlt : attempt < n := Nat.lt_of_not_le hle
    simp [upTo, hle, hlt]

end RetryStrategy

/-- `calculateNextRetryDelay` は乱数を使うので、関数として与える。 -/
def ExponentialBackoffRetry (maxAttempts : Nat) (calculateNextRetryDelay : Nat → Option ℚ) :
    RetryStrategy :=
  .upTo maxAttempts fun attempt _ => calculateNextRetryDelay attempt

def FixedDelayRetry (maxAttempts : Nat) (delayMs : ℚ) : RetryStrategy :=
  .upTo maxAttempts fun _ _ => some delayMs

def LinearBackoffRetry (maxAttempts : Nat) (baseDelayMs : ℚ) (maxDelayMs : Option ℚ) :
    RetryStrategy :=
  .upTo maxAttempts fun attempt _ =>
    some (min (baseDelayMs * attempt) (maxDelayMs.getD (baseDelayMs * maxAttempts)))

def NoRetry : RetryStrategy where
  maxAttempts := 1
  getNextDelay _ _ := none

def ImmediateRetry (maxAttempts : Nat) : RetryStrategy := .upTo maxAttempts fun _ _ => some 0

def CustomRetry (maxAttempts : Nat) (calculateDelay : Nat → Option String → Option ℚ) :
    RetryStrategy :=
  .upTo maxAttempts calculateDelay

/--
値を計算する三つの strategy と `NoRetry` は、上限より前の attempt にだけ delay を返す。同じ上限の
`calculateNextRetryDelay` を使う `ExponentialBackoffRetry` もそうである。`CustomRetry` がそうであるのは、与えた関数が上限
より前で `null` を返さないとき、そのときに限る。
-/
theorem exact_strategies (n : Nat) (delayMs baseDelayMs : ℚ) (maxDelayMs : Option ℚ) :
    (FixedDelayRetry n delayMs).Exact ∧ (LinearBackoffRetry n baseDelayMs maxDelayMs).Exact ∧
      (ImmediateRetry n).Exact ∧ NoRetry.Exact ∧
      (∀ calculateNextRetryDelay : Nat → Option ℚ,
        (∀ attempt, (calculateNextRetryDelay attempt).isSome = true ↔ attempt < n) →
          (ExponentialBackoffRetry n calculateNextRetryDelay).Exact) ∧
      ∀ calculateDelay, (CustomRetry n calculateDelay).Exact ↔
        ∀ attempt error, 1 ≤ attempt → attempt < n →
          (calculateDelay attempt error).isSome = true := by
  refine ⟨RetryStrategy.exact_upTo_iff.mpr ?_, RetryStrategy.exact_upTo_iff.mpr ?_,
    RetryStrategy.exact_upTo_iff.mpr ?_, ?_, fun delay hdelay => ?_, fun _ => ?_⟩
  · exact fun _ _ _ _ => rfl
  · exact fun _ _ _ _ => rfl
  · exact fun _ _ _ _ => rfl
  · intro attempt error h
    simp [NoRetry]
    omega
  · exact RetryStrategy.exact_upTo_iff.mpr fun attempt _ _ hlt => (hdelay attempt).mpr hlt
  · exact RetryStrategy.exact_upTo_iff

/-! ## 実行の条件 -/

/-- label が入れる message と、その queue。 -/
def Label.enqueues : Label P → List (String × String)
  | .enqueue _ queueId _ messageId .. => [(messageId, queueId)]
  | .enqueueBatch _ queueId _ messages _ => messages.map fun m => (m.1, queueId)
  | _ => []

/-- 入れられた message と、その queue。 -/
def enqueued (ls : List (Label P)) : List (String × String) := ls.flatMap Label.enqueues

/-- message `m` の `failMessage` の呼び出し。 -/
def Label.fails (m : String) : Label P → Bool
  | .message _ (.fail _) m' _ => m' = m
  | _ => false

/-- message `m` が worker queue に入った回数。 -/
def deliveries (history : List (Nat × Event)) (m : String) : Nat :=
  history.countP fun e => e.2 = .pushed m

/-- message `m` を queue に戻す command。 -/
def Op.releases (m : String) : Op P → Bool
  | .release m' .. => m' = m
  | _ => false

/-- message `m` の payload を書き直す command。 -/
def Op.rewrites (m : String) : Op P → Bool
  | .hsetItems _ message => message.id = m
  | _ => false

/-- message `m` を戻した後で、payload を書き直していない。 -/
def unwritten (m : String) : List (Op P) → Bool
  | [] => false
  | op :: rest => !op.releases m && (op.rewrites m || unwritten m rest)

/-- claim が、payload を書き直していない message を取らない。 -/
def Undisturbed (s : System P) (l : Label P) : Prop :=
  ∀ op ∈ s.head? l, ∀ r ∈ op.claimRange, ∀ m ∈ takeTo r.2 (s.redis.get (.queue r.1)),
    ∀ ops ∈ s.tasks, unwritten m ops = false

instance decidableUndisturbed (s : System P) (l : Label P) : Decidable (Undisturbed s l) :=
  inferInstanceAs (Decidable (∀ op ∈ s.head? l, ∀ r ∈ op.claimRange,
    ∀ m ∈ takeTo r.2 (s.redis.get (.queue r.1)), ∀ ops ∈ s.tasks, unwritten m ops = false))

/-- message id は一度だけ使い、`failMessage` は一つの配達につき一度だけ呼ぶ。method は enqueue、consumer の claim、
`failMessage` だけである。 -/
def Admissible (options : FairQueueOptions P) (before : List (Label P)) : Label P → Prop
  | .enqueue _ _ _ messageId .. => messageId ∉ (enqueued before).map Prod.fst
  | .enqueueBatch _ _ _ messages _ =>
    (messages.map Prod.fst).Nodup ∧ ∀ m ∈ messages, m.1 ∉ (enqueued before).map Prod.fst
  | .claimAndPush .. => True
  | .message _ (.fail _) m q =>
    (m, q) ∈ enqueued before ∧
      before.countP (Label.fails m) < deliveries (System.exec options before).history m
  | .run task now => Undisturbed (System.exec options before) (.run task now)
  | _ => False

instance decidableAdmissible (options : FairQueueOptions P) (before : List (Label P)) :
    (l : Label P) → Decidable (Admissible options before l)
  | .enqueue _ _ _ messageId .. =>
    inferInstanceAs (Decidable (messageId ∉ (enqueued before).map Prod.fst))
  | .enqueueBatch _ _ _ messages _ => inferInstanceAs (Decidable ((messages.map Prod.fst).Nodup ∧
      ∀ m ∈ messages, m.1 ∉ (enqueued before).map Prod.fst))
  | .claimAndPush .. => inferInstanceAs (Decidable True)
  | .message _ (.fail _) m q => inferInstanceAs (Decidable ((m, q) ∈ enqueued before ∧
      before.countP (Label.fails m) < deliveries (System.exec options before).history m))
  | .message _ .complete .. | .message _ .release .. | .claim .. | .heartbeat .. | .reclaim ..
  | .redrive .. => inferInstanceAs (Decidable False)
  | .run task now => decidableUndisturbed (System.exec options before) (.run task now)

/-- 接頭 `before` に続く `ls` の、どの一歩も条件を満たす。 -/
def Disciplined (options : FairQueueOptions P) : List (Label P) → List (Label P) → Prop
  | _, [] => True
  | before, l :: ls => Admissible options before l ∧ Disciplined options (before ++ [l]) ls

instance decidableDisciplined (options : FairQueueOptions P) :
    ∀ before ls : List (Label P), Decidable (Disciplined options before ls)
  | _, [] => inferInstanceAs (Decidable True)
  | before, l :: ls =>
    have := decidableDisciplined options (before ++ [l]) ls
    inferInstanceAs (Decidable (Admissible options before l ∧ Disciplined options (before ++ [l]) ls))

theorem disciplined_append {options : FairQueueOptions P} : ∀ {before ls ls' : List (Label P)},
    Disciplined options before (ls ++ ls') ↔
      Disciplined options before ls ∧ Disciplined options (before ++ ls) ls'
  | before, [], ls' => by simp [Disciplined]
  | before, l :: ls, ls' => by
    simp only [List.cons_append, Disciplined, disciplined_append, and_assoc, List.append_assoc,
      List.nil_append]

/-! ## 不変条件 -/

section Pending

variable {m : String} {L : List (Op P)}

/-- payload を書き直す command が残っている task では、書き直しの前である。 -/
theorem unwritten_of_filter {q : String} {st : StoredMessage P} (hst : st.id = m) :
    ∀ {ops : List (Op P)}, ops.filter (Op.about m) = [.hsetItems q st] → unwritten m ops = true
  | [], h => by cases h
  | op :: rest, h => by
    by_cases hop : op.about m = true
    · rw [List.filter_cons_of_pos hop] at h
      obtain ⟨rfl, -⟩ := List.cons.inj h
      simp [unwritten, Op.releases, Op.rewrites, hst]
    · rw [List.filter_cons_of_neg hop] at h
      have hrel : op.releases m = false := by
        cases op with
        | release m' q delay => simpa [Op.about, Op.releases] using hop
        | _ => rfl
      simp [unwritten, hrel, unwritten_of_filter hst h]

end Pending

/-- message `m` は、まだ入れられていないか、ある queue に入れられて段階にある。引数は順に、配達の回数、
`failMessage` の回数、view、task ごとの残りの command。 -/
def Located (options : FairQueueOptions P) (n : Nat) (m : String) (pairs : List (String × String))
    (d f : Nat) (v : View P) (p : Nat → List (Op P)) : Prop :=
  (m ∉ pairs.map Prod.fst ∧ d = 0 ∧ f = 0 ∧ v = .empty ∧ ∀ j, p j = []) ∨
    ∃ q L i, (m, q) ∈ pairs ∧ Stage options n m q d f v L ∧ ∀ j, p j = if j = i then L else []

/-- `before` を実行した状態で、どの message も段階にある。 -/
structure Staged (options : FairQueueOptions P) (n : Nat) (before : List (Label P))
    (s : System P) : Prop where
  plain : ∀ ops ∈ s.tasks, ∀ op ∈ ops, op.plain = true
  nodup : ((enqueued before).map Prod.fst).Nodup
  located : ∀ m, Located options n m (enqueued before) (deliveries s.history m)
    (before.countP (Label.fails m)) (view s.redis m) (pending s.tasks m)

section Step

variable {options : FairQueueOptions P} {n : Nat} {before : List (Label P)} {s : System P}

theorem staged_init (options : FairQueueOptions P) (n : Nat) :
    Staged options n [] (System.init : System P) :=
  ⟨by simp [System.init], by simp [enqueued],
    fun m => .inl ⟨by simp [enqueued], rfl, rfl, rfl, fun j => rfl⟩⟩

theorem Located.append {m : String} {pairs new : List (String × String)} {d f : Nat} {v : View P}
    {p : Nat → List (Op P)} (h : Located options n m pairs d f v p)
    (hnew : m ∉ new.map Prod.fst) : Located options n m (pairs ++ new) d f v p := by
  rcases h with ⟨h, hrest⟩ | ⟨q, L, i, hq, h⟩
  · refine .inl ⟨?_, hrest⟩
    rw [List.map_append, List.mem_append]
    exact not_or.mpr ⟨h, hnew⟩
  · exact .inr ⟨q, L, i, List.mem_append_left _ hq, h⟩

theorem pending_start_of_filter {tasks : List (List (Op P))} {m : String} {ops : List (Op P)}
    (hops : ops.filter (Op.about m) = []) : pending (tasks ++ [ops]) m = pending tasks m := by
  funext j
  rw [pending_start, hops]
  split
  · next h => rw [h, pending_length]
  · rfl

/-- method を始めても、それに関わらない message には何も起きない。 -/
theorem Staged.located_start (h : Staged options n before s) {l : Label P}
    {ops : List (Op P)} {m : String} (hnew : m ∉ l.enqueues.map Prod.fst)
    (hfails : l.fails m = false) (hops : ops.filter (Op.about m) = []) :
    Located options n m (enqueued (before ++ [l])) (deliveries s.history m)
      ((before ++ [l]).countP (Label.fails m)) (view s.redis m) (pending (s.tasks ++ [ops]) m) := by
  rw [pending_start_of_filter hops, List.countP_append,
    List.countP_singleton, hfails, enqueued, List.flatMap_append]
  exact (h.located m).append (by simpa [List.flatMap_cons] using hnew)

theorem plain_start (h : Staged options n before s) {ops : List (Op P)}
    (hops : ∀ op ∈ ops, op.plain = true) :
    ∀ ops' ∈ s.tasks ++ [ops], ∀ op ∈ ops', op.plain = true := by
  intro ops' hops'
  rcases List.mem_append.mp hops' with hops' | hops'
  · exact h.plain ops' hops'
  · rw [List.mem_singleton.mp hops']
    exact hops

/-- まだ入れられていない message を入れる method を始める。 -/
theorem Staged.located_enter (h : Staged options n before s) {l : Label P} {op : Op P} {m : String}
    (q : String) (hfresh : m ∉ (enqueued before).map Prod.fst) (hnew : (m, q) ∈ l.enqueues)
    (hfails : l.fails m = false) (hop : op.about m = true)
    (hstage : Stage options n m q 0 0 .empty [op]) :
    Located options n m (enqueued (before ++ [l])) (deliveries s.history m)
      ((before ++ [l]).countP (Label.fails m)) (view s.redis m) (pending (s.tasks ++ [[op]]) m) := by
  rw [List.countP_append, List.countP_singleton, hfails, enqueued, List.flatMap_append]
  rcases h.located m with ⟨-, hd, hf, hv, hp⟩ | ⟨q', L, i, hq', -⟩
  · rw [hd, hf, hv]
    refine .inr ⟨q, _, s.tasks.length, List.mem_append_right _ (by simpa using hnew), hstage,
      fun j => ?_⟩
    rw [pending_start, hp, List.filter_cons_of_pos hop, List.filter_nil]
  · exact absurd (List.mem_map_of_mem hq') hfresh

/-- 配達の数が `failMessage` の数より多い message は、in-flight にあって、何も残っていない。 -/
theorem Stage.of_lt {m q : String} {d f : Nat} {v : View P} {L : List (Op P)}
    (h : Stage options n m q d f v L) (hlt : f < d) :
    L = [] ∧ ∀ inst error,
      Stage options n m q d (f + 1) v [.getMessage inst (.fail error) m q] := by
  cases h with
  | delivered d st hst hd => exact ⟨rfl, fun inst error => .failing f st hst hd inst error⟩
  | _ => exact absurd hlt (lt_irrefl _)

/-- 配達された message の `failMessage` を始める。 -/
theorem Staged.located_fail (h : Staged options n before s) {inst : Nat} {error : Option String}
    {m q : String} (hmem : (m, q) ∈ enqueued before)
    (hlt : before.countP (Label.fails m) < deliveries s.history m) :
    Located options n m (enqueued (before ++ [Label.message inst (.fail error) m q]))
      (deliveries s.history m)
      ((before ++ [Label.message inst (.fail error) m q]).countP (Label.fails m)) (view s.redis m)
      (pending (s.tasks ++ [[Op.getMessage inst (.fail error) m q]]) m) := by
  have hfails : (Label.message inst (.fail error) m q : Label P).fails m = true := decide_eq_true rfl
  rw [List.countP_append, List.countP_singleton, hfails, if_pos rfl, enqueued, List.flatMap_append]
  rcases h.located m with ⟨-, hd, hf, -⟩ | ⟨q', L, i, hq', hstage, hp⟩
  · omega
  · obtain rfl : q' = q := congrArg Prod.snd (List.inj_on_of_nodup_map h.nodup hq' hmem rfl)
    obtain ⟨rfl, hfailing⟩ := hstage.of_lt hlt
    refine .inr ⟨q', _, s.tasks.length, List.mem_append_left _ hmem, hfailing inst error,
      fun j => ?_⟩
    rw [pending_start, hp j, ite_self]
    split
    · exact List.filter_cons_of_pos (decide_eq_true rfl)
    · rfl

theorem deliveries_advance (task : Nat) (now : ℚ) (op : Op P) (rest : List (Op P)) (m : String) :
    deliveries (s.advance options task now op rest).history m =
      deliveries s.history m + ((op.prog options s.cache now).run s.redis).1.pushes m := by
  simp only [deliveries, System.advance, List.countP_append, Outcome.pushes]
  rcases ((op.prog options s.cache now).run s.redis).1.event with _ | e
  · simp
  · simp [List.countP_singleton]

theorem pending_advance (options : FairQueueOptions P) {task : Nat} (now : ℚ) {op : Op P}
    {rest : List (Op P)} (htask : s.tasks[task]? = some (op :: rest)) (m : String) (j : Nat) :
    pending (s.advance options task now op rest).tasks m j =
      if j = task then ((op.prog options s.cache now).run s.redis).1.pending m
        (rest.filter (Op.about m))
      else pending s.tasks m j := by
  simp only [System.advance]
  rw [pending_set (List.getElem?_eq_some_iff.mp htask).1]
  simp only [List.filter_append, Outcome.pending]

/-- in-flight の data の id は、その message の id である。 -/
theorem Stage.data_id {m q : String} {d f : Nat} {v : View P} {L : List (Op P)} {inst : Nat}
    {error : Option String} {q' : String} {message : StoredMessage P}
    (h : Stage options n m q d f v L) (hL : .getMessage inst (.fail error) m q' ∈ L)
    (hdata : v.data (options.shardOf q') = some (.message message)) : message.id = m := by
  cases h with
  | failing d st hst hd inst' error' =>
    obtain ⟨-, -, -, rfl⟩ : inst = inst' ∧ error = error' ∧ m = m ∧ q' = q := by simpa using hL
    simp only [View.inFlight, Function.update_self, Option.some.injEq, Stored.message.injEq] at hdata
    rw [← hdata, hst.id]
  | claimed d st hst hd op hop =>
    rw [← List.mem_singleton.mp hL] at hop
    cases hop
  | _ => simp at hL

variable {task : Nat} {now : ℚ} {op : Op P} {rest : List (Op P)}

theorem Staged.data_id (h : Staged options n before s)
    (htask : s.tasks[task]? = some (op :: rest)) {inst : Nat} {error : Option String}
    {m' q : String} {message : StoredMessage P} (hop : op = .getMessage inst (.fail error) m' q)
    (hdata : JsMap.get (s.redis.get (.inflightData (options.shardOf q))) m' =
      some (.message message)) : message.id = m' := by
  have hmem : .getMessage inst (.fail error) m' q ∈ pending s.tasks m' task := by
    rw [pending_of_getElem? htask, hop]
    exact List.mem_filter.mpr ⟨List.mem_cons_self, decide_eq_true rfl⟩
  rcases h.located m' with ⟨-, -, -, -, hp⟩ | ⟨q', L, i, -, hstage, hp⟩
  · rw [hp] at hmem
    cases hmem
  · rw [hp] at hmem
    split at hmem
    · exact hstage.data_id hmem hdata
    · cases hmem

/-- claim が取る message は、queue に入れられた後の、何も残っていない段階にある。 -/
theorem Located.of_queued {m q : String} {pairs : List (String × String)} {d f : Nat}
    {v : View P} {tasks : List (List (Op P))}
    (h : Located options n m pairs d f v (pending tasks m)) (hq : v.queued q = true)
    (hwritten : ∀ ops ∈ tasks, unwritten m ops = false) :
    (m, q) ∈ pairs ∧ Stage options n m q d f v [] ∧ ∀ j, pending tasks m j = [] := by
  rcases h with ⟨-, -, -, rfl, -⟩ | ⟨q', L, i, hmem, hstage, hp⟩
  · cases hq
  · obtain ⟨rfl, rfl | ⟨st, hst, rfl⟩⟩ := hstage.queued_cases hq
    · exact ⟨hmem, hstage, fun j => by rw [hp j, ite_self]⟩
    · have hi : pending tasks m i = [.hsetItems q st] := by rw [hp i, if_pos rfl]
      rcases htask : tasks[i]? with _ | ops
      · simp [pending, htask] at hi
      · have := hwritten ops (List.mem_of_getElem? htask)
        rw [unwritten_of_filter hst ((pending_of_getElem? htask).symm.trans hi)] at this
        cases this

/-- **一つの command の後も、どの message も段階にある。** -/
theorem Staged.located_advance (hn : 0 < n) (hretry : Retries options n)
    (hdlq : options.deadLetterQueue = true) (h : Staged options n before s)
    (htask : s.tasks[task]? = some (op :: rest)) (hund : Undisturbed s (.run task now)) (m : String) :
    Located options n m (enqueued before)
      (deliveries (s.advance options task now op rest).history m)
      (before.countP (Label.fails m)) (view (s.advance options task now op rest).redis m)
      (pending (s.advance options task now op rest).tasks m) := by
  have hplain : op.plain = true :=
    h.plain _ (List.mem_of_getElem? htask) op List.mem_cons_self
  have hhead : op ∈ s.head? (.run task now) := by simp [System.head?, htask]
  have hpend : pending s.tasks m task = (op :: rest).filter (Op.about m) :=
    pending_of_getElem? htask
  rw [deliveries_advance, show (s.advance options task now op rest).redis =
    ((op.prog options s.cache now).run s.redis).2 from rfl]
  have hadv := pending_advance options now htask m
  generalize hr : (op.prog options s.cache now).run s.redis = r at hadv ⊢
  -- command が `m` を扱うか、取るか、関わらないかで分ける
  by_cases hop : op.about m = true
  · rw [List.filter_cons_of_pos hop] at hpend
    rcases h.located m with ⟨-, -, -, -, hp⟩ | ⟨q, L, i, hmem, hstage, hp⟩
    · rw [hp] at hpend
      cases hpend
    · rw [hp] at hpend
      split at hpend
      · next heq =>
        subst heq hpend
        refine .inr ⟨q, _, task, hmem, hstage.advance s.cache now hn hretry hdlq hr, fun j => ?_⟩
        rw [hadv]
        split
        · rfl
        · next hj => rw [hp, if_neg hj]
      · cases hpend
  · rw [List.filter_cons_of_neg hop] at hpend
    by_cases htake : ∃ g ∈ op.claimRange, m ∈ takeTo g.2 (s.redis.get (.queue g.1))
    · obtain ⟨g, hg, hm⟩ := htake
      have hqueued : (view s.redis m).queued g.1 = true :=
        Option.isSome_iff_ne_none.mpr (score?_of_mem_takeTo hm)
      obtain ⟨hmem, hstage, hp⟩ :=
        (h.located m).of_queued hqueued fun ops hops => hund op hhead g hg m hm ops hops
      rw [hp] at hpend
      cases op with
      | claimBatch call maxCount =>
        obtain rfl := Option.some.inj hg
        refine .inr ⟨_, _, task, hmem, hstage.claim s.cache now hm hr, fun j => ?_⟩
        rw [hadv, ← hpend, hp]
      | claim q timeoutMs => cases hplain
      | _ => cases hg
    · have hfree : ∀ g ∈ op.claimRange, m ∉ takeTo g.2 (s.redis.get (.queue g.1)) :=
        fun g hg hm => htake ⟨g, hg, hm⟩
      obtain ⟨hfront, hback, hevent⟩ := (op.yields options s.cache now s.redis).quiet hplain
        (Bool.eq_false_iff.mpr hop) hfree fun _ _ _ _ _ hop' hdata => h.data_id htask hop' hdata
      -- 関わらない command は view も待ち列も変えない
      have hview := view_of_not_about options s.cache now (Bool.eq_false_iff.mpr hop) hfree
      rw [hr] at hfront hback hevent hview
      have hsame : pending (s.advance options task now op rest).tasks m = pending s.tasks m := by
        funext j
        rw [hadv, Outcome.pending_eq hfront hback, ← hpend]
        split
        · next hj => rw [hj]
        · rfl
      rw [Outcome.add_pushes hevent, hview, hsame]
      exact h.located m

theorem enqueued_append (before : List (Label P)) (l : Label P) :
    enqueued (before ++ [l]) = enqueued before ++ l.enqueues := by
  simp [enqueued]

/-- 新しい message を入れない label。 -/
theorem enqueued_append_of_nil {before : List (Label P)} {l : Label P} (h : l.enqueues = []) :
    enqueued (before ++ [l]) = enqueued before := by
  rw [enqueued_append, h, List.append_nil]

theorem Staged.enqueue (h : Staged options n before s) {inst : Nat}
    {queueId tenantId messageId : String} {payload : P} {timestamp : ℚ} {metadata : Option Metadata}
    (hfresh : messageId ∉ (enqueued before).map Prod.fst) :
    Staged options n
      (before ++ [Label.enqueue inst queueId tenantId messageId payload timestamp metadata])
      (s.step options (.enqueue inst queueId tenantId messageId payload timestamp metadata)) := by
  refine ⟨plain_start h (by simp [Op.plain]), ?_, fun m => ?_⟩
  · rw [enqueued_append, List.map_append]
    refine List.nodup_append.mpr ⟨h.nodup, by simp [Label.enqueues], fun a ha b hb heq => ?_⟩
    rw [heq, List.mem_singleton.mp hb] at ha
    exact hfresh ha
  · by_cases hm : messageId = m
    · subst hm
      refine h.located_enter queueId hfresh ?_ ?_ ?_ (.entering _ ⟨rfl, rfl, rfl⟩)
      · exact List.mem_cons_self
      · rfl
      · exact decide_eq_true rfl
    · refine h.located_start ?_ ?_ ?_
      · simpa [Label.enqueues] using Ne.symm hm
      · rfl
      · exact List.filter_cons_of_neg (ne_true_of_eq_false (decide_eq_false hm))

theorem Staged.enqueueBatch (h : Staged options n before s) {inst : Nat}
    {queueId tenantId : String} {messages : List (String × P × ℚ)} {metadata : Option Metadata}
    (hnodup : (messages.map Prod.fst).Nodup)
    (hfresh : ∀ m ∈ messages, m.1 ∉ (enqueued before).map Prod.fst) :
    Staged options n (before ++ [Label.enqueueBatch inst queueId tenantId messages metadata])
      (s.step options (.enqueueBatch inst queueId tenantId messages metadata)) := by
  have hids : (messages.map fun m =>
      options.storedMessage queueId tenantId m.1 m.2.1 m.2.2 metadata).map StoredMessage.id =
        messages.map Prod.fst := by
    simp [List.map_map, Function.comp_def, FairQueueOptions.storedMessage]
  have hfst : (Label.enqueueBatch inst queueId tenantId messages metadata).enqueues.map Prod.fst =
      messages.map Prod.fst := by
    simp [Label.enqueues, List.map_map, Function.comp_def]
  refine ⟨plain_start h (by simp [Op.plain]), ?_, fun m => ?_⟩
  · rw [enqueued_append, List.map_append, hfst]
    refine List.nodup_append.mpr ⟨h.nodup, hnodup, fun a ha b hb heq => ?_⟩
    obtain ⟨x, hx, rfl⟩ := List.mem_map.mp hb
    exact hfresh x hx (heq ▸ ha)
  · by_cases hm : m ∈ messages.map Prod.fst
    · obtain ⟨x, hx, rfl⟩ := List.mem_map.mp hm
      refine h.located_enter queueId (hfresh x hx) ?_ ?_ ?_ (.enteringBatch _ _ ⟨rfl, rfl, rfl⟩
        (List.mem_map_of_mem hx) (hids ▸ hnodup))
      · exact List.mem_map.mpr ⟨x, hx, rfl⟩
      · rfl
      · exact decide_eq_true (hids ▸ hm)
    · refine h.located_start (hfst ▸ hm) ?_ ?_
      · rfl
      · refine List.filter_cons_of_neg ?_
        simpa only [Op.about, hids, decide_eq_true_eq] using hm

theorem Staged.claimAndPush (h : Staged options n before s) {inst : Nat}
    {queueId tenantId : String} {shardId : Nat} :
    Staged options n (before ++ [Label.claimAndPush inst queueId tenantId shardId])
      (s.step options (.claimAndPush inst queueId tenantId shardId)) := by
  have hstart : ∃ op : Op P, s.claimStart options inst queueId tenantId shardId = [op] ∧
      op.plain = true ∧ ∀ m, op.about m = false := by
    simp only [System.claimStart]
    split
    · exact ⟨_, rfl, rfl, fun _ => rfl⟩
    · exact ⟨_, rfl, rfl, fun _ => rfl⟩
  obtain ⟨op, hops, hplain, habout⟩ := hstart
  simp only [System.step, hops]
  refine ⟨plain_start h (by simpa using hplain), ?_, fun m => ?_⟩
  · rw [enqueued_append_of_nil rfl]
    exact h.nodup
  · refine h.located_start ?_ ?_ ?_
    · exact List.not_mem_nil
    · rfl
    · exact List.filter_cons_of_neg (by simp [habout])

theorem Staged.fail (h : Staged options n before s) {inst : Nat} {error : Option String}
    {m q : String} (hmem : (m, q) ∈ enqueued before)
    (hlt : before.countP (Label.fails m) < deliveries s.history m) :
    Staged options n (before ++ [Label.message inst (.fail error) m q])
      (s.step options (.message inst (.fail error) m q)) := by
  refine ⟨plain_start h (by simp [Op.plain]), ?_, fun m' => ?_⟩
  · rw [enqueued_append_of_nil rfl]
    exact h.nodup
  · by_cases hm : m = m'
    · subst hm
      exact h.located_fail hmem hlt
    · refine h.located_start ?_ ?_ ?_
      · exact List.not_mem_nil
      · exact decide_eq_false hm
      · exact List.filter_cons_of_neg (by simpa [Op.about] using hm)

theorem Staged.run (hn : 0 < n) (hretry : Retries options n)
    (hdlq : options.deadLetterQueue = true) (h : Staged options n before s)
    (hund : Undisturbed s (.run task now)) :
    Staged options n (before ++ [Label.run task now]) (s.step options (.run task now)) := by
  have hcount : ∀ m, (before ++ [Label.run task now]).countP (Label.fails m) =
      before.countP (Label.fails m) := by
    simp [List.countP_append, Label.fails]
  have henq : enqueued (before ++ [Label.run task now]) = enqueued before :=
    enqueued_append_of_nil rfl
  rcases htask : s.tasks[task]? with _ | (_ | ⟨op, rest⟩)
  · simp only [System.step, htask]
    exact ⟨h.plain, henq ▸ h.nodup, fun m => by rw [hcount, henq]; exact h.located m⟩
  · simp only [System.step, htask]
    exact ⟨h.plain, henq ▸ h.nodup, fun m => by rw [hcount, henq]; exact h.located m⟩
  · simp only [System.step, htask]
    refine ⟨fun ops hops => ?_, henq ▸ h.nodup, fun m => ?_⟩
    · have htasks := h.plain _ (List.mem_of_getElem? htask)
      have hout := (op.yields options s.cache now s.redis).plain (htasks op List.mem_cons_self)
      rcases List.mem_or_eq_of_mem_set hops with hops | rfl
      · exact h.plain ops hops
      · intro op' hop'
        rcases List.mem_append.mp hop' with hop' | hop'
        · rcases List.mem_append.mp hop' with hop' | hop'
          · exact hout op' (List.mem_append_left _ hop')
          · exact htasks op' (List.mem_cons_of_mem _ hop')
        · exact hout op' (List.mem_append_right _ hop')
    · rw [hcount, henq]
      exact h.located_advance hn hretry hdlq htask hund m

/-- **条件を満たす一歩の後も、どの message も段階にある。** -/
theorem Staged.step (hn : 0 < n) (hretry : Retries options n)
    (hdlq : options.deadLetterQueue = true) {l : Label P}
    (h : Staged options n before (System.exec options before)) (hl : Admissible options before l) :
    Staged options n (before ++ [l]) (System.exec options (before ++ [l])) := by
  rw [System.exec_append]
  cases l with
  | enqueue inst queueId tenantId messageId payload timestamp metadata => exact h.enqueue hl
  | enqueueBatch inst queueId tenantId messages metadata => exact h.enqueueBatch hl.1 hl.2
  | claimAndPush inst queueId tenantId shardId => exact h.claimAndPush
  | message inst purpose messageId queueId =>
    cases purpose with
    | fail error => exact h.fail hl.1 hl.2
    | complete => exact hl.elim
    | release => exact hl.elim
  | run task now => exact h.run hn hretry hdlq hl
  | _ => exact hl.elim

/-- 条件を満たす実行の終わりで、どの message も段階にある。 -/
theorem staged_exec (hn : 0 < n) (hretry : Retries options n)
    (hdlq : options.deadLetterQueue = true) (ls : List (Label P))
    (h : Disciplined options [] ls) : Staged options n ls (System.exec options ls) := by
  induction ls using List.reverseRecOn with
  | nil => exact staged_init options n
  | append_singleton ls l ih =>
    obtain ⟨hls, hl, -⟩ := disciplined_append.mp h
    exact (ih hls).step hn hretry hdlq hl

/-- 段階が決めること。 -/
theorem Stage.facts {m q : String} {d f : Nat} {v : View P} {L : List (Op P)}
    (h : Stage options n m q d f v L) : d ≤ n ∧ (∀ q', v.items q' ≠ none → v.queued q' = true) ∧
      (L = [] → f = d → (d < n ∧ v.queued q = true) ∨
        (d = n ∧ (∃ t, v.dead t = true ∧ v.deadData t ≠ none) ∧ (∀ q', v.queued q' = false) ∧
          ∀ k, v.data k = none)) := by
  have hitems : ∀ (p : Stored P) q', (View.inQueue q p).items q' ≠ none →
      (View.inQueue q p).queued q' = true := by
    intro p q' hne
    refine View.queued_inQueue.mpr (by_contra fun h => hne ?_)
    simp [View.inQueue, View.enqueue, Function.update_of_ne h, View.empty]
  cases h with
  | queued d st hst hd =>
    exact ⟨hd.le, hitems _, fun _ _ => .inl ⟨hd, View.queued_inQueue.mpr rfl⟩⟩
  | released d st hst hd => exact ⟨hd.le, hitems _, fun hL => by cases hL⟩
  | delivered d st hst hd => exact ⟨hd, fun _ h => absurd rfl h, fun _ hf => by omega⟩
  | dead t dead hdead =>
    refine ⟨le_rfl, fun _ h => absurd rfl h, fun _ _ => .inr ⟨rfl, ⟨t, ?_, ?_⟩, fun _ => rfl,
      fun _ => rfl⟩⟩
    · simp [View.deadLettered, View.inDead]
    · simp [View.deadLettered]
  | _ => exact ⟨by omega, fun _ h => absurd rfl h, fun hL => by cases hL⟩

end Step

/-- **claim が、payload を書き直していない message を取らない実行では、どの時点でも、message は高々 `maxAttempts` 回
配られる。配達がすべて `failMessage` で終わり、その message の command が残っていなければ、message は、上限の前なら
queue に、上限なら dead letter queue だけにある。payload のある message は queue にある。** -/
theorem retries_exact (options : FairQueueOptions P) (r : RetryStrategy) (hr : r.Exact)
    (hmax : 1 ≤ r.maxAttempts) (hoptions : options.getNextDelay = some r.getNextDelay)
    (hdlq : options.deadLetterQueue = true) (ls : List (Label P)) (h : Disciplined options [] ls)
    (k : Nat) :
    let s := System.exec options (ls.take k)
    (∀ m, deliveries s.history m ≤ r.maxAttempts) ∧
    (∀ q m, JsMap.get (s.redis.get (.queueItems q)) m ≠ none →
      SortedSet.score? (s.redis.get (.queue q)) m ≠ none) ∧
    (∀ m, 0 < deliveries s.history m →
      (ls.take k).countP (Label.fails m) = deliveries s.history m →
      (∀ ops ∈ s.tasks, ∀ op ∈ ops, op.about m = false) →
      (deliveries s.history m < r.maxAttempts ∧
        ∃ q, SortedSet.score? (s.redis.get (.queue q)) m ≠ none) ∨
      (deliveries s.history m = r.maxAttempts ∧
        (∃ t, SortedSet.score? (s.redis.get (.deadLetterQueue t)) m ≠ none ∧
          JsMap.get (s.redis.get (.deadLetterQueueData t)) m ≠ none) ∧
        (∀ q, SortedSet.score? (s.redis.get (.queue q)) m = none) ∧
        ∀ shard, JsMap.get (s.redis.get (.inflightData shard)) m = none)) := by
  have hretry : Retries options r.maxAttempts := by
    intro attempt error h
    rw [hoptions]
    exact hr attempt error h
  have hinv := staged_exec hmax hretry hdlq (ls.take k)
    (disciplined_append.mp (by rw [List.take_append_drop]; exact h)).1
  refine ⟨fun m => ?_, fun q m hitems => ?_, fun m hpos hfails hdone => ?_⟩
  · rcases hinv.located m with ⟨-, hd, -⟩ | ⟨q, L, i, -, hstage, -⟩
    · omega
    · exact hstage.facts.1
  · rcases hinv.located m with ⟨-, -, -, hv, -⟩ | ⟨q', L, i, -, hstage, -⟩
    · exact absurd (congrFun (congrArg View.items hv) q) hitems
    · exact Option.isSome_iff_ne_none.mp (hstage.facts.2.1 q hitems)
  · rcases hinv.located m with ⟨-, hd, -⟩ | ⟨q, L, i, -, hstage, hp⟩
    · omega
    · have hi : pending (System.exec options (ls.take k)).tasks m i = L := by
        rw [hp i, if_pos rfl]
      -- command が残らなければ、段階は queue か dead letter queue に限られる
      have hL : L = [] := by
        rw [← hi]
        rcases htask : (System.exec options (ls.take k)).tasks[i]? with _ | ops
        · simp [pending, htask]
        · rw [pending_of_getElem? htask, List.filter_eq_nil_iff]
          exact fun op hop => ne_true_of_eq_false (hdone ops (List.mem_of_getElem? htask) op hop)
      rcases hstage.facts.2.2 hL hfails with ⟨hlt, hq⟩ | ⟨heq, ⟨t, ht, hdata⟩, hqueue, hflight⟩
      · exact .inl ⟨hlt, q, Option.isSome_iff_ne_none.mp hq⟩
      · exact .inr ⟨heq, ⟨t, Option.isSome_iff_ne_none.mp ht, hdata⟩,
          fun q' => Option.isSome_eq_false_iff.mp (hqueue q') |> Option.isNone_iff_eq_none.mp, hflight⟩

/-- 二回まで配る設定。 -/
def retryOptions : FairQueueOptions Unit :=
  { sampleOptions with getNextDelay := some (FixedDelayRetry 2 0).getNextDelay }

/-- `failMessage` が `m1` を queue に戻した後、別の consumer が `m1` を配り、それから `failMessage` が payload を
書き直す。二度目の配達も attempt 1 のまま失敗し、三度目が配られる。 -/
def attemptLostRun : List (Label Unit) :=
  [.enqueue 0 "q" "t" "m1" () 0 none, .run 0 0, .claimAndPush 0 "q" "t" 0, .run 1 0, .run 1 0,
    .message 0 (.fail none) "m1" "q", .run 2 0, .run 2 0,
    .claimAndPush 1 "q" "t" 0, .run 3 0, .run 3 0, .run 2 0,
    .message 1 (.fail none) "m1" "q", .run 4 0, .run 4 0, .run 4 0,
    .claimAndPush 0 "q" "t" 0, .run 5 0, .run 5 0]

/-- 上限 2 の message が三回配られ、途中では queue に無い message の payload が残る。 -/
theorem attempt_lost :
    deliveries (System.exec retryOptions attemptLostRun).history "m1" = 3 ∧
      (FixedDelayRetry 2 0).maxAttempts = 2 ∧
      let s := System.exec retryOptions (attemptLostRun.take 12)
      JsMap.get (s.redis.get (.queueItems "q")) "m1" ≠ none ∧
        SortedSet.score? (s.redis.get (.queue "q")) "m1" = none := by
  decide +kernel

/-- 書き直した後で配る。二度目の失敗で dead letter queue に入る。 -/
def retriedRun : List (Label Unit) :=
  [.enqueue 0 "q" "t" "m1" () 0 none, .run 0 0, .claimAndPush 0 "q" "t" 0, .run 1 0, .run 1 0,
    .message 0 (.fail none) "m1" "q", .run 2 0, .run 2 0, .run 2 0,
    .claimAndPush 1 "q" "t" 0, .run 3 0, .run 3 0,
    .message 1 (.fail none) "m1" "q", .run 4 0, .run 4 0, .run 4 0, .run 4 0, .run 4 0]

/-- 二回配られた `m1` は dead letter queue にある。 -/
theorem retries_exact_retriedRun :
    ∃ t, SortedSet.score? ((System.exec retryOptions retriedRun).redis.get (.deadLetterQueue t))
      "m1" ≠ none := by
  have hdeliveries : ¬ deliveries (System.exec retryOptions (retriedRun.take 18)).history "m1" < 2 := by
    decide +kernel
  obtain ⟨-, -, hfinal⟩ := retries_exact retryOptions (FixedDelayRetry 2 0)
    (exact_strategies 2 0 0 none).1 (by decide) rfl rfl retriedRun (by decide +kernel) 18
  rcases hfinal "m1" (by decide +kernel) (by decide +kernel) (by decide +kernel) with
    ⟨hlt, -⟩ | ⟨-, ⟨t, ht, -⟩, -⟩
  · exact absurd hlt hdeliveries
  · exact ⟨t, ht⟩

end FairQueue
