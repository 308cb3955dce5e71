import Trigger.RunQueue.Representation

/-!
# `dequeueMessagesFromQueue` の仕様

script を任意の状態・任意の key で調べる。`wp_dequeueMessagesFromQueueLua` は、上限の検査を
「取り出す件数 `dequeueCount` が正か」の一つにまとめ、後に残る `for` だけを証明に渡す。
`for` の効果は `LoopPost` が述べる。

* 成功すれば、返すのは `collect`（並びの順に、payload のある id）であり、それらだけが
  二つの整列集合から二つの集合へ移る。
* 途中で止まっても、集合の大きさは調べた件数より多くは増えない。
-/

namespace RunQueue

open Infra Infra.Text
open Infra.Redis Infra.Redis.Script

/-! ## 読み出した数と件数 -/

/-- `tonumber(redis.call('GET', key) or default)` が読む数。 -/
def numberAt (s : State) (k : String) (default : ℚ) : Option ℚ :=
  match s.strs k with
  | none => some default
  | some v => v.toNumber

/-- script の `actualMaxCount`。 -/
def dequeueCount (mul : ℚ → ℚ → ℚ) (envLimit burst queueLimit maxCount : ℚ)
    (envCurrent queueCurrent : Nat) : ℚ :=
  min maxCount (min ((⌊mul envLimit burst⌋ - (envCurrent : Int) : Int) : ℚ)
    (min queueLimit envLimit - queueCurrent))

section Count

variable {mul : ℚ → ℚ → ℚ} {envLimit burst queueLimit maxCount : ℚ} {envCurrent queueCurrent : Nat}

theorem dequeueCount_le_env : dequeueCount mul envLimit burst queueLimit maxCount envCurrent
    queueCurrent ≤ ((⌊mul envLimit burst⌋ - (envCurrent : Int) : Int) : ℚ) :=
  (min_le_right _ _).trans (min_le_left _ _)

theorem dequeueCount_le_queue : dequeueCount mul envLimit burst queueLimit maxCount envCurrent
    queueCurrent ≤ min queueLimit envLimit - queueCurrent :=
  (min_le_right _ _).trans (min_le_right _ _)

theorem dequeueCount_nonpos_of_env (h : ⌊mul envLimit burst⌋ ≤ (envCurrent : Int)) :
    dequeueCount mul envLimit burst queueLimit maxCount envCurrent queueCurrent ≤ 0 :=
  dequeueCount_le_env.trans (by exact_mod_cast sub_nonpos.mpr h)

theorem dequeueCount_nonpos_of_queue (h : min queueLimit envLimit ≤ (queueCurrent : ℚ)) :
    dequeueCount mul envLimit burst queueLimit maxCount envCurrent queueCurrent ≤ 0 :=
  dequeueCount_le_queue.trans (sub_nonpos.mpr h)

end Count

theorem wp_getNumberOr_eq {s : State} {k : String} {d : ℚ}
    {Q : Except Error (Option ℚ) → State → Prop}
    (hok : s.StrTyped k → Q (.ok (numberAt s k d)) s)
    (herr : ¬ s.StrTyped k → Q (.error .wrongType) s) : wp (getNumberOr k d) Q s := by
  refine wp_bind (wp_get (fun ht => ?_) (fun ht => herr ht))
  have h := hok ht
  unfold numberAt at h
  rcases hs : s.strs k with _ | v <;> rw [hs] at h
  · exact h
  · exact h

/-! ## 上限の検査 -/

section Checks

variable {mul : ℚ → ℚ → ℚ} {queueKey queueConcurrencyLimitKey envConcurrencyLimitKey
  envConcurrencyLimitBurstFactorKey queueCurrentConcurrencyKey envCurrentConcurrencyKey
  messageKeyPrefix envQueueKey masterQueueKey queueName : String}
  {currentTime defaultLimit defaultBurst maxCount envLimit burst queueLimit : ℚ} {s : State}

/-- script が `for` に達するまでに型や数の error を起こさない状態。 -/
structure Ready (s : State) (queueKey queueConcurrencyLimitKey envConcurrencyLimitKey
    envConcurrencyLimitBurstFactorKey queueCurrentConcurrencyKey envCurrentConcurrencyKey : String)
    (count : ℚ) : Prop where
  envSet : s.STyped envCurrentConcurrencyKey
  envLimit : s.StrTyped envConcurrencyLimitKey
  burst : s.StrTyped envConcurrencyLimitBurstFactorKey
  queueSet : s.STyped queueCurrentConcurrencyKey
  queueLimit : s.StrTyped queueConcurrencyLimitKey
  queue : s.ZTyped queueKey
  integral : count.den = 1

/-- 三つの上限が数として読めるときの script。検査は件数 `dequeueCount` の正負に尽きる。 -/
theorem wp_dequeueMessagesFromQueueLua
    (hL : numberAt s envConcurrencyLimitKey defaultLimit = some envLimit)
    (hB : numberAt s envConcurrencyLimitBurstFactorKey defaultBurst = some burst)
    (hQ : numberAt s queueConcurrencyLimitKey 1000000 = some queueLimit) {count : ℚ}
    (hcount : count = dequeueCount mul envLimit burst queueLimit maxCount
      (s.sets envCurrentConcurrencyKey).card (s.sets queueCurrentConcurrencyKey).card)
    {Q : Except Error (Option (List DequeuedEntry)) → State → Prop}
    (hnil : count ≤ 0 ∨ limitTo count ((s.zsets queueKey).rangeByScore currentTime) = [] →
      Q (.ok none) s)
    (herr : ∀ e, ¬ Ready s queueKey queueConcurrencyLimitKey envConcurrencyLimitKey
      envConcurrencyLimitBurstFactorKey queueCurrentConcurrencyKey envCurrentConcurrencyKey count →
      Q (.error e) s)
    (hloop : 0 < count → Ready s queueKey queueConcurrencyLimitKey envConcurrencyLimitKey
      envConcurrencyLimitBurstFactorKey queueCurrentConcurrencyKey envCurrentConcurrencyKey count →
      wp (do
        let results ← dequeueLoop queueKey envQueueKey queueCurrentConcurrencyKey
          envCurrentConcurrencyKey messageKeyPrefix
          (limitTo count ((s.zsets queueKey).rangeByScore currentTime))
        rebalance masterQueueKey queueKey queueName
        pure (some results)) Q s) :
    wp (dequeueMessagesFromQueueLua mul queueKey queueConcurrencyLimitKey envConcurrencyLimitKey
      envConcurrencyLimitBurstFactorKey queueCurrentConcurrencyKey envCurrentConcurrencyKey
      messageKeyPrefix envQueueKey masterQueueKey queueName currentTime defaultLimit defaultBurst
      maxCount) Q s := by
  refine wp_bind (wp_scard (fun hE => ?_) (fun hn => herr _ fun h => hn h.envSet))
  refine wp_bind (wp_getNumberOr_eq (fun hl => ?_) (fun hn => herr _ fun h => hn h.envLimit))
  refine wp_bind (wp_getNumberOr_eq (fun hb => ?_) (fun hn => herr _ fun h => hn h.burst))
  simp only [hL, hB]
  split
  · next hle => exact hnil (Or.inl (hcount ▸ dequeueCount_nonpos_of_env hle))
  refine wp_bind (wp_scard (fun hK => ?_) (fun hn => herr _ fun h => hn h.queueSet))
  refine wp_bind (wp_getNumberOr_eq (fun hq => ?_) (fun hn => herr _ fun h => hn h.queueLimit))
  simp only [hQ]
  split
  · next hle => exact hnil (Or.inl (hcount ▸ dequeueCount_nonpos_of_queue hle))
  rw [show min maxCount (min ((⌊mul envLimit burst⌋
      - ((s.sets envCurrentConcurrencyKey).card : Int) : Int) : ℚ)
      (min queueLimit envLimit - (s.sets queueCurrentConcurrencyKey).card)) = count from hcount.symm]
  split
  · next hle => exact hnil (Or.inl hle)
  · next hpos =>
    refine wp_bind (wp_zrangebyscore (fun hi hz => ?_) (fun hn => herr _ fun h => hn h.integral)
      (fun hn => herr _ fun h => hn h.queue))
    simp only
    split
    · next hempty => exact hnil (Or.inr hempty)
    · exact hloop (not_le.mp hpos) ⟨hE, hl, hb, hK, hq, hz, hi⟩

end Checks

/-! ## `for` -/

/-- `for` が使う key。二つの整列集合と二つの集合は、それぞれ別の key である。 -/
structure LoopKeys where
  queue : String
  envQueue : String
  queueSet : String
  envSet : String
  messagePrefix : String
  queue_ne : queue ≠ envQueue
  set_ne : queueSet ≠ envSet

/-- key を束ねた `dequeueLoop`。 -/
def LoopKeys.loop (k : LoopKeys) (messages : List (String × ℚ)) :
    Script Stored (List DequeuedEntry) :=
  dequeueLoop k.queue k.envQueue k.queueSet k.envSet k.messagePrefix messages

/-- `for` が返すもの。並びの順に、payload のある id。 -/
def collect (s : State) (messageKeyPrefix : String) (messages : List (String × ℚ)) :
    List DequeuedEntry :=
  messages.filterMap fun e => (s.strs (messageKeyPrefix ++ e.1)).map fun p => ⟨e.1, e.2, p⟩

/-- 返した id だけが整列集合 `k` から消えた。 -/
def Removed (s s' : State) (k : String) (rs : List DequeuedEntry) : Prop :=
  ∀ n, (s'.zsets k).score? n
    = if n ∈ rs.map DequeuedEntry.messageId then none else (s.zsets k).score? n

/-- 返した id だけが集合 `k` に加わった。 -/
def Added (s s' : State) (k : String) (rs : List DequeuedEntry) : Prop :=
  ∀ n, n ∈ s'.sets k ↔ n ∈ s.sets k ∨ n ∈ rs.map DequeuedEntry.messageId

/-- `for` が触れるのは四つの key だけで、集合に加わるのは `ids` の要素だけである。 -/
structure LoopFrame (k : LoopKeys) (ids : List String) (s s' : State) : Prop where
  strs : s'.strs = s.strs
  lists : s'.lists = s.lists
  grow : ∀ j n, n ∈ s'.sets j → n ∈ s.sets j ∨ n ∈ ids
  zsets_other : ∀ j, j ≠ k.queue → j ≠ k.envQueue → s'.zsets j = s.zsets j
  sets_other : ∀ j, j ≠ k.queueSet → j ≠ k.envSet → s'.sets j = s.sets j

/-- 成功した `for` の効果。 -/
structure LoopDone (k : LoopKeys) (messages : List (String × ℚ)) (s : State)
    (rs : List DequeuedEntry) (s' : State) : Prop where
  results : rs = collect s k.messagePrefix messages
  queue : Removed s s' k.queue rs
  envQueue : Removed s s' k.envQueue rs
  queueSet : Added s s' k.queueSet rs
  envSet : Added s s' k.envSet rs

/-- 一つの id だけを移した。 -/
structure MoveOne (k : LoopKeys) (r : String) (s s₁ : State) : Prop where
  strs : s₁.strs = s.strs
  queue : ∀ n, (s₁.zsets k.queue).score? n = if n = r then none else (s.zsets k.queue).score? n
  envQueue : ∀ n,
    (s₁.zsets k.envQueue).score? n = if n = r then none else (s.zsets k.envQueue).score? n
  queueSet : ∀ n, n ∈ s₁.sets k.queueSet ↔ n = r ∨ n ∈ s.sets k.queueSet
  envSet : ∀ n, n ∈ s₁.sets k.envSet ↔ n = r ∨ n ∈ s.sets k.envSet

section Loop

variable {k : LoopKeys} {s s₁ s' : State} {ids : List String}

theorem LoopFrame.refl (k : LoopKeys) (ids : List String) (s : State) : LoopFrame k ids s s :=
  ⟨rfl, rfl, fun _ _ h => Or.inl h, fun _ _ _ => rfl, fun _ _ _ => rfl⟩

theorem LoopFrame.trans {ids' : List String} (h : LoopFrame k ids s s₁)
    (h' : LoopFrame k ids' s₁ s') (hsub : ∀ n ∈ ids', n ∈ ids) : LoopFrame k ids s s' where
  strs := h'.strs.trans h.strs
  lists := h'.lists.trans h.lists
  grow j n hn := by
    rcases h'.grow j n hn with hn | hn
    · exact h.grow j n hn
    · exact Or.inr (hsub n hn)
  zsets_other j hj hj' := (h'.zsets_other j hj hj').trans (h.zsets_other j hj hj')
  sets_other j hj hj' := (h'.sets_other j hj hj').trans (h.sets_other j hj hj')

theorem LoopFrame.setZ (h : LoopFrame k ids s s₁) {j : String}
    (hj : j = k.queue ∨ j = k.envQueue) {z : ZSet} (ht : s₁.ZTyped j) :
    LoopFrame k ids s (s₁.setZ j z ht) where
  strs := h.strs
  lists := h.lists
  grow := h.grow
  zsets_other i hi hi' := by
    have hne : i ≠ j := by
      rcases hj with rfl | rfl
      · exact hi
      · exact hi'
    simp [hne, h.zsets_other i hi hi']
  sets_other := h.sets_other

theorem LoopFrame.insert (h : LoopFrame k ids s s₁) {r j : String} (hr : r ∈ ids)
    (hj : j = k.queueSet ∨ j = k.envSet) (ht : s₁.STyped j) :
    LoopFrame k ids s (s₁.setS j (insert r (s₁.sets j)) ht) where
  strs := h.strs
  lists := h.lists
  grow i n hn := by
    by_cases hi : i = j
    · subst hi
      rcases Finset.mem_insert.mp (by simpa using hn) with rfl | hn
      · exact Or.inr hr
      · exact h.grow i n hn
    · exact h.grow i n (by simpa [hi] using hn)
  zsets_other := h.zsets_other
  sets_other i hi hi' := by
    have hne : i ≠ j := by
      rcases hj with rfl | rfl
      · exact hi
      · exact hi'
    simp [hne, h.sets_other i hi hi']

/-- 集合は、調べた件数より多くは増えない。 -/
theorem LoopFrame.card_le (h : LoopFrame k ids s s') (j : String) :
    (s'.sets j).card ≤ (s.sets j).card + ids.length := by
  have hsub : s'.sets j ⊆ s.sets j ∪ ids.toFinset := by
    intro n hn
    rcases h.grow j n hn with hn | hn <;> simp [hn]
  calc (s'.sets j).card ≤ (s.sets j ∪ ids.toFinset).card := Finset.card_le_card hsub
    _ ≤ (s.sets j).card + ids.toFinset.card := Finset.card_union_le _ _
    _ ≤ (s.sets j).card + ids.length := by
      have := ids.toFinset_card_le
      omega

theorem collect_congr (h : s'.strs = s.strs) (p : String) (messages : List (String × ℚ)) :
    collect s' p messages = collect s p messages := by
  unfold collect
  rw [h]

/-- 何も移さない `for`。 -/
theorem LoopDone.nil (k : LoopKeys) (s : State) : LoopDone k [] s [] s :=
  ⟨rfl, fun n => by simp, fun n => by simp, fun n => by simp, fun n => by simp⟩

/-- payload の無い id は飛ばされる。 -/
theorem LoopDone.skip {r : String} {x : ℚ} {messages : List (String × ℚ)}
    {rs : List DequeuedEntry} (hp : s.strs (k.messagePrefix ++ r) = none)
    (h : LoopDone k messages s rs s') : LoopDone k ((r, x) :: messages) s rs s' :=
  ⟨by rw [h.results]; simp [collect, hp], h.queue, h.envQueue, h.queueSet, h.envSet⟩

/-- 一回分の後に残りの `for` をつなぐ。 -/
theorem LoopDone.cons {r : String} {x : ℚ} {payload : Stored} {messages : List (String × ℚ)}
    {rs : List DequeuedEntry} (hm : MoveOne k r s s₁)
    (hp : s.strs (k.messagePrefix ++ r) = some payload) (h : LoopDone k messages s₁ rs s') :
    LoopDone k ((r, x) :: messages) s (⟨r, x, payload⟩ :: rs) s' where
  results := by
    rw [h.results, collect_congr hm.strs]
    simp [collect, hp]
  queue n := by
    rw [h.queue n, hm.queue n]
    by_cases hn : n = r <;> simp [hn]
  envQueue n := by
    rw [h.envQueue n, hm.envQueue n]
    by_cases hn : n = r <;> simp [hn]
  queueSet n := by
    rw [h.queueSet n, hm.queueSet n]
    by_cases hn : n = r <;> simp [hn]
  envSet n := by
    rw [h.envSet n, hm.envSet n]
    by_cases hn : n = r <;> simp [hn]

/-- 四つの書き込みで、一つの id が移る。 -/
theorem moveOne_of_writes {r : String} (hz : s.ZTyped k.queue)
    (hz' : (s.setZ k.queue ((s.zsets k.queue).rem r) hz).ZTyped k.envQueue)
    {s₂ : State} (h₂ : s₂ = (s.setZ k.queue ((s.zsets k.queue).rem r) hz).setZ k.envQueue
      (((s.setZ k.queue ((s.zsets k.queue).rem r) hz).zsets k.envQueue).rem r) hz')
    (ht : s₂.STyped k.queueSet)
    (ht' : (s₂.setS k.queueSet (insert r (s₂.sets k.queueSet)) ht).STyped k.envSet) :
    MoveOne k r s ((s₂.setS k.queueSet (insert r (s₂.sets k.queueSet)) ht).setS k.envSet
      (insert r ((s₂.setS k.queueSet (insert r (s₂.sets k.queueSet)) ht).sets k.envSet)) ht') := by
  subst h₂
  have hq := k.queue_ne
  have hs := k.set_ne
  refine ⟨rfl, fun n => ?_, fun n => ?_, fun n => ?_, fun n => ?_⟩
  · simp [hq]
  · simp [hq.symm]
  · simp [hs]
  · simp [hs.symm]

/-- **`for` の効果。** 途中で止まっても枠は保たれ、成功すれば返した id だけが移る。 -/
theorem wp_loop : ∀ (messages : List (String × ℚ)) (s : State),
    wp (k.loop messages) (fun r s' => LoopFrame k (messages.map Prod.fst) s s' ∧
      ∀ rs, r = .ok rs → LoopDone k messages s rs s') s
  | [], s => by
    refine ⟨LoopFrame.refl k _ s, ?_⟩
    rintro rs ⟨⟩
    exact LoopDone.nil k s
  | (r, x) :: messages, s => by
    have h₀ := LoopFrame.refl k (((r, x) :: messages).map Prod.fst) s
    have hr : r ∈ ((r, x) :: messages).map Prod.fst := by simp
    have hsub : ∀ n ∈ messages.map Prod.fst, n ∈ ((r, x) :: messages).map Prod.fst :=
      fun n hn => List.mem_cons_of_mem _ hn
    refine wp_bind (wp_get (fun _ => ?_) (fun _ => ⟨h₀, by simp⟩))
    rcases hp : s.strs (k.messagePrefix ++ r) with _ | payload
    · refine wp_mono (wp_loop messages s) fun res s' hres => ?_
      exact ⟨h₀.trans hres.1 hsub, fun rs h => (hres.2 rs h).skip hp⟩
    · refine wp_bind (wp_zrem (fun hz => ?_) (fun _ => ⟨h₀, by simp⟩))
      have h₁ := h₀.setZ (Or.inl rfl) (z := (s.zsets k.queue).rem r) hz
      refine wp_bind (wp_zrem (fun hz' => ?_) (fun _ => ⟨h₁, by simp⟩))
      have h₂ := h₁.setZ (Or.inr rfl)
        (z := ((s.setZ k.queue ((s.zsets k.queue).rem r) hz).zsets k.envQueue).rem r) hz'
      refine wp_bind (wp_sadd (fun ht => ?_) (fun _ => ⟨h₂, by simp⟩))
      have h₃ := h₂.insert hr (Or.inl rfl) ht
      refine wp_bind (wp_sadd (fun ht' => ?_) (fun _ => ⟨h₃, by simp⟩))
      have h₄ := h₃.insert hr (Or.inr rfl) ht'
      have hmove := moveOne_of_writes hz hz' rfl ht ht'
      refine wp_bind (wp_mono (wp_loop messages _) fun res s' hres => ?_)
      rcases res with e | rs
      · exact ⟨h₄.trans hres.1 hsub, by simp⟩
      · refine ⟨h₄.trans hres.1 hsub, ?_⟩
        rintro rs' ⟨⟩
        exact (hres.2 rs rfl).cons hmove hp

/-- `for` の key の型が合っている。 -/
structure LoopTyped (k : LoopKeys) (s : State) : Prop where
  queue : s.ZTyped k.queue
  envQueue : s.ZTyped k.envQueue
  queueSet : s.STyped k.queueSet
  envSet : s.STyped k.envSet
  message : ∀ id, s.StrTyped (k.messagePrefix ++ id)

/-- 型の違う key は重ならない。 -/
structure LoopKeys.Apart (k : LoopKeys) : Prop where
  set_zset : ∀ j, j = k.queueSet ∨ j = k.envSet → j ≠ k.queue ∧ j ≠ k.envQueue
  message : ∀ id, k.messagePrefix ++ id ≠ k.queue ∧ k.messagePrefix ++ id ≠ k.envQueue ∧
    k.messagePrefix ++ id ≠ k.queueSet ∧ k.messagePrefix ++ id ≠ k.envSet

theorem LoopTyped.setZ (hk : k.Apart) (h : LoopTyped k s) {j : String}
    (hj : j = k.queue ∨ j = k.envQueue) {z : ZSet} (ht : s.ZTyped j) :
    LoopTyped k (s.setZ j z ht) := by
  have hset : ∀ i, i = k.queueSet ∨ i = k.envSet → s.STyped i → (s.setZ j z ht).STyped i := by
    intro i hi hS
    have hne : i ≠ j := by
      rcases hj with rfl | rfl
      · exact (hk.set_zset i hi).1
      · exact (hk.set_zset i hi).2
    simpa [Db.STyped, hne] using hS
  refine ⟨h.queue, h.envQueue, hset _ (Or.inl rfl) h.queueSet, hset _ (Or.inr rfl) h.envSet, ?_⟩
  intro id
  have hne : k.messagePrefix ++ id ≠ j := by
    rcases hj with rfl | rfl
    · exact (hk.message id).1
    · exact (hk.message id).2.1
  simpa [Db.StrTyped, hne] using h.message id

theorem LoopTyped.setS (hk : k.Apart) (h : LoopTyped k s) {j : String}
    (hj : j = k.queueSet ∨ j = k.envSet) {t : Finset String} (ht : s.STyped j) :
    LoopTyped k (s.setS j t ht) := by
  have hz := hk.set_zset j hj
  refine ⟨?_, ?_, h.queueSet, h.envSet, ?_⟩
  · simpa [Db.ZTyped, hz.1.symm] using h.queue
  · simpa [Db.ZTyped, hz.2.symm] using h.envQueue
  · intro id
    have hne : k.messagePrefix ++ id ≠ j := by
      rcases hj with rfl | rfl
      · exact (hk.message id).2.2.1
      · exact (hk.message id).2.2.2
    simpa [Db.StrTyped, hne] using h.message id

/-- 型が合っていれば `for` は成功する。 -/
theorem wp_loop_ok (hk : k.Apart) : ∀ (messages : List (String × ℚ)) (s : State), LoopTyped k s →
    wp (k.loop messages) (fun r s' => (∃ rs, r = .ok rs) ∧ LoopTyped k s') s
  | [], s, h => ⟨⟨[], rfl⟩, h⟩
  | (r, x) :: messages, s, h => by
    refine wp_bind (wp_get (fun _ => ?_) (fun hn => absurd (h.message r) hn))
    rcases s.strs (k.messagePrefix ++ r) with _ | payload
    · exact wp_loop_ok hk messages s h
    · refine wp_bind (wp_zrem (fun hz => ?_) (fun hn => absurd h.queue hn))
      have h₁ := h.setZ hk (Or.inl rfl) (z := (s.zsets k.queue).rem r) hz
      refine wp_bind (wp_zrem (fun hz' => ?_) (fun hn => absurd h₁.envQueue hn))
      have h₂ := h₁.setZ hk (Or.inr rfl)
        (z := ((s.setZ k.queue ((s.zsets k.queue).rem r) hz).zsets k.envQueue).rem r) hz'
      refine wp_bind (wp_sadd (fun ht => ?_) (fun hn => absurd h₂.queueSet hn))
      refine wp_bind (wp_sadd (fun ht' => ?_)
        (fun hn => (hn (h₂.setS hk (Or.inl rfl) ht).envSet).elim))
      refine wp_bind (wp_mono (wp_loop_ok hk messages _
        ((h₂.setS hk (Or.inl rfl) ht).setS hk (Or.inr rfl) ht')) fun res s' hres => ?_)
      obtain ⟨⟨rs, rfl⟩, hT⟩ := hres
      exact ⟨⟨_, rfl⟩, hT⟩

end Loop

/-! ## 全体 -/

/-- `rebalance` は master queue しか変えない。 -/
theorem wp_rebalance_frame {masterQueueKey queueKey queueName : String} {s : State} :
    wp (rebalance masterQueueKey queueKey queueName) (fun r s' => s'.strs = s.strs ∧
      s'.sets = s.sets ∧ s'.lists = s.lists ∧
      (∀ j, j ≠ masterQueueKey → s'.zsets j = s.zsets j) ∧
      (s.ZTyped queueKey → s.ZTyped masterQueueKey → r = .ok ())) s := by
  refine wp_bind (wp_zfirst (fun _ => ?_) (fun hn => ?_))
  · rcases (s.zsets queueKey).entries.head? with _ | ⟨m, x⟩
    · refine wp_bind (wp_zrem (fun ht => ?_) (fun hn => ?_))
      · exact wp_pure.mpr ⟨rfl, rfl, rfl, fun j hj => by simp [hj], fun _ _ => rfl⟩
      · exact ⟨rfl, rfl, rfl, fun _ _ => rfl, fun _ h => absurd h hn⟩
    · refine wp_zadd (fun ht => ?_) (fun hn => ?_)
      · exact ⟨rfl, rfl, rfl, fun j hj => by simp [hj], fun _ _ => rfl⟩
      · exact ⟨rfl, rfl, rfl, fun _ _ => rfl, fun _ h => absurd h hn⟩
  · exact ⟨rfl, rfl, rfl, fun _ _ => rfl, fun h _ => absurd h hn⟩

end RunQueue
