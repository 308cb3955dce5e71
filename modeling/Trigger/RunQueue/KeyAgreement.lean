import Trigger.RunQueue.DequeuedKey

/-!
# queue key から読み戻した key の一致

`…FromQueue` は queue key だけから key を作る。queue の上限の key は正規表現 `/:ck:.+$/` で concurrency
key を落として作り、残りは `:` で分割した成分（`descriptorFromQueue`）から作る。queue 名は
`sanitizeQueueName` を通るが、concurrency key は利用者の文字列がそのまま入る。

二つの作り方が一致する条件が `KeysReadable` である（`keysAgree_iff`）。concurrency key に `:` があれば
descriptor はその手前で切れ、改行文字があれば正規表現が当たらない。`ck` という成分が concurrency key より
前にあれば、正規表現はそこで当たる。
-/

namespace RunQueue

open Infra.Text

/-! ## id と queue 名 -/

/-- 区切りの `:` も波括弧も含まない id。 -/
def PlainId (s : String) : Prop := ∀ c ∈ s.toList, c ≠ ':' ∧ c ≠ '{' ∧ c ≠ '}'

instance (s : String) : Decidable (PlainId s) := List.decidableBAll _ s.toList

/-- 改行文字を含まない。 -/
def NoLineTerminator (s : String) : Prop := ∀ c ∈ s.toList, isLineTerminator c = false

instance (s : String) : Decidable (NoLineTerminator s) := List.decidableBAll _ s.toList

theorem PlainId.noColon {s : String} (h : PlainId s) : NoColon s := fun hm => (h _ hm).1 rfl

theorem PlainId.stripOrg {s : String} (h : PlainId s) : stripOrg s = s :=
  stripOrg_of_no_braces (fun hm => (h _ hm).2.1 rfl) (fun hm => (h _ hm).2.2 rfl)

/-- id に `:` も波括弧も無い環境。 -/
structure EnvDescriptor.Plain (env : EnvDescriptor) : Prop where
  org : PlainId env.orgId
  proj : PlainId env.projectId
  env : PlainId env.envId

instance (env : EnvDescriptor) : Decidable env.Plain :=
  decidable_of_iff (PlainId env.orgId ∧ PlainId env.projectId ∧ PlainId env.envId)
    ⟨fun h => ⟨h.1, h.2.1, h.2.2⟩, fun h => ⟨h.org, h.proj, h.env⟩⟩

theorem EnvDescriptor.Plain.noColons {env : EnvDescriptor} (h : env.Plain) : env.NoColons :=
  ⟨h.org.noColon, h.proj.noColon, h.env.noColon⟩

/-- そのような環境は、queue key からそのまま読み戻される。 -/
theorem EnvDescriptor.Plain.stripped {env : EnvDescriptor} (h : env.Plain) :
    env.stripped = env := by
  unfold EnvDescriptor.stripped
  rw [h.org.stripOrg]

theorem noLineTerminator_sanitizeQueueName (name : String) :
    NoLineTerminator (sanitizeQueueName name) := by
  unfold NoLineTerminator sanitizeQueueName
  rw [String.toList_ofList]
  intro c hmem
  have hc := (List.mem_filter.mp (List.mem_of_mem_take hmem)).2
  by_contra hterm
  rw [Bool.not_eq_false] at hterm
  simp only [isLineTerminator, Bool.or_eq_true, decide_eq_true_eq] at hterm
  rcases hterm with ((rfl | rfl) | rfl) | rfl <;> exact absurd hc (by decide)

theorem queueCurrentConcurrencyKeyFromQueue_queueKey (env : EnvDescriptor) (queue : String)
    (ck : Option String) : queueCurrentConcurrencyKeyFromQueue (queueKey env queue ck)
      = queueCurrentConcurrencyKey env queue ck := by
  unfold queueCurrentConcurrencyKeyFromQueue queueCurrentConcurrencyKey
  simp [joinColon, String.append_assoc]

theorem queueCurrentDequeuedKeyFromQueue_queueKey (env : EnvDescriptor) (queue : String)
    (ck : Option String) : queueCurrentDequeuedKeyFromQueue (queueKey env queue ck)
      = queueCurrentDequeuedKey env queue ck := by
  unfold queueCurrentDequeuedKeyFromQueue queueCurrentDequeuedKey
  simp [joinColon, String.append_assoc]

/-! ## 二つの作り方の一致 -/

/-- queue key から作った key が、環境・queue 名・concurrency key から作った key に一致する。 -/
structure KeysAgree (env : EnvDescriptor) (queue : String) (ck : Option String) : Prop where
  queueLimit :
    queueConcurrencyLimitKeyFromQueue (queueKey env queue ck) = queueConcurrencyLimitKey env queue
  queueCurrentConcurrency :
    queueCurrentConcurrencyKeyFromQueue (queueKey env queue ck)
      = queueCurrentConcurrencyKey env queue ck
  queueCurrentDequeued :
    queueCurrentDequeuedKeyFromQueue (queueKey env queue ck) = queueCurrentDequeuedKey env queue ck
  envQueue : envQueueKeyFromQueue (queueKey env queue ck) = some (envQueueKey env)
  envLimit :
    envConcurrencyLimitKeyFromQueue (queueKey env queue ck) = some (envConcurrencyLimitKey env)
  envBurst :
    envConcurrencyLimitBurstFactorKeyFromQueue (queueKey env queue ck)
      = some (envConcurrencyLimitBurstFactorKey env)
  envCurrentConcurrency :
    envCurrentConcurrencyKeyFromQueue (queueKey env queue ck) = some (envCurrentConcurrencyKey env)
  envCurrentDequeued :
    envCurrentDequeuedKeyFromQueue (queueKey env queue ck) = some (envCurrentDequeuedKey env)
  deadLetter : deadLetterQueueKeyFromQueue (queueKey env queue ck) = some (deadLetterQueueKey env)
  message : ∀ id, (messageKeyPrefixFromQueue (queueKey env queue ck)).map (· ++ id)
    = some (messageKey env.orgId id)
  descriptor : descriptorFromQueue (queueKey env queue ck)
    = some ⟨env.orgId, env.projectId, env.envId, queue, ck⟩

/-- 二つの作り方が一致する環境・queue 名・concurrency key。 -/
structure KeysReadable (env : EnvDescriptor) (queue : String) (ck : Option String) : Prop where
  proj : env.projectId = "ck" → ¬ NoLineTerminator env.envId
  env : env.envId ≠ "ck"
  ck : ∀ k ∈ ck, k ≠ "" ∧ NoColon k ∧ NoLineTerminator k ∧ queue ≠ "ck"

instance (env : EnvDescriptor) (queue : String) (ck : Option String) :
    Decidable (KeysReadable env queue ck) :=
  decidable_of_iff ((env.projectId = "ck" → ¬ NoLineTerminator env.envId) ∧ env.envId ≠ "ck" ∧
      ∀ k ∈ ck, k ≠ "" ∧ NoColon k ∧ NoLineTerminator k ∧ queue ≠ "ck")
    ⟨fun h => ⟨h.1, h.2.1, h.2.2⟩, fun h => ⟨h.proj, h.env, h.ck⟩⟩

/-! ## concurrency key の正規表現 -/

theorem ckMatchHere_iff {l : List Char} : ckMatchHere l = true ↔
    ∃ r, l = ":ck:".toList ++ r ∧ r ≠ [] ∧ ∀ c ∈ r, isLineTerminator c = false := by
  unfold ckMatchHere
  simp only [Bool.and_eq_true, List.isPrefixOf_iff_prefix, List.all_eq_true, Bool.not_eq_true',
    List.isEmpty_eq_false_iff]
  constructor
  · rintro ⟨⟨⟨r, rfl⟩, hne⟩, hall⟩
    exact ⟨r, rfl, hne, hall⟩
  · rintro ⟨r, rfl, hne, hall⟩
    exact ⟨⟨⟨r, rfl⟩, hne⟩, hall⟩

/-- `:` の後ろの成分で当たるのは、その成分が `ck` で、残りが空でなく改行文字を含まないときである。 -/
theorem ckMatchHere_section {s r : List Char} (hs : ':' ∉ s) :
    ckMatchHere (':' :: (s ++ ':' :: r)) = true ↔
      s = "ck".toList ∧ r ≠ [] ∧ ∀ c ∈ r, isLineTerminator c = false := by
  rw [ckMatchHere_iff]
  constructor
  · rintro ⟨t, ht, hne, hall⟩
    have hsplit : s ++ ':' :: r = "ck".toList ++ ':' :: t := (List.cons.inj ht).2
    obtain ⟨rfl, rfl⟩ := append_colon_inj hs (by decide) hsplit
    exact ⟨rfl, hne, hall⟩
  · rintro ⟨rfl, hne, hall⟩
    exact ⟨r, rfl, hne, hall⟩

/-- 最後の成分では当たらない。 -/
theorem ckMatchHere_last {s : List Char} (hs : ':' ∉ s) : ckMatchHere (':' :: s) = false := by
  by_contra h
  rw [Bool.not_eq_false] at h
  obtain ⟨r, hr, -⟩ := ckMatchHere_iff.mp h
  have hck : s = "ck".toList ++ ':' :: r := (List.cons.inj hr).2
  exact hs (by rw [hck]; simp)

theorem noneWithin_of_notMem {s b : List Char} (hs : ':' ∉ s) : NoneWithin ckMatchHere s b := by
  intro t u htu hu
  obtain ⟨c, u, rfl⟩ := List.exists_cons_of_ne_nil hu
  by_contra hmatch
  rw [Bool.not_eq_false, List.cons_append] at hmatch
  obtain ⟨r, hr, -⟩ := ckMatchHere_iff.mp hmatch
  have hc : c = ':' := (List.cons.inj hr).1
  exact hs (by rw [htu, hc]; simp)

/-- 成分とその手前の `:` の中では、`:` の位置でだけ当たりうる。 -/
theorem noneWithin_section {s a b : List Char} (hs : ':' ∉ s) :
    NoneWithin ckMatchHere (':' :: (s ++ a)) b ↔
      ckMatchHere (':' :: (s ++ (a ++ b))) = false ∧ NoneWithin ckMatchHere a b := by
  rw [noneWithin_cons, noneWithin_append, List.append_assoc,
    and_iff_right (noneWithin_of_notMem hs)]

/-! ## queue の上限の key -/

/-- queue key の、queue 名より後ろの文字。 -/
def ckTail (ck : Option String) : List Char :=
  (concurrencyKeySections ck).flatMap fun s => ':' :: s.toList

theorem toList_queueKey (env : EnvDescriptor) (queue : String) (ck : Option String) :
    (queueKey env queue ck).toList = (queueKey env queue none).toList ++ ckTail ck := by
  rw [queueKey_eq_envHead, queueKey_eq_envHead]
  unfold queueTail ckTail
  rcases ck with _ | k
  · simp [concurrencyKeySections]
  · by_cases hk : k = ""
    · simp [concurrencyKeySections, hk]
    · simp [concurrencyKeySections, hk, joinColon, List.append_assoc]

/-- queue 名までの中で正規表現が当たりうるのは、project・環境・queue 名の成分である。 -/
theorem noneWithin_queueKey {env : EnvDescriptor} (h : env.NoColons) {queue : String}
    {b : List Char} :
    NoneWithin ckMatchHere (queueKey env queue none).toList b ↔
      ckMatchHere (':' :: (env.projectId.toList ++ ':' :: ("env".toList ++ ':' ::
        (env.envId.toList ++ ':' :: ("queue".toList ++ ':' :: (queue.toList ++ b)))))) = false ∧
      ckMatchHere (':' :: (env.envId.toList ++ ':' :: ("queue".toList ++ ':' ::
        (queue.toList ++ b)))) = false ∧
      NoneWithin ckMatchHere (':' :: queue.toList) b := by
  have hkey : (queueKey env queue none).toList = "\x7borg".toList ++ ':' ::
      ((env.orgId ++ "\x7d").toList ++ ':' :: ("proj".toList ++ ':' ::
        (env.projectId.toList ++ ':' :: ("env".toList ++ ':' :: (env.envId.toList ++ ':' ::
          ("queue".toList ++ ':' :: queue.toList)))))) := by
    simp [queueKey, concurrencyKeySections, joinColon, orgKeySection, projKeySection, envKeySection,
      queueSection]
  have horg : NoColon (env.orgId ++ "\x7d") := noColon_append h.org (by decide)
  -- organization の成分は `}` で終わるので `ck` ではない。
  have hne : (env.orgId ++ "\x7d").toList ≠ "ck".toList := by
    intro he
    have hlast := congrArg List.getLast? he
    rw [String.toList_append, List.getLast?_append] at hlast
    cases hlast
  have hfree : ∀ s r : List Char, ':' ∉ s → s ≠ "ck".toList →
      ckMatchHere (':' :: (s ++ ':' :: r)) = false := by
    intro s r hs hck
    by_contra hmatch
    exact hck ((ckMatchHere_section hs).mp (Bool.not_eq_false _ ▸ hmatch)).1
  have hhead : NoneWithin ckMatchHere "\x7borg".toList
      (':' :: ((env.orgId ++ "\x7d").toList ++ ':' :: ("proj".toList ++ ':' ::
        (env.projectId.toList ++ ':' :: ("env".toList ++ ':' :: (env.envId.toList ++ ':' ::
          ("queue".toList ++ ':' :: queue.toList)))))) ++ b) := noneWithin_of_notMem (by decide)
  rw [hkey, noneWithin_append, and_iff_right hhead, noneWithin_section horg,
    noneWithin_section (show ':' ∉ "proj".toList by decide), noneWithin_section h.proj,
    noneWithin_section (show ':' ∉ "env".toList by decide), noneWithin_section h.env,
    noneWithin_section (show ':' ∉ "queue".toList by decide)]
  simp only [List.append_assoc, List.cons_append]
  rw [and_iff_right (hfree _ _ horg hne), and_iff_right (hfree _ _ (by decide) (by decide))]
  constructor
  · rintro ⟨hproj, -, henv, -, hqueue⟩
    exact ⟨hproj, henv, hqueue⟩
  · rintro ⟨hproj, henv, hqueue⟩
    exact ⟨hproj, hfree _ _ (by decide) (by decide), henv, hfree _ _ (by decide) (by decide),
      hqueue⟩

theorem ckTail_some {k : String} (hk : k ≠ "") :
    ckTail (some k) = ':' :: ("ck".toList ++ ':' :: k.toList) := by
  simp [ckTail, concurrencyKeySections, hk, concurrencyKeySection]

theorem ckTail_eq_nil {ck : Option String} (h : ∀ k ∈ ck, ¬ k ≠ "") : ckTail ck = [] := by
  rcases ck with _ | k
  · rfl
  · simp [ckTail, concurrencyKeySections, not_not.mp (h k rfl)]

/-- 改行文字が無いことは、成分ごとに言える。 -/
theorem forall_notTerminator_section {s r : List Char} :
    (∀ c ∈ s ++ ':' :: r, isLineTerminator c = false) ↔
      (∀ c ∈ s, isLineTerminator c = false) ∧ ∀ c ∈ r, isLineTerminator c = false := by
  rw [List.forall_mem_append, List.forall_mem_cons]
  exact and_congr_right fun _ => and_iff_right (by decide)

theorem ckMatchHere_section_false {s r : List Char} (hs : ':' ∉ s) (hr : r ≠ []) :
    ckMatchHere (':' :: (s ++ ':' :: r)) = false ↔
      (s = "ck".toList → ¬ ∀ c ∈ r, isLineTerminator c = false) := by
  rw [← Bool.not_eq_true, ckMatchHere_section hs]
  constructor
  · intro h hck hall
    exact h ⟨hck, hr, hall⟩
  · rintro h ⟨hck, -, hall⟩
    exact h hck hall

section Body

variable {env : EnvDescriptor} (h : env.NoColons) {queue : String} (hq : NoColon queue)
  (hterm : NoLineTerminator queue)

include h hq hterm

/-- concurrency key が無いとき、queue 名の成分では当たらない。 -/
theorem noneWithin_queueKey_nil : NoneWithin ckMatchHere (queueKey env queue none).toList [] ↔
    (env.projectId = "ck" → ¬ NoLineTerminator env.envId) ∧ env.envId ≠ "ck" := by
  have hlast : NoneWithin ckMatchHere (':' :: queue.toList) [] := by
    rw [noneWithin_cons, List.append_nil]
    exact ⟨ckMatchHere_last hq, noneWithin_of_notMem hq⟩
  rw [noneWithin_queueKey h, and_iff_left hlast, ckMatchHere_section_false h.proj (by simp),
    ckMatchHere_section_false h.env (by simp)]
  simp only [forall_notTerminator_section, List.append_nil, String.toList_inj]
  have henv : ∀ c ∈ "env".toList, isLineTerminator c = false :=
    (by decide : NoLineTerminator "env")
  have hqueue : ∀ c ∈ "queue".toList, isLineTerminator c = false :=
    (by decide : NoLineTerminator "queue")
  have hterm' : ∀ c ∈ queue.toList, isLineTerminator c = false := hterm
  simp only [NoLineTerminator, eq_true henv, eq_true hqueue, eq_true hterm', true_and, and_true]
  simp

/-- 改行文字の無い concurrency key が続くとき、queue 名の成分でも当たりうる。 -/
theorem noneWithin_queueKey_some {k : String} (hk : k ≠ "") (hkt : NoLineTerminator k) :
    NoneWithin ckMatchHere (queueKey env queue none).toList (ckTail (some k)) ↔
      (env.projectId = "ck" → ¬ NoLineTerminator env.envId) ∧ env.envId ≠ "ck" ∧ queue ≠ "ck" := by
  rw [noneWithin_queueKey h, noneWithin_cons, and_iff_left (noneWithin_of_notMem hq),
    ckTail_some hk, ckMatchHere_section_false h.proj (by simp),
    ckMatchHere_section_false h.env (by simp), ckMatchHere_section_false hq (by simp)]
  simp only [forall_notTerminator_section, String.toList_inj]
  have henv : ∀ c ∈ "env".toList, isLineTerminator c = false :=
    (by decide : NoLineTerminator "env")
  have hck : ∀ c ∈ "ck".toList, isLineTerminator c = false :=
    (by decide : NoLineTerminator "ck")
  have hqueue : ∀ c ∈ "queue".toList, isLineTerminator c = false :=
    (by decide : NoLineTerminator "queue")
  have hterm' : ∀ c ∈ queue.toList, isLineTerminator c = false := hterm
  have hkt' : ∀ c ∈ k.toList, isLineTerminator c = false := hkt
  simp only [NoLineTerminator, eq_true henv, eq_true hck, eq_true hqueue, eq_true hterm',
    eq_true hkt', true_and, and_true]
  simp

end Body

/-- 上限を読む key が書く key に一致するのは、正規表現が concurrency key の手前でだけ当たるときである。 -/
theorem queueLimit_agrees_iff {env : EnvDescriptor} (h : env.NoColons) {queue : String}
    (hq : NoColon queue) (hterm : NoLineTerminator queue) (ck : Option String) :
    queueConcurrencyLimitKeyFromQueue (queueKey env queue ck) = queueConcurrencyLimitKey env queue ↔
      (env.projectId = "ck" → ¬ NoLineTerminator env.envId) ∧ env.envId ≠ "ck" ∧
        ∀ k ∈ ck, k ≠ "" → NoLineTerminator k ∧ queue ≠ "ck" := by
  have hwrite : queueConcurrencyLimitKey env queue = queueKey env queue none ++ ":concurrency" := by
    rw [queueConcurrencyLimitKey, show (":concurrency" : String) = ":" ++ "concurrency" from rfl,
      ← String.append_assoc]
    rfl
  have hcut : queueConcurrencyLimitKeyFromQueue (queueKey env queue ck)
        = queueConcurrencyLimitKey env queue
      ↔ cutAt ckMatchHere ((queueKey env queue none).toList ++ ckTail ck)
        = (queueKey env queue none).toList := by
    rw [queueConcurrencyLimitKeyFromQueue, hwrite, stripConcurrencyKey,
      toList_queueKey env queue ck]
    constructor
    · intro he
      have := congrArg String.toList (append_right_cancel he)
      rwa [String.toList_ofList] at this
    · intro he
      rw [he, String.ofList_toList]
  rw [hcut, cutAt_append_eq_iff]
  -- 空でない concurrency key があるときだけ、消すべき `:ck:` の区間がある。
  by_cases hk : ∃ k, ck = some k ∧ k ≠ ""
  · obtain ⟨k, rfl, hk⟩ := hk
    have hmatch : ckMatchHere (ckTail (some k)) = true ↔ NoLineTerminator k := by
      rw [ckTail_some hk, ckMatchHere_section (by decide)]
      simp [NoLineTerminator, hk]
    simp only [Option.mem_some_iff, forall_eq', ne_eq, hk, not_false_eq_true, forall_const]
    rw [hmatch, forall_prop_of_true (by rw [ckTail_some hk]; simp)]
    constructor
    · rintro ⟨hnone, hkt⟩
      obtain ⟨hproj, henv, hqueue⟩ := (noneWithin_queueKey_some h hq hterm hk hkt).mp hnone
      exact ⟨hproj, henv, hkt, hqueue⟩
    · rintro ⟨hproj, henv, hkt, hqueue⟩
      exact ⟨(noneWithin_queueKey_some h hq hterm hk hkt).mpr ⟨hproj, henv, hqueue⟩, hkt⟩
  · have hnil : ckTail ck = [] := ckTail_eq_nil fun k hck hne => hk ⟨k, hck, hne⟩
    have hall : ∀ k ∈ ck, k ≠ "" → NoLineTerminator k ∧ queue ≠ "ck" :=
      fun k hck hne => absurd ⟨k, hck, hne⟩ hk
    rw [hnil, noneWithin_queueKey_nil h hq hterm]
    constructor
    · rintro ⟨⟨hproj, henv⟩, -⟩
      exact ⟨hproj, henv, hall⟩
    · rintro ⟨hproj, henv, -⟩
      exact ⟨⟨hproj, henv⟩, fun hne => absurd rfl hne⟩

/-! ## descriptor -/

/-- 分割した最初の成分が元の文字列であるのは、`:` が無いときである。 -/
theorem splitColon_head_eq_iff {s : String} : (splitColon s)[0]? = some s ↔ NoColon s := by
  constructor
  · intro h
    by_contra hc
    obtain ⟨a, b, ha, rfl⟩ := exists_noColon_append hc
    rw [splitColon_cons ha] at h
    have hlen := congrArg (fun x : String => x.toList.length) (Option.some.inj h)
    simp at hlen
  · intro h
    rw [splitColon_noColon h]
    rfl

/-- descriptor が元の成分に戻るのは、concurrency key が無いか、空でなく `:` も含まないときである。 -/
theorem descriptor_agrees_iff {env : EnvDescriptor} (h : env.Plain) {queue : String}
    (hq : NoColon queue) (ck : Option String) :
    descriptorFromQueue (queueKey env queue ck)
        = some ⟨env.orgId, env.projectId, env.envId, queue, ck⟩ ↔
      ∀ k ∈ ck, k ≠ "" ∧ NoColon k := by
  have hread : descriptorFromQueue (queueKey env queue ck) = some
      ⟨stripOrg env.orgId, env.projectId, env.envId,
        (splitColon (queueTail queue ck))[0]?.getD "undefined",
        (splitColon (queueTail queue ck))[2]?⟩ := by
    unfold descriptorFromQueue
    rw [splitColon_queueKey h.noColons]
    rfl
  rw [hread, h.org.stripOrg]
  rcases ck with _ | k
  · simp [queueTail, concurrencyKeySections, joinColon, splitColon_noColon hq]
  by_cases hk : k = ""
  · simp [queueTail, concurrencyKeySections, joinColon, splitColon_noColon hq, hk]
  · have htail : queueTail queue (some k) = queue ++ ":" ++ ("ck" ++ ":" ++ k) := by
      simp [queueTail, concurrencyKeySections, hk, joinColon, concurrencyKeySection,
        show ("ck:" : String) = "ck" ++ ":" from rfl]
    rw [htail, splitColon_cons hq, splitColon_cons (by decide)]
    simpa [hk] using splitColon_head_eq_iff

/-! ## 一致する条件 -/

/-- **queue key から作った key が成分から作った key に一致するのは、`KeysReadable` のとき、そのときに限る。**
環境の id は `:` も波括弧も含まず、queue 名は `sanitizeQueueName` を通る。concurrency key は任意の文字列である。 -/
theorem keysAgree_iff (env : EnvDescriptor) (h : env.Plain) (name : String) (ck : Option String) :
    KeysAgree env (sanitizeQueueName name) ck ↔ KeysReadable env (sanitizeQueueName name) ck := by
  have hq := noColon_sanitizeQueueName name
  have hlimit := queueLimit_agrees_iff h.noColons hq (noLineTerminator_sanitizeQueueName name) ck
  have hdesc := descriptor_agrees_iff h hq ck
  constructor
  · intro hagree
    obtain ⟨hproj, henv, hck⟩ := hlimit.mp hagree.queueLimit
    refine ⟨hproj, henv, fun k hk => ?_⟩
    obtain ⟨hne, hcolon⟩ := hdesc.mp hagree.descriptor k hk
    obtain ⟨hterm, hqueue⟩ := hck k hk hne
    exact ⟨hne, hcolon, hterm, hqueue⟩
  · rintro ⟨hproj, henv, hck⟩
    refine
      { queueLimit := hlimit.mpr ⟨hproj, henv, fun k hk _ => (hck k hk).2.2⟩
        queueCurrentConcurrency := queueCurrentConcurrencyKeyFromQueue_queueKey _ _ _
        queueCurrentDequeued := queueCurrentDequeuedKeyFromQueue_queueKey _ _ _
        envQueue := ?_
        envLimit := ?_
        envBurst := ?_
        envCurrentConcurrency := ?_
        envCurrentDequeued := ?_
        deadLetter := ?_
        message := fun id => ?_
        descriptor := hdesc.mpr fun k hk => ⟨(hck k hk).1, (hck k hk).2.1⟩ }
    · rw [envQueueKeyFromQueue_queueKey h.noColons, h.stripped]
    · rw [envConcurrencyLimitKeyFromQueue_queueKey h.noColons, h.stripped]
    · rw [envConcurrencyLimitBurstFactorKeyFromQueue_queueKey h.noColons, h.stripped]
    · rw [envCurrentConcurrencyKeyFromQueue_queueKey h.noColons, h.stripped]
    · rw [envCurrentDequeuedKeyFromQueue_queueKey h.noColons, h.stripped]
    · rw [deadLetterQueueKeyFromQueue_queueKey h.noColons, h.stripped]
    · rw [messageKeyPrefixFromQueue_queueKey h.noColons, Option.map_some, h.org.stripOrg,
        messageKeyPrefix_append]

/-- `:` も改行文字も無い concurrency key では一致する。 -/
theorem keysAgree_plainKey :
    KeysAgree ⟨"o1234", "p1234", "e1234"⟩ (sanitizeQueueName "task/task-name") (some "c1234") :=
  (keysAgree_iff ⟨"o1234", "p1234", "e1234"⟩ (by decide) "task/task-name" (some "c1234")).mpr
    (by decide)

/-- 改行文字のある concurrency key では上限を読む key が書く key と異なり、`:` のある concurrency key では
descriptor がその手前で切れる。 -/
theorem keys_disagree :
    ¬ KeysAgree ⟨"o1234", "p1234", "e1234"⟩ (sanitizeQueueName "task/task-name") (some "a\nb") ∧
      ¬ KeysAgree ⟨"o1234", "p1234", "e1234"⟩ (sanitizeQueueName "task/task-name")
        (some "user:42") := by
  constructor
  · intro h
    exact absurd h.queueLimit (by decide +kernel)
  · intro h
    exact absurd h.descriptor (by decide +kernel)

end RunQueue
