import Trigger.RunQueue.Commands

/-!
# 取り出し済みの印をつける key

`dequeueMessageFromKey` は、payload の queue key を最後の `:queue:` で切って環境の `currentDequeued` の
key を作る。ほかの操作は `envCurrentDequeuedKeyFromQueue` が queue key を `:` で分割して作った key から
id を消す。二つの key が一致するのは、organization の id がそのまま読み戻され、`:queue:` が queue key に
二度現れないときに限る。
-/

namespace RunQueue

open Infra.Text
open Infra.Redis

/-! ## queue 名 -/

/-- queue 名に残る文字。 -/
def isQueueNameChar (c : Char) : Bool := c.isAlphanum || c = '_' || c = '-' || c = '/'

/-- `sanitizeQueueName`。 -/
def sanitizeQueueName (queueName : String) : String :=
  String.ofList ((queueName.toList.filter isQueueNameChar).take 128)

theorem noColon_sanitizeQueueName (name : String) : NoColon (sanitizeQueueName name) := by
  unfold NoColon sanitizeQueueName
  rw [String.toList_ofList]
  intro hmem
  have hc := (List.mem_filter.mp (List.mem_of_mem_take hmem)).2
  exact absurd hc (by decide)

/-! ## script が作る key -/

/-- `dequeueMessageFromKey` が作る、環境の `currentDequeued` の key。 -/
def greedyEnvDequeuedKey (queue : String) : Option String :=
  (beforeLast ":queue:".toList queue.toList).map fun p => String.ofList p ++ ":currentDequeued"

/-- `:queue:` が queue key に二度現れない。 -/
def QueueSectionUnique (queue : String) (concurrencyKey : Option String) : Prop :=
  ∀ ck ∈ concurrencyKey, ck ≠ "" → queue ≠ "queue" ∧ ¬ ":queue:".toList <:+: (":" ++ ck).toList

theorem envCurrentDequeuedKey_eq (env : EnvDescriptor) :
    envCurrentDequeuedKey env = envHead env ++ ":currentDequeued" := by
  unfold envCurrentDequeuedKey envPartKey envHead
  simp only [joinColon, String.append_assoc]
  rfl

/-- 読み戻しは organization の id を長くしない。 -/
theorem length_stripOrg_le (o : String) : (stripOrg o).toList.length ≤ o.toList.length := by
  unfold stripOrg stripBraces removeFirst
  simp only [String.toList_ofList]
  have hmem : '}' ∈ (o ++ "\x7d").toList.erase '{' := by
    rw [String.toList_append]
    exact (List.mem_erase_of_ne (by decide)).mpr (by simp)
  have h₁ := List.length_erase_of_mem hmem
  have h₂ : ((o ++ "\x7d").toList.erase '{').length ≤ (o ++ "\x7d").toList.length :=
    List.length_erase_le
  have h₃ : (o ++ "\x7d").toList.length = o.toList.length + 1 := by simp
  omega

theorem length_envHead_stripped_le (env : EnvDescriptor) :
    (envHead env.stripped).toList.length ≤ (envHead env).toList.length := by
  have h := length_stripOrg_le env.orgId
  unfold envHead orgKeySection
  simp only [stripped_orgId, stripped_projectId, stripped_envId, String.toList_append,
    List.length_append]
  omega

theorem envHead_stripped_eq_iff {env : EnvDescriptor} :
    envHead env.stripped = envHead env ↔ stripOrg env.orgId = env.orgId := by
  unfold envHead orgKeySection
  simp only [stripped_orgId, stripped_projectId, stripped_envId]
  constructor
  · intro h
    simp only [String.append_assoc] at h
    have h := append_left_cancel h
    simp only [← String.append_assoc] at h
    have h := append_right_cancel (append_right_cancel (append_right_cancel h))
    exact append_right_cancel (append_right_cancel h)
  · intro h
    rw [h]

/-! ## `:queue:` の位置 -/

/-- 先頭の文字を含まない部分には、照合は始まらない。 -/
theorem infix_append_iff_of_notMem {c : Char} {p b : List Char} :
    ∀ {a : List Char}, c ∉ a → ((c :: p) <:+: a ++ b ↔ (c :: p) <:+: b)
  | [], _ => Iff.rfl
  | x :: a, h => by
    obtain ⟨hx, ha⟩ := not_or.mp (mt List.mem_cons.mpr h)
    rw [List.cons_append, List.infix_cons_iff, infix_append_iff_of_notMem ha]
    constructor
    · rintro (hpre | hin)
      · exact absurd (List.cons_prefix_cons.mp hpre).1 hx
      · exact hin
    · exact Or.inr

/-- `:` の無い queue 名が `queue:` で始まる語の頭になるのは、`queue` のときだけである。 -/
theorem eq_queue_of_leading {queue : String} (hq : NoColon queue) {rest : List Char}
    (h : "queue:".toList <+: queue.toList ++ ':' :: rest) : queue = "queue" := by
  have hs : splitColon (queue ++ ":" ++ String.ofList rest) = queue :: splitColon (String.ofList rest) :=
    splitColon_cons hq _
  obtain ⟨t, ht⟩ := h
  have heq : queue ++ ":" ++ String.ofList rest = "queue" ++ ":" ++ String.ofList t := by
    apply String.toList_inj.mp
    simpa using ht.symm
  rw [heq, splitColon_cons (by decide)] at hs
  exact (List.cons.inj hs).1.symm

/-- 環境の成分より後ろに `:queue:` が現れないこと。 -/
theorem queueSectionUnique_iff {queue : String} (hq : NoColon queue) (ck : Option String) :
    QueueSectionUnique queue ck ↔
      ¬ ":queue:".toList <:+: "queue:".toList ++ (queueTail queue ck).toList := by
  have hplain : ¬ ":queue:".toList <:+: "queue:".toList ++ queue.toList := by
    rw [show "queue:".toList ++ queue.toList = "queue".toList ++ (':' :: queue.toList) from rfl,
      show ":queue:".toList = ':' :: "queue:".toList from rfl,
      infix_append_iff_of_notMem (by decide), List.infix_cons_iff]
    rintro (hpre | hin)
    · obtain ⟨t, ht⟩ := (List.cons_prefix_cons.mp hpre).2
      exact hq (ht ▸ by simp)
    · exact hq (hin.subset (by simp))
  unfold QueueSectionUnique
  rcases ck with _ | ck
  · simpa [queueTail, concurrencyKeySections, joinColon] using hplain
  by_cases hck : ck = ""
  · simpa [queueTail, concurrencyKeySections, joinColon, hck] using hplain
  have htail : "queue:".toList ++ (queueTail queue (some ck)).toList = "queue".toList ++
      (':' :: (queue.toList ++ (':' :: ("ck".toList ++ (":" ++ ck).toList)))) := by
    simp [queueTail, concurrencyKeySections, concurrencyKeySection, joinColon, hck]
  rw [htail, show ":queue:".toList = ':' :: "queue:".toList from rfl,
    infix_append_iff_of_notMem (by decide), List.infix_cons_iff, infix_append_iff_of_notMem hq,
    List.infix_cons_iff, infix_append_iff_of_notMem (by decide)]
  simp only [Option.mem_some_iff, forall_eq', ne_eq, hck, not_false_eq_true, forall_const, not_or,
    List.cons_prefix_cons, true_and]
  constructor
  · rintro ⟨hne, hin⟩
    exact ⟨fun h => hne (eq_queue_of_leading hq h), fun h => absurd (List.cons_prefix_cons.mp h).1
      (by decide), hin⟩
  · rintro ⟨hpre, -, hin⟩
    exact ⟨fun h => hpre (h ▸ ⟨_, rfl⟩), hin⟩

/-- script の key は環境の頭から作られる。余分な `x` は、`:queue:` が後ろにもう一度現れるときに付く。 -/
theorem greedyEnvDequeuedKey_queueKey (env : EnvDescriptor) (queue : String) (ck : Option String) :
    ∃ x : List Char,
      greedyEnvDequeuedKey (queueKey env queue ck) =
        some (envHead env ++ String.ofList x ++ ":currentDequeued") ∧
      (x = [] ↔ ¬ ":queue:".toList <:+: "queue:".toList ++ (queueTail queue ck).toList) := by
  have hne : (envHead env).toList ≠ [] := by
    unfold envHead orgKeySection
    simp
  have hkey : (queueKey env queue ck).toList =
      (envHead env).toList ++ ":queue:".toList ++ (queueTail queue ck).toList := by
    rw [queueKey_eq_envHead, String.toList_append, String.toList_append]
  obtain ⟨p, hp, x, rfl⟩ := beforeLast_longest (b := (queueTail queue ck).toList) hne
  rw [← hkey] at hp
  refine ⟨x, ?_, ?_⟩
  · unfold greedyEnvDequeuedKey
    rw [hp, Option.map_some, String.ofList_append, String.ofList_toList]
  · constructor
    · rintro rfl ⟨a, b, hab⟩
      -- もう一度現れれば、見つかる位置はそこより左ではない
      have hsplit : (queueKey env queue ck).toList =
          ((envHead env).toList ++ ':' :: a) ++ ":queue:".toList ++ b := by
        rw [hkey, List.append_assoc, List.append_assoc]
        simpa using hab.symm
      have hne' : (envHead env).toList ++ ':' :: a ≠ [] := by simp
      obtain ⟨p', hp', hpre⟩ : ∃ p, beforeLast ":queue:".toList
          (((envHead env).toList ++ ':' :: a) ++ ":queue:".toList ++ b) = some p ∧ _ :=
        beforeLast_longest hne'
      rw [← hsplit, hp] at hp'
      cases hp'
      have := hpre.length_le
      simp at this
    · intro hin
      obtain ⟨rest, hrest⟩ := beforeLast_some hp
      rw [hkey, List.append_assoc, List.append_assoc, List.append_assoc, List.append_right_inj]
        at hrest
      rcases x with _ | ⟨c, y⟩
      · rfl
      · have hcons : ':' = c ∧ "queue:".toList ++ (queueTail queue ck).toList
            = y ++ (":queue:".toList ++ rest) := List.cons.inj hrest
        exact absurd ⟨y, rest, by rw [List.append_assoc]; exact hcons.2.symm⟩ hin

/-- 二つの key の一致。 -/
theorem greedyEnvDequeuedKey_eq_iff {env : EnvDescriptor} (henv : env.NoColons) {queue : String}
    (hq : NoColon queue) (ck : Option String) :
    greedyEnvDequeuedKey (queueKey env queue ck) =
        envCurrentDequeuedKeyFromQueue (queueKey env queue ck) ↔
      stripOrg env.orgId = env.orgId ∧ QueueSectionUnique queue ck := by
  obtain ⟨x, hx, hx'⟩ := greedyEnvDequeuedKey_queueKey env queue ck
  rw [hx, envCurrentDequeuedKeyFromQueue_queueKey henv, envCurrentDequeuedKey_eq,
    queueSectionUnique_iff hq, ← hx', Option.some_inj]
  constructor
  · intro h
    have h := append_right_cancel h
    have hlen := congrArg (fun s : String => s.toList.length) h
    simp only [String.toList_append, String.toList_ofList, List.length_append] at hlen
    have hle := length_envHead_stripped_le env
    have hnil : x = [] := List.eq_nil_of_length_eq_zero (by omega)
    subst hnil
    refine ⟨envHead_stripped_eq_iff.mp ?_, rfl⟩
    simpa using h.symm
  · rintro ⟨horg, rfl⟩
    rw [envHead_stripped_eq_iff.mpr horg]
    simp

/-! ## 印を消す操作 -/

/-- `c` が成功すれば、key `k` の集合に `id` は残らない。 -/
def Removes {α : Type} (c : Script Stored α) (id k : String) : Prop :=
  ∀ s a s', c s = (.ok a, s') → id ∉ s'.sets k

/-- 集合に要素を加えない遷移。 -/
def Shrinks (s s' : State) : Prop := ∀ k, s'.sets k ⊆ s.sets k

theorem Shrinks.refl (s : State) : Shrinks s s := fun _ => Finset.Subset.refl _

theorem Shrinks.trans {a b c : State} (h : Shrinks a b) (h' : Shrinks b c) : Shrinks a c :=
  fun k => (h' k).trans (h k)

theorem bind_eq_ok {α β : Type} {c : Script Stored α} {f : α → Script Stored β} {s s' : State} {b : β}
    (h : (c >>= f) s = (.ok b, s')) : ∃ a s₁, c s = (.ok a, s₁) ∧ f a s₁ = (.ok b, s') := by
  change Script.bind c f s = _ at h
  unfold Script.bind at h
  split at h
  · next a s₁ hc => exact ⟨a, s₁, hc, h⟩
  · cases h

theorem Removes.bind {α β : Type} {c : Script Stored α} {f : α → Script Stored β} {id k : String}
    (hf : ∀ a, Removes (f a) id k) : Removes (c >>= f) id k := by
  intro s b s' h
  obtain ⟨a, s₁, -, h⟩ := bind_eq_ok h
  exact hf a s₁ b s' h

theorem Removes.andThen {α β : Type} {c : Script Stored α} {f : α → Script Stored β} {id k : String}
    (hc : Removes c id k) (hf : ∀ a, (f a).Respects Shrinks) : Removes (c >>= f) id k := by
  intro s b s' h
  obtain ⟨a, s₁, h₁, h⟩ := bind_eq_ok h
  have hsub : s'.sets k ⊆ s₁.sets k := by
    have hr := hf a s₁
    rw [h] at hr
    exact hr k
  exact fun hmem => hc s a s₁ h₁ (hsub hmem)

theorem respects_pure {α : Type} (a : α) : (pure a : Script Stored α).Respects Shrinks :=
  fun s => Shrinks.refl s

theorem Shrinks.bind {α β : Type} {c : Script Stored α} {f : α → Script Stored β}
    (hc : c.Respects Shrinks) (hf : ∀ a, (f a).Respects Shrinks) : (c >>= f).Respects Shrinks :=
  Script.Respects.bind (R := Shrinks) Shrinks.trans hc hf

theorem respects_srem (k m : String) : (srem k m : Script Stored Unit).Respects Shrinks := by
  refine respects_guarded Shrinks.refl fun s h k' => ?_
  rw [Db.setS_sets]
  by_cases hk : k' = k
  · subst hk
    rw [Function.update_self]
    exact Finset.erase_subset _ _
  · rw [Function.update_of_ne hk]

theorem removes_srem (k m : String) : Removes (srem k m) m k := by
  intro s a s' h
  unfold srem guarded at h
  split at h
  · cases h
    simp
  · cases h

/-- `SREM` の四つ組は、四つの集合のどれからも id を消す。 -/
theorem removes_removeConcurrency {a b c d id k : String} (hk : k ∈ [a, b, c, d]) :
    Removes (removeConcurrency a b c d id) id k := by
  have hd := removes_srem d id
  have hc := (removes_srem c id).andThen fun _ => respects_srem d id
  simp only [List.mem_cons, List.not_mem_nil, or_false] at hk
  unfold removeConcurrency
  rcases hk with rfl | rfl | rfl | rfl
  · exact (removes_srem k id).andThen fun _ => Shrinks.bind (respects_srem b id) fun _ =>
      Shrinks.bind (respects_srem c id) fun _ => respects_srem d id
  · exact .bind fun _ => (removes_srem k id).andThen fun _ =>
      Shrinks.bind (respects_srem c id) fun _ => respects_srem d id
  · exact .bind fun _ => .bind fun _ => hc
  · exact .bind fun _ => .bind fun _ => .bind fun _ => hd

theorem respects_zadd (k : String) (x : ℚ) (m : String) :
    (zadd k x m : Script Stored Unit).Respects Shrinks :=
  respects_guarded Shrinks.refl fun _ _ => Shrinks.refl _

theorem respects_zrem (k m : String) : (zrem k m : Script Stored Nat).Respects Shrinks :=
  respects_guarded Shrinks.refl fun _ _ => Shrinks.refl _

theorem respects_lrem (k v : String) : (lrem k v : Script Stored Unit).Respects Shrinks :=
  respects_guarded Shrinks.refl fun _ _ => Shrinks.refl _

theorem respects_rebalance (masterQueueKey queueKey queueName : String) :
    (rebalance masterQueueKey queueKey queueName).Respects Shrinks := by
  unfold rebalance
  refine Shrinks.bind (respects_guarded Shrinks.refl fun _ _ => Shrinks.refl _) fun o => ?_
  rcases o with _ | ⟨_, score⟩
  · exact Shrinks.bind (respects_zrem _ _) fun _ => respects_pure _
  · exact respects_zadd _ _ _

/-- payload の queue に属する message の印を消す操作。 -/
inductive Releasing (cfg : Config) (m : OutputPayload) : Script Stored Unit → Prop
  | acknowledge (removeFromWorkerQueue : Bool) :
      Releasing cfg m (cfg.callAcknowledgeMessage m removeFromWorkerQueue)
  | nack (messageScore : ℚ) : Releasing cfg m (cfg.callNackMessage m messageScore)
  | enqueue : Releasing cfg m (cfg.callEnqueueMessage m)
  | deadLetter (now : ℚ) : Releasing cfg m (cfg.callMoveToDeadLetterQueue m now)
  | release : Releasing cfg m (callReleaseConcurrency m)

/-- どの操作も、queue と環境の `currentDequeued` から id を消す。 -/
theorem Releasing.removes {cfg : Config} {m : OutputPayload} {c : Script Stored Unit}
    (h : Releasing cfg m c) {dequeued : String}
    (hd : envCurrentDequeuedKeyFromQueue m.queue = some dequeued) {k : String}
    (hk : k = queueCurrentDequeuedKeyFromQueue m.queue ∨ k = dequeued) :
    Removes c m.runId k := by
  have hmem : ∀ cc ec, k ∈ [cc, ec, queueCurrentDequeuedKeyFromQueue m.queue, dequeued] := by
    intro cc ec
    rcases hk with rfl | rfl <;> simp
  cases h with
  | acknowledge b =>
    unfold Config.callAcknowledgeMessage
    refine .bind fun _ => ?_
    rw [hd, key_some, pure_script_bind]
    refine .bind fun _ => .bind fun _ => .bind fun _ => .bind fun _ => .bind fun _ => ?_
    refine (removes_removeConcurrency (hmem _ _)).andThen fun _ => ?_
    cases b with
    | true => exact respects_lrem _ _
    | false => exact respects_pure _
  | nack x =>
    unfold Config.callNackMessage
    refine .bind fun _ => ?_
    rw [hd, key_some, pure_script_bind]
    refine .bind fun _ => .bind fun _ => ?_
    refine (removes_removeConcurrency (hmem _ _)).andThen fun _ => ?_
    exact Shrinks.bind (respects_zadd _ _ _) fun _ => Shrinks.bind (respects_zadd _ _ _) fun _ =>
      respects_rebalance _ _ _
  | enqueue =>
    unfold Config.callEnqueueMessage
    refine .bind fun _ => ?_
    rw [hd, key_some, pure_script_bind]
    refine .bind fun _ => .bind fun _ => .bind fun _ => .bind fun _ => .bind fun _ => ?_
    exact removes_removeConcurrency (hmem _ _)
  | deadLetter now =>
    unfold Config.callMoveToDeadLetterQueue
    refine .bind fun _ => ?_
    rw [hd, key_some, pure_script_bind]
    refine .bind fun _ => .bind fun _ => .bind fun _ => .bind fun _ => .bind fun _ => .bind fun _ => ?_
    exact removes_removeConcurrency (hmem _ _)
  | release =>
    unfold callReleaseConcurrency
    refine .bind fun _ => ?_
    rw [hd, key_some, pure_script_bind]
    exact removes_removeConcurrency (hmem _ _)

/-- script が id を加える集合は、queue の key と、最後の `:queue:` で切った key のものだけである。 -/
theorem dequeueMessageFromKeyLua_adds {k : String} {s s' : State} {m : OutputPayload}
    (h : dequeueMessageFromKeyLua k s = (.ok (some (.message m)), s')) {k' : String}
    (hk : m.runId ∈ s'.sets k') (hk' : m.runId ∉ s.sets k') :
    k' = queueCurrentDequeuedKeyFromQueue m.queue ∨ greedyEnvDequeuedKey m.queue = some k' := by
  have hsadd : ∀ {key id : String} {s s' : State} {u : Unit}, sadd key id s = (.ok u, s') →
      s'.sets = Function.update s.sets key (insert id (s.sets key)) := by
    intro key id s s' u h
    unfold sadd guarded at h
    split at h
    · cases h; rfl
    · cases h
  obtain ⟨o, s₁, hget, h⟩ := bind_eq_ok h
  have hs₁ : s₁ = s := by
    unfold Infra.Redis.get guarded at hget
    split at hget <;> cases hget
    rfl
  subst hs₁
  rcases o with _ | _ | d
  · cases h
  · cases h
  · rcases hp : beforeLast ":queue:".toList d.queue.toList with _ | p
    · simp only [hp] at h
      cases h
    · simp only [hp] at h
      obtain ⟨_, s₂, h₂, h⟩ := bind_eq_ok h
      obtain ⟨_, s₃, h₃, h⟩ := bind_eq_ok h
      cases h
      rw [hsadd h₃, hsadd h₂] at hk
      unfold queueCurrentDequeuedKeyFromQueue greedyEnvDequeuedKey
      rw [hp]
      by_contra hne
      rw [not_or, Option.map_some, Option.some_inj] at hne
      rw [Function.update_of_ne (Ne.symm hne.2), Function.update_of_ne hne.1] at hk
      exact hk' hk

/-! ## 一致 -/

/-- script とほかの操作が、環境の `currentDequeued` の key について一致する。加えた id は、その message に
対するどの操作でも消える。 -/
structure DequeuedAgrees (env : EnvDescriptor) (queue : String) (ck : Option String) : Prop where
  key : greedyEnvDequeuedKey (queueKey env queue ck) =
    envCurrentDequeuedKeyFromQueue (queueKey env queue ck)
  removed : ∀ {m : OutputPayload} {k : String} {s s' : State}, m.queue = queueKey env queue ck →
    dequeueMessageFromKeyLua k s = (.ok (some (.message m)), s') → ∀ {k' : String},
    m.runId ∈ s'.sets k' → m.runId ∉ s.sets k' → ∀ {cfg : Config} {m' : OutputPayload},
    m'.queue = m.queue → m'.runId = m.runId → ∀ {c : Script Stored Unit}, Releasing cfg m' c →
    Removes c m.runId k'

/-- **script の key がほかの操作の key と一致するのは、organization の id がそのまま読み戻され、
concurrency key が `:queue:` を作らないときに限る。** -/
theorem dequeuedAgrees_iff {env : EnvDescriptor} (henv : env.NoColons) (name : String)
    (ck : Option String) :
    DequeuedAgrees env (sanitizeQueueName name) ck ↔
      stripOrg env.orgId = env.orgId ∧ QueueSectionUnique (sanitizeQueueName name) ck := by
  rw [← greedyEnvDequeuedKey_eq_iff henv (noColon_sanitizeQueueName name) ck]
  refine ⟨fun h => h.key, fun hkey => ⟨hkey, ?_⟩⟩
  intro m k s s' hm h k' hk hk' cfg m' hq hid c hc
  rcases dequeueMessageFromKeyLua_adds h hk hk' with rfl | hg
  · rw [← hid, ← hq]
    exact hc.removes (by rw [hq, hm]; exact envCurrentDequeuedKeyFromQueue_queueKey henv _ _) (.inl rfl)
  · rw [← hid]
    refine hc.removes ?_ (.inr rfl)
    rw [hq, hm, ← hkey, ← hm, hg]

/-- 一致する例。 -/
theorem dequeuedAgrees_tasks :
    DequeuedAgrees ⟨"org", "proj", "env"⟩ (sanitizeQueueName "tasks") (some "user:1") := by
  have henv : EnvDescriptor.NoColons ⟨"org", "proj", "env"⟩ := by decide
  refine (dequeuedAgrees_iff henv "tasks" (some "user:1")).mpr ?_
  refine ⟨by decide +kernel, fun ck hck _ => ?_⟩
  cases hck
  exact ⟨by decide +kernel, by decide +kernel⟩

/-- concurrency key が `a:queue:b` の message。 -/
def leakedMessage : OutputPayload where
  runId := "run_1"
  taskIdentifier := "task"
  orgId := "org"
  projectId := "proj"
  environmentId := "env"
  environmentType := .production
  queue := queueKey ⟨"org", "proj", "env"⟩ "tasks" (some "a:queue:b")
  concurrencyKey := some "a:queue:b"
  timestamp := 0
  attempt := 0
  version := .v2 "main"

/-- 取り出してから acknowledge した後の状態。 -/
def leakedState : State :=
  let key := messageKey "org" "run_1"
  let cfg : Config := ⟨fun _ => 0, 100, none, (· * ·), 12, none⟩
  let stored := (set key (.message leakedMessage) Db.empty).2
  (cfg.callAcknowledgeMessage leakedMessage true (dequeueMessageFromKeyLua key stored).2).2

/-- concurrency key に `:queue:` があると、script は別の key に印をつけ、acknowledge はそれを消さない。 -/
theorem dequeued_leaked :
    ¬ DequeuedAgrees ⟨"org", "proj", "env"⟩ (sanitizeQueueName "tasks") (some "a:queue:b") ∧
      "run_1" ∈ leakedState.sets
        "\x7borg:org\x7d:proj:proj:env:env:queue:tasks:ck:a:currentDequeued" := by
  refine ⟨fun h => absurd h.key (by decide +kernel), by decide +kernel⟩

end RunQueue
