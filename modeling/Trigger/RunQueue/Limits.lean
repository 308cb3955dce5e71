import Trigger.RunQueue.Dequeue

/-!
# 並行数の上限

`dequeueMessagesFromQueue` は、環境の上限 `⌊envLimit * burst⌋` と queue の上限
`min queueLimit envLimit` を超えて取り出さない。ただし上限を書く側と読む側は、同じ key を
別々に計算する。

* 書く側（`updateEnvConcurrencyLimits` / `updateQueueConcurrencyLimits`）は、環境と queue 名から
  key を組み立てる。
* 読む側は queue key だけを持ち、organization の波括弧を落とし、正規表現 `/:ck:.+$/` で
  concurrency key を落とす。

両者が一致する条件が `LimitsReadable` である。queue 名が `ck` で concurrency key があるとき、
正規表現は queue 名のところで当たり、上限は読まれない（`limits_not_respected`）。
-/

namespace RunQueue

open Infra Infra.Text
open Infra.Redis Infra.Redis.Script

/-! ## 上限の key が読める条件 -/

/-- 正規表現 `/:ck:.+$/` が、queue key の concurrency key の部分でだけ当たる。 -/
def CkReadable (env : EnvDescriptor) (queue : String) (ck : Option String) : Prop :=
  let body := (queueKey env queue none).toList
  let full := (queueKey env queue ck).toList
  (∀ i < body.length, ckMatchHere (full.drop i) = false) ∧
    (full ≠ body → ckMatchHere (full.drop body.length) = true)

instance (env : EnvDescriptor) (queue : String) (ck : Option String) :
    Decidable (CkReadable env queue ck) := inferInstanceAs (Decidable (_ ∧ _))

/-- 上限を書く key と読む key が一致する環境と queue。 -/
structure LimitsReadable (env : EnvDescriptor) (queue : String) (ck : Option String) : Prop where
  org : stripOrg env.orgId = env.orgId
  ck : CkReadable env queue ck

theorem stripped_eq_self {env : EnvDescriptor} (h : stripOrg env.orgId = env.orgId) :
    env.stripped = env := by
  unfold EnvDescriptor.stripped
  rw [h]

/-- queue key は、concurrency key の部分を除いて、それの無い queue key である。 -/
theorem queueKey_ck (env : EnvDescriptor) (queue : String) (ck : Option String) :
    ∃ t, (queueKey env queue ck).toList = (queueKey env queue none).toList ++ t := by
  have htail : (queueTail queue none).toList <+: (queueTail queue ck).toList := by
    unfold queueTail
    rcases concurrencyKeySections ck with _ | ⟨c, cs⟩
    · exact List.prefix_refl _
    · simp [joinColon, concurrencyKeySections, String.toList_append]
  obtain ⟨t, ht⟩ := htail
  refine ⟨t, ?_⟩
  rw [queueKey_eq_envHead, queueKey_eq_envHead]
  simp only [String.toList_append, ← ht, List.append_assoc]

/-- 条件が成り立てば、正規表現は concurrency key だけを落とす。 -/
theorem stripConcurrencyKey_queueKey {env : EnvDescriptor} {queue : String} {ck : Option String}
    (h : CkReadable env queue ck) :
    stripConcurrencyKey (queueKey env queue ck) = queueKey env queue none := by
  obtain ⟨t, ht⟩ := queueKey_ck env queue ck
  obtain ⟨hbefore, hat⟩ := h
  -- concurrency key の無い部分では、正規表現はどこにも当たらない。
  have hdrop : ∀ a u, (queueKey env queue none).toList = a ++ u → u ≠ [] →
      ckMatchHere (u ++ t) = false := by
    intro a u hau hu
    have hlen : a.length < (queueKey env queue none).toList.length := by
      rw [hau, List.length_append]
      have := List.length_pos_of_ne_nil hu
      omega
    have := hbefore a.length hlen
    rwa [ht, hau, List.append_assoc, List.drop_left] at this
  unfold stripConcurrencyKey
  apply String.toList_inj.mp
  rw [String.toList_ofList, ht]
  rcases t with _ | ⟨c, t⟩
  · rw [List.append_nil]
    exact cutAt_eq_self_iff.mpr fun a u hau hu => by simpa using hdrop a u hau hu
  · -- 当たるのは concurrency key の頭である。
    have hmatch : ckMatchHere (c :: t) = true := by
      have := hat (by rw [ht]; simp)
      rwa [ht, List.drop_left] at this
    exact cutAt_append hmatch (by simp) hdrop

/-- 条件が成り立てば、読む key は書く key である。 -/
theorem LimitsReadable.queueConcurrencyLimitKey {env : EnvDescriptor} {queue : String}
    {ck : Option String} (h : LimitsReadable env queue ck) :
    queueConcurrencyLimitKeyFromQueue (queueKey env queue ck)
      = RunQueue.queueConcurrencyLimitKey env queue := by
  unfold queueConcurrencyLimitKeyFromQueue RunQueue.queueConcurrencyLimitKey
  rw [stripConcurrencyKey_queueKey h.ck]
  simp [joinColon, String.append_assoc]

/-! ## 一回の呼び出し -/

/-- 設定された上限。 -/
structure Limits where
  envLimit : ℚ
  burst : ℚ
  queueLimit : ℚ
deriving DecidableEq

/-- 書く側の key にある上限。無ければ既定値である。 -/
def Config.configuredLimits (cfg : Config) (s : State) (env : EnvDescriptor) (queue : String) :
    Option Limits := do
  let envLimit ← numberAt s (envConcurrencyLimitKey env) cfg.defaultEnvConcurrency
  let burst ← numberAt s (envConcurrencyLimitBurstFactorKey env)
    (cfg.defaultEnvConcurrencyBurstFactor.getD 1)
  let queueLimit ← numberAt s (queueConcurrencyLimitKey env queue) 1000000
  pure ⟨envLimit, burst, queueLimit⟩

theorem Config.configuredLimits_eq_some {cfg : Config} {s : State} {env : EnvDescriptor}
    {queue : String} {l : Limits} : cfg.configuredLimits s env queue = some l ↔
      numberAt s (envConcurrencyLimitKey env) cfg.defaultEnvConcurrency = some l.envLimit ∧
      numberAt s (envConcurrencyLimitBurstFactorKey env)
        (cfg.defaultEnvConcurrencyBurstFactor.getD 1) = some l.burst ∧
      numberAt s (queueConcurrencyLimitKey env queue) 1000000 = some l.queueLimit := by
  unfold configuredLimits
  rcases numberAt s (envConcurrencyLimitKey env) cfg.defaultEnvConcurrency with _ | a
  · simp
  rcases numberAt s (envConcurrencyLimitBurstFactorKey env)
    (cfg.defaultEnvConcurrencyBurstFactor.getD 1) with _ | b
  · simp
  rcases numberAt s (queueConcurrencyLimitKey env queue) 1000000 with _ | c
  · simp
  · rcases l with ⟨a', b', c'⟩
    simp

/-- 上限の三つの key は、互いに異なる。 -/
theorem limitKeys_ne (env : EnvDescriptor) (queue : String) :
    envConcurrencyLimitBurstFactorKey env ≠ envConcurrencyLimitKey env ∧
      queueConcurrencyLimitKey env queue ≠ envConcurrencyLimitKey env ∧
      queueConcurrencyLimitKey env queue ≠ envConcurrencyLimitBurstFactorKey env := by
  -- どの key も環境の key の後に続く文字列で決まる。
  have henv : ∀ part, envPartKey env part = envHead env ++ (":" ++ part) := by
    intro part
    simp [envPartKey, envHead, joinColon, String.append_assoc]
  have hqueue : queueConcurrencyLimitKey env queue =
      envHead env ++ (":queue:" ++ queueTail queue none ++ ":concurrency") := by
    unfold queueConcurrencyLimitKey
    rw [queueKey_eq_envHead]
    simp [joinColon, String.append_assoc]
  unfold envConcurrencyLimitBurstFactorKey envConcurrencyLimitKey
  rw [hqueue, henv, henv]
  refine ⟨fun h => ?_, fun h => ?_, fun h => ?_⟩
  · exact absurd (String.append_right_inj _ |>.mp h) (by decide)
  all_goals
    have hlist := congrArg String.toList (String.append_right_inj _ |>.mp h)
    simp [String.toList_append] at hlist

theorem numberAt_setStr_self (s : State) (k : String) (q d : ℚ) :
    numberAt (s.setStr k (some (.number q))) k d = some q := by
  unfold numberAt
  rw [Db.setStr_strs, Function.update_self]
  rfl

theorem numberAt_setStr_none (s : State) (k : String) (d : ℚ) :
    numberAt (s.setStr k none) k d = some d := by
  unfold numberAt
  rw [Db.setStr_strs, Function.update_self]

theorem numberAt_setStr_of_ne {k k' : String} (h : k ≠ k') (s : State) (v : Option Stored) (d : ℚ) :
    numberAt (s.setStr k v) k' d = numberAt s k' d := by
  unfold numberAt
  rw [Db.setStr_strs, Function.update_of_ne h.symm]

/-- 上限を書いた後の設定は、書いた値である。queue の上限を消せば、既定値に戻る。 -/
theorem configuredLimits_update (cfg : Config) (env : Environment) (queue : String)
    (concurrency : ℚ) (s : State) :
    cfg.configuredLimits ((do
        updateEnvConcurrencyLimits env
        updateQueueConcurrencyLimits env queue concurrency : Script Stored Unit) s).2
      env.descriptor queue =
        some ⟨env.maximumConcurrencyLimit, env.concurrencyLimitBurstFactor, concurrency⟩ ∧
    cfg.configuredLimits ((do
        updateEnvConcurrencyLimits env
        removeQueueConcurrencyLimits env queue : Script Stored Unit) s).2
      env.descriptor queue =
        some ⟨env.maximumConcurrencyLimit, env.concurrencyLimitBurstFactor, 1000000⟩ := by
  obtain ⟨hburst, hqueue, hqueueBurst⟩ := limitKeys_ne env.descriptor queue
  let written := (s.setStr (envConcurrencyLimitKey env.descriptor)
    (some (.number env.maximumConcurrencyLimit))).setStr
      (envConcurrencyLimitBurstFactorKey env.descriptor)
      (some (.number env.concurrencyLimitBurstFactor))
  -- queue の上限の key に何を書いても、環境の二つの値は変わらない
  have henv : ∀ (v : Option Stored) (d : ℚ),
      numberAt (written.setStr (queueConcurrencyLimitKey env.descriptor queue) v)
        (envConcurrencyLimitKey env.descriptor) d =
          some (env.maximumConcurrencyLimit : ℚ) := by
    intro v d
    rw [numberAt_setStr_of_ne hqueue, numberAt_setStr_of_ne hburst, numberAt_setStr_self]
  have hfactor : ∀ (v : Option Stored) (d : ℚ),
      numberAt (written.setStr (queueConcurrencyLimitKey env.descriptor queue) v)
        (envConcurrencyLimitBurstFactorKey env.descriptor) d =
          some env.concurrencyLimitBurstFactor := by
    intro v d
    rw [numberAt_setStr_of_ne hqueueBurst, numberAt_setStr_self]
  exact ⟨Config.configuredLimits_eq_some.mpr ⟨henv _ _, hfactor _ _, numberAt_setStr_self ..⟩,
    Config.configuredLimits_eq_some.mpr ⟨henv _ _, hfactor _ _, numberAt_setStr_none ..⟩⟩

/-- 設定された上限の下で取り出せる件数。 -/
def Config.availableCount (cfg : Config) (s : State) (env : EnvDescriptor) (queue : String)
    (ck : Option String) (l : Limits) (maxCount : ℚ) : ℚ :=
  dequeueCount cfg.mul l.envLimit l.burst l.queueLimit maxCount
    (s.sets (envCurrentConcurrencyKey env)).card
    (s.sets (queueCurrentConcurrencyKey env queue ck)).card

/-- 時刻 `t` までの、score の小さい順に `count` 件。 -/
def firstDue (s : State) (queueKey : String) (t count : ℚ) : List (String × ℚ) :=
  ((s.zsets queueKey).rangeByScore t).take ⌊max 0 count⌋.toNat

/-- 一回の呼び出しが上限の通りに振る舞う。 -/
structure CallSpec (cfg : Config) (env : EnvDescriptor) (queue : String) (ck : Option String)
    (t maxCount : ℚ) (l : Limits) (s : State) (r : Except Error (Option (List DequeuedEntry)))
    (s' : State) : Prop where
  env_bound : ((s'.sets (envCurrentConcurrencyKey env)).card : Int) ≤
    max ((s.sets (envCurrentConcurrencyKey env)).card : Int) ⌊cfg.mul l.envLimit l.burst⌋
  queue_bound : ((s'.sets (queueCurrentConcurrencyKey env queue ck)).card : ℚ) ≤
    max ((s.sets (queueCurrentConcurrencyKey env queue ck)).card : ℚ) (min l.queueLimit l.envLimit)
  returned : ∀ o, r = .ok o → o.getD [] = collect s (orgKeySection env.orgId ++ ":message:")
    (firstDue s (queueKey env queue ck) t (cfg.availableCount s env queue ck l maxCount))
  count : ∀ o, r = .ok o →
    ((o.getD []).length : ℚ) ≤ max 0 (cfg.availableCount s env queue ck l maxCount)
  moved : ∀ o, r = .ok o → Removed s s' (queueKey env queue ck) (o.getD []) ∧
    Removed s s' (envQueueKey env) (o.getD []) ∧
    Added s s' (queueCurrentConcurrencyKey env queue ck) (o.getD []) ∧
    Added s s' (envCurrentConcurrencyKey env) (o.getD [])

/-- 呼び出しが使う key の型が合い、件数が整数である状態。 -/
structure CallTyped (cfg : Config) (env : EnvDescriptor) (queue : String) (ck : Option String)
    (shard : Nat) (maxCount : ℚ) (l : Limits) (s : State) : Prop where
  envLimit : s.StrTyped (envConcurrencyLimitKey env)
  burst : s.StrTyped (envConcurrencyLimitBurstFactorKey env)
  queueLimit : s.StrTyped (queueConcurrencyLimitKey env queue)
  queueZset : s.ZTyped (queueKey env queue ck)
  envQueueZset : s.ZTyped (envQueueKey env)
  queueSet : s.STyped (queueCurrentConcurrencyKey env queue ck)
  envSet : s.STyped (envCurrentConcurrencyKey env)
  message : ∀ id, s.StrTyped (messageKey env.orgId id)
  master : s.ZTyped (masterQueueKeyForShard shard)
  integral : (cfg.availableCount s env queue ck l maxCount).den = 1

/-- どの状態・時刻・件数の呼び出しも上限の通りに振る舞い、型の合う状態では必ず答える。 -/
def CallRespectsLimits (cfg : Config) (env : EnvDescriptor) (queue : String)
    (ck : Option String) : Prop :=
  ∀ (shard : Nat) (t maxCount : ℚ) (s : State) (l : Limits),
    cfg.configuredLimits s env queue = some l →
    CallSpec cfg env queue ck t maxCount l s
      (cfg.callDequeueMessagesFromQueue (queueKey env queue ck) shard t maxCount s).1
      (cfg.callDequeueMessagesFromQueue (queueKey env queue ck) shard t maxCount s).2 ∧
    (CallTyped cfg env queue ck shard maxCount l s →
      ∃ o, (cfg.callDequeueMessagesFromQueue (queueKey env queue ck) shard t maxCount s).1 = .ok o)

section Call

variable {cfg : Config} {env : EnvDescriptor} {queue : String} {ck : Option String}
  {shard : Nat} {t maxCount : ℚ} {s s' : State} {l : Limits}

theorem queueCurrentConcurrencyKey_eq (env : EnvDescriptor) (queue : String) (ck : Option String) :
    queueCurrentConcurrencyKey env queue ck
      = queueCurrentConcurrencyKeyFromQueue (queueKey env queue ck) := by
  unfold queueCurrentConcurrencyKey queueCurrentConcurrencyKeyFromQueue
  simp [joinColon, String.append_assoc]

/-- 呼び出しの `for` の key。 -/
def callKeys (h : env.NoColons) (queue : String) (ck : Option String) : LoopKeys where
  queue := queueKey env queue ck
  envQueue := envQueueKey env
  queueSet := queueCurrentConcurrencyKey env queue ck
  envSet := envCurrentConcurrencyKey env
  messagePrefix := orgKeySection env.orgId ++ ":message:"
  queue_ne := ne_of_kindOf (by simp [kindOf_queueKey h, kindOf_envQueueKey h])
  set_ne := ne_of_kindOf (by
    rw [queueCurrentConcurrencyKey, kindOf_envCurrentConcurrencyKey h]
    simp [joinColon, kindOf_queueKey_append h])

theorem callKeys_apart (h : env.NoColons) : (callKeys h queue ck).Apart := by
  have hset : kindOf (queueCurrentConcurrencyKey env queue ck) = none := by
    simp [queueCurrentConcurrencyKey, joinColon, kindOf_queueKey_append h]
  have hmsg : ∀ id, kindOf (orgKeySection env.orgId ++ ":message:" ++ id) = some .str := by
    intro id
    rw [messageKeyPrefix_append]
    exact kindOf_messageKey h.org id
  constructor
  · rintro j (rfl | rfl)
    · refine ⟨?_, ne_of_kindOf (by simp [callKeys, hset, kindOf_envQueueKey h])⟩
      intro hk
      have := congrArg (fun x : String => x.toList.length) hk
      simp [callKeys, queueCurrentConcurrencyKey, joinColon] at this
    · refine ⟨ne_of_kindOf ?_, ne_of_kindOf ?_⟩
      · simp [callKeys, kindOf_envCurrentConcurrencyKey h, kindOf_queueKey h]
      · simp [callKeys, kindOf_envCurrentConcurrencyKey h, kindOf_envQueueKey h]
  · intro id
    refine ⟨ne_of_kindOf ?_, ne_of_kindOf ?_, ne_of_kindOf ?_, ne_of_kindOf ?_⟩
    · simp [callKeys, hmsg, kindOf_queueKey h]
    · simp [callKeys, hmsg, kindOf_envQueueKey h]
    · simp [callKeys, hmsg, hset]
    · simp [callKeys, hmsg, kindOf_envCurrentConcurrencyKey h]

/-- 呼び出しは、読み戻した環境の key で script を走らせる。 -/
theorem callDequeueMessagesFromQueue_stripped (h : env.NoColons) :
    cfg.callDequeueMessagesFromQueue (queueKey env queue ck) shard t maxCount
      = dequeueMessagesFromQueueLua cfg.mul (queueKey env queue ck)
        (queueConcurrencyLimitKeyFromQueue (queueKey env queue ck))
        (envConcurrencyLimitKey env.stripped) (envConcurrencyLimitBurstFactorKey env.stripped)
        (queueCurrentConcurrencyKey env queue ck) (envCurrentConcurrencyKey env.stripped)
        (orgKeySection (stripOrg env.orgId) ++ ":message:") (envQueueKey env.stripped)
        (masterQueueKeyForShard shard) (queueKey env queue ck) t cfg.defaultEnvConcurrency
        (cfg.defaultEnvConcurrencyBurstFactor.getD 1) maxCount := by
  unfold Config.callDequeueMessagesFromQueue
  rw [envConcurrencyLimitKeyFromQueue_queueKey h, envConcurrencyLimitBurstFactorKeyFromQueue_queueKey h,
    envCurrentConcurrencyKeyFromQueue_queueKey h, messageKeyPrefixFromQueue_queueKey h,
    envQueueKeyFromQueue_queueKey h, queueCurrentConcurrencyKey_eq]
  rfl

/-- organization の id が変わらなければ、環境の key は書く側のものである。 -/
theorem callDequeueMessagesFromQueue_eq (h : env.NoColons) (ho : stripOrg env.orgId = env.orgId) :
    cfg.callDequeueMessagesFromQueue (queueKey env queue ck) shard t maxCount
      = dequeueMessagesFromQueueLua cfg.mul (queueKey env queue ck)
        (queueConcurrencyLimitKeyFromQueue (queueKey env queue ck)) (envConcurrencyLimitKey env)
        (envConcurrencyLimitBurstFactorKey env) (queueCurrentConcurrencyKey env queue ck)
        (envCurrentConcurrencyKey env) (orgKeySection env.orgId ++ ":message:") (envQueueKey env)
        (masterQueueKeyForShard shard) (queueKey env queue ck) t cfg.defaultEnvConcurrency
        (cfg.defaultEnvConcurrencyBurstFactor.getD 1) maxCount := by
  rw [callDequeueMessagesFromQueue_stripped h, stripped_eq_self ho, ho]

theorem limitTo_eq_take {α : Type} {count : ℚ} (hpos : 0 < count) (hd : count.den = 1)
    (l : List α) : limitTo count l = l.take ⌊max 0 count⌋.toNat := by
  have hnum : ¬ count.num < 0 := not_lt.mpr (Rat.num_nonneg.mpr hpos.le)
  have hfloor : ⌊max 0 count⌋ = count.num := by
    rw [max_eq_right hpos.le, ← Rat.coe_int_num_of_den_eq_one hd]
    simp
  unfold limitTo
  rw [if_neg hnum, hfloor]

theorem take_floor_length_le {α : Type} (count : ℚ) (l : List α) :
    ((l.take ⌊max 0 count⌋.toNat).length : ℚ) ≤ max 0 count := by
  have h0 : (0 : ℚ) ≤ max 0 count := le_max_left _ _
  have hle : (l.take ⌊max 0 count⌋.toNat).length ≤ ⌊max 0 count⌋.toNat := by simp
  calc ((l.take ⌊max 0 count⌋.toNat).length : ℚ) ≤ (⌊max 0 count⌋.toNat : ℚ) := by exact_mod_cast hle
    _ = ((⌊max 0 count⌋ : Int) : ℚ) := by
      have := Int.toNat_of_nonneg (Int.floor_nonneg.mpr h0)
      exact_mod_cast this
    _ ≤ max 0 count := Int.floor_le _

/-- 件数が無いか、期限の来たものが無ければ、取り出すものは無い。 -/
theorem firstDue_eq_nil {k : String} {count : ℚ}
    (h : count ≤ 0 ∨ limitTo count ((s.zsets k).rangeByScore t) = []) :
    firstDue s k t count = [] := by
  unfold firstDue
  by_cases hpos : count ≤ 0
  · simp [max_eq_left hpos]
  · have hnil := h.resolve_left hpos
    have hnum : 0 < count.num := Rat.num_pos.mpr (not_le.mp hpos)
    unfold limitTo at hnil
    rw [if_neg (not_lt.mpr hnum.le)] at hnil
    rcases List.take_eq_nil_iff.mp hnil with h0 | h0
    · omega
    · simp [h0]

theorem collect_length_le (p : String) (messages : List (String × ℚ)) :
    (collect s p messages).length ≤ messages.length := List.length_filterMap_le _ _

/-- 何も移さなかった呼び出し。 -/
theorem CallSpec.unchanged_none
    (h : firstDue s (queueKey env queue ck) t (cfg.availableCount s env queue ck l maxCount) = []) :
    CallSpec cfg env queue ck t maxCount l s (.ok none) s := by
  refine ⟨le_max_left _ _, le_max_left _ _, ?_, ?_, ?_⟩ <;> rintro o ⟨⟩
  · rw [h]
    rfl
  · simp
  · exact ⟨fun n => by simp, fun n => by simp, fun n => by simp, fun n => by simp⟩

theorem CallSpec.unchanged_error (e : Error) :
    CallSpec cfg env queue ck t maxCount l s (.error e) s := by
  refine ⟨le_max_left _ _, le_max_left _ _, ?_, ?_, ?_⟩ <;> intro o ho <;> simp at ho

/-- 調べた件数が `availableCount` を超えなければ、二つの集合は上限に収まる。 -/
theorem bounds_of_card_le {n : Nat} (hn : (n : ℚ) ≤ cfg.availableCount s env queue ck l maxCount)
    (hcard : ∀ j, (s'.sets j).card ≤ (s.sets j).card + n) :
    ((s'.sets (envCurrentConcurrencyKey env)).card : Int) ≤ ⌊cfg.mul l.envLimit l.burst⌋ ∧
      ((s'.sets (queueCurrentConcurrencyKey env queue ck)).card : ℚ) ≤
        min l.queueLimit l.envLimit := by
  have henv := hn.trans dequeueCount_le_env
  have hqueue := hn.trans dequeueCount_le_queue
  have h₁ := hcard (envCurrentConcurrencyKey env)
  have h₂ := hcard (queueCurrentConcurrencyKey env queue ck)
  constructor
  · have : (n : Int) ≤ ⌊cfg.mul l.envLimit l.burst⌋
        - ((s.sets (envCurrentConcurrencyKey env)).card : Int) := by exact_mod_cast henv
    omega
  · have h₂' : ((s'.sets (queueCurrentConcurrencyKey env queue ck)).card : ℚ) ≤
        (s.sets (queueCurrentConcurrencyKey env queue ck)).card + n := by exact_mod_cast h₂
    linarith

theorem CallSpec.error_of_bounds (e : Error)
    (h : ((s'.sets (envCurrentConcurrencyKey env)).card : Int) ≤ ⌊cfg.mul l.envLimit l.burst⌋ ∧
      ((s'.sets (queueCurrentConcurrencyKey env queue ck)).card : ℚ) ≤
        min l.queueLimit l.envLimit) :
    CallSpec cfg env queue ck t maxCount l s (.error e) s' := by
  refine ⟨le_max_of_le_right h.1, le_max_of_le_right h.2, ?_, ?_, ?_⟩ <;> intro o ho <;> simp at ho

theorem ne_masterQueueKey {j : String} {shard : Nat} (h : (signature j).1 = some "\x7borg") :
    j ≠ masterQueueKeyForShard shard := by
  rintro rfl
  rw [signature_masterQueueKeyForShard] at h
  simp at h

theorem loopTyped_of_callTyped (h : env.NoColons)
    (ht : CallTyped cfg env queue ck shard maxCount l s) : LoopTyped (callKeys h queue ck) s :=
  ⟨ht.queueZset, ht.envQueueZset, ht.queueSet, ht.envSet, fun id => by
    rw [callKeys, messageKeyPrefix_append]
    exact ht.message id⟩

/-- `for` と `rebalance` の後の master queue の型。 -/
theorem master_typed_after (h : env.NoColons) {ids : List String} {s₁ : State}
    (hframe : LoopFrame (callKeys h queue ck) ids s s₁)
    (ht : s.ZTyped (masterQueueKeyForShard shard)) : s₁.ZTyped (masterQueueKeyForShard shard) := by
  have hq : (signature (queueCurrentConcurrencyKey env queue ck)).1 = some "\x7borg" := by
    simp [queueCurrentConcurrencyKey, joinColon, signature_queueKey_append h]
  have he : (signature (envCurrentConcurrencyKey env)).1 = some "\x7borg" := by
    rw [envCurrentConcurrencyKey, signature_envPartKey h (by decide)]
  have hm := hframe.sets_other (masterQueueKeyForShard shard) (ne_masterQueueKey hq).symm
    (ne_masterQueueKey he).symm
  unfold Db.ZTyped
  rw [hframe.strs, hframe.lists, hm]
  exact ht

/-- 検査を通った後の `for` と `rebalance`。 -/
theorem wp_callLoop (h : env.NoColons) {count : ℚ}
    (hcount : count = cfg.availableCount s env queue ck l maxCount) (hpos : 0 < count)
    {messages : List (String × ℚ)} (hm : messages = firstDue s (queueKey env queue ck) t count) :
    wp (do
      let results ← (callKeys h queue ck).loop messages
      rebalance (masterQueueKeyForShard shard) (queueKey env queue ck) (queueKey env queue ck)
      pure (some results)) (fun r s' => CallSpec cfg env queue ck t maxCount l s r s' ∧
        (CallTyped cfg env queue ck shard maxCount l s → ∃ o, r = .ok o)) s := by
  -- 取り出す件数は空きを超えないので、集合は上限の中に留まる
  have hlen : (messages.length : ℚ) ≤ count := by
    rw [hm]
    exact (take_floor_length_le count _).trans (le_of_eq (max_eq_right hpos.le))
  have hok : wp ((callKeys h queue ck).loop messages) (fun r s' =>
      CallTyped cfg env queue ck shard maxCount l s →
        (∃ rs, r = .ok rs) ∧ LoopTyped (callKeys h queue ck) s') s :=
    fun ht => wp_loop_ok (callKeys_apart h) messages s (loopTyped_of_callTyped h ht)
  have hloop := wp_and (wp_loop (k := callKeys h queue ck) messages s) hok
  refine wp_bind (wp_mono hloop fun res s₁ ⟨⟨hframe, hdone⟩, hT⟩ => ?_)
  have hb := bounds_of_card_le (n := messages.length) (hcount ▸ hlen) fun j => by
    simpa using hframe.card_le j
  rcases res with e | rs
  · refine ⟨CallSpec.error_of_bounds e hb, fun ht => ?_⟩
    obtain ⟨rs, hrs⟩ := (hT ht).1
    exact absurd hrs (by simp)
  refine wp_bind (wp_mono wp_rebalance_frame fun res s₂ ⟨_, hsets, _, hz, hreb⟩ => ?_)
  rw [← hsets] at hb
  rcases res with e | ⟨⟩
  · refine ⟨CallSpec.error_of_bounds e hb, fun ht => ?_⟩
    exact absurd (hreb (hT ht).2.queue (master_typed_after h hframe ht.master)) (by simp)
  have hd := hdone rs rfl
  refine wp_pure.mpr ⟨⟨le_max_of_le_right hb.1, le_max_of_le_right hb.2, ?_, ?_, ?_⟩,
    fun _ => ⟨_, rfl⟩⟩ <;> rintro o ⟨⟩
  · rw [← hcount, ← hm]
    exact hd.results
  · have hle := collect_length_le (s := s) (orgKeySection env.orgId ++ ":message:") messages
    rw [Option.getD_some, hd.results, ← hcount]
    exact le_max_of_le_right ((by exact_mod_cast hle : _ ≤ (messages.length : ℚ)).trans hlen)
  · refine ⟨fun n => ?_, fun n => ?_, fun n => ?_, fun n => ?_⟩
    · rw [hz _ (ne_masterQueueKey (by simp [signature_queueKey h]))]
      exact hd.queue n
    · rw [hz _ (ne_masterQueueKey (by simp [signature_envQueueKey h]))]
      exact hd.envQueue n
    · rw [hsets]
      exact hd.queueSet n
    · rw [hsets]
      exact hd.envSet n

/-- 一回の呼び出し。queue の上限 `l.queueLimit` は、呼び出しが実際に読む key にあるものである。 -/
theorem callDequeue_spec (shard : Nat) (t maxCount : ℚ) (h : env.NoColons)
    (ho : stripOrg env.orgId = env.orgId)
    (hL : numberAt s (envConcurrencyLimitKey env) cfg.defaultEnvConcurrency = some l.envLimit)
    (hB : numberAt s (envConcurrencyLimitBurstFactorKey env)
      (cfg.defaultEnvConcurrencyBurstFactor.getD 1) = some l.burst)
    (hQ : numberAt s (queueConcurrencyLimitKeyFromQueue (queueKey env queue ck)) 1000000
      = some l.queueLimit) :
    wp (cfg.callDequeueMessagesFromQueue (queueKey env queue ck) shard t maxCount) (fun r s' =>
      CallSpec cfg env queue ck t maxCount l s r s' ∧
      (CallTyped cfg env queue ck shard maxCount l s →
        s.StrTyped (queueConcurrencyLimitKeyFromQueue (queueKey env queue ck)) → ∃ o, r = .ok o))
      s := by
  rw [callDequeueMessagesFromQueue_eq h ho]
  refine wp_dequeueMessagesFromQueueLua hL hB hQ
    (show cfg.availableCount s env queue ck l maxCount = _ from rfl) (fun hnil => ?_)
    (fun e hn => ?_) (fun hpos hready => ?_)
  · exact ⟨CallSpec.unchanged_none (firstDue_eq_nil hnil), fun _ _ => ⟨none, rfl⟩⟩
  · refine ⟨CallSpec.unchanged_error e, fun ht hq => absurd ?_ hn⟩
    exact ⟨ht.envSet, ht.envLimit, ht.burst, ht.queueSet, hq, ht.queueZset, ht.integral⟩
  · refine wp_mono (wp_callLoop h rfl hpos (limitTo_eq_take hpos hready.integral _))
      fun r s' hr => ?_
    exact ⟨hr.1, fun ht _ => hr.2 ht⟩

/-- **読める上限は、一回の呼び出しで超えられない。** -/
theorem callRespectsLimits_of_readable (h : env.NoColons) (hr : LimitsReadable env queue ck) :
    CallRespectsLimits cfg env queue ck := by
  intro shard t maxCount s l hl
  obtain ⟨hL, hB, hQ⟩ := Config.configuredLimits_eq_some.mp hl
  rw [← hr.queueConcurrencyLimitKey] at hQ
  obtain ⟨hspec, hok⟩ := callDequeue_spec shard t maxCount h hr.org hL hB hQ
  refine ⟨hspec, fun ht => hok ht ?_⟩
  rw [hr.queueConcurrencyLimitKey]
  exact ht.queueLimit

end Call

/-! ## 上限に触れない command

`dequeueMessagesFromQueue` 以外の command は、payload 以外の文字列を書かず、
`currentConcurrency` の集合を大きくしない。 -/

/-- 上限を変えず、`currentConcurrency` を大きくしない遷移。 -/
structure Calm (s s' : State) : Prop where
  strs : ∀ k, kindOf k ≠ some .str → s'.strs k = s.strs k
  sets : ∀ k, lastPart k = some "currentConcurrency" → s'.sets k ⊆ s.sets k

theorem Calm.refl (s : State) : Calm s s := ⟨fun _ _ => rfl, fun _ _ => subset_rfl⟩

theorem Calm.trans {s s₁ s' : State} (h : Calm s s₁) (h' : Calm s₁ s') : Calm s s' :=
  ⟨fun k hk => (h'.strs k hk).trans (h.strs k hk),
    fun k hk => (h'.sets k hk).trans (h.sets k hk)⟩

/-- どの状態からも `Calm` に走る script。 -/
abbrev Calmly {α : Type} (c : Script Stored α) : Prop := c.Respects Calm

section Calmly

variable {α β : Type}

theorem Calmly.pure (a : α) : Calmly (Pure.pure a : Script Stored α) := fun s => Calm.refl s

theorem Calmly.fail (e : Error) : Calmly (Script.fail e : Script Stored α) := fun s => Calm.refl s

theorem Calmly.bind {c : Script Stored α} {f : α → Script Stored β} (hc : Calmly c)
    (hf : ∀ a, Calmly (f a)) : Calmly (c >>= f) :=
  Respects.bind (R := Calm) Calm.trans hc hf

theorem Calmly.guarded {P : State → Prop} [DecidablePred P] {f : ∀ s, P s → α × State}
    (hf : ∀ s h, Calm s (f s h).2) : Calmly (Redis.guarded P f) := respects_guarded Calm.refl hf

theorem calmly_get (k : String) : Calmly (get k) := Calmly.guarded fun s _ => Calm.refl s

theorem calmly_zfirst (k : String) : Calmly (zfirst k) := Calmly.guarded fun s _ => Calm.refl s

theorem calmly_llen (k : String) : Calmly (llen k) := Calmly.guarded fun s _ => Calm.refl s

theorem calmly_zadd (k : String) (x : ℚ) (m : String) : Calmly (zadd k x m) :=
  Calmly.guarded fun _ _ => ⟨fun _ _ => rfl, fun _ _ => subset_rfl⟩

theorem calmly_zrem (k m : String) : Calmly (zrem k m) :=
  Calmly.guarded fun _ _ => ⟨fun _ _ => rfl, fun _ _ => subset_rfl⟩

theorem calmly_rpush (k v : String) : Calmly (rpush k v) :=
  Calmly.guarded fun _ _ => ⟨fun _ _ => rfl, fun _ _ => subset_rfl⟩

theorem calmly_lpop (k : String) : Calmly (lpop k) :=
  Calmly.guarded fun _ _ => ⟨fun _ _ => rfl, fun _ _ => subset_rfl⟩

theorem calmly_lrem (k v : String) : Calmly (lrem k v) :=
  Calmly.guarded fun _ _ => ⟨fun _ _ => rfl, fun _ _ => subset_rfl⟩

theorem calmly_srem (k m : String) : Calmly (srem k m) := by
  refine Calmly.guarded fun s _ => ⟨fun _ _ => rfl, fun j _ => ?_⟩
  by_cases hj : j = k
  · subst hj
    simpa using Finset.erase_subset m (s.sets j)
  · simp [hj]

theorem calmly_sadd {k : String} (hk : lastPart k ≠ some "currentConcurrency") (m : String) :
    Calmly (sadd k m) := by
  refine Calmly.guarded fun s _ => ⟨fun _ _ => rfl, fun j hj => ?_⟩
  have hne : j ≠ k := fun e => hk (e ▸ hj)
  simp [hne]

theorem calm_setStr {k : String} (hk : kindOf k = some .str) (v : Option Stored) (s : State) :
    Calm s (s.setStr k v) := by
  refine ⟨fun j hj => ?_, fun j _ => ?_⟩
  · have hne : j ≠ k := fun e => hj (e ▸ hk)
    simp [hne]
  · by_cases hj : j = k
    · subst hj
      simp
    · simp [hj]

theorem calmly_set {k : String} (hk : kindOf k = some .str) (v : Stored) : Calmly (set k v) :=
  fun s => calm_setStr hk _ s

theorem calmly_del {k : String} (hk : kindOf k = some .str) : Calmly (del k : Script Stored Unit) :=
  fun s => calm_setStr hk _ s

theorem calmly_key (o : Option String) : Calmly (key o) := by
  rcases o with _ | k
  · exact Calmly.fail _
  · exact Calmly.pure k

theorem calmly_rebalance (masterQueueKey queueKey queueName : String) :
    Calmly (rebalance masterQueueKey queueKey queueName) := by
  refine (calmly_zfirst _).bind fun o => ?_
  rcases o with _ | ⟨_, x⟩
  · exact (calmly_zrem _ _).bind fun _ => Calmly.pure ()
  · exact calmly_zadd _ _ _

theorem calmly_removeConcurrency (a b c d r : String) : Calmly (removeConcurrency a b c d r) :=
  (calmly_srem _ _).bind fun _ => (calmly_srem _ _).bind fun _ =>
    (calmly_srem _ _).bind fun _ => calmly_srem _ _

end Calmly

section CalmCalls

variable {cfg : Config} {m : OutputPayload}

theorem calmly_callEnqueueMessage (h : NoColon m.orgId) : Calmly (cfg.callEnqueueMessage m) :=
  (calmly_key _).bind fun _ => (calmly_key _).bind fun _ => (calmly_key _).bind fun _ =>
    (calmly_set (kindOf_messageKey h _) _).bind fun _ => (calmly_zadd _ _ _).bind fun _ =>
    (calmly_zadd _ _ _).bind fun _ => (calmly_rebalance _ _ _).bind fun _ =>
    calmly_removeConcurrency _ _ _ _ _

theorem calmly_callAcknowledgeMessage (h : NoColon m.orgId) (b : Bool) :
    Calmly (cfg.callAcknowledgeMessage m b) := by
  refine (calmly_key _).bind fun _ => (calmly_key _).bind fun _ => (calmly_key _).bind fun _ =>
    (calmly_del (kindOf_messageKey h _)).bind fun _ => (calmly_zrem _ _).bind fun _ =>
    (calmly_zrem _ _).bind fun _ => (calmly_rebalance _ _ _).bind fun _ =>
    (calmly_removeConcurrency _ _ _ _ _).bind fun _ => ?_
  rcases b with _ | _
  · exact Calmly.pure ()
  · exact calmly_lrem _ _

theorem calmly_callNackMessage (h : NoColon m.orgId) (x : ℚ) : Calmly (cfg.callNackMessage m x) :=
  (calmly_key _).bind fun _ => (calmly_key _).bind fun _ => (calmly_key _).bind fun _ =>
    (calmly_set (kindOf_messageKey h _) _).bind fun _ =>
    (calmly_removeConcurrency _ _ _ _ _).bind fun _ => (calmly_zadd _ _ _).bind fun _ =>
    (calmly_zadd _ _ _).bind fun _ => calmly_rebalance _ _ _

theorem calmly_callMoveToDeadLetterQueue (now : ℚ) :
    Calmly (cfg.callMoveToDeadLetterQueue m now) :=
  (calmly_key _).bind fun _ => (calmly_key _).bind fun _ => (calmly_key _).bind fun _ =>
    (calmly_key _).bind fun _ => (calmly_zrem _ _).bind fun _ => (calmly_zrem _ _).bind fun _ =>
    (calmly_rebalance _ _ _).bind fun _ => (calmly_zadd _ _ _).bind fun _ =>
    calmly_removeConcurrency _ _ _ _ _

theorem calmly_callReleaseConcurrency : Calmly (callReleaseConcurrency m) :=
  (calmly_key _).bind fun _ => (calmly_key _).bind fun _ => calmly_removeConcurrency _ _ _ _ _

theorem calmly_releaseAllConcurrency (orgId messageId : String) :
    Calmly (releaseAllConcurrency orgId messageId) := by
  have hread : Calmly (readMessage orgId messageId) := by
    refine (calmly_get _).bind fun o => ?_
    rcases o with _ | q | m
    · exact Calmly.pure _
    · simp only
      split
      · exact Calmly.pure _
      · exact Calmly.fail _
    · exact Calmly.pure _
  refine hread.bind fun o => ?_
  cases o with
  | none => exact Calmly.pure ()
  | some m => exact calmly_callReleaseConcurrency

theorem calmly_dequeueMessageFromKeyLua (k : String) : Calmly (dequeueMessageFromKeyLua k) := by
  refine (calmly_get k).bind fun o => ?_
  rcases o with _ | q | m
  · exact Calmly.pure _
  · exact Calmly.fail _
  · simp only
    split
    · exact Calmly.fail _
    · exact (calmly_sadd (by rw [lastPart_currentDequeued]; decide) _).bind fun _ =>
        (calmly_sadd (by rw [lastPart_currentDequeued]; decide) _).bind fun _ => Calmly.pure _

theorem calmly_dequeueMessageFromWorkerQueueNonBlockingLua (k : String) :
    Calmly (dequeueMessageFromWorkerQueueNonBlockingLua k) := by
  refine (calmly_lpop k).bind fun o => ?_
  rcases o with _ | id
  · exact Calmly.pure _
  · exact (calmly_llen _).bind fun _ => Calmly.pure _

theorem calmly_migrateLegacyMasterQueuesLua (masterQueueKey : String) : ∀ names : List String,
    Calmly (migrateLegacyMasterQueuesLua masterQueueKey names)
  | [] => Calmly.pure ()
  | _ :: names => (calmly_rebalance _ _ _).bind fun _ =>
    calmly_migrateLegacyMasterQueuesLua masterQueueKey names

theorem calmly_zremAll (k : String) : ∀ l : List String, Calmly (zremAll k l)
  | [] => Calmly.pure ()
  | _ :: l => (calmly_zrem _ _).bind fun _ => calmly_zremAll k l

theorem calmly_markCompletedRunsForAckLua (k : String) (t : ℚ) : ∀ l : List (String × String),
    Calmly (markCompletedRunsForAckLua k t l)
  | [] => Calmly.pure ()
  | _ :: l => (calmly_zadd _ _ _).bind fun _ => calmly_markCompletedRunsForAckLua k t l

theorem calmly_getMarkedRunsForAckLua (k : String) (n : Int) :
    Calmly (getMarkedRunsForAckLua k n) := by
  have hrange : Calmly (zrange k (n - 1)) := Calmly.guarded fun s _ => Calm.refl s
  refine hrange.bind fun l => ?_
  simp only
  split
  · exact Calmly.pure _
  · exact (calmly_zremAll _ _).bind fun _ => Calmly.pure _

end CalmCalls

/-! ## 走行 -/

/-- RunQueue が Redis に送る command。上限を書き換えるものは含まない。 -/
inductive Operation
  | enqueueMessage (message : OutputPayload)
  | dequeueMessagesFromQueue (env : EnvDescriptor) (queue : String) (ck : Option String)
    (shard : Nat) (currentTime maxCount : ℚ)
  | enqueueMessageToWorkerQueue (workerQueue messageKey : String)
  | dequeueMessageFromWorkerQueue (workerQueue : String)
  | dequeueMessageFromKey (messageKey : String)
  | acknowledgeMessage (message : OutputPayload) (removeFromWorkerQueue : Bool)
  | nackMessage (message : OutputPayload) (messageScore : ℚ)
  | moveToDeadLetterQueue (message : OutputPayload) (now : ℚ)
  | removeFromDeadLetterQueue (env : EnvDescriptor) (runId : String)
  | releaseConcurrency (message : OutputPayload)
  | clearMessageFromConcurrencySets (runId queue : String) (env : EnvDescriptor)
  | markCompletedRunsForAck (currentTime : ℚ) (runs : List (String × String))
  | getMarkedRunsForAck (maxCount : Int)
  | migrateLegacyMasterQueues (shard : Nat) (queueNames : List String)
  | removeFromMasterQueue (shard : Nat) (queueNames : List String)

/-- command を走らせた後の状態。 -/
def Operation.exec (cfg : Config) (s : State) : Operation → State
  | .enqueueMessage m => (cfg.callEnqueueMessage m s).2
  | .dequeueMessagesFromQueue env queue ck shard t n =>
    (cfg.callDequeueMessagesFromQueue (queueKey env queue ck) shard t n s).2
  | .enqueueMessageToWorkerQueue w k => (rpush (workerQueueKey w) k s).2
  | .dequeueMessageFromWorkerQueue w =>
    (dequeueMessageFromWorkerQueueNonBlockingLua (workerQueueKey w) s).2
  | .dequeueMessageFromKey k => (dequeueMessageFromKeyLua k s).2
  | .acknowledgeMessage m b => (cfg.callAcknowledgeMessage m b s).2
  | .nackMessage m x => (cfg.callNackMessage m x s).2
  | .moveToDeadLetterQueue m now => (cfg.callMoveToDeadLetterQueue m now s).2
  | .removeFromDeadLetterQueue env r => (zrem (deadLetterQueueKey env) r s).2
  | .releaseConcurrency m => (callReleaseConcurrency m s).2
  | .clearMessageFromConcurrencySets r queue env =>
    (callClearMessageFromConcurrencySets r queue env s).2
  | .markCompletedRunsForAck t l => (markCompletedRunsForAckLua markedForAckKey t l s).2
  | .getMarkedRunsForAck n => (getMarkedRunsForAckLua markedForAckKey n s).2
  | .migrateLegacyMasterQueues shard l =>
    (migrateLegacyMasterQueuesLua (masterQueueKeyForShard shard) l s).2
  | .removeFromMasterQueue shard l => (zremAll (masterQueueKeyForShard shard) l s).2

/-- 取り出しは、上限の key が読める環境と queue に限る。id に `:` は無い。 -/
def Operation.Admissible : Operation → Prop
  | .enqueueMessage m => NoColon m.orgId
  | .dequeueMessagesFromQueue env queue ck _ _ _ => env.NoColons ∧ LimitsReadable env queue ck
  | .acknowledgeMessage m _ => NoColon m.orgId
  | .nackMessage m _ => NoColon m.orgId
  | _ => True

/-- 上限だけを設定した状態。 -/
structure Configured (s : State) : Prop where
  zsets : ∀ k, s.zsets k = ∅
  sets : ∀ k, s.sets k = ∅
  lists : ∀ k, s.lists k = []
  numbers : ∀ k v, s.strs k = some v → ∃ q, v = .number q

/-- 上限を設定した状態から、上限を変えずに到達できる状態。 -/
inductive Runs (cfg : Config) (s₀ : State) : State → Prop
  | refl : Runs cfg s₀ s₀
  | step {s : State} {op : Operation} : Runs cfg s₀ s → op.Admissible → Runs cfg s₀ (op.exec cfg s)

/-- 全ての環境と queue が、設定された上限に収まっている。 -/
def WithinLimits (cfg : Config) (s : State) : Prop :=
  ∀ (env : EnvDescriptor) (queue : String) (ck : Option String), env.NoColons →
    LimitsReadable env queue ck → ∀ l, cfg.configuredLimits s env queue = some l →
    ((s.sets (envCurrentConcurrencyKey env)).card : Int) ≤ max 0 ⌊cfg.mul l.envLimit l.burst⌋ ∧
    ((s.sets (queueCurrentConcurrencyKey env queue ck)).card : ℚ) ≤
      max 0 (min l.queueLimit l.envLimit)

section Runs

variable {cfg : Config} {s₀ s s' : State}

/-- 取り出し以外の command は `Calm` である。 -/
theorem Operation.calm (op : Operation) (h : op.Admissible) (s : State) :
    Calm s (op.exec cfg s) ∨ ∃ env queue ck shard t n,
      op = .dequeueMessagesFromQueue env queue ck shard t n := by
  cases op with
  | enqueueMessage m => exact Or.inl (calmly_callEnqueueMessage h s)
  | dequeueMessagesFromQueue env queue ck shard t n => exact Or.inr ⟨_, _, _, _, _, _, rfl⟩
  | enqueueMessageToWorkerQueue w k => exact Or.inl (calmly_rpush _ _ s)
  | dequeueMessageFromWorkerQueue w =>
    exact Or.inl (calmly_dequeueMessageFromWorkerQueueNonBlockingLua _ s)
  | dequeueMessageFromKey k => exact Or.inl (calmly_dequeueMessageFromKeyLua k s)
  | acknowledgeMessage m b => exact Or.inl (calmly_callAcknowledgeMessage h b s)
  | nackMessage m x => exact Or.inl (calmly_callNackMessage h x s)
  | moveToDeadLetterQueue m now => exact Or.inl (calmly_callMoveToDeadLetterQueue now s)
  | removeFromDeadLetterQueue env r => exact Or.inl (calmly_zrem _ _ s)
  | releaseConcurrency m => exact Or.inl (calmly_callReleaseConcurrency s)
  | clearMessageFromConcurrencySets r queue env =>
    exact Or.inl (calmly_removeConcurrency _ _ _ _ _ s)
  | markCompletedRunsForAck t l => exact Or.inl (calmly_markCompletedRunsForAckLua _ t l s)
  | getMarkedRunsForAck n => exact Or.inl (calmly_getMarkedRunsForAckLua _ n s)
  | migrateLegacyMasterQueues shard l =>
    exact Or.inl (calmly_migrateLegacyMasterQueuesLua _ l s)
  | removeFromMasterQueue shard l => exact Or.inl (calmly_zremAll _ l s)

theorem kindOf_limitKeys {env : EnvDescriptor} (h : env.NoColons) (queue : String) :
    kindOf (envConcurrencyLimitKey env) = none ∧
      kindOf (envConcurrencyLimitBurstFactorKey env) = none ∧
      kindOf (queueConcurrencyLimitKey env queue) = none := by
  refine ⟨?_, ?_, ?_⟩
  · unfold kindOf envConcurrencyLimitKey
    rw [signature_envPartKey h (by decide)]
    decide
  · unfold kindOf envConcurrencyLimitBurstFactorKey
    rw [signature_envPartKey h (by decide)]
    decide
  · exact kindOf_queueKey_append h queue none "concurrency"

theorem numberAt_congr {k : String} (h : s'.strs k = s.strs k) (d : ℚ) :
    numberAt s' k d = numberAt s k d := by
  unfold numberAt
  rw [h]

/-- payload 以外の文字列が変わらなければ、上限も変わらない。 -/
theorem configuredLimits_congr (hs : ∀ k, kindOf k ≠ some .str → s'.strs k = s.strs k)
    {env : EnvDescriptor} (h : env.NoColons) (queue : String) :
    cfg.configuredLimits s' env queue = cfg.configuredLimits s env queue := by
  obtain ⟨h₁, h₂, h₃⟩ := kindOf_limitKeys h queue
  unfold Config.configuredLimits
  rw [numberAt_congr (hs _ (by simp [h₁])), numberAt_congr (hs _ (by simp [h₂])),
    numberAt_congr (hs _ (by simp [h₃]))]

theorem numberAt_isSome (hs : ∀ k v, s.strs k = some v → ∃ q, v = .number q) (k : String) (d : ℚ) :
    ∃ q, numberAt s k d = some q := by
  unfold numberAt
  rcases hv : s.strs k with _ | v
  · exact ⟨d, rfl⟩
  · obtain ⟨q, rfl⟩ := hs k v hv
    exact ⟨q, rfl⟩

theorem configuredLimits_isSome (cfg : Config) (h₀ : Configured s₀) (env : EnvDescriptor) (queue : String) :
    ∃ l, cfg.configuredLimits s₀ env queue = some l := by
  obtain ⟨a, ha⟩ := numberAt_isSome h₀.numbers (envConcurrencyLimitKey env) cfg.defaultEnvConcurrency
  obtain ⟨b, hb⟩ := numberAt_isSome h₀.numbers (envConcurrencyLimitBurstFactorKey env)
    (cfg.defaultEnvConcurrencyBurstFactor.getD 1)
  obtain ⟨c, hc⟩ := numberAt_isSome h₀.numbers (queueConcurrencyLimitKey env queue) 1000000
  exact ⟨⟨a, b, c⟩, Config.configuredLimits_eq_some.mpr ⟨ha, hb, hc⟩⟩

/-- 取り出しは文字列を変えず、自分の二つの集合しか変えない。 -/
theorem callDequeue_frame {env : EnvDescriptor} {queue : String} {ck : Option String} {l : Limits}
    (shard : Nat) (t n : ℚ) (h : env.NoColons) (hr : LimitsReadable env queue ck)
    (hl : cfg.configuredLimits s env queue = some l) :
    wp (cfg.callDequeueMessagesFromQueue (queueKey env queue ck) shard t n) (fun _ s' =>
      s'.strs = s.strs ∧ ∀ j, j ≠ queueCurrentConcurrencyKey env queue ck →
        j ≠ envCurrentConcurrencyKey env → s'.sets j = s.sets j) s := by
  obtain ⟨hL, hB, hQ⟩ := Config.configuredLimits_eq_some.mp hl
  rw [callDequeueMessagesFromQueue_eq h hr.org, hr.queueConcurrencyLimitKey]
  refine wp_dequeueMessagesFromQueueLua hL hB hQ rfl (fun _ => ⟨rfl, fun _ _ _ => rfl⟩)
    (fun _ _ => ⟨rfl, fun _ _ _ => rfl⟩) (fun _ _ => ?_)
  refine wp_bind (wp_mono (wp_loop (k := callKeys h queue ck) _ s) fun res s₁ ⟨hf, _⟩ => ?_)
  rcases res with e | rs
  · exact ⟨hf.strs, hf.sets_other⟩
  refine wp_bind (wp_mono wp_rebalance_frame fun res s₂ ⟨hstrs, hsets, _⟩ => ?_)
  have h₂ : s₂.strs = s.strs ∧ ∀ j, j ≠ queueCurrentConcurrencyKey env queue ck →
      j ≠ envCurrentConcurrencyKey env → s₂.sets j = s.sets j :=
    ⟨hstrs.trans hf.strs, fun j hj hj' => (congrFun hsets j).trans (hf.sets_other j hj hj')⟩
  rcases res with e | ⟨⟩
  · exact h₂
  · exact wp_pure.mpr h₂

theorem lastPart_queueCurrentConcurrencyKey (env : EnvDescriptor) (queue : String)
    (ck : Option String) :
    lastPart (queueCurrentConcurrencyKey env queue ck) = some "currentConcurrency" :=
  lastPart_append _ (by decide)

/-- 上限を変えず集合を大きくしない遷移は、上限を保つ。 -/
theorem WithinLimits.calm (hw : WithinLimits cfg s) (hc : Calm s s') : WithinLimits cfg s' := by
  intro env queue ck h hr l hl
  rw [configuredLimits_congr hc.strs h] at hl
  obtain ⟨h₁, h₂⟩ := hw env queue ck h hr l hl
  have c₁ := Finset.card_le_card (hc.sets (envCurrentConcurrencyKey env)
    (lastPart_envPartKey env (by decide)))
  have c₂ := Finset.card_le_card (hc.sets (queueCurrentConcurrencyKey env queue ck)
    (lastPart_queueCurrentConcurrencyKey env queue ck))
  refine ⟨le_trans (by exact_mod_cast c₁) h₁, le_trans (by exact_mod_cast c₂) h₂⟩

/-- payload を読んで並行数を返す `releaseAllConcurrency` も、上限を保つ。 -/
theorem WithinLimits.releaseAllConcurrency (hw : WithinLimits cfg s) (orgId messageId : String) :
    WithinLimits cfg (RunQueue.releaseAllConcurrency orgId messageId s).2 :=
  hw.calm (calmly_releaseAllConcurrency orgId messageId s)

/-- 同じ queue key を持ち、どちらの上限も読める queue は、上限を共有する。 -/
theorem configuredLimits_of_same_key {env : EnvDescriptor} {queue queue' : String}
    {ck ck' : Option String} (hk : queueKey env queue ck = queueKey env queue' ck')
    (hr : LimitsReadable env queue ck) (hr' : LimitsReadable env queue' ck') :
    cfg.configuredLimits s env queue = cfg.configuredLimits s env queue' := by
  have hkey := hr.queueConcurrencyLimitKey
  rw [hk, hr'.queueConcurrencyLimitKey] at hkey
  unfold Config.configuredLimits
  rw [hkey]

theorem WithinLimits.dequeue (hw : WithinLimits cfg s) {env : EnvDescriptor} {queue : String}
    {ck : Option String} (shard : Nat) (t n : ℚ) {l : Limits} (h : env.NoColons)
    (hr : LimitsReadable env queue ck) (hl : cfg.configuredLimits s env queue = some l) :
    WithinLimits cfg
      (cfg.callDequeueMessagesFromQueue (queueKey env queue ck) shard t n s).2 := by
  obtain ⟨hstrs, hother⟩ := callDequeue_frame shard t n h hr hl
  obtain ⟨hspec, _⟩ := callRespectsLimits_of_readable h hr shard t n s l hl
  set s' := (cfg.callDequeueMessagesFromQueue (queueKey env queue ck) shard t n s).2
  intro env' queue' ck' h' hr' l' hl'
  rw [configuredLimits_congr (fun k _ => congrFun hstrs k) h'] at hl'
  obtain ⟨h₁, h₂⟩ := hw env' queue' ck' h' hr' l' hl'
  have hkind : kindOf (queueCurrentConcurrencyKey env queue ck) = none :=
    kindOf_queueKey_append h _ _ _
  have hkind' : kindOf (queueCurrentConcurrencyKey env' queue' ck') = none :=
    kindOf_queueKey_append h' _ _ _
  constructor
  · by_cases he : envCurrentConcurrencyKey env' = envCurrentConcurrencyKey env
    · obtain rfl := envPartKey_env_inj h' h he
      obtain ⟨hL, hB, _⟩ := Config.configuredLimits_eq_some.mp hl
      obtain ⟨hL', hB', _⟩ := Config.configuredLimits_eq_some.mp hl'
      have hLL : l.envLimit = l'.envLimit := Option.some.inj (hL.symm.trans hL')
      have hBB : l.burst = l'.burst := Option.some.inj (hB.symm.trans hB')
      rw [← hLL, ← hBB] at h₁ ⊢
      exact hspec.env_bound.trans (max_le h₁ (le_max_right _ _))
    · rw [hother _ (ne_of_kindOf (by simp [kindOf_envCurrentConcurrencyKey h', hkind])) he]
      exact h₁
  · by_cases hq : queueCurrentConcurrencyKey env' queue' ck' = queueCurrentConcurrencyKey env queue ck
    · rw [queueCurrentConcurrencyKey_eq, queueCurrentConcurrencyKey_eq] at hq
      have hk : queueKey env' queue' ck' = queueKey env queue ck := append_right_cancel hq
      obtain rfl := queueKey_env_inj h' h hk
      rw [configuredLimits_of_same_key hk hr' hr, hl] at hl'
      obtain rfl := Option.some.inj hl'
      rw [show queueCurrentConcurrencyKey env' queue' ck' = queueCurrentConcurrencyKey env' queue ck
        by rw [queueCurrentConcurrencyKey_eq, queueCurrentConcurrencyKey_eq, hk]] at h₂ ⊢
      exact hspec.queue_bound.trans (max_le h₂ (le_max_right _ _))
    · rw [hother _ hq (ne_of_kindOf (by simp [kindOf_envCurrentConcurrencyKey h, hkind']))]
      exact h₂

/-- 走行の間、上限は変わらず、守られ続ける。 -/
theorem runs_withinLimits (h₀ : Configured s₀) (h : Runs cfg s₀ s) :
    (∀ k, kindOf k ≠ some .str → s.strs k = s₀.strs k) ∧ WithinLimits cfg s := by
  induction h with
  | refl =>
    refine ⟨fun _ _ => rfl, fun env queue ck _ _ l _ => ?_⟩
    simp [h₀.sets]
  | @step s op _ hop ih =>
    obtain ⟨hstrs, hw⟩ := ih
    rcases op.calm hop s with hc | ⟨env, queue, ck, shard, t, n, rfl⟩
    · exact ⟨fun k hk => (hc.strs k hk).trans (hstrs k hk), hw.calm hc⟩
    · obtain ⟨l, hl⟩ := configuredLimits_isSome cfg h₀ env queue
      rw [← configuredLimits_congr hstrs hop.1] at hl
      obtain ⟨hframe, -⟩ := callDequeue_frame shard t n hop.1 hop.2 hl
      have hdequeue := hw.dequeue shard t n hop.1 hop.2 hl
      simp only [Operation.exec]
      exact ⟨fun k hk => (congrFun hframe k).trans (hstrs k hk), hdequeue⟩

end Runs

/-! ## 結論 -/

/-- **上限の key が読めるなら、上限は超えられない。** 一回の呼び出しは任意の状態で上限の通りに
振る舞い、そのような取り出しだけからなる走行では、どの状態も上限に収まる。 -/
theorem concurrency_limits_respected (cfg : Config) :
    (∀ (env : EnvDescriptor) (queue : String) (ck : Option String), env.NoColons →
      LimitsReadable env queue ck → CallRespectsLimits cfg env queue ck) ∧
    ∀ s₀ s : State, Configured s₀ → Runs cfg s₀ s → WithinLimits cfg s :=
  ⟨fun _ _ _ h hr => callRespectsLimits_of_readable h hr,
    fun _ _ h₀ h => (runs_withinLimits h₀ h).2⟩

/-- 既定の上限が 10 の設定。 -/
def plainConfig : Config where
  shardOf _ := 1
  defaultEnvConcurrency := 10
  defaultEnvConcurrencyBurstFactor := none
  mul := (· * ·)
  maxAttempts := 12
  overrides := none

/-- queue 名と concurrency key だけが決まっていない payload。 -/
def plainMessage (runId queue : String) (ck : Option String) (timestamp : ℚ) : OutputPayload :=
  { runId := runId
    taskIdentifier := "hello"
    orgId := "o1"
    projectId := "p1"
    environmentId := "e1"
    environmentType := .production
    queue := queueKey ⟨"o1", "p1", "e1"⟩ queue ck
    concurrencyKey := ck
    timestamp := timestamp
    attempt := 0
    version := .v2 "us-east-1" }

/-- `queue` の上限を 1 にした状態。 -/
def limitOneState (queue : String) : State :=
  Db.empty.setStr (queueConcurrencyLimitKey ⟨"o1", "p1", "e1"⟩ queue) (some (.number 1))

/-- 上限 1 の queue に二つの run を入れた状態。 -/
def twoQueued (queue : String) (ck : Option String) : State :=
  Operation.exec plainConfig (Operation.exec plainConfig (limitOneState queue)
    (.enqueueMessage (plainMessage "run_1" queue ck 5)))
    (.enqueueMessage (plainMessage "run_2" queue ck 7))

theorem limitOneState_configured (queue : String) : Configured (limitOneState queue) := by
  constructor
  · intro k
    simp [limitOneState, Function.update_apply]
  · intro k
    simp [limitOneState, Function.update_apply]
  · intro k
    simp [limitOneState, Function.update_apply]
  · intro k v hv
    by_cases hk : k = queueConcurrencyLimitKey ⟨"o1", "p1", "e1"⟩ queue
    · subst hk
      exact ⟨1, by simpa [limitOneState] using hv.symm⟩
    · simp [limitOneState, hk] at hv

/-- queue `q` では上限 1 が読まれ、一つの run だけが取り出される。 -/
theorem concurrency_limits_respected_sample :
    (Operation.exec plainConfig (twoQueued "q" (some "a"))
      (.dequeueMessagesFromQueue ⟨"o1", "p1", "e1"⟩ "q" (some "a") 1 10 10)).sets
        (queueCurrentConcurrencyKey ⟨"o1", "p1", "e1"⟩ "q" (some "a")) = {"run_1"} ∧
      WithinLimits plainConfig (Operation.exec plainConfig (twoQueued "q" (some "a"))
        (.dequeueMessagesFromQueue ⟨"o1", "p1", "e1"⟩ "q" (some "a") 1 10 10)) := by
  have hno : NoColon "o1" := by decide
  have henv : EnvDescriptor.NoColons ⟨"o1", "p1", "e1"⟩ := by decide
  have hr : LimitsReadable ⟨"o1", "p1", "e1"⟩ "q" (some "a") := ⟨by decide, by decide⟩
  have h₁ : Runs plainConfig (limitOneState "q") (Operation.exec plainConfig (limitOneState "q")
    (.enqueueMessage (plainMessage "run_1" "q" (some "a") 5))) := Runs.refl.step hno
  have h₂ : Runs plainConfig (limitOneState "q") (twoQueued "q" (some "a")) := h₁.step hno
  exact ⟨by decide +kernel, (concurrency_limits_respected plainConfig).2 _ _
    (limitOneState_configured "q") (h₂.step ⟨henv, hr⟩)⟩

/-- queue `ck` では、上限 1 が読まれず、二つの run が取り出される。 -/
theorem limits_not_respected :
    ¬ CallRespectsLimits plainConfig ⟨"o1", "p1", "e1"⟩ "ck" (some "a") := by
  intro h
  have hspec := (h 1 10 10 (twoQueued "ck" (some "a")) ⟨10, 1, 1⟩ (by decide +kernel)).1
  exact absurd hspec.queue_bound (by decide +kernel)

end RunQueue
