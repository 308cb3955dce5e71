import Trigger.Infra.Glob
import Trigger.RunQueue.KeyAgreement

/-!
# 環境の queue を master queue から除く

`removeEnvironmentQueuesFromMasterQueue` は、環境の id から master queue の shard を求め、
`queueKey(organizationId, projectId, "*", "*")` を glob として走査し、当たった queue を `ZREM` する。環境の id は
glob に入らないので、同じ project のほかの環境の queue も、同じ shard にあれば除かれる。

除かれるのがその環境の queue だけである条件を、任意の shard の中身について述べる
（`removes_only_own_iff`）。
-/

namespace RunQueue

open Infra Infra.Text Infra.Glob
open Infra.Redis Infra.Redis.Script

/-! ## 走査と除去 -/

/-- `ZSCAN` の `MATCH`。当たった要素を全て返す。 -/
def zscanMatch (k pattern : String) : Script Stored (List String) := guarded (·.ZTyped k) fun s _ =>
  (((s.zsets k).entries.map Prod.fst).filter (globMatch pattern), s)

/-- `removeEnvironmentQueuesFromMasterQueue`。 -/
def Config.removeEnvironmentQueuesFromMasterQueue (cfg : Config)
    (runtimeEnvironmentId organizationId projectId : String) : Script Stored Unit := do
  let masterQueue := cfg.masterQueueKeyForEnvironment runtimeEnvironmentId
  let matchingQueues ←
    zscanMatch masterQueue (queueKey ⟨organizationId, projectId, "*"⟩ "*" none)
  if matchingQueues = [] then pure () else zremAll masterQueue matchingQueues

/-! ## 仕様 -/

/-- queue 名から読み戻した環境が `env` である。 -/
def OwnQueue (env : EnvDescriptor) (queue : String) : Prop :=
  (descriptorFromQueue queue).map QueueDescriptor.env = some env

instance (env : EnvDescriptor) (queue : String) : Decidable (OwnQueue env queue) :=
  inferInstanceAs (Decidable (_ = _))

/-- `s` から `s'` への間に、整列集合 `k` の `drops` に当たる要素だけが除かれ、残りは score ごとそのままである。
ほかの key は変わらない。 -/
structure RemovesOnly (k : String) (drops : String → Prop) [DecidablePred drops] (s s' : State) :
    Prop where
  shard : ∀ m, (s'.zsets k).score? m = if drops m then none else (s.zsets k).score? m
  zsets : ∀ k', k' ≠ k → s'.zsets k' = s.zsets k'
  strs : s'.strs = s.strs
  sets : s'.sets = s.sets
  lists : s'.lists = s.lists

/-- shard にある `OwnQueue` の queue だけが除かれた。 -/
def RemovesOnlyOwn (cfg : Config) (env : EnvDescriptor) (s : State) : Prop :=
  RemovesOnly (cfg.masterQueueKeyForEnvironment env.envId) (OwnQueue env) s
    (cfg.removeEnvironmentQueuesFromMasterQueue env.envId env.orgId env.projectId s).2

/-! ## 走査の結果 -/

section Remove

variable {k : String} {s : State}

/-- 並んだ要素を除くと、それだけが無くなる。 -/
theorem removesOnly_zremAll (l : List String) (h : s.ZTyped k) :
    RemovesOnly k (· ∈ l) s (zremAll k l s).2 := by
  induction l generalizing s with
  | nil => exact ⟨fun m => by simp [zremAll, Pure.pure], fun _ _ => rfl, rfl, rfl, rfl⟩
  | cons m rest ih =>
    have hstep : zremAll k (m :: rest) s
        = zremAll k rest (s.setZ k ((s.zsets k).rem m) h) := by
      change Script.bind (zrem k m) _ s = _
      unfold Script.bind zrem guarded
      rw [dif_pos h]
    have hrest := ih (s := s.setZ k ((s.zsets k).rem m) h) h
    rw [hstep]
    refine ⟨fun n => ?_, fun k' hk => ?_, hrest.strs, hrest.sets, hrest.lists⟩
    · rw [hrest.shard, Db.setZ_zsets, Function.update_self, SortedSet.score?_rem]
      by_cases hn : n = m <;> by_cases hr : n ∈ rest <;> simp [hn, hr]
    · rw [hrest.zsets k' hk, Db.setZ_zsets, Function.update_of_ne hk]

/-- glob に当たる要素だけが除かれる。 -/
theorem removesOnly_glob (cfg : Config) (envId orgId projectId : String) (s : State) :
    RemovesOnly (cfg.masterQueueKeyForEnvironment envId)
      (fun m => globMatch (queueKey ⟨orgId, projectId, "*"⟩ "*" none) m = true) s
      (cfg.removeEnvironmentQueuesFromMasterQueue envId orgId projectId s).2 := by
  have hrun : cfg.removeEnvironmentQueuesFromMasterQueue envId orgId projectId s =
      if h : s.ZTyped (cfg.masterQueueKeyForEnvironment envId) then
        zremAll (cfg.masterQueueKeyForEnvironment envId)
          (((s.zsets (cfg.masterQueueKeyForEnvironment envId)).entries.map Prod.fst).filter
            (globMatch (queueKey ⟨orgId, projectId, "*"⟩ "*" none))) s
      else (.error .wrongType, s) := by
    unfold Config.removeEnvironmentQueuesFromMasterQueue
    change Script.bind (zscanMatch _ _) _ s = _
    unfold Script.bind zscanMatch guarded
    by_cases h : s.ZTyped (cfg.masterQueueKeyForEnvironment envId)
    · rw [dif_pos h, dif_pos h]
      simp only
      split
      · next hnil => rw [hnil]; rfl
      · rfl
    · rw [dif_neg h, dif_neg h]
  rw [hrun]
  -- shard の key が sorted set でなければ `ZSCAN` が失敗し、何も消えない。
  by_cases h : s.ZTyped (cfg.masterQueueKeyForEnvironment envId)
  · rw [dif_pos h]
    have hall := removesOnly_zremAll
      (((s.zsets (cfg.masterQueueKeyForEnvironment envId)).entries.map Prod.fst).filter
        (globMatch (queueKey ⟨orgId, projectId, "*"⟩ "*" none))) h
    refine ⟨fun m => ?_, hall.zsets, hall.strs, hall.sets, hall.lists⟩
    rw [hall.shard]
    rcases hm : (s.zsets (cfg.masterQueueKeyForEnvironment envId)).score? m with _ | x
    · simp
    · have hmem : m ∈ (s.zsets (cfg.masterQueueKeyForEnvironment envId)).entries.map Prod.fst :=
        List.mem_map.mpr ⟨_, SortedSet.score?_eq_some.mp hm, rfl⟩
      simp only [List.mem_filter, hmem, true_and]
  · rw [dif_neg h]
    refine ⟨fun m => ?_, fun _ _ => rfl, rfl, rfl, rfl⟩
    rw [Db.zsets_eq_empty h]
    simp

end Remove

/-! ## glob に当たる queue -/

/-- id に glob の文字が無いとき、当たるのは `…:env:` と `:queue:` を順に含む列である。 -/
theorem globMatch_queueKey_iff {orgId projectId : String} (ho : Literal orgId)
    (hp : Literal projectId) {m : String} :
    globMatch (queueKey ⟨orgId, projectId, "*"⟩ "*" none) m = true ↔
      ∃ x y, m = orgKeySection orgId ++ ":" ++ (projKeySection projectId ++ ":" ++ ("env" ++ ":" ++
        (x ++ ":queue:" ++ y))) := by
  have hpattern : (queueKey ⟨orgId, projectId, "*"⟩ "*" none).toList
      = (orgKeySection orgId ++ ":" ++ projKeySection projectId ++ ":env:").toList ++ '*' ::
        (":queue:".toList ++ ['*']) := by
    simp [queueKey, concurrencyKeySections, joinColon, projKeySection, envKeySection, queueSection]
  have horg : Literal (orgKeySection orgId) := (Literal.append (by decide) ho).append (by decide)
  have hproj : Literal (projKeySection projectId) := Literal.append (by decide) hp
  have hlit : Literal (orgKeySection orgId ++ ":" ++ projKeySection projectId ++ ":env:") :=
    ((horg.append (by decide)).append hproj).append (by decide)
  have hqueue : Literal ":queue:" := by decide
  unfold globMatch parse
  rw [hpattern, parseFrom_literal_append hlit, parseFrom, parseFrom_literal_append hqueue,
    parseFrom, parseFrom, matchTokens_lits]
  constructor
  · rintro ⟨r, hm, hstar⟩
    obtain ⟨x, r', rfl, hrest⟩ := matchTokens_star.mp hstar
    obtain ⟨y, rfl, -⟩ := (matchTokens_lits _).mp hrest
    refine ⟨String.ofList x, String.ofList y, String.toList_inj.mp ?_⟩
    rw [hm]
    simp
  · rintro ⟨x, y, rfl⟩
    refine ⟨x.toList ++ (":queue:".toList ++ y.toList), by simp, matchTokens_star.mpr
      ⟨x.toList, _, rfl, (matchTokens_lits _).mpr ⟨y.toList, rfl, matchTokens_last_star⟩⟩⟩

/-- queue key が glob に当たるのは、organization と project が同じとき、そのときに限る。 -/
theorem globMatch_queueKey_queueKey {env env' : EnvDescriptor} (h : env.Plain) (h' : env'.Plain)
    (ho : Literal env.orgId) (hp : Literal env.projectId) (queue : String) (ck : Option String) :
    globMatch (queueKey ⟨env.orgId, env.projectId, "*"⟩ "*" none) (queueKey env' queue ck) = true ↔
      env'.orgId = env.orgId ∧ env'.projectId = env.projectId := by
  rw [globMatch_queueKey_iff ho hp]
  constructor
  · rintro ⟨x, y, hm⟩
    have hs := congrArg splitColon hm
    rw [splitColon_queueKey h'.noColons, splitColon_append, splitColon_append,
      splitColon_orgKeySection h.org.noColon, splitColon_projKeySection h.proj.noColon,
      splitColon_cons (by decide)] at hs
    simp only [envParts, List.cons_append, List.nil_append, List.cons.injEq, true_and] at hs
    exact ⟨append_brace_inj hs.1, hs.2.1⟩
  · rintro ⟨horg, hproj⟩
    refine ⟨env'.envId, queueTail queue ck, ?_⟩
    rw [queueKey_eq, horg, hproj]
    apply String.toList_inj.mp
    simp [envKeySection]

theorem ownQueue_queueKey {env env' : EnvDescriptor} (h' : env'.Plain) (queue : String)
    (ck : Option String) : OwnQueue env (queueKey env' queue ck) ↔ env' = env := by
  obtain ⟨d, hd, he⟩ := descriptorFromQueue_queueKey h'.noColons queue ck
  unfold OwnQueue
  rw [hd, Option.map_some, he, h'.stripped, Option.some_inj]

/-! ## 除かれる queue -/

/-- 整列集合の要素。 -/
def members (z : ZSet) : List String := z.entries.map Prod.fst

theorem mem_members {z : ZSet} {m : String} : m ∈ members z ↔ ∃ x, z.score? m = some x := by
  unfold members
  rw [List.mem_map]
  constructor
  · rintro ⟨⟨m, x⟩, he, rfl⟩
    exact ⟨x, SortedSet.score?_eq_some.mpr he⟩
  · rintro ⟨x, hx⟩
    exact ⟨_, SortedSet.score?_eq_some.mp hx, rfl⟩

/-- 要素がどれも queue key である。 -/
def HoldsQueueKeys (z : ZSet) : Prop :=
  ∀ m ∈ members z, ∃ env queue ck, EnvDescriptor.Plain env ∧ m = queueKey env queue ck

/-- 同じ organization・project の、ほかの環境の queue が無い。 -/
def NoSiblingQueue (env : EnvDescriptor) (z : ZSet) : Prop :=
  ∀ env' queue ck, EnvDescriptor.Plain env' → queueKey env' queue ck ∈ members z →
    env'.orgId = env.orgId → env'.projectId = env.projectId → env'.envId = env.envId

/-- 同じ状態から除いたものが等しいのは、要素の上で条件が一致するときである。 -/
theorem RemovesOnly.iff {k : String} {p q : String → Prop} [DecidablePred p] [DecidablePred q]
    {s s' : State} (h : RemovesOnly k p s s') :
    RemovesOnly k q s s' ↔ ∀ m ∈ members (s.zsets k), p m ↔ q m := by
  constructor
  · intro h' m hm
    obtain ⟨x, hx⟩ := mem_members.mp hm
    have heq := (h.shard m).symm.trans (h'.shard m)
    rw [hx] at heq
    by_cases hp : p m <;> by_cases hq : q m <;> simp_all
  · intro hall
    refine ⟨fun m => ?_, h.zsets, h.strs, h.sets, h.lists⟩
    rw [h.shard]
    rcases hx : (s.zsets k).score? m with _ | x
    · simp
    · simp only [hall m (mem_members.mpr ⟨x, hx⟩)]

/-- **除かれるのがその環境の queue だけであるのは、glob に当たる要素がちょうどその環境の queue であるとき、
そのときに限る。** id に `:` も glob の文字も無く、shard の要素がどれも queue key なら、それは shard に同じ
project のほかの環境の queue が無いことである。 -/
theorem removes_only_own_iff (cfg : Config) (env : EnvDescriptor) (s : State) :
    (RemovesOnlyOwn cfg env s ↔
      ∀ m ∈ members (s.zsets (cfg.masterQueueKeyForEnvironment env.envId)),
        globMatch (queueKey ⟨env.orgId, env.projectId, "*"⟩ "*" none) m = true ↔ OwnQueue env m) ∧
    (env.Plain → Literal env.orgId → Literal env.projectId →
      HoldsQueueKeys (s.zsets (cfg.masterQueueKeyForEnvironment env.envId)) →
      (RemovesOnlyOwn cfg env s ↔
        NoSiblingQueue env (s.zsets (cfg.masterQueueKeyForEnvironment env.envId)))) := by
  have hglob := (removesOnly_glob cfg env.envId env.orgId env.projectId s).iff (q := OwnQueue env)
  refine ⟨hglob, fun h ho hp hkeys => hglob.trans ⟨fun hall env' queue ck h' hm horg hproj => ?_,
    fun hnone m hm => ?_⟩⟩
  · have hmatch := (globMatch_queueKey_queueKey h h' ho hp queue ck).mpr ⟨horg, hproj⟩
    have hown := (hall _ hm).mp hmatch
    rw [(ownQueue_queueKey h' queue ck).mp hown]
  · obtain ⟨env', queue, ck, h', rfl⟩ := hkeys m hm
    rw [globMatch_queueKey_queueKey h h' ho hp, ownQueue_queueKey h']
    constructor
    · rintro ⟨horg, hproj⟩
      have henv := hnone env' queue ck h' hm horg hproj
      cases env
      cases env'
      simp_all
    · rintro rfl
      exact ⟨rfl, rfl⟩

namespace RemoveQueues

def cfg : Config where
  shardOf _ := 0
  defaultEnvConcurrency := 10
  defaultEnvConcurrencyBurstFactor := none
  mul a b := a * b
  maxAttempts := 1
  overrides := none

def production : EnvDescriptor := ⟨"org1", "proj1", "env1"⟩

/-- 同じ project のもう一つの環境。 -/
def staging : EnvDescriptor := ⟨"org1", "proj1", "env2"⟩

/-- 二つの queue が並ぶ shard。 -/
def shard (env env' : EnvDescriptor) : State :=
  ((do
    zadd (masterQueueKeyForShard 0) 1 (queueKey env "a" none)
    zadd (masterQueueKeyForShard 0) 2 (queueKey env' "b" none) : Script Stored Unit) Db.empty).2

theorem members_shard : members ((shard production production).zsets (masterQueueKeyForShard 0))
    = [queueKey production "a" none, queueKey production "b" none] := by
  decide +kernel

/-- 環境が一つだけなら、その環境の queue だけが除かれる。 -/
theorem removes_only_own_sample : RemovesOnlyOwn cfg production (shard production production) := by
  have hplain : production.Plain := by decide
  refine ((removes_only_own_iff cfg production (shard production production)).2 hplain (by decide)
    (by decide) (fun m hm => ?_)).mpr fun env' queue ck h' hm _ _ => ?_
  · rcases List.mem_pair.mp (members_shard ▸ hm) with rfl | rfl
    · exact ⟨production, "a", none, hplain, rfl⟩
    · exact ⟨production, "b", none, hplain, rfl⟩
  · rcases List.mem_pair.mp (members_shard ▸ hm) with he | he
    · rw [queueKey_env_inj h'.noColons hplain.noColons he]
    · rw [queueKey_env_inj h'.noColons hplain.noColons he]

/-- `env1` の queue を除くと、同じ shard の `env2` の queue も除かれる。 -/
theorem removes_sibling : ¬ ∀ (cfg : Config) (env : EnvDescriptor) (s : State),
    env.Plain → RemovesOnlyOwn cfg env s := by
  intro h
  have hshard := (h cfg production (shard production staging) (by decide)).shard
    (queueKey staging "b" none)
  exact absurd hshard (by decide +kernel)

end RemoveQueues

end RunQueue
