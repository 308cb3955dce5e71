import Mathlib.Data.Rat.Defs
import Trigger.Infra.Text

/-!
# RunQueue の key

`keyProducer.ts` の `RunQueueFullKeyProducer`。key は環境・queue 名・concurrency key から
`:` で連結して作る。一方、queue key だけを渡される関数（`…FromQueue`）は、key を `:` で分割して
成分を読み戻すか、正規表現で `:ck:` 以降を落とす。

環境の id に `:` が無ければ分割は成分に戻る（`descriptorFromQueue_queueKey`）。ただし organization の
id は波括弧を一つずつ落として読まれる（`stripOrg`）。
-/

namespace RunQueue

open Infra.Text

/-! ## 環境と descriptor -/

/-- 環境の種類（`RuntimeEnvironmentType`）。 -/
inductive EnvironmentType
  | production
  | staging
  | development
  | preview
deriving DecidableEq, Repr

/-- `MinimalAuthenticatedEnvironment`。 -/
structure Environment where
  id : String
  type : EnvironmentType
  projectId : String
  organizationId : String
  maximumConcurrencyLimit : Int
  concurrencyLimitBurstFactor : ℚ
deriving DecidableEq

/-- `EnvDescriptor`。 -/
structure EnvDescriptor where
  orgId : String
  projectId : String
  envId : String
deriving DecidableEq, Repr

/-- `QueueDescriptor`。 -/
structure QueueDescriptor where
  orgId : String
  projectId : String
  envId : String
  queue : String
  concurrencyKey : Option String
deriving DecidableEq, Repr

def Environment.descriptor (env : Environment) : EnvDescriptor :=
  ⟨env.organizationId, env.projectId, env.id⟩

def QueueDescriptor.env (d : QueueDescriptor) : EnvDescriptor := ⟨d.orgId, d.projectId, d.envId⟩

/-! ## key の成分 -/

def envKeySection (envId : String) : String := "env:" ++ envId

def projKeySection (projId : String) : String := "proj:" ++ projId

def orgKeySection (orgId : String) : String := "\x7borg:" ++ orgId ++ "\x7d"

def queueSection (queue : String) : String := "queue:" ++ queue

def concurrencyKeySection (concurrencyKey : String) : String := "ck:" ++ concurrencyKey

/-- concurrency key の成分。空文字列は偽なので、無いのと同じに扱われる。 -/
def concurrencyKeySections : Option String → List String
  | none => []
  | some ck => if ck = "" then [] else [concurrencyKeySection ck]

/-! ## 環境から作る key -/

def queueKey (env : EnvDescriptor) (queue : String) (concurrencyKey : Option String) : String :=
  joinColon ([orgKeySection env.orgId, projKeySection env.projectId, envKeySection env.envId,
    queueSection queue] ++ concurrencyKeySections concurrencyKey)

/-- 環境の key。`part` だけが違う一族に共通の形。 -/
def envPartKey (env : EnvDescriptor) (part : String) : String :=
  joinColon [orgKeySection env.orgId, projKeySection env.projectId, envKeySection env.envId, part]

def envConcurrencyLimitKey (env : EnvDescriptor) : String := envPartKey env "concurrency"

def envConcurrencyLimitBurstFactorKey (env : EnvDescriptor) : String :=
  envPartKey env "concurrencyBurstFactor"

def envCurrentConcurrencyKey (env : EnvDescriptor) : String := envPartKey env "currentConcurrency"

def envCurrentDequeuedKey (env : EnvDescriptor) : String := envPartKey env "currentDequeued"

def deadLetterQueueKey (env : EnvDescriptor) : String := envPartKey env "deadLetter"

/-- 環境の queue の key。project の id は入らない。 -/
def envQueueKey (env : EnvDescriptor) : String :=
  joinColon [orgKeySection env.orgId, envKeySection env.envId]

def queueConcurrencyLimitKey (env : EnvDescriptor) (queue : String) : String :=
  joinColon [queueKey env queue none, "concurrency"]

def queueCurrentConcurrencyKey (env : EnvDescriptor) (queue : String)
    (concurrencyKey : Option String) : String :=
  joinColon [queueKey env queue concurrencyKey, "currentConcurrency"]

def queueCurrentDequeuedKey (env : EnvDescriptor) (queue : String)
    (concurrencyKey : Option String) : String :=
  joinColon [queueKey env queue concurrencyKey, "currentDequeued"]

def messageKey (orgId messageId : String) : String :=
  joinColon [orgKeySection orgId, "message:" ++ messageId]

def masterQueueKeyForShard (shard : Nat) : String :=
  joinColon ["masterQueue", "shard", toString shard]

def workerQueueKey (workerQueue : String) : String := joinColon ["workerQueue", workerQueue]

def markedForAckKey : String := "markedForAck"

/-! ## queue key から読み戻す key -/

/-- organization の成分から波括弧を一つずつ落とす（`.replace` を二回）。 -/
def stripBraces (s : String) : String := removeFirst '}' (removeFirst '{' s)

/-- queue key を分割して成分を読む。二つ目の成分が無ければ例外になる。
それより後ろの成分が無ければ、文字列に埋め込むときに `undefined` になる。 -/
def descriptorFromQueue (queue : String) : Option QueueDescriptor :=
  let parts := splitColon queue
  parts[1]?.map fun org =>
    { orgId := stripBraces org
      projectId := parts[3]?.getD "undefined"
      envId := parts[5]?.getD "undefined"
      queue := parts[7]?.getD "undefined"
      concurrencyKey := parts[9]? }

def envQueueKeyFromQueue (queue : String) : Option String :=
  (descriptorFromQueue queue).map fun d => envQueueKey d.env

def envConcurrencyLimitKeyFromQueue (queue : String) : Option String :=
  (descriptorFromQueue queue).map fun d => envConcurrencyLimitKey d.env

def envConcurrencyLimitBurstFactorKeyFromQueue (queue : String) : Option String :=
  (descriptorFromQueue queue).map fun d => envConcurrencyLimitBurstFactorKey d.env

def envCurrentConcurrencyKeyFromQueue (queue : String) : Option String :=
  (descriptorFromQueue queue).map fun d => envCurrentConcurrencyKey d.env

def envCurrentDequeuedKeyFromQueue (queue : String) : Option String :=
  (descriptorFromQueue queue).map fun d => envCurrentDequeuedKey d.env

def deadLetterQueueKeyFromQueue (queue : String) : Option String :=
  (descriptorFromQueue queue).map fun d => deadLetterQueueKey d.env

def messageKeyPrefixFromQueue (queue : String) : Option String :=
  (descriptorFromQueue queue).map fun d => orgKeySection d.orgId ++ ":message:"

def queueCurrentConcurrencyKeyFromQueue (queue : String) : String := queue ++ ":currentConcurrency"

def queueCurrentDequeuedKeyFromQueue (queue : String) : String := queue ++ ":currentDequeued"

/-- 正規表現の `.` が当たらない改行文字。 -/
def isLineTerminator (c : Char) : Bool :=
  c = '\n' || c = '\r' || c = '\u2028' || c = '\u2029'

/-- 正規表現 `/:ck:.+$/` がこの位置で当たる。 -/
def ckMatchHere (l : List Char) : Bool :=
  ":ck:".toList.isPrefixOf l && !(l.drop 4).isEmpty && (l.drop 4).all (fun c => !isLineTerminator c)

/-- `queue.replace(/:ck:.+$/, "")`。 -/
def stripConcurrencyKey (queue : String) : String := String.ofList (cutAt ckMatchHere queue.toList)

def queueConcurrencyLimitKeyFromQueue (queue : String) : String :=
  stripConcurrencyKey queue ++ ":concurrency"

/-! ## 分割で成分に戻る -/

/-- id に `:` が無い環境。 -/
structure EnvDescriptor.NoColons (env : EnvDescriptor) : Prop where
  org : NoColon env.orgId
  proj : NoColon env.projectId
  env : NoColon env.envId

instance (env : EnvDescriptor) : Decidable env.NoColons :=
  decidable_of_iff (NoColon env.orgId ∧ NoColon env.projectId ∧ NoColon env.envId)
    ⟨fun h => ⟨h.1, h.2.1, h.2.2⟩, fun h => ⟨h.org, h.proj, h.env⟩⟩

/-- `…FromQueue` が読み戻す organization の id。 -/
def stripOrg (orgId : String) : String := stripBraces (orgId ++ "\x7d")

/-- `…FromQueue` が読み戻す環境。organization の id だけが変わりうる。 -/
def EnvDescriptor.stripped (env : EnvDescriptor) : EnvDescriptor :=
  { env with orgId := stripOrg env.orgId }

-- 定義で展開させると `stripOrg` の文字列計算まで開くので、読み出しは書き換えで行う。
@[simp] theorem stripped_orgId (env : EnvDescriptor) : env.stripped.orgId = stripOrg env.orgId := by
  unfold EnvDescriptor.stripped
  rfl

@[simp] theorem stripped_projectId (env : EnvDescriptor) :
    env.stripped.projectId = env.projectId := by
  unfold EnvDescriptor.stripped
  rfl

@[simp] theorem stripped_envId (env : EnvDescriptor) : env.stripped.envId = env.envId := by
  unfold EnvDescriptor.stripped
  rfl

/-- queue key の、環境より後ろの部分。 -/
def queueTail (queue : String) (concurrencyKey : Option String) : String :=
  joinColon (queue :: concurrencyKeySections concurrencyKey)

/-- 波括弧の無い id はそのまま読み戻される。 -/
theorem stripOrg_of_no_braces {o : String} (h₁ : '{' ∉ o.toList) (h₂ : '}' ∉ o.toList) :
    stripOrg o = o := by
  unfold stripOrg stripBraces
  have h : '{' ∉ (o ++ "\x7d").toList := by
    rw [String.toList_append, List.mem_append]
    exact fun hm => hm.elim h₁ (by decide)
  rw [removeFirst_of_not_mem h, removeFirst_append_singleton h₂ rfl]

theorem noColon_stripOrg {o : String} (h : NoColon o) : NoColon (stripOrg o) := by
  unfold stripOrg stripBraces
  have ho : NoColon (o ++ "\x7d") := noColon_append h (by decide)
  exact noColon_removeFirst (noColon_removeFirst ho)

theorem EnvDescriptor.NoColons.stripped {env : EnvDescriptor} (h : env.NoColons) :
    env.stripped.NoColons := by
  constructor
  · rw [stripped_orgId]
    exact noColon_stripOrg h.org
  · rw [stripped_projectId]
    exact h.proj
  · rw [stripped_envId]
    exact h.env

theorem splitColon_orgKeySection {o : String} (h : NoColon o) :
    splitColon (orgKeySection o) = ["\x7borg", o ++ "\x7d"] := by
  have : orgKeySection o = "\x7borg" ++ ":" ++ (o ++ "\x7d") := by
    unfold orgKeySection
    rw [show ("\x7borg:" : String) = "\x7borg" ++ ":" from rfl, String.append_assoc]
  rw [this, splitColon_cons (by decide), splitColon_noColon (noColon_append h (by decide))]

theorem splitColon_projKeySection {p : String} (h : NoColon p) :
    splitColon (projKeySection p) = ["proj", p] := by
  unfold projKeySection
  rw [show ("proj:" : String) = "proj" ++ ":" from rfl, splitColon_cons (by decide),
    splitColon_noColon h]

theorem splitColon_envKeySection {e : String} (h : NoColon e) :
    splitColon (envKeySection e) = ["env", e] := by
  unfold envKeySection
  rw [show ("env:" : String) = "env" ++ ":" from rfl, splitColon_cons (by decide),
    splitColon_noColon h]

/-- 環境の id が同じ key の、共通の頭。 -/
def envParts (env : EnvDescriptor) : List String :=
  ["\x7borg", env.orgId ++ "\x7d", "proj", env.projectId, "env", env.envId]

theorem splitColon_envPrefixed {env : EnvDescriptor} (h : env.NoColons) (rest : String) :
    splitColon (orgKeySection env.orgId ++ ":" ++ (projKeySection env.projectId ++ ":"
      ++ (envKeySection env.envId ++ ":" ++ rest))) = envParts env ++ splitColon rest := by
  rw [splitColon_append, splitColon_append, splitColon_append, splitColon_orgKeySection h.org,
    splitColon_projKeySection h.proj, splitColon_envKeySection h.env]
  rfl

theorem queueKey_eq (env : EnvDescriptor) (queue : String) (ck : Option String) :
    queueKey env queue ck = orgKeySection env.orgId ++ ":" ++ (projKeySection env.projectId ++ ":"
      ++ (envKeySection env.envId ++ ":" ++ ("queue" ++ ":" ++ queueTail queue ck))) := by
  unfold queueKey queueTail queueSection
  rcases concurrencyKeySections ck with _ | ⟨c, cs⟩
  · simp [joinColon, String.append_assoc, show ("queue:" : String) = "queue" ++ ":" from rfl]
  · simp [joinColon, String.append_assoc, show ("queue:" : String) = "queue" ++ ":" from rfl]

theorem splitColon_queueKey {env : EnvDescriptor} (h : env.NoColons) (queue : String)
    (ck : Option String) :
    splitColon (queueKey env queue ck)
      = envParts env ++ "queue" :: splitColon (queueTail queue ck) := by
  rw [queueKey_eq, splitColon_envPrefixed h, splitColon_cons (by decide)]

theorem splitColon_envPartKey {env : EnvDescriptor} (h : env.NoColons) (part : String) :
    splitColon (envPartKey env part) = envParts env ++ splitColon part := splitColon_envPrefixed h part

theorem splitColon_envQueueKey {env : EnvDescriptor} (h : env.NoColons) :
    splitColon (envQueueKey env) = ["\x7borg", env.orgId ++ "\x7d", "env", env.envId] := by
  change splitColon (orgKeySection env.orgId ++ ":" ++ envKeySection env.envId) = _
  rw [splitColon_append, splitColon_orgKeySection h.org, splitColon_envKeySection h.env]
  rfl

theorem splitColon_messageKey {o : String} (h : NoColon o) (id : String) :
    splitColon (messageKey o id) = "\x7borg" :: (o ++ "\x7d") :: "message" :: splitColon id := by
  change splitColon (orgKeySection o ++ ":" ++ ("message:" ++ id)) = _
  rw [splitColon_append, splitColon_orgKeySection h,
    show ("message:" : String) = "message" ++ ":" from rfl, splitColon_cons (by decide)]
  rfl

theorem splitColon_masterQueueKeyForShard (n : Nat) :
    (splitColon (masterQueueKeyForShard n)).head? = some "masterQueue" := by
  change (splitColon ("masterQueue" ++ ":" ++ _)).head? = _
  rw [splitColon_cons (by decide)]
  rfl

theorem splitColon_workerQueueKey (w : String) :
    splitColon (workerQueueKey w) = "workerQueue" :: splitColon w := splitColon_cons (by decide) w

/-- **queue key から読み戻した環境は、organization の波括弧を除いて元の環境である。** -/
theorem descriptorFromQueue_queueKey {env : EnvDescriptor} (h : env.NoColons) (queue : String)
    (ck : Option String) :
    ∃ d, descriptorFromQueue (queueKey env queue ck) = some d ∧ d.env = env.stripped := by
  unfold descriptorFromQueue
  rw [splitColon_queueKey h]
  exact ⟨_, rfl, rfl⟩

/-! ## key の役割

key は、分割した 0・2・6 番目の成分と最後の成分で見分けられる。以下の二つの関数が違えば key は違う。 -/

/-- 分割した 0・2・6 番目の成分。 -/
def signature (k : String) : Option String × Option String × Option String :=
  let parts := splitColon k
  (parts[0]?, parts[2]?, parts[6]?)

/-- 最後の成分。 -/
def lastPart (k : String) : Option String := (splitColon k).getLast?

theorem lastPart_append (a : String) {p : String} (h : NoColon p) :
    lastPart (a ++ ":" ++ p) = some p := by
  unfold lastPart
  rw [splitColon_append, splitColon_noColon h, List.getLast?_append]
  rfl

@[simp] theorem signature_queueKey {env : EnvDescriptor} (h : env.NoColons) (queue : String)
    (ck : Option String) :
    signature (queueKey env queue ck) = (some "\x7borg", some "proj", some "queue") := by
  unfold signature
  rw [splitColon_queueKey h]
  rfl

/-- queue key に成分を足しても役割は変わらない。 -/
@[simp] theorem signature_queueKey_append {env : EnvDescriptor} (h : env.NoColons) (queue : String)
    (ck : Option String) (p : String) :
    signature (queueKey env queue ck ++ ":" ++ p) = (some "\x7borg", some "proj", some "queue") := by
  unfold signature
  rw [splitColon_append, splitColon_queueKey h]
  rfl

@[simp] theorem signature_envPartKey {env : EnvDescriptor} (h : env.NoColons) {part : String}
    (hp : NoColon part) :
    signature (envPartKey env part) = (some "\x7borg", some "proj", some part) := by
  unfold signature
  rw [splitColon_envPartKey h, splitColon_noColon hp]
  rfl

@[simp] theorem signature_envQueueKey {env : EnvDescriptor} (h : env.NoColons) :
    signature (envQueueKey env) = (some "\x7borg", some "env", none) := by
  unfold signature
  rw [splitColon_envQueueKey h]
  rfl

theorem signature_messageKey {o : String} (h : NoColon o) (id : String) :
    (signature (messageKey o id)).2.1 = some "message" := by
  unfold signature
  rw [splitColon_messageKey h]
  rfl

theorem signature_masterQueueKeyForShard (n : Nat) :
    (signature (masterQueueKeyForShard n)).1 = some "masterQueue" := by
  unfold signature
  rw [← splitColon_masterQueueKeyForShard n, List.head?_eq_getElem?]

theorem signature_workerQueueKey (w : String) :
    (signature (workerQueueKey w)).1 = some "workerQueue" := by
  unfold signature
  rw [splitColon_workerQueueKey]
  rfl

/-! ## 同じ役割の key の単射性 -/

theorem append_brace_inj {a b : String} (h : a ++ "\x7d" = b ++ "\x7d") : a = b :=
  append_right_cancel h

/-- queue key は環境を決める。 -/
theorem envParts_inj {env env' : EnvDescriptor} {l l' : List String}
    (h : envParts env ++ l = envParts env' ++ l') : env = env' := by
  simp only [envParts, List.cons_append, List.nil_append, List.cons.injEq, true_and] at h
  obtain ⟨ho, hp, he, _⟩ := h
  cases env
  cases env'
  simp only [EnvDescriptor.mk.injEq]
  exact ⟨append_brace_inj ho, hp, he⟩

theorem queueKey_env_inj {env env' : EnvDescriptor} (h : env.NoColons) (h' : env'.NoColons)
    {q q' : String} {ck ck' : Option String} (hk : queueKey env q ck = queueKey env' q' ck') :
    env = env' := by
  have := congrArg splitColon hk
  rw [splitColon_queueKey h, splitColon_queueKey h'] at this
  exact envParts_inj this

theorem envPartKey_env_inj {env env' : EnvDescriptor} (h : env.NoColons) (h' : env'.NoColons)
    {part : String} (hk : envPartKey env part = envPartKey env' part) : env = env' := by
  have := congrArg splitColon hk
  rw [splitColon_envPartKey h, splitColon_envPartKey h'] at this
  exact envParts_inj this

theorem envQueueKey_envId_inj {env env' : EnvDescriptor} (h : env.NoColons) (h' : env'.NoColons)
    (hk : envQueueKey env = envQueueKey env') : env.envId = env'.envId := by
  have := congrArg splitColon hk
  rw [splitColon_envQueueKey h, splitColon_envQueueKey h'] at this
  simp only [List.cons.injEq, true_and, and_true] at this
  exact this.2

/-! ## 読み戻した key -/

section FromQueue

variable {env : EnvDescriptor} (h : env.NoColons) (queue : String) (ck : Option String)

include h

theorem envQueueKeyFromQueue_queueKey :
    envQueueKeyFromQueue (queueKey env queue ck) = some (envQueueKey env.stripped) := by
  obtain ⟨d, hd, he⟩ := descriptorFromQueue_queueKey h queue ck
  rw [envQueueKeyFromQueue, hd, Option.map_some, he]

theorem envCurrentConcurrencyKeyFromQueue_queueKey :
    envCurrentConcurrencyKeyFromQueue (queueKey env queue ck)
      = some (envCurrentConcurrencyKey env.stripped) := by
  obtain ⟨d, hd, he⟩ := descriptorFromQueue_queueKey h queue ck
  rw [envCurrentConcurrencyKeyFromQueue, hd, Option.map_some, he]

theorem envCurrentDequeuedKeyFromQueue_queueKey :
    envCurrentDequeuedKeyFromQueue (queueKey env queue ck)
      = some (envCurrentDequeuedKey env.stripped) := by
  obtain ⟨d, hd, he⟩ := descriptorFromQueue_queueKey h queue ck
  rw [envCurrentDequeuedKeyFromQueue, hd, Option.map_some, he]

theorem deadLetterQueueKeyFromQueue_queueKey :
    deadLetterQueueKeyFromQueue (queueKey env queue ck)
      = some (deadLetterQueueKey env.stripped) := by
  obtain ⟨d, hd, he⟩ := descriptorFromQueue_queueKey h queue ck
  rw [deadLetterQueueKeyFromQueue, hd, Option.map_some, he]

theorem envConcurrencyLimitKeyFromQueue_queueKey :
    envConcurrencyLimitKeyFromQueue (queueKey env queue ck)
      = some (envConcurrencyLimitKey env.stripped) := by
  obtain ⟨d, hd, he⟩ := descriptorFromQueue_queueKey h queue ck
  rw [envConcurrencyLimitKeyFromQueue, hd, Option.map_some, he]

theorem envConcurrencyLimitBurstFactorKeyFromQueue_queueKey :
    envConcurrencyLimitBurstFactorKeyFromQueue (queueKey env queue ck)
      = some (envConcurrencyLimitBurstFactorKey env.stripped) := by
  obtain ⟨d, hd, he⟩ := descriptorFromQueue_queueKey h queue ck
  rw [envConcurrencyLimitBurstFactorKeyFromQueue, hd, Option.map_some, he]

theorem messageKeyPrefixFromQueue_queueKey :
    messageKeyPrefixFromQueue (queueKey env queue ck)
      = some (orgKeySection (stripOrg env.orgId) ++ ":message:") := by
  obtain ⟨d, hd, he⟩ := descriptorFromQueue_queueKey h queue ck
  have ho : d.orgId = stripOrg env.orgId := by
    rw [← stripped_orgId, ← he]
    rfl
  rw [messageKeyPrefixFromQueue, hd, Option.map_some, ho]

end FromQueue

/-- 読み戻した prefix に id を足すと payload の key になる。 -/
theorem messageKeyPrefix_append (o id : String) :
    orgKeySection o ++ ":message:" ++ id = messageKey o id := by
  change _ = orgKeySection o ++ ":" ++ ("message:" ++ id)
  rw [show (":message:" : String) = ":" ++ "message:" from rfl, String.append_assoc,
    String.append_assoc, String.append_assoc]

/-- 環境の成分を連結した頭。 -/
def envHead (env : EnvDescriptor) : String :=
  orgKeySection env.orgId ++ ":" ++ (projKeySection env.projectId ++ ":" ++ envKeySection env.envId)

theorem splitColon_envHead {env : EnvDescriptor} (h : env.NoColons) :
    splitColon (envHead env) = envParts env := by
  unfold envHead
  rw [splitColon_append, splitColon_append, splitColon_orgKeySection h.org,
    splitColon_projKeySection h.proj, splitColon_envKeySection h.env]
  rfl

theorem queueKey_eq_envHead (env : EnvDescriptor) (queue : String) (ck : Option String) :
    queueKey env queue ck = envHead env ++ ":queue:" ++ queueTail queue ck := by
  rw [queueKey_eq, envHead, show (":queue:" : String) = ":" ++ ("queue" ++ ":") from rfl]
  simp only [String.append_assoc]

/-- 最後の `:queue:` で切った残りは、環境の頭か、それに `queue` で始まる成分を足したものである。 -/
theorem beforeLast_queueKey (env : EnvDescriptor) (queue : String) (ck : Option String) :
    ∃ p, beforeLast ":queue:".toList (queueKey env queue ck).toList = some p ∧
      (String.ofList p = envHead env ∨ ∃ x, String.ofList p = envHead env ++ ":" ++ x ∧
        (splitColon x).head? = some "queue") := by
  have hne : (envHead env).toList ≠ [] := by
    unfold envHead orgKeySection
    simp
  rw [queueKey_eq_envHead, String.toList_append, String.toList_append]
  obtain ⟨p, hp, y, rfl⟩ := beforeLast_longest (b := (queueTail queue ck).toList) hne
  refine ⟨_, hp, ?_⟩
  -- 切れ目の直後は `:queue:` なので、頭を越えた分は空か `:queue` で始まる。
  obtain ⟨rest, hrest⟩ := beforeLast_some hp
  rw [List.append_assoc, List.append_assoc, List.append_assoc, List.append_right_inj] at hrest
  rcases y with _ | ⟨c, y⟩
  · exact Or.inl (by simp)
  · have hcons : ':' = c ∧ "queue:".toList ++ (queueTail queue ck).toList
        = y ++ (":queue:".toList ++ rest) := List.cons.inj hrest
    obtain ⟨rfl, hy⟩ := hcons
    refine Or.inr ⟨String.ofList y, ?_, ?_⟩
    · apply String.toList_inj.mp
      simp
    · have hs : "queue" ++ ":" ++ queueTail queue ck
          = String.ofList y ++ ":" ++ ("queue:" ++ String.ofList rest) := by
        apply String.toList_inj.mp
        simpa using hy
      have := congrArg (fun t => (splitColon t).head?) hs
      simp only [splitColon_cons (show NoColon "queue" by decide), splitColon_append,
        List.head?_cons, List.head?_append_of_ne_nil _ (splitColon_ne_nil _)] at this
      exact this.symm

theorem envPartKey_eq_append (env : EnvDescriptor) (part : String) :
    ∃ a, envPartKey env part = a ++ ":" ++ part :=
  ⟨orgKeySection env.orgId ++ ":" ++ (projKeySection env.projectId ++ ":"
    ++ envKeySection env.envId), by
    unfold envPartKey
    simp [joinColon, String.append_assoc]⟩

end RunQueue
