import Trigger.RunQueue.KeyAgreement

/-!
# key の役割

`RunQueueFullKeyProducer` が作る key を、役割（`KeyRole`）と引数の値として並べる。どの役割も環境の id を
`:` で区切った頭を持ち、役割は後ろの成分で見分ける。ところが queue の `currentConcurrency` と
`currentDequeued` の key は、利用者の concurrency key の後ろに成分を足すだけなので、concurrency key が
`:currentConcurrency` で終わる queue の key と区別がつかない。

同じ key になる役割の組は `Shares` で尽くされる（`key_separates_iff`）。
-/

namespace RunQueue

open Infra.Text

/-! ## 役割 -/

/-- key の役割と、その引数。 -/
inductive KeyRole
  | queue (env : EnvDescriptor) (queue : String) (concurrencyKey : Option String)
  | queueConcurrencyLimit (env : EnvDescriptor) (queue : String)
  | queueCurrentConcurrency (env : EnvDescriptor) (queue : String) (concurrencyKey : Option String)
  | queueCurrentDequeued (env : EnvDescriptor) (queue : String) (concurrencyKey : Option String)
  | envQueue (env : EnvDescriptor)
  | envConcurrencyLimit (env : EnvDescriptor)
  | envConcurrencyLimitBurstFactor (env : EnvDescriptor)
  | envCurrentConcurrency (env : EnvDescriptor)
  | envCurrentDequeued (env : EnvDescriptor)
  | deadLetterQueue (env : EnvDescriptor)
  | message (orgId messageId : String)
deriving DecidableEq

namespace KeyRole

/-- その役割の key。 -/
def key : KeyRole → String
  | queue env q ck => queueKey env q ck
  | queueConcurrencyLimit env q => queueConcurrencyLimitKey env q
  | queueCurrentConcurrency env q ck => queueCurrentConcurrencyKey env q ck
  | queueCurrentDequeued env q ck => queueCurrentDequeuedKey env q ck
  | envQueue env => envQueueKey env
  | envConcurrencyLimit env => envConcurrencyLimitKey env
  | envConcurrencyLimitBurstFactor env => envConcurrencyLimitBurstFactorKey env
  | envCurrentConcurrency env => envCurrentConcurrencyKey env
  | envCurrentDequeued env => envCurrentDequeuedKey env
  | deadLetterQueue env => deadLetterQueueKey env
  | message orgId messageId => messageKey orgId messageId

/-- id に `:` も波括弧も無く、queue 名が `sanitizeQueueName` を通った役割。concurrency key と message の id は
任意である。 -/
def WellFormed : KeyRole → Prop
  | queue env q _ => env.Plain ∧ ∃ name, q = sanitizeQueueName name
  | queueConcurrencyLimit env q => env.Plain ∧ ∃ name, q = sanitizeQueueName name
  | queueCurrentConcurrency env q _ => env.Plain ∧ ∃ name, q = sanitizeQueueName name
  | queueCurrentDequeued env q _ => env.Plain ∧ ∃ name, q = sanitizeQueueName name
  | envQueue env => env.Plain
  | envConcurrencyLimit env => env.Plain
  | envConcurrencyLimitBurstFactor env => env.Plain
  | envCurrentConcurrency env => env.Plain
  | envCurrentDequeued env => env.Plain
  | deadLetterQueue env => env.Plain
  | message orgId _ => PlainId orgId

/-- 違う役割、または違う引数なのに、同じ key になる組。 -/
inductive Shares : KeyRole → KeyRole → Prop
  | queueAsConcurrency (env : EnvDescriptor) (q k : String) (hk : k ≠ "") :
    Shares (queue env q (some (k ++ ":currentConcurrency")))
      (queueCurrentConcurrency env q (some k))
  | queueAsDequeued (env : EnvDescriptor) (q k : String) (hk : k ≠ "") :
    Shares (queue env q (some (k ++ ":currentDequeued"))) (queueCurrentDequeued env q (some k))
  | emptyKey (env : EnvDescriptor) (q : String) :
    Shares (queue env q none) (queue env q (some ""))
  | emptyKeyConcurrency (env : EnvDescriptor) (q : String) :
    Shares (queueCurrentConcurrency env q none) (queueCurrentConcurrency env q (some ""))
  | emptyKeyDequeued (env : EnvDescriptor) (q : String) :
    Shares (queueCurrentDequeued env q none) (queueCurrentDequeued env q (some ""))
  | otherProject (env : EnvDescriptor) (projectId : String) (hp : projectId ≠ env.projectId) :
    Shares (envQueue env) (envQueue { env with projectId := projectId })

/-! ## 分割した key -/

/-- 分割した concurrency key の成分。 -/
def ckParts : Option String → List String
  | none => []
  | some k => if k = "" then [] else "ck" :: splitColon k

/-- 分割した key の形。役割の違いは後ろの成分に出る。 -/
inductive Shape
  | inQueue (env : EnvDescriptor) (queue : String) (rest : List String)
  | inEnv (env : EnvDescriptor) (part : String)
  | envQueue (orgId envId : String)
  | message (orgId : String) (id : List String)

/-- 形に対応する成分の列。 -/
def Shape.parts : Shape → List String
  | .inQueue env q rest => envParts env ++ "queue" :: q :: rest
  | .inEnv env part => envParts env ++ [part]
  | .envQueue orgId envId => ["\x7borg", orgId ++ "\x7d", "env", envId]
  | .message orgId id => "\x7borg" :: (orgId ++ "\x7d") :: "message" :: id

/-- 役割の形。 -/
def shape : KeyRole → Shape
  | queue env q ck => .inQueue env q (ckParts ck)
  | queueConcurrencyLimit env q => .inQueue env q ["concurrency"]
  | queueCurrentConcurrency env q ck => .inQueue env q (ckParts ck ++ ["currentConcurrency"])
  | queueCurrentDequeued env q ck => .inQueue env q (ckParts ck ++ ["currentDequeued"])
  | envQueue env => .envQueue env.orgId env.envId
  | envConcurrencyLimit env => .inEnv env "concurrency"
  | envConcurrencyLimitBurstFactor env => .inEnv env "concurrencyBurstFactor"
  | envCurrentConcurrency env => .inEnv env "currentConcurrency"
  | envCurrentDequeued env => .inEnv env "currentDequeued"
  | deadLetterQueue env => .inEnv env "deadLetter"
  | message orgId messageId => .message orgId (splitColon messageId)

theorem splitColon_queueTail {q : String} (hq : NoColon q) (ck : Option String) :
    splitColon (queueTail q ck) = q :: ckParts ck := by
  rcases ck with _ | k
  · simp [queueTail, concurrencyKeySections, joinColon, ckParts, splitColon_noColon hq]
  by_cases hk : k = ""
  · simp [queueTail, concurrencyKeySections, joinColon, ckParts, splitColon_noColon hq, hk]
  · have htail : queueTail q (some k) = q ++ ":" ++ ("ck" ++ ":" ++ k) := by
      simp [queueTail, concurrencyKeySections, hk, joinColon, concurrencyKeySection,
        show ("ck:" : String) = "ck" ++ ":" from rfl]
    rw [htail, splitColon_cons hq, splitColon_cons (by decide)]
    simp [ckParts, hk]

/-- queue の key に成分を一つ足した key。 -/
theorem splitColon_queueKey_append {env : EnvDescriptor} (h : env.Plain) {q : String}
    (hq : NoColon q) (ck : Option String) {part : String} (hp : NoColon part) :
    splitColon (joinColon [queueKey env q ck, part])
      = envParts env ++ "queue" :: q :: (ckParts ck ++ [part]) := by
  change splitColon (queueKey env q ck ++ ":" ++ part) = _
  rw [splitColon_append, splitColon_queueKey h.noColons, splitColon_queueTail hq,
    splitColon_noColon hp]
  simp

/-- 分割した key は、役割の形の成分の列である。 -/
theorem splitColon_key : ∀ {a : KeyRole}, a.WellFormed → splitColon a.key = a.shape.parts
  | queue env q ck, ⟨h, name, hq⟩ => by
    rw [key, splitColon_queueKey h.noColons,
      splitColon_queueTail (hq ▸ noColon_sanitizeQueueName name)]
    rfl
  | queueConcurrencyLimit env q, ⟨h, name, hq⟩ =>
    splitColon_queueKey_append h (hq ▸ noColon_sanitizeQueueName name) none (by decide)
  | queueCurrentConcurrency env q ck, ⟨h, name, hq⟩ =>
    splitColon_queueKey_append h (hq ▸ noColon_sanitizeQueueName name) ck (by decide)
  | queueCurrentDequeued env q ck, ⟨h, name, hq⟩ =>
    splitColon_queueKey_append h (hq ▸ noColon_sanitizeQueueName name) ck (by decide)
  | envQueue _, h => splitColon_envQueueKey h.noColons
  | envConcurrencyLimit _, h => splitColon_envPartKey h.noColons "concurrency"
  | envConcurrencyLimitBurstFactor _, h => splitColon_envPartKey h.noColons "concurrencyBurstFactor"
  | envCurrentConcurrency _, h => splitColon_envPartKey h.noColons "currentConcurrency"
  | envCurrentDequeued _, h => splitColon_envPartKey h.noColons "currentDequeued"
  | deadLetterQueue _, h => splitColon_envPartKey h.noColons "deadLetter"
  | message _ id, h => splitColon_messageKey h.noColon id

theorem parts_inQueue_ne_inEnv {env env' : EnvDescriptor} {q part : String} {rest : List String} :
    (Shape.inQueue env q rest).parts ≠ (Shape.inEnv env' part).parts := by
  intro h
  have hlen := congrArg List.length h
  simp [Shape.parts, envParts] at hlen

/-- 成分の列は形を決める。 -/
theorem shape_parts_injective : Function.Injective Shape.parts := by
  intro s t h
  cases s with
  | inQueue env q rest =>
    cases t with
    | inQueue env' q' rest' =>
      obtain rfl := envParts_inj h
      have hrest := List.append_cancel_left h
      obtain ⟨rfl, rfl⟩ := List.cons.inj (List.cons.inj hrest).2
      rfl
    -- `queue` の成分があるかどうかだけが違いになる。
    | inEnv env' part => exact absurd h parts_inQueue_ne_inEnv
    | _ => simp [Shape.parts, envParts] at h
  | inEnv env part =>
    cases t with
    | inQueue env' q' rest' => exact absurd h.symm parts_inQueue_ne_inEnv
    | inEnv env' part' =>
      obtain rfl := envParts_inj h
      rw [List.singleton_inj.mp (List.append_cancel_left h)]
    | _ => simp [Shape.parts, envParts] at h
  | envQueue orgId envId =>
    cases t with
    | envQueue orgId' envId' =>
      simp only [Shape.parts, List.cons.injEq, true_and, and_true] at h
      rw [append_brace_inj h.1, h.2]
    | _ => simp [Shape.parts, envParts] at h
  | message orgId id =>
    cases t with
    | message orgId' id' =>
      simp only [Shape.parts, List.cons.injEq, true_and] at h
      rw [append_brace_inj h.1, h.2]
    | _ => simp [Shape.parts, envParts] at h

/-! ## concurrency key の成分 -/

theorem ckParts_of_ne {k : String} (hk : k ≠ "") : ckParts (some k) = "ck" :: splitColon k :=
  if_neg hk

/-- 空の concurrency key は、無いのと区別がつかない。 -/
theorem ckParts_inj {ck ck' : Option String} (h : ckParts ck = ckParts ck') :
    ck = ck' ∨ (ck = none ∧ ck' = some "") ∨ (ck = some "" ∧ ck' = none) := by
  rcases ck with _ | k <;> rcases ck' with _ | k'
  · exact .inl rfl
  · by_cases hk : k' = ""
    · exact .inr (.inl ⟨rfl, by rw [hk]⟩)
    · rw [ckParts_of_ne hk] at h
      cases h
  · by_cases hk : k = ""
    · exact .inr (.inr ⟨by rw [hk], rfl⟩)
    · rw [ckParts_of_ne hk] at h
      cases h
  · by_cases hk : k = "" <;> by_cases hk' : k' = ""
    · exact .inl (by rw [hk, hk'])
    · rw [ckParts_of_ne hk', hk] at h
      cases h
    · rw [ckParts_of_ne hk, hk'] at h
      cases h
    · rw [ckParts_of_ne hk, ckParts_of_ne hk'] at h
      exact .inl (congrArg some (splitColon_injective (List.cons.inj h).2))

/-- concurrency key の成分が、別の concurrency key の成分に `part` を足したものになる場合。 -/
theorem ckParts_eq_append {ck ck' : Option String} {part : String} (hp : NoColon part)
    (hne : part ≠ "ck") (h : ckParts ck = ckParts ck' ++ [part]) :
    ∃ k, k ≠ "" ∧ ck' = some k ∧ ck = some (k ++ ":" ++ part) := by
  obtain ⟨c, rfl, hc⟩ : ∃ c, ck = some c ∧ c ≠ "" := by
    rcases ck with _ | c
    · cases List.append_eq_nil_iff.mp h.symm |>.2
    · refine ⟨c, rfl, fun hc => ?_⟩
      rw [hc] at h
      cases List.append_eq_nil_iff.mp (show [] = ckParts ck' ++ [part] from h).symm |>.2
  rw [ckParts_of_ne hc] at h
  obtain ⟨k, rfl, hk⟩ : ∃ k, ck' = some k ∧ k ≠ "" := by
    rcases ck' with _ | k
    · exact absurd (List.cons.inj h).1.symm hne
    · refine ⟨k, rfl, fun hk => ?_⟩
      rw [hk] at h
      exact absurd (List.cons.inj h).1.symm hne
  rw [ckParts_of_ne hk, List.cons_append, ← splitColon_noColon hp, ← splitColon_append] at h
  exact ⟨k, hk, rfl, congrArg some (splitColon_injective (List.cons.inj h).2)⟩

/-! ## 同じ key になる組 -/

/-- 同じ役割の同じ引数であるか、どちらかが他方を真似ている。 -/
def Meets (a b : KeyRole) : Prop := a = b ∨ Shares a b ∨ Shares b a

theorem Meets.symm {a b : KeyRole} : Meets a b → Meets b a
  | .inl h => .inl h.symm
  | .inr (.inl h) => .inr (.inr h)
  | .inr (.inr h) => .inr (.inl h)

/-- 最後の成分が違えば列も違う。 -/
theorem append_part_ne {l m : List String} {part part' : String} (hne : part ≠ part') :
    l ++ [part] ≠ m ++ [part'] := by
  intro h
  exact hne (List.singleton_inj.mp (List.append_inj' h rfl).2)

section Shapes

variable {b : KeyRole} {env : EnvDescriptor} {q : String} {ck : Option String}

theorem meets_queue (h : (queue env q ck).shape = b.shape) : Meets (queue env q ck) b := by
  cases b with
  | queue env' q' ck' =>
    obtain ⟨rfl, rfl, hck⟩ := Shape.inQueue.inj h
    rcases ckParts_inj hck with rfl | ⟨rfl, rfl⟩ | ⟨rfl, rfl⟩
    · exact .inl rfl
    · exact .inr (.inl (.emptyKey _ _))
    · exact .inr (.inr (.emptyKey _ _))
  | queueConcurrencyLimit env' q' =>
    obtain ⟨rfl, rfl, hck⟩ := Shape.inQueue.inj h
    -- 上限の key は、concurrency key の無い queue に成分を足したものである。
    have hnone : ckParts ck = ckParts none ++ ["concurrency"] := hck
    obtain ⟨_, _, habsurd, _⟩ := ckParts_eq_append (by decide) (by decide) hnone
    cases habsurd
  | queueCurrentConcurrency env' q' ck' =>
    obtain ⟨rfl, rfl, hck⟩ := Shape.inQueue.inj h
    obtain ⟨k, hk, rfl, rfl⟩ := ckParts_eq_append (by decide) (by decide) hck
    rw [String.append_assoc]
    exact .inr (.inl (.queueAsConcurrency _ _ k hk))
  | queueCurrentDequeued env' q' ck' =>
    obtain ⟨rfl, rfl, hck⟩ := Shape.inQueue.inj h
    obtain ⟨k, hk, rfl, rfl⟩ := ckParts_eq_append (by decide) (by decide) hck
    rw [String.append_assoc]
    exact .inr (.inl (.queueAsDequeued _ _ k hk))
  | _ => simp [shape] at h

theorem meets_queueConcurrencyLimit (h : (queueConcurrencyLimit env q).shape = b.shape) :
    Meets (queueConcurrencyLimit env q) b := by
  cases b with
  | queue env' q' ck' => exact (meets_queue h.symm).symm
  | queueConcurrencyLimit env' q' =>
    obtain ⟨rfl, rfl, -⟩ := Shape.inQueue.inj h
    exact .inl rfl
  | queueCurrentConcurrency env' q' ck' =>
    have hrest : [] ++ ["concurrency"] = _ := (Shape.inQueue.inj h).2.2
    exact absurd hrest (append_part_ne (by decide))
  | queueCurrentDequeued env' q' ck' =>
    have hrest : [] ++ ["concurrency"] = _ := (Shape.inQueue.inj h).2.2
    exact absurd hrest (append_part_ne (by decide))
  | _ => simp [shape] at h

theorem meets_queueCurrentConcurrency (h : (queueCurrentConcurrency env q ck).shape = b.shape) :
    Meets (queueCurrentConcurrency env q ck) b := by
  cases b with
  | queue env' q' ck' => exact (meets_queue h.symm).symm
  | queueConcurrencyLimit env' q' => exact (meets_queueConcurrencyLimit h.symm).symm
  | queueCurrentConcurrency env' q' ck' =>
    obtain ⟨rfl, rfl, hck⟩ := Shape.inQueue.inj h
    rcases ckParts_inj (List.append_cancel_right hck) with rfl | ⟨rfl, rfl⟩ | ⟨rfl, rfl⟩
    · exact .inl rfl
    · exact .inr (.inl (.emptyKeyConcurrency _ _))
    · exact .inr (.inr (.emptyKeyConcurrency _ _))
  | queueCurrentDequeued env' q' ck' =>
    exact absurd (Shape.inQueue.inj h).2.2 (append_part_ne (by decide))
  | _ => simp [shape] at h

theorem meets_queueCurrentDequeued (h : (queueCurrentDequeued env q ck).shape = b.shape) :
    Meets (queueCurrentDequeued env q ck) b := by
  cases b with
  | queue env' q' ck' => exact (meets_queue h.symm).symm
  | queueConcurrencyLimit env' q' => exact (meets_queueConcurrencyLimit h.symm).symm
  | queueCurrentConcurrency env' q' ck' => exact (meets_queueCurrentConcurrency h.symm).symm
  | queueCurrentDequeued env' q' ck' =>
    obtain ⟨rfl, rfl, hck⟩ := Shape.inQueue.inj h
    rcases ckParts_inj (List.append_cancel_right hck) with rfl | ⟨rfl, rfl⟩ | ⟨rfl, rfl⟩
    · exact .inl rfl
    · exact .inr (.inl (.emptyKeyDequeued _ _))
    · exact .inr (.inr (.emptyKeyDequeued _ _))
  | _ => simp [shape] at h

/-- 環境の queue の key には project の id が入らない。 -/
theorem meets_envQueue (h : (envQueue env).shape = b.shape) : Meets (envQueue env) b := by
  cases b with
  | envQueue env' =>
    obtain ⟨horg, henv⟩ := Shape.envQueue.inj h
    by_cases hp : env'.projectId = env.projectId
    · refine .inl (congrArg envQueue ?_)
      cases env
      cases env'
      simp_all
    · have hother := Shares.otherProject env env'.projectId hp
      rw [horg, henv] at hother
      exact .inr (.inl hother)
  | _ => simp [shape] at h

end Shapes

/-- 形が同じ役割は、同じ引数の同じ役割か、真似た組である。 -/
theorem meets_of_shape {a b : KeyRole} (h : a.shape = b.shape) : Meets a b := by
  cases a with
  | queue => exact meets_queue h
  | queueConcurrencyLimit => exact meets_queueConcurrencyLimit h
  | queueCurrentConcurrency => exact meets_queueCurrentConcurrency h
  | queueCurrentDequeued => exact meets_queueCurrentDequeued h
  | envQueue => exact meets_envQueue h
  | message orgId id =>
    cases b with
    | message orgId' id' =>
      obtain ⟨rfl, hid⟩ := Shape.message.inj h
      exact .inl (congrArg (message orgId) (splitColon_injective hid))
    | _ => simp [shape] at h
  | _ =>
    -- 残りは環境の成分が一つだけ違う役割である。
    cases b <;> simp [shape] at h
    exact .inl (by rw [h])

theorem Shares.key_eq {a b : KeyRole} (h : Shares a b) : a.key = b.key := by
  cases h with
  | queueAsConcurrency env q k hk =>
    simp [key, queueCurrentConcurrencyKey, queueKey_eq, queueTail, concurrencyKeySections, hk,
      concurrencyKeySection, joinColon, String.append_assoc]
  | queueAsDequeued env q k hk =>
    simp [key, queueCurrentDequeuedKey, queueKey_eq, queueTail, concurrencyKeySections, hk,
      concurrencyKeySection, joinColon, String.append_assoc]
  | emptyKey | emptyKeyConcurrency | emptyKeyDequeued => rfl
  | otherProject => rfl

theorem Shares.ne {a b : KeyRole} (h : Shares a b) : a ≠ b := by
  cases h with
  | otherProject env projectId hp =>
    intro he
    exact hp (congrArg EnvDescriptor.projectId (envQueue.inj he)).symm
  | _ => simp

/-- **二つの役割の key が区別されるのは、どちらも他方を真似ていないとき、そのときに限る。** id は `:` も波括弧も
含まず、queue 名は `sanitizeQueueName` を通る。concurrency key と message の id は任意の文字列である。 -/
theorem key_separates_iff (a b : KeyRole) (ha : a.WellFormed) (hb : b.WellFormed) :
    (a.key = b.key → a = b) ↔ ¬ Shares a b ∧ ¬ Shares b a := by
  constructor
  · intro h
    exact ⟨fun hs => hs.ne (h hs.key_eq), fun hs => hs.ne (h hs.key_eq.symm).symm⟩
  · rintro ⟨hab, hba⟩ hkey
    have hparts := congrArg splitColon hkey
    rw [splitColon_key ha, splitColon_key hb] at hparts
    rcases meets_of_shape (shape_parts_injective hparts) with he | hs | hs
    · exact he
    · exact absurd hs hab
    · exact absurd hs hba

/-- 成分の足りない concurrency key では、queue の key と `currentConcurrency` の key は区別される。 -/
theorem key_separates_plain : (queue ⟨"o", "p", "e"⟩ "q" (some "b")).key
    ≠ (queueCurrentConcurrency ⟨"o", "p", "e"⟩ "q" (some "a")).key := by
  intro h
  refine absurd ((key_separates_iff (queue ⟨"o", "p", "e"⟩ "q" (some "b"))
    (queueCurrentConcurrency ⟨"o", "p", "e"⟩ "q" (some "a")) ⟨by decide, "q", by decide⟩
    ⟨by decide, "q", by decide⟩).mpr ⟨fun h => ?_, nofun⟩ h) nofun
  exact absurd h.key_eq (by decide +kernel)

/-- concurrency key が `a:currentConcurrency` の queue の key は、concurrency key が `a` の queue の
`currentConcurrency` の key と同じである。 -/
theorem key_collides : ¬ ∀ a b : KeyRole, a.WellFormed → b.WellFormed → a.key = b.key → a = b := by
  intro h
  have heq := h (queue ⟨"o", "p", "e"⟩ "q" (some "a:currentConcurrency"))
    (queueCurrentConcurrency ⟨"o", "p", "e"⟩ "q" (some "a")) ⟨by decide, "q", by decide⟩
    ⟨by decide, "q", by decide⟩ (by decide +kernel)
  cases heq

end KeyRole

end RunQueue
