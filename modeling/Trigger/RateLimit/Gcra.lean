import Mathlib.Data.List.Basic

/-!
# GCRA による rate limit

Redis に置いた到着予定時刻（TAT）を読み、許せば進める。key は PX の時間が過ぎると消える。

消えた key は現在時刻より後の TAT を持たないので、key の期限は結果に影響しない。検査の列は、TAT だけを
持つ抽象的な limiter（`Tat`）と同じ判定をする（`gcra_refines`）。
-/

namespace RateLimit

/-! ## 抽象的な limiter -/

namespace Tat

/-- 許すか。 -/
def allows (burst tat now : ℕ) : Bool := tat ≤ now + burst

/-- 許したときの次の TAT。 -/
def advance (emission tat now : ℕ) : ℕ := max tat now + emission

/-- 一回の検査の後の TAT。 -/
def next (emission burst tat now : ℕ) : ℕ :=
  if allows burst tat now then advance emission tat now else tat

/-- 検査の列のうち、`t` から `t + w` までの間に許した回数。 -/
def allowedWithin (emission burst t w : ℕ) : ℕ → List ℕ → ℕ
  | _, [] => 0
  | tat, now :: rest =>
    (if allows burst tat now ∧ t ≤ now ∧ now ≤ t + w then 1 else 0) +
      allowedWithin emission burst t w (next emission burst tat now) rest

variable {emission burst t w : ℕ}

theorem le_next (tat now : ℕ) : tat ≤ next emission burst tat now := by
  unfold next advance
  split
  · exact Nat.le_trans (Nat.le_max_left tat now) (Nat.le_add_right _ _)
  · exact Nat.le_refl _

/--
窓の中で許した最後の検査の TAT は、窓の終わりに許容幅を足した時刻を越えない。一回許すたびに TAT は
`emission` だけ進むので、回数が抑えられる。
-/
theorem allowedWithin_bound : ∀ (tat : ℕ) (ts : List ℕ),
    allowedWithin emission burst t w tat ts = 0 ∨
      (allowedWithin emission burst t w tat ts - 1) * emission + max tat t ≤ t + w + burst
  | _, [] => .inl rfl
  | tat, now :: rest => by
    have ih := allowedWithin_bound (next emission burst tat now) rest
    have hle : tat ≤ next emission burst tat now := le_next tat now
    unfold allowedWithin
    split
    · next h =>
      obtain ⟨hallow, hfrom, hto⟩ := h
      have htat : tat ≤ now + burst := of_decide_eq_true hallow
      have hnext : next emission burst tat now = max tat now + emission := if_pos hallow
      rw [hnext] at ih ⊢
      generalize allowedWithin emission burst t w (max tat now + emission) rest = n at ih ⊢
      right
      rcases ih with rfl | ih
      · rw [Nat.add_zero, Nat.sub_self, Nat.zero_mul]
        omega
      · cases n with
        | zero =>
          rw [Nat.add_zero, Nat.sub_self, Nat.zero_mul]
          omega
        | succ n =>
          rw [Nat.add_sub_cancel] at ih
          rw [Nat.add_sub_cancel_left, Nat.succ_mul]
          omega
    · rw [Nat.zero_add]
      refine ih.imp id fun h => ?_
      omega

theorem allowedWithin_le (hemission : 0 < emission) (tat : ℕ) (ts : List ℕ) :
    allowedWithin emission burst t w tat ts ≤ (w + burst) / emission + 1 := by
  have hcases : allowedWithin emission burst t w tat ts = 0 ∨
      (allowedWithin emission burst t w tat ts - 1) * emission + max tat t ≤ t + w + burst :=
    allowedWithin_bound tat ts
  rcases hcases with hzero | hbound
  · rw [hzero]
    exact Nat.zero_le _
  · have hmul : (allowedWithin emission burst t w tat ts - 1) * emission ≤ w + burst := by omega
    exact Nat.sub_le_iff_le_add.mp ((Nat.le_div_iff_mul_le hemission).mpr hmul)

end Tat

/-! ## Redis の script -/

/-- Redis に置いた値と、消える時刻。 -/
structure Stored where
  value : ℕ
  expiresAt : ℕ
deriving DecidableEq

abbrev Redis := String → Option Stored

/-- `GET`。期限の切れた key は無い。 -/
def Redis.get (redis : Redis) (key : String) (now : ℕ) : Option ℕ :=
  match redis key with
  | some stored => if now < stored.expiresAt then some stored.value else none
  | none => none

/-- `SET key value PX expire`。 -/
def Redis.setPx (redis : Redis) (key : String) (value expire now : ℕ) : Redis :=
  fun k => if k = key then some ⟨value, now + expire⟩ else redis k

/-- `gcra` command。返り値は、許したかの旗と待つべき時間である。 -/
def gcra (key : String) (now emissionInterval burstTolerance expire : ℕ) (redis : Redis) :
    (ℕ × ℕ) × Redis :=
  let stored := (redis.get key now).getD 0
  let tat := if stored = 0 then now else stored
  if tat ≤ now then ((1, 0), redis.setPx key (now + emissionInterval) expire now)
  else if tat ≤ now + burstTolerance then
    ((1, 0), redis.setPx key (tat + emissionInterval) expire now)
  else ((0, tat - (now + burstTolerance)), redis)

/-! ## GCRARateLimiter -/

structure GCRARateLimiterOptions where
  keyPrefix : Option String := none
  emissionInterval : ℕ
  burstTolerance : ℕ
  keyExpiration : Option ℕ := none

structure RateLimitResult where
  allowed : Bool
  retryAfter : Option ℕ
deriving DecidableEq

structure GCRARateLimiter where
  keyPrefix : String
  emissionInterval : ℕ
  burstTolerance : ℕ
  keyExpiration : ℕ

/-- constructor。空の prefix と零の期限は、省いたものとして扱われる。 -/
def GCRARateLimiter.new (options : GCRARateLimiterOptions) : GCRARateLimiter where
  keyPrefix := (options.keyPrefix.filter (· ≠ "")).getD "gcra:ratelimit:"
  emissionInterval := options.emissionInterval
  burstTolerance := options.burstTolerance
  keyExpiration := (options.keyExpiration.filter (· ≠ 0)).getD
    (max 60000 (options.emissionInterval + options.burstTolerance))

namespace GCRARateLimiter

/-- 時刻 `now` の検査。 -/
def check (limiter : GCRARateLimiter) (identifier : String) (now : ℕ) (redis : Redis) :
    RateLimitResult × Redis :=
  let reply := gcra (limiter.keyPrefix ++ identifier) now limiter.emissionInterval
    limiter.burstTolerance limiter.keyExpiration redis
  if reply.1.1 = 1 then (⟨true, none⟩, reply.2) else (⟨false, some reply.1.2⟩, reply.2)

/-- 一つの identifier を、時刻の列のとおりに検査する。 -/
def checks (limiter : GCRARateLimiter) (identifier : String) :
    Redis → List ℕ → List (ℕ × RateLimitResult)
  | _, [] => []
  | redis, now :: rest =>
    (now, (limiter.check identifier now redis).1) ::
      limiter.checks identifier (limiter.check identifier now redis).2 rest

/-- 検査の列の後の Redis。 -/
def after (limiter : GCRARateLimiter) (identifier : String) (redis : Redis) (ts : List ℕ) : Redis :=
  ts.foldl (fun redis now => (limiter.check identifier now redis).2) redis

/-- `t` から `t + w` までの間に許した検査の回数。 -/
def allowedWithin (limiter : GCRARateLimiter) (identifier : String) (redis : Redis) (ts : List ℕ)
    (t w : ℕ) : ℕ :=
  (limiter.checks identifier redis ts).countP fun p =>
    p.2.allowed && decide (t ≤ p.1 ∧ p.1 ≤ t + w)

end GCRARateLimiter

/-! ## 期限は判定に影響しない -/

section Refine

variable {limiter : GCRARateLimiter} {identifier : String} {redis : Redis} {now : ℕ}

/-- key が持つ TAT。期限を問わない。 -/
def storedTat (redis : Redis) (key : String) : ℕ := ((redis key).map Stored.value).getD 0

/-- 置かれた値は正で、期限より後の TAT ではない。 -/
def Fresh (limiter : GCRARateLimiter) (identifier : String) (redis : Redis) : Prop :=
  ∀ stored, redis (limiter.keyPrefix ++ identifier) = some stored →
    0 < stored.value ∧ stored.value ≤ stored.expiresAt

/-- 一回の検査がすること。判定も次の TAT も、抽象的な limiter のものである。 -/
theorem check_cases (now : ℕ) (hfresh : Fresh limiter identifier redis) {tat : ℕ}
    (htat : storedTat redis (limiter.keyPrefix ++ identifier) = tat) :
    (tat ≤ now + limiter.burstTolerance ∧ limiter.check identifier now redis =
      (⟨true, none⟩, redis.setPx (limiter.keyPrefix ++ identifier)
        (max tat now + limiter.emissionInterval) limiter.keyExpiration now)) ∨
    (now + limiter.burstTolerance < tat ∧ limiter.check identifier now redis =
      (⟨false, some (tat - (now + limiter.burstTolerance))⟩, redis)) := by
  set key := limiter.keyPrefix ++ identifier with hkey
  -- 読み出した値は TAT であるか、TAT が既に過ぎている
  have hread : (redis.get key now).getD 0 = tat ∧ (tat = 0 ∨ 0 < tat) ∨
      (redis.get key now).getD 0 = 0 ∧ tat ≤ now := by
    unfold Redis.get
    unfold storedTat at htat
    rcases hstored : redis key with _ | stored
    · rw [hstored] at htat
      exact .inr ⟨rfl, htat ▸ Nat.zero_le now⟩
    · rw [hstored] at htat
      have hvalue : stored.value = tat := htat
      obtain ⟨hpos, hle⟩ := hfresh stored hstored
      dsimp only
      split
      · exact .inl ⟨hvalue, .inr (hvalue ▸ hpos)⟩
      · exact .inr ⟨rfl, by omega⟩
  unfold GCRARateLimiter.check gcra
  rw [← hkey]
  generalize (redis.get key now).getD 0 = stored at hread
  dsimp only
  by_cases hzero : stored = 0
  · rw [if_pos hzero, if_pos (Nat.le_refl now)]
    have hle : tat ≤ now := by omega
    exact .inl ⟨by omega, by rw [Nat.max_eq_right hle]; rfl⟩
  · rw [if_neg hzero]
    have heq : stored = tat := by omega
    rw [heq]
    by_cases hpast : tat ≤ now
    · rw [if_pos hpast]
      exact .inl ⟨by omega, by rw [Nat.max_eq_right hpast]; rfl⟩
    · rw [if_neg hpast]
      by_cases hburst : tat ≤ now + limiter.burstTolerance
      · rw [if_pos hburst]
        exact .inl ⟨hburst, by rw [Nat.max_eq_left (by omega)]; rfl⟩
      · rw [if_neg hburst]
        exact .inr ⟨by omega, rfl⟩

theorem fresh_empty : Fresh limiter identifier fun _ => none := by
  intro stored hstored
  cases hstored

theorem storedTat_setPx (key : String) (value expire : ℕ) :
    storedTat (redis.setPx key value expire now) key = value := by
  unfold storedTat Redis.setPx
  rw [if_pos rfl]
  rfl

/-- 期限が既定値以上なら、検査は `Fresh` を保ち、抽象的な limiter と同じ判定をして、同じ TAT を残す。 -/
theorem check_refines (hexpire : limiter.emissionInterval + limiter.burstTolerance ≤
      limiter.keyExpiration) (hnow : 0 < now) (hfresh : Fresh limiter identifier redis) {tat : ℕ}
    (htat : storedTat redis (limiter.keyPrefix ++ identifier) = tat) :
    (limiter.check identifier now redis).1.allowed = Tat.allows limiter.burstTolerance tat now ∧
      Fresh limiter identifier (limiter.check identifier now redis).2 ∧
      storedTat (limiter.check identifier now redis).2 (limiter.keyPrefix ++ identifier) =
        Tat.next limiter.emissionInterval limiter.burstTolerance tat now := by
  rcases check_cases now hfresh htat with ⟨hle, heq⟩ | ⟨hlt, heq⟩
  · have hallows : Tat.allows limiter.burstTolerance tat now = true := decide_eq_true hle
    rw [heq, hallows]
    refine ⟨rfl, fun stored hstored => ?_, ?_⟩
    · -- 次の TAT は、期限より後にはならない
      have hvalue : (⟨max tat now + limiter.emissionInterval, now + limiter.keyExpiration⟩ :
          Stored) = stored := Option.some.inj ((if_pos rfl).symm.trans hstored)
      rw [← hvalue]
      show 0 < max tat now + limiter.emissionInterval ∧
        max tat now + limiter.emissionInterval ≤ now + limiter.keyExpiration
      omega
    · rw [storedTat_setPx]
      exact (if_pos hallows).symm
  · have hallows : Tat.allows limiter.burstTolerance tat now = false :=
      decide_eq_false (Nat.not_le_of_lt hlt)
    rw [heq, hallows]
    refine ⟨rfl, hfresh, htat.trans ?_⟩
    unfold Tat.next
    rw [hallows]
    rfl

/-- 検査の列が許す回数は、抽象的な limiter のものである。 -/
theorem gcra_refines (hexpire : limiter.emissionInterval + limiter.burstTolerance ≤
      limiter.keyExpiration) (t w : ℕ) : ∀ {ts : List ℕ} {redis : Redis} {tat : ℕ},
    (∀ now ∈ ts, 0 < now) → Fresh limiter identifier redis →
      storedTat redis (limiter.keyPrefix ++ identifier) = tat →
        limiter.allowedWithin identifier redis ts t w =
          Tat.allowedWithin limiter.emissionInterval limiter.burstTolerance t w tat ts
  | [], _, _, _, _, _ => rfl
  | now :: rest, redis, tat, hpos, hfresh, htat => by
    obtain ⟨hallowed, hfresh', htat'⟩ :=
      check_refines hexpire (hpos now List.mem_cons_self) hfresh htat
    have ih := gcra_refines hexpire t w
      (fun n hn => hpos n (List.mem_cons_of_mem now hn)) hfresh' htat'
    unfold GCRARateLimiter.allowedWithin at ih ⊢
    rw [GCRARateLimiter.checks, List.countP_cons, ih, Nat.add_comm, Tat.allowedWithin]
    dsimp only
    rw [hallowed]
    simp only [Bool.and_eq_true, decide_eq_true_eq]

theorem fresh_after (hexpire : limiter.emissionInterval + limiter.burstTolerance ≤
      limiter.keyExpiration) {ts : List ℕ} (hpos : ∀ now ∈ ts, 0 < now) :
    ∀ {redis : Redis}, Fresh limiter identifier redis →
      Fresh limiter identifier (limiter.after identifier redis ts) := by
  induction ts with
  | nil => exact fun hfresh => hfresh
  | cons now rest ih =>
    intro redis hfresh
    obtain ⟨-, hfresh', -⟩ := check_refines hexpire (hpos now List.mem_cons_self) hfresh rfl
    exact ih (fun n hn => hpos n (List.mem_cons_of_mem now hn)) hfresh'

/--
拒んだ検査は何も変えず、待つべき時間を返す。その時間だけ後の検査は許され、それより早い検査は拒まれる。
-/
theorem retryAfter_exact (hfresh : Fresh limiter identifier redis)
    (hrejected : (limiter.check identifier now redis).1.allowed = false) :
    (limiter.check identifier now redis).2 = redis ∧
      ∃ r, (limiter.check identifier now redis).1.retryAfter = some r ∧ 0 < r ∧
        (limiter.check identifier (now + r) redis).1.allowed = true ∧
        ∀ early, now ≤ early → early < now + r →
          (limiter.check identifier early redis).1.allowed = false := by
  rcases check_cases now hfresh rfl with ⟨-, heq⟩ | ⟨hlt, heq⟩
  · rw [heq] at hrejected
    cases hrejected
  · rw [heq]
    refine ⟨rfl, _, rfl, by omega, ?_, fun early _ hearly => ?_⟩
    · rcases check_cases (now + _) hfresh rfl with ⟨-, heq'⟩ | ⟨hlt', -⟩
      · rw [heq']
      · omega
    · rcases check_cases early hfresh rfl with ⟨hle, -⟩ | ⟨-, heq'⟩
      · omega
      · rw [heq']

end Refine

/-! ## 主定理 -/

theorem emission_add_burst_le_keyExpiration (emissionInterval burstTolerance : ℕ)
    (keyPrefix : Option String) : emissionInterval + burstTolerance ≤
      (GCRARateLimiter.new ⟨keyPrefix, emissionInterval, burstTolerance, none⟩).keyExpiration :=
  Nat.le_max_right _ _

/--
**既定の期限を持つ limiter は、長さ `w` の窓の中で高々 `(w + b) / e + 1` 回の検査を許す。拒んだ検査は何も
変えず、返した時間だけ後の検査は許され、それより早い検査は拒まれる。時刻の順序は問わない。**
-/
theorem gcra_enforces_rate (keyPrefix : Option String) (emissionInterval burstTolerance : ℕ)
    (identifier : String) (ts : List ℕ) (hemission : 1 ≤ emissionInterval)
    (hpos : ∀ now ∈ ts, 0 < now) :
    let limiter := GCRARateLimiter.new ⟨keyPrefix, emissionInterval, burstTolerance, none⟩
    (∀ t w, limiter.allowedWithin identifier (fun _ => none) ts t w ≤
      (w + burstTolerance) / emissionInterval + 1) ∧
    ∀ pre now post, ts = pre ++ now :: post →
      let redis := limiter.after identifier (fun _ => none) pre
      (limiter.check identifier now redis).1.allowed = false →
        (limiter.check identifier now redis).2 = redis ∧
          ∃ r, (limiter.check identifier now redis).1.retryAfter = some r ∧ 0 < r ∧
            (limiter.check identifier (now + r) redis).1.allowed = true ∧
            ∀ early, now ≤ early → early < now + r →
              (limiter.check identifier early redis).1.allowed = false := by
  have hexpire := emission_add_burst_le_keyExpiration emissionInterval burstTolerance keyPrefix
  refine ⟨fun t w => ?_, fun pre now post hts hrejected => ?_⟩
  · rw [gcra_refines hexpire t w hpos fresh_empty rfl]
    exact Tat.allowedWithin_le hemission _ ts
  · have hpre : ∀ n ∈ pre, 0 < n := fun n hn => hpos n (hts ▸ List.mem_append_left _ hn)
    exact retryAfter_exact (fresh_after hexpire hpre fresh_empty) hrejected

/-- 一秒に一回で許容幅のない limiter は、二回目の検査を拒む。 -/
theorem gcra_enforces_rate_second :
    (GCRARateLimiter.new ⟨none, 1000, 0, none⟩).allowedWithin "user" (fun _ => none) [1, 2] 1 999 ≤
      (999 + 0) / 1000 + 1 :=
  (gcra_enforces_rate none 1000 0 "user" [1, 2] (by decide) (by decide)).1 1 999

end RateLimit
