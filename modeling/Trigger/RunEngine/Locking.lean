import Mathlib.Data.List.Lex
import Mathlib.Data.List.Sort
import Mathlib.Data.Rat.Floor
import Mathlib.Order.Basic
import Trigger.Infra.Machine
import Trigger.Infra.Text

/-!
# RunLocker

`engine/locking.ts` の `RunLocker`。一つの非同期の呼び出しの連鎖について、`lock` の入れ子、`#acquireAndExecute` の再試行、
Redis の lock を、一つの状態機械とする。

`AsyncLocalStorage` の context は、連鎖の中で実際に lock を取った呼び出しのうち最も内側のものである。`lock` は、
並べて `,` でつないだ名前の文字列を context のものと比べる。
lock は自動で延長されるので、期限切れは含めない。
-/

namespace RunEngine.Locking

open Infra.Machine
open Infra.Text

/-! ## データ -/

/-- `LockRetryConfig`。 -/
structure LockRetryConfig where
  maxAttempts : ℕ := 10
  baseDelay : ℚ := 200
  maxDelay : ℚ := 5000
  backoffMultiplier : ℚ := 3 / 2
  jitterFactor : ℚ := 1 / 10
  maxTotalWaitTime : ℚ := 30000

/-- lock が投げる error。 -/
inductive LockError
  /-- `LockAcquisitionTimeoutError`。 -/
  | acquisitionTimeout (resources : List String) (totalWaitTime : ℤ) (attempts : ℕ)
  | other
deriving DecidableEq

/-- `redlock.acquire` が contention のほかに投げる error。 -/
inductive AcquireError
  /-- `ResourceLockedError` または `ExecutionError`。 -/
  | contention
  | other

/-- 連鎖を囲む `lock` の呼び出し。`lockId` は、実際に取った lock である。 -/
structure Frame where
  name : String
  resources : List String
  lockId : Option ℕ

/-- 再試行している `#acquireAndExecute`。 -/
structure Acquiring where
  name : String
  resources : List String
  attempt : ℕ := 0
  totalWaitTime : ℚ := 0

/-- Redis の lock を持つもの。 -/
inductive Owner
  | chain (lockId : ℕ)
  | other
deriving DecidableEq

/-- 連鎖と Redis の状態。`attempts` は `redlock.acquire` を呼んだ回数、`errors` は `lock` が投げた error の記録である。 -/
structure Locker where
  redis : String → Option Owner := fun _ => none
  /-- 内側から並ぶ。 -/
  frames : List Frame := []
  acquiring : Option Acquiring := none
  nextLockId : ℕ := 0
  attempts : ℕ := 0
  errors : List LockError := []

/-! ## lock -/

/-- `[...resources].sort()`。 -/
def sortResources (resources : List String) : List String :=
  resources.insertionSort fun a b => utf16 a ≤ utf16 b

def joinResources (resources : List String) : String := ",".intercalate (sortResources resources)

/-- `asyncLocalStorage.getStore()` の `resources`。 -/
def Locker.context (s : Locker) : Option String :=
  (s.frames.find? (·.lockId.isSome)).map fun f => joinResources f.resources

/-- `lock` の呼び出し。同じ lock の中なら routine に入り、そうでなければ lock を取りに行く。 -/
def lock (name : String) (resources : List String) (s : Locker) : Locker :=
  if s.context = some (joinResources resources) then
    { s with frames := ⟨name, resources, none⟩ :: s.frames }
  else { s with acquiring := some ⟨name, resources, 0, 0⟩ }

/-- `Math.round`。 -/
def round (x : ℚ) : ℤ := ⌊x + 1 / 2⌋

/-- 再試行までの遅延。`random` は `Math.random()` の値である。 -/
def retryDelay (config : LockRetryConfig) (attempt : ℕ) (random : ℚ) : ℚ :=
  let exponentialDelay :=
    min (config.baseDelay * config.backoffMultiplier ^ attempt) config.maxDelay
  let jitter := exponentialDelay * config.jitterFactor * (random * 2 - 1)
  min config.maxDelay (max 0 (round (exponentialDelay + jitter)))

/-- `redlock.acquire` が取れなかった後。 -/
def attemptFailed (config : LockRetryConfig) (error : AcquireError) (random : ℚ) (a : Acquiring)
    (s : Locker) : Locker :=
  let timeout := LockError.acquisitionTimeout (sortResources a.resources) (round a.totalWaitTime)
    (a.attempt + 1)
  if config.maxTotalWaitTime ≤ a.totalWaitTime then
    { s with acquiring := none, errors := s.errors ++ [timeout] }
  else if a.attempt = config.maxAttempts then
    { s with acquiring := none, errors := s.errors ++ [timeout] }
  else
    match error with
    | .contention =>
      let delay := retryDelay config a.attempt random
      { s with
        acquiring := some { a with
          attempt := a.attempt + 1
          totalWaitTime := a.totalWaitTime + delay } }
    | .other => { s with acquiring := none, errors := s.errors ++ [.other] }

/-- lock を取った後。context は新しいものになる。 -/
def attemptSucceeded (a : Acquiring) (s : Locker) : Locker :=
  { s with
    redis := fun resource =>
      if resource ∈ a.resources then some (.chain s.nextLockId) else s.redis resource
    frames := ⟨a.name, a.resources, some s.nextLockId⟩ :: s.frames
    acquiring := none
    nextLockId := s.nextLockId + 1 }

/-- `redlock.acquire` の一回。どれか一つでも持たれていれば取れない。 -/
def attempt (config : LockRetryConfig) (error : Option AcquireError) (random : ℚ) (s : Locker) :
    Locker :=
  match s.acquiring with
  | none => s
  | some a =>
    let s := { s with attempts := s.attempts + 1 }
    match error with
    | some error => attemptFailed config error random a s
    | none =>
      if a.resources.all fun resource => (s.redis resource).isNone then attemptSucceeded a s
      else attemptFailed config .contention random a s

/-- routine が終わり、取っていた lock を放す。 -/
def leave (s : Locker) : Locker :=
  match s.frames with
  | [] => s
  | f :: frames =>
    { s with
      redis := fun resource =>
        if s.redis resource = f.lockId.map .chain then none else s.redis resource
      frames := frames }

/-! ## 一段 -/

/-- 連鎖の一歩と、ほかの連鎖による lock の出し入れ。 -/
inductive Label
  | lock (name : String) (resources : List String)
  | attempt (error : Option AcquireError) (random : ℚ)
  | leave
  | other (resource : String) (taken : Bool)

/-- 取りに行っている間、連鎖は待っている。 -/
def Locker.step (config : LockRetryConfig) (s : Locker) : Label → Locker
  | .lock name resources => if s.acquiring.isSome then s else Locking.lock name resources s
  | .attempt error random => Locking.attempt config error random s
  | .leave => if s.acquiring.isSome then s else Locking.leave s
  | .other resource taken =>
    match s.redis resource with
    | some (.chain _) => s
    | _ =>
      let owner := if taken then some .other else none
      { s with redis := Function.update s.redis resource owner }

/-! ## 名前の文字列 -/

/-- 空でなく、`,` を含まない名前。 -/
def Plain (resource : String) : Prop := resource ≠ "" ∧ ',' ∉ resource.toList

theorem sortResources_perm (resources : List String) : (sortResources resources).Perm resources :=
  List.perm_insertionSort _ _

theorem sortResources_eq_iff {a b : List String} :
    sortResources a = sortResources b ↔ a.Perm b := by
  constructor
  · intro h
    exact (sortResources_perm a).symm.trans (h ▸ sortResources_perm b)
  · intro h
    have : Std.Total (α := String) fun a b => utf16 a ≤ utf16 b :=
      ⟨fun a b => le_total (utf16 a) (utf16 b)⟩
    have : IsTrans String fun a b => utf16 a ≤ utf16 b := ⟨fun a b c hab hbc => hab.trans hbc⟩
    have hsorted : ∀ l : List String, (sortResources l).Pairwise fun a b => utf16 a ≤ utf16 b :=
      fun l => List.pairwise_insertionSort _ l
    refine List.Perm.eq_of_pairwise (fun a b _ _ hab hba => ?_) (hsorted a) (hsorted b) ?_
    · exact utf16_injective (le_antisymm hab hba)
    · exact (sortResources_perm a).trans (h.trans (sortResources_perm b).symm)

/-- 並べた名前がどれも `Plain` なら、つないだ文字列から名前の列が戻る。 -/
theorem intercalate_injective {a b : List String} (ha : ∀ r ∈ a, Plain r) (hb : ∀ r ∈ b, Plain r)
    (h : ",".intercalate a = ",".intercalate b) : a = b := by
  have hlist := congrArg String.toList h
  rw [String.toList_intercalate, String.toList_intercalate] at hlist
  have hcomma : (",".toList : List Char) = [','] := rfl
  rw [hcomma] at hlist
  -- `,` で切れば元の名前に戻る。空の列だけは `[""]` と区別できないので別に扱う。
  have hsplit : ∀ l : List String, (∀ r ∈ l, Plain r) → l ≠ [] →
      ([','].intercalate (l.map String.toList)).splitOn ',' = l.map String.toList := by
    intro l hl hne
    refine List.splitOn_intercalate ',' (fun r hr => ?_) (by simpa using hne)
    obtain ⟨r, hmem, rfl⟩ := List.mem_map.mp hr
    exact (hl r hmem).2
  -- 空でない名前の列は、空の文字列にならない。
  have hempty : ∀ l : List String, (∀ r ∈ l, Plain r) → l ≠ [] →
      [','].intercalate (l.map String.toList) ≠ [] := by
    intro l hl hne hnil
    have hmap := hsplit l hl hne
    rw [hnil] at hmap
    rcases l with _ | ⟨r, l⟩
    · exact hne rfl
    · have hhead : r.toList = [] := (List.cons.inj hmap).1.symm
      exact (hl r List.mem_cons_self).1 (String.toList_inj.mp hhead)
  by_cases hna : a = []
  · by_cases hnb : b = []
    · rw [hna, hnb]
    · rw [hna] at hlist
      exact absurd hlist.symm (hempty b hb hnb)
  · by_cases hnb : b = []
    · rw [hnb] at hlist
      exact absurd hlist (hempty a ha hna)
    · have hmap : a.map String.toList = b.map String.toList := by
        rw [← hsplit a ha hna, ← hsplit b hb hnb, hlist]
      exact List.map_injective_iff.mpr (fun _ _ h => String.toList_inj.mp h) hmap

/-- 名前がどれも `Plain` なら、文字列が等しいのは、名前が並べ替えで一致するときに限る。 -/
theorem perm_of_joinResources {a b : List String} (ha : ∀ r ∈ a, Plain r) (hb : ∀ r ∈ b, Plain r)
    (h : joinResources a = joinResources b) : a.Perm b := by
  refine sortResources_eq_iff.mp (intercalate_injective (fun r hr => ?_) (fun r hr => ?_) h)
  · exact ha r ((sortResources_perm a).mem_iff.mp hr)
  · exact hb r ((sortResources_perm b).mem_iff.mp hr)

theorem joinResources_of_perm {a b : List String} (h : a.Perm b) :
    joinResources a = joinResources b := by
  unfold joinResources
  rw [sortResources_eq_iff.mpr h]

/-! ## 入れ子 -/

/-- 入れ子の列の context。 -/
def contextOf (frames : List Frame) : Option String :=
  (frames.find? (·.lockId.isSome)).map fun f => joinResources f.resources

/-- lock を取らずに入った呼び出しの名前は、その外側の context に一致する。 -/
def Nested : List Frame → Prop
  | [] => True
  | f :: rest => (f.lockId = none → contextOf rest = some (joinResources f.resources)) ∧ Nested rest

/-- context は、最も内側の呼び出しの名前である。 -/
theorem contextOf_cons {f : Frame} {rest : List Frame} (h : Nested (f :: rest)) :
    contextOf (f :: rest) = some (joinResources f.resources) := by
  unfold contextOf
  rcases hid : f.lockId with _ | lockId
  · -- lock を取らずに入った呼び出しは、外側の context をそのまま使う。
    rw [List.find?_cons_of_neg (by simp [hid])]
    exact h.1 hid
  · rw [List.find?_cons_of_pos (by simp [hid])]
    rfl

variable {config : LockRetryConfig} {s : Locker}

theorem attemptFailed_frames (error : AcquireError) (random : ℚ) (a : Acquiring) (s : Locker) :
    (attemptFailed config error random a s).frames = s.frames := by
  unfold attemptFailed
  dsimp only
  split
  · rfl
  · split
    · rfl
    · split
      · rfl
      · rfl

theorem nested_step (h : Nested s.frames) (l : Label) : Nested (s.step config l).frames := by
  cases l with
  | lock name resources =>
    unfold Locker.step
    dsimp only
    split
    · exact h
    · unfold lock
      split
      · next hcontext => exact ⟨fun _ => hcontext, h⟩
      · exact h
  | attempt error random =>
    unfold Locker.step attempt
    dsimp only
    split
    · exact h
    · split
      · rw [attemptFailed_frames]
        exact h
      · split
        · refine ⟨fun hnone => ?_, h⟩
          cases hnone
        · rw [attemptFailed_frames]
          exact h
  | leave =>
    unfold Locker.step leave
    dsimp only
    split
    · exact h
    · split
      · exact h
      · next f rest hframes =>
        rw [hframes] at h
        exact h.2
  | other resource taken =>
    unfold Locker.step
    dsimp only
    split
    · exact h
    · exact h

/-- lock を取りに行かずに routine に入る。 -/
def Enters (config : LockRetryConfig) (s : Locker) (name : String) (resources : List String) :
    Prop :=
  s.step config (.lock name resources) = { s with frames := ⟨name, resources, none⟩ :: s.frames }

/-- 名前がどれも、囲む呼び出しのどれかに持たれている。 -/
def Held (s : Locker) (resources : List String) : Prop :=
  ∀ r ∈ resources, ∃ f ∈ s.frames, r ∈ f.resources

/-- routine に入るのは、最も内側の呼び出しと、並べてつないだ名前が等しいときに限る。 -/
theorem enters_iff {f : Frame} {rest : List Frame} (h : Nested s.frames)
    (hframes : s.frames = f :: rest) (hacquiring : s.acquiring = none) (name : String)
    (resources : List String) :
    Enters config s name resources ↔ joinResources resources = joinResources f.resources := by
  have hcontext : s.context = some (joinResources f.resources) := by
    rw [hframes] at h
    unfold Locker.context
    rw [hframes]
    exact contextOf_cons h
  unfold Enters Locker.step lock
  dsimp only
  rw [hacquiring, hcontext, if_neg (by simp)]
  constructor
  · intro hstep
    split at hstep
    · next heq => exact (Option.some_inj.mp heq).symm
    · have hsome : some (Acquiring.mk name resources 0 0) = none :=
        congrArg Locker.acquiring hstep
      cases hsome
  · intro heq
    rw [if_pos (congrArg some heq.symm)]

/-- 囲む呼び出しに持たれている名前の `lock` は routine に入り、入るのは最も内側の呼び出しと同じ名前の集合だけである。 -/
def Reentrant (config : LockRetryConfig) (s : Locker) : Label → Prop
  | .lock name resources => ∀ f rest, s.frames = f :: rest → s.acquiring = none →
    (Held s resources → Enters config s name resources) ∧
      (Enters config s name resources → ∀ r, r ∈ resources ↔ r ∈ f.resources)
  | _ => True

/-- つないだ名前が最も内側の呼び出しと等しければ集合も等しく、等しくなければ、持たれていない名前がある。 -/
def NestsCleanly (s : Locker) : Label → Prop
  | .lock _ resources => ∀ f rest, s.frames = f :: rest → s.acquiring = none →
    (joinResources resources = joinResources f.resources → ∀ r, r ∈ resources ↔ r ∈ f.resources) ∧
      (Held s resources → joinResources resources = joinResources f.resources)
  | _ => True

/-- 持たれている名前の `lock` の名前は、最も内側の呼び出しの名前の並べ替えである。 -/
def NestsInInnermost (s : Locker) : Label → Prop
  | .lock _ resources => ∀ f rest, s.frames = f :: rest → s.acquiring = none →
    Held s resources → resources.Perm f.resources
  | _ => True

theorem reentrant_step_iff (h : Nested s.frames) (l : Label) :
    Reentrant config s l ↔ NestsCleanly s l := by
  cases l with
  | lock name resources =>
    refine forall_congr' fun f => forall_congr' fun rest => forall_congr' fun hframes =>
      forall_congr' fun hacquiring => ?_
    rw [enters_iff h hframes hacquiring]
    exact and_comm
  | _ => exact Iff.rfl

/-! ## `Plain` な名前 -/

/-- `lock` の名前がどれも `Plain` である。 -/
def Label.Plain : Label → Prop
  | .lock _ resources => ∀ r ∈ resources, Locking.Plain r
  | _ => True

/-- 囲む呼び出しと、取ろうとしている lock の名前がどれも `Plain` である。 -/
structure PlainNames (s : Locker) : Prop where
  frames : ∀ f ∈ s.frames, ∀ r ∈ f.resources, Plain r
  acquiring : ∀ a ∈ s.acquiring, ∀ r ∈ a.resources, Plain r

theorem attemptFailed_acquiring (error : AcquireError) (random : ℚ) (a : Acquiring) (s : Locker) :
    ∀ b ∈ (attemptFailed config error random a s).acquiring, b.resources = a.resources := by
  unfold attemptFailed
  dsimp only
  split
  · simp
  · split
    · simp
    · split
      · intro b hb
        obtain rfl := Option.mem_some_iff.mp hb
        rfl
      · simp

theorem plainNames_step (h : PlainNames s) {l : Label} (hl : l.Plain) :
    PlainNames (s.step config l) := by
  cases l with
  | lock name resources =>
    unfold Locker.step lock
    dsimp only
    split
    · exact h
    · split
      · exact ⟨List.forall_mem_cons.mpr ⟨hl, h.frames⟩, h.acquiring⟩
      · refine ⟨h.frames, fun a ha => ?_⟩
        obtain rfl := Option.mem_some_iff.mp ha
        exact hl
  | attempt error random =>
    unfold Locker.step attempt
    dsimp only
    split
    · exact h
    · next a ha =>
      -- 失敗した試みは、待つ名前を変えない
      have hfailed (error : AcquireError) : PlainNames
          (attemptFailed config error random a { s with attempts := s.attempts + 1 }) := by
        refine ⟨by rw [attemptFailed_frames]; exact h.frames, fun b hb => ?_⟩
        rw [attemptFailed_acquiring error random a _ b hb]
        exact h.acquiring a ha
      split
      · exact hfailed _
      · split
        · refine ⟨List.forall_mem_cons.mpr ⟨h.acquiring a ha, h.frames⟩, fun b hb => ?_⟩
          cases hb
        · exact hfailed _
  | leave =>
    unfold Locker.step leave
    dsimp only
    split
    · exact h
    · split
      · exact h
      · next f rest hframes =>
        refine ⟨fun g hg => h.frames g ?_, h.acquiring⟩
        rw [hframes]
        exact List.mem_cons_of_mem f hg
  | other resource taken =>
    unfold Locker.step
    dsimp only
    split
    · exact h
    · exact ⟨h.frames, h.acquiring⟩

theorem nestsCleanly_iff (h : PlainNames s) {l : Label} (hl : l.Plain) :
    NestsCleanly s l ↔ NestsInInnermost s l := by
  cases l with
  | lock name resources =>
    refine forall_congr' fun f => forall_congr' fun rest => forall_congr' fun hframes =>
      forall_congr' fun hacquiring => ?_
    have hf : ∀ r ∈ f.resources, Plain r := h.frames f (by rw [hframes]; exact List.mem_cons_self)
    -- `,` の無い名前では、つないだ文字列の等しさは並べ替えの一致である。
    have hperm : joinResources resources = joinResources f.resources ↔
        resources.Perm f.resources := ⟨perm_of_joinResources hl hf, joinResources_of_perm⟩
    rw [hperm]
    exact ⟨And.right, fun hheld => ⟨fun hp r => hp.mem_iff, hheld⟩⟩
  | _ => exact Iff.rfl

/--
**どの実行でも、入れ子の `lock` が再入できるのは、つないだ名前が最も内側の呼び出しと等しく集合も等しいか、持たれていない名前がある
とき、そのときに限る。どの名前も空でなく `,` を含まなければ、持たれている名前が最も内側の呼び出しの並べ替えであるとき、そのときに
限る。**
-/
theorem lock_reentrant_iff (config : LockRetryConfig) (ls : List Label) :
    (Along (Locker.step config) (Reentrant config) {} ls ↔
      Along (Locker.step config) NestsCleanly {} ls) ∧
    ((∀ l ∈ ls, l.Plain) → (Along (Locker.step config) (Reentrant config) {} ls ↔
      Along (Locker.step config) NestsInInnermost {} ls)) := by
  have hclean : Along (Locker.step config) (Reentrant config) {} ls ↔
      Along (Locker.step config) NestsCleanly {} ls := by
    constructor
    · refine fun h => Along.of_invariant (I := fun s : Locker => Nested s.frames)
        (fun s l hs _ => nested_step hs l) (fun s l hs hl => ?_) trivial h
      exact (reentrant_step_iff hs l).mp hl
    · refine fun h => Along.of_invariant (I := fun s : Locker => Nested s.frames)
        (fun s l hs _ => nested_step hs l) (fun s l hs hl => ?_) trivial h
      exact (reentrant_step_iff hs l).mpr hl
  refine ⟨hclean, fun hplain => hclean.trans ?_⟩
  have hlabels : Along (Locker.step config) (fun _ l => l.Plain) {} ls :=
    Along.of_mem fun l hl _ => hplain l hl
  have hinit : PlainNames {} := ⟨by simp, by simp⟩
  constructor
  · refine fun h => Along.of_invariant (I := PlainNames) (fun s l hs hl => plainNames_step hs hl.2)
      (fun s l hs hl => ?_) hinit (h.and hlabels)
    exact (nestsCleanly_iff hs hl.2).mp hl.1
  · refine fun h => Along.of_invariant (I := PlainNames) (fun s l hs hl => plainNames_step hs hl.2)
      (fun s l hs hl => ?_) hinit (h.and hlabels)
    exact (nestsCleanly_iff hs hl.2).mpr hl.1

/-! ## 自分の lock を待つ -/

/-- 待っている間の一歩。`redlock.acquire` は、lock が持たれていることのほかには失敗しない。 -/
def Label.isWait : Label → Bool
  | .attempt none _ | .other _ _ => true
  | _ => false

def Label.isAttempt : Label → Bool
  | .attempt _ _ => true
  | _ => false

/-- どれかの名前が持たれていれば、取れない。 -/
theorem attempt_held {a : Acquiring} {resource : String} (ha : s.acquiring = some a)
    (hmem : resource ∈ a.resources) (hheld : s.redis resource ≠ none) (random : ℚ) :
    attempt config none random s =
      attemptFailed config .contention random a { s with attempts := s.attempts + 1 } := by
  unfold attempt
  rw [ha]
  dsimp only
  rw [if_neg]
  intro hall
  exact hheld (Option.isNone_iff_eq_none.mp (List.all_eq_true.mp hall resource hmem))

/-- 待ち終えた連鎖に、待つ一歩は何もしない。 -/
theorem exec_waited (config : LockRetryConfig) {s : Locker} {ls : List Label}
    (hls : ∀ l ∈ ls, l.isWait = true) (hs : s.acquiring = none) :
    (exec (Locker.step config) s ls).acquiring = none ∧
      (exec (Locker.step config) s ls).frames = s.frames ∧
        (exec (Locker.step config) s ls).errors = s.errors := by
  induction ls generalizing s with
  | nil => exact ⟨hs, rfl, rfl⟩
  | cons l ls ih =>
    rw [exec_cons]
    have hstep : (s.step config l).acquiring = none ∧ (s.step config l).frames = s.frames ∧
        (s.step config l).errors = s.errors := by
      have hl := hls l List.mem_cons_self
      cases l with
      | attempt error random =>
        unfold Locker.step attempt
        dsimp only
        rw [hs]
        exact ⟨hs, rfl, rfl⟩
      | other resource taken =>
        unfold Locker.step
        dsimp only
        split
        · exact ⟨hs, rfl, rfl⟩
        · exact ⟨hs, rfl, rfl⟩
      | lock name resources => cases hl
      | leave => cases hl
    obtain ⟨hacquiring, hframes, herrors⟩ := hstep
    obtain ⟨hnone, hframes', herrors'⟩ :=
      ih (fun l' hl' => hls l' (List.mem_cons_of_mem _ hl')) hacquiring
    exact ⟨hnone, hframes'.trans hframes, herrors'.trans herrors⟩

/-- 自分の持つ lock を待つ連鎖は、いつか `LockAcquisitionTimeoutError` になる。 -/
theorem waits_for_itself (config : LockRetryConfig) {s : Locker} {a : Acquiring}
    {resource : String} {lockId : ℕ} (ls : List Label)
    (hls : ∀ l ∈ ls, l.isWait = true) (ha : s.acquiring = some a)
    (hle : a.attempt ≤ config.maxAttempts)
    (hcount : config.maxAttempts < a.attempt + ls.countP Label.isAttempt)
    (hmem : resource ∈ a.resources) (hheld : s.redis resource = some (.chain lockId)) :
    (exec (Locker.step config) s ls).acquiring = none ∧
      (exec (Locker.step config) s ls).frames = s.frames ∧
        ∃ totalWaitTime attempts, (exec (Locker.step config) s ls).errors =
          s.errors ++
            [LockError.acquisitionTimeout (sortResources a.resources) totalWaitTime attempts] := by
  -- 待つ一歩についての帰納。残りの回数と持ち主が変わらないことを運ぶ。
  induction ls generalizing s a with
  | nil =>
    rw [List.countP_nil] at hcount
    omega
  | cons l ls ih =>
    have hrest : ∀ l' ∈ ls, l'.isWait = true := fun l' hl' => hls l' (List.mem_cons_of_mem _ hl')
    have hl := hls l List.mem_cons_self
    rw [exec_cons]
    cases l with
    | lock name resources => cases hl
    | leave => cases hl
    | other resource' taken =>
      rw [List.countP_cons_of_neg Bool.false_ne_true] at hcount
      -- 自分の持つ名前を、ほかの連鎖は取ることも放すこともできない。
      by_cases heq : resource' = resource
      · have hstep : s.step config (.other resource' taken) = s := by
          unfold Locker.step
          dsimp only
          rw [heq, hheld]
        rw [hstep]
        exact ih hrest ha hle hcount hmem hheld
      · have hstep : (s.step config (.other resource' taken)).acquiring = s.acquiring ∧
            (s.step config (.other resource' taken)).frames = s.frames ∧
            (s.step config (.other resource' taken)).errors = s.errors ∧
            (s.step config (.other resource' taken)).redis resource = s.redis resource := by
          unfold Locker.step
          dsimp only
          split
          · exact ⟨rfl, rfl, rfl, rfl⟩
          · exact ⟨rfl, rfl, rfl, Function.update_of_ne (Ne.symm heq) _ _⟩
        obtain ⟨hacquiring, hframes, herrors, hredis⟩ := hstep
        have := ih hrest (hacquiring.trans ha) hle hcount hmem (hredis.trans hheld)
        rw [hframes, herrors] at this
        exact this
    | attempt error random =>
      cases error with
      | some error => cases hl
      | none =>
        rw [List.countP_cons_of_pos rfl] at hcount
        have hstep : s.step config (.attempt none random) =
            attemptFailed config .contention random a { s with attempts := s.attempts + 1 } :=
          attempt_held ha hmem (by rw [hheld]; exact Option.some_ne_none _) random
        rw [hstep]
        -- 時間切れの後は待つ一歩が残っても変わらない。
        have htimeout : ∀ t : Locker, t.acquiring = none → t.frames = s.frames →
            (∃ w n, t.errors = s.errors ++
              [LockError.acquisitionTimeout (sortResources a.resources) w n]) →
            (exec (Locker.step config) t ls).acquiring = none ∧
              (exec (Locker.step config) t ls).frames = s.frames ∧
              ∃ w n, (exec (Locker.step config) t ls).errors =
                s.errors ++ [LockError.acquisitionTimeout (sortResources a.resources) w n] := by
          rintro t hnone hframes ⟨w, n, herrors⟩
          obtain ⟨hend, hframes', herrors'⟩ := exec_waited config hrest hnone
          exact ⟨hend, hframes'.trans hframes, w, n, herrors'.trans herrors⟩
        unfold attemptFailed
        dsimp only
        split
        · exact htimeout _ rfl rfl ⟨_, _, rfl⟩
        · split
          · exact htimeout _ rfl rfl ⟨_, _, rfl⟩
          · next hne =>
            exact ih (a := { a with
              attempt := a.attempt + 1
              totalWaitTime := a.totalWaitTime + retryDelay config a.attempt random })
              hrest rfl (by dsimp only; omega) (by dsimp only; omega) hmem hheld

/-- context と異なる名前の `lock` は、lock を取りに行く。 -/
theorem step_lock_of_ne {name : String} {resources : List String} (hacquiring : s.acquiring = none)
    (hcontext : s.context ≠ some (joinResources resources)) :
    s.step config (.lock name resources) =
      { s with acquiring := some ⟨name, resources, 0, 0⟩ } := by
  unfold Locker.step lock
  dsimp only
  rw [hacquiring, if_neg (by simp), if_neg hcontext]

/-- 持っている lock が取れていなければ、その名前の `lock` は時間切れになるまで待つ。 -/
theorem held_waits_for_itself {config : LockRetryConfig} {s : Locker} {name resource : String}
    {lockId : ℕ} (hacquiring : s.acquiring = none)
    (hcontext : s.context ≠ some (joinResources [resource]))
    (hheld : s.redis resource = some (.chain lockId)) :
    ∃ totalWaitTime attempts, (exec (Locker.step config) s
      (.lock name [resource] :: List.replicate (config.maxAttempts + 1) (.attempt none 0))).errors =
        s.errors ++
          [LockError.acquisitionTimeout (sortResources [resource]) totalWaitTime attempts] := by
  rw [exec_cons, step_lock_of_ne hacquiring hcontext]
  obtain ⟨-, -, w, n, herrors⟩ := waits_for_itself config
    (s := { s with acquiring := some ⟨name, [resource], 0, 0⟩ })
    (List.replicate (config.maxAttempts + 1) (.attempt none 0))
    (fun l hl => by rw [List.eq_of_mem_replicate hl]; rfl) rfl (Nat.zero_le _)
    (by simp [List.countP_replicate, Label.isAttempt]) (List.mem_singleton_self resource) hheld
  exact ⟨w, n, herrors⟩

/-- `a` の lock の中の、`b` の lock の中。 -/
def insideTwo : List Label :=
  [.lock "outer" ["a"], .attempt none 0, .lock "inner" ["b"], .attempt none 0]

/--
外側の lock が持つ名前の `lock` は、自分の lock を待って時間切れになる。囲む lock が持つ名前の一部だけの `lock` もそうである。
`,` を含む名前の lock の中では、異なる名前の `lock` が同じ lock とみなされる。
-/
theorem outer_waits_for_itself :
    (¬ Along (Locker.step {}) (Reentrant {}) {} (insideTwo ++ [Label.lock "again" ["a"]]) ∧
      ∃ totalWaitTime attempts, (exec (Locker.step {}) (exec (Locker.step {}) {} insideTwo)
        (.lock "again" ["a"] :: List.replicate 11 (.attempt none 0))).errors =
          [.acquisitionTimeout ["a"] totalWaitTime attempts]) ∧
    ¬ Along (Locker.step {}) (Reentrant {}) {}
      [.lock "outer" ["a", "b"], .attempt none 0, .lock "inner" ["a"]] ∧
    ¬ Along (Locker.step {}) (Reentrant {}) {}
      [.lock "outer" ["a,b"], .attempt none 0, .lock "inner" ["a", "b"]] := by
  have hwaits (s : Locker) (name : String) (h : Enters {} s name ["a"]) :
      (s.step {} (.lock name ["a"])).acquiring.isSome = s.acquiring.isSome := by
    unfold Enters at h
    rw [h]
  refine ⟨⟨fun h => ?_, ?_⟩, fun h => ?_, fun h => ?_⟩
  · obtain ⟨hheld, -⟩ := (Along.append.mp h).2.1 _ _ rfl rfl
    have henters := hheld fun r hr => ⟨⟨"outer", ["a"], some 0⟩,
      List.mem_cons_of_mem _ List.mem_cons_self, hr⟩
    exact absurd (hwaits _ _ henters) (by decide +kernel)
  · have hheld : (exec (Locker.step {}) {} insideTwo).redis "a" = some (.chain 0) := by
      decide +kernel
    exact held_waits_for_itself rfl (by decide +kernel) hheld
  · obtain ⟨hheld, -⟩ := h.2.2.1 _ _ rfl rfl
    have henters := hheld fun r hr => ⟨⟨"outer", ["a", "b"], some 0⟩, List.mem_cons_self, by
      rw [List.mem_singleton.mp hr]
      exact List.mem_cons_self⟩
    exact absurd (hwaits _ _ henters) (by decide +kernel)
  · obtain ⟨-, hsame⟩ := h.2.2.1 _ _ rfl rfl
    have hin := (hsame (by rfl) "a").mp List.mem_cons_self
    exact absurd (List.mem_singleton.mp hin) (by decide)

end RunEngine.Locking
