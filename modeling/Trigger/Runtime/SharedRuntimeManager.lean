import Mathlib.Data.List.Chain
import Trigger.Infra.Machine
import Trigger.Infra.Record
import Trigger.Infra.Text

/-!
# SharedRuntimeManager

task の process の中で、`wait` と、外から届く waitpoint を引き合わせる。`sharedRuntimeManager.ts` と
`preventMultipleWaits.ts`。

waitpoint は、待ち始める前にも後にも届く。先に待っていれば resolver が、先に届いていれば waitpoint が
`Map` に残り、後から来た方がそれを取る。`await` ごとに割り込まれるので、一つの `wait` は複数の段階に
分かれる。

* `step_wake_eq` — 届く順によらず、待った waitpoint が揃えば、その値で `wait` から戻る
* `suspendable_alternates` — `SET_SUSPENDABLE` は交互に送られ、最後の値が待っているかどうかを表す
-/

namespace Runtime

open Infra Infra.Machine

/-! ## waitpoint と wait -/

inductive WaitpointType
  | run | batch | manual | datetime
deriving DecidableEq

/-- `completedByTaskRun`。 -/
structure CompletedByTaskRun where
  friendlyId : String
  batchFriendlyId : Option String := none
deriving DecidableEq

/-- `CompletedWaitpoint` のうち、manager が読む部分。 -/
structure CompletedWaitpoint where
  friendlyId : String
  type : WaitpointType
  index : Option Nat := none
  completedByTaskRun : Option CompletedByTaskRun := none
  completedByBatch : Option String := none
  output : Option String := none
  outputType : Option String := none
  outputIsError : Bool := false
deriving DecidableEq

/-- `${id}_${index}`。 -/
def batchResolverId (id : String) (index : Option Nat) : String :=
  id ++ "_" ++ (index.map toString).getD "undefined"

/-- `resolverIdFromWaitpoint`。 -/
def resolverIdFromWaitpoint (w : CompletedWaitpoint) : Option String :=
  match w.type with
  | .run => w.completedByTaskRun.map fun run =>
      match run.batchFriendlyId with
      | some batch => batchResolverId batch w.index
      | none => run.friendlyId
  | .batch => w.completedByBatch
  | .manual | .datetime => some w.friendlyId

/-- `waitForTask`・`waitForBatch`・`waitForWaitpoint` の引数。 -/
inductive Wait
  | task (id : String)
  | batch (id : String) (runCount : Nat)
  | waitpoint (friendlyId : String)
deriving DecidableEq

/-- 待つ resolver の id。batch では item の順に並ぶ。 -/
def Wait.resolverIds : Wait → List String
  | .task id | .waitpoint id => [id]
  | .batch id runCount => (List.range runCount).map fun index => batchResolverId id (some index)

/-! ## 待った結果 -/

variable {ε : Type}

/-- `TaskRunError`。`parsed` は `JSON.parse` の結果である。 -/
inductive TaskRunError (ε : Type)
  | parsed (error : ε)
  | stringError (message : String)

/-- `TaskRunExecutionResult`。 -/
inductive TaskRunExecutionResult (ε : Type)
  | failed (id : String) (error : TaskRunError ε)
  | successful (id : String) (output : Option String) (outputType : String)

/-- 空文字列は偽である。 -/
def truthy (s : Option String) : Option String := s.filter (· ≠ "")

/-- `waitpointToTaskRunExecutionResult`。`none` は例外である。`parse` は `JSON.parse` である。 -/
def waitpointToTaskRunExecutionResult (parse : String → Option ε) (w : CompletedWaitpoint) :
    Option (TaskRunExecutionResult ε) :=
  match truthy (w.completedByTaskRun.map CompletedByTaskRun.friendlyId) with
  | none => none
  | some id =>
    if w.outputIsError then
      match truthy w.output with
      | some output => (parse output).map fun error => .failed id (.parsed error)
      | none => some (.failed id (.stringError "Missing error output"))
    else some (.successful id w.output (w.outputType.getD "application/json"))

/-- `wait` の返り値。 -/
inductive WaitResult (ε : Type)
  | task (result : TaskRunExecutionResult ε)
  | batch (id : String) (items : List (TaskRunExecutionResult ε))
  | token (ok : Bool) (output outputType : Option String)

/-- `suspendable` から戻った後に計算する値。`none` は例外である。 -/
def Wait.result (parse : String → Option ε) : Wait → List CompletedWaitpoint → Option (WaitResult ε)
  | .task _, values =>
    values.head?.bind fun w => (waitpointToTaskRunExecutionResult parse w).map .task
  | .batch id _, values =>
    (values.mapM (waitpointToTaskRunExecutionResult parse)).map (.batch id)
  | .waitpoint _, values =>
    values.head?.map fun w => .token (!w.outputIsError) w.output w.outputType

/-! ## 状態 -/

/-- `n` 番目の wait の、`index` 番目の promise。 -/
abbrev Slot := Nat × Nat

/-- 実行中の wait の段階。 -/
inductive Phase
  /-- callback を一 tick 遅らせている。 -/
  | delayed
  /-- `callOnWaitHookListeners` を待っている。 -/
  | onWait
  /-- `suspendable` の中で promise を待っている。 -/
  | suspended
  /-- `callOnResumeHookListeners` を待っている。 -/
  | onResume (values : List CompletedWaitpoint)
deriving DecidableEq

/-- 実行中の wait。`number` は始まった順の番号である。 -/
structure Running where
  number : Nat
  wait : Wait
  phase : Phase
deriving DecidableEq

/-- manager の状態。`current` があるとき `isExecutingWait` である。 -/
structure State (ε : Type) where
  resolversById : JsMap Slot := []
  waitpointsByResolverId : JsMap CompletedWaitpoint := []
  /-- 解決された promise の値。 -/
  resolved : List (Slot × CompletedWaitpoint) := []
  /-- 始まった wait の数。 -/
  started : Nat := 0
  current : Option Running := none
  /-- 送った `SET_SUSPENDABLE`。新しいものが先頭である。 -/
  suspendable : List Bool := []
  /-- 戻った wait の番号と返り値。`none` は例外である。 -/
  finished : List (Nat × Option (WaitResult ε)) := []

/-- `resolverId ?? resolverIdFromWaitpoint(waitpoint)`。BATCH は無視され、空の id は無いものとされる。 -/
def targetOf (w : CompletedWaitpoint) (resolverId : Option String) : Option String :=
  if w.type = .batch then none
  else (resolverId.or (resolverIdFromWaitpoint w)).filter (· ≠ "")

/-- `resolveWaitpoint` の、id が決まった後。 -/
def resolveAs (s : State ε) (id : String) (w : CompletedWaitpoint) : State ε :=
  match s.resolversById.get id with
  | none => { s with waitpointsByResolverId := s.waitpointsByResolverId.set id w }
  | some slot =>
    { s with
      resolved := s.resolved ++ [(slot, w)]
      resolversById := s.resolversById.delete id
      waitpointsByResolverId := s.waitpointsByResolverId.delete id }

/-- `resolveWaitpoint`。 -/
def resolveWaitpoint (s : State ε) (w : CompletedWaitpoint) (resolverId : Option String) :
    State ε :=
  match targetOf w resolverId with
  | none => s
  | some id => resolveAs s id w

/-- `resolvePendingWaitpoints`。 -/
def resolvePendingWaitpoints (s : State ε) : State ε :=
  s.waitpointsByResolverId.foldl (fun s stored => resolveWaitpoint s stored.2 (some stored.1)) s

/-- `resolversById` に、番号 `n` の wait の resolver を加える。 -/
def registerResolvers (n : Nat) (ids : List String) (resolversById : JsMap Slot) : JsMap Slot :=
  ids.zipIdx.foldl (fun resolvers p => resolvers.set p.1 (n, p.2)) resolversById

/-- wait が終わる。`finally` で `isExecutingWait` が戻る。 -/
def State.finish (s : State ε) (n : Nat) (result : Option (WaitResult ε)) : State ε :=
  { s with current := none, finished := s.finished ++ [(n, result)] }

/-- 遅らせた callback が走る。item の無い batch はすぐに返る。 -/
def enter (s : State ε) (n : Nat) (w : Wait) : State ε :=
  match w with
  | .batch id 0 => s.finish n (some (.batch id []))
  | _ =>
    resolvePendingWaitpoints
      { s with
        resolversById := registerResolvers n w.resolverIds s.resolversById
        current := some ⟨n, w, .onWait⟩ }

/-- すべて解決された promise の値。`Promise.all` は作った順に並べる。 -/
def State.values (s : State ε) (n : Nat) (w : Wait) : Option (List CompletedWaitpoint) :=
  (List.range w.resolverIds.length).mapM fun i => s.resolved.lookup (n, i)

/-- `suspendable` から戻る。task の結果は hook の前に、batch の結果は hook の後に計算される。 -/
def wake (parse : String → Option ε) (s : State ε) (n : Nat) (w : Wait)
    (values : List CompletedWaitpoint) : State ε :=
  let s := { s with suspendable := false :: s.suspendable }
  match w with
  | .task _ =>
    if (w.result parse values).isSome then { s with current := some ⟨n, w, .onResume values⟩ }
    else s.finish n none
  | _ => { s with current := some ⟨n, w, .onResume values⟩ }

/-! ## 出来事 -/

inductive Event
  /-- wait の呼び出し。実行中の wait があれば例外になる。 -/
  | call (w : Wait)
  /-- 遅らせた callback が走る。 -/
  | enter
  /-- `callOnWaitHookListeners` が終わる。 -/
  | waitHooks (ok : Bool)
  /-- 解決された promise の続きが走る。 -/
  | wake
  /-- `callOnResumeHookListeners` が終わる。 -/
  | resumeHooks (ok : Bool)
  /-- `resolveWaitpoints([w])`。 -/
  | resolve (w : CompletedWaitpoint)
  | reset
deriving DecidableEq

/-- `preventMultipleWaits` の入口。 -/
def call (s : State ε) (w : Wait) : State ε :=
  match s.current with
  | some _ => s
  | none => { s with current := some ⟨s.started, w, .delayed⟩, started := s.started + 1 }

/-- 一 tick 遅れた後。 -/
def afterTick (s : State ε) : State ε :=
  match s.current with
  | some ⟨n, w, .delayed⟩ => enter s n w
  | _ => s

/-- `callOnWaitHookListeners` の後。`suspendable` は始めに `true` を送る。 -/
def afterWaitHooks (s : State ε) (ok : Bool) : State ε :=
  match s.current with
  | some ⟨n, w, .onWait⟩ =>
    if ok then { s with current := some ⟨n, w, .suspended⟩, suspendable := true :: s.suspendable }
    else s.finish n none
  | _ => s

/-- promise が揃った後。 -/
def afterPromises (parse : String → Option ε) (s : State ε) : State ε :=
  match s.current with
  | some ⟨n, w, .suspended⟩ =>
    match s.values n w with
    | some values => wake parse s n w values
    | none => s
  | _ => s

/-- `callOnResumeHookListeners` の後。 -/
def afterResumeHooks (parse : String → Option ε) (s : State ε) (ok : Bool) : State ε :=
  match s.current with
  | some ⟨n, w, .onResume values⟩ => s.finish n (if ok then w.result parse values else none)
  | _ => s

/-- 一つの出来事。起こりえない出来事では何も変わらない。 -/
def step (parse : String → Option ε) (s : State ε) : Event → State ε
  | .call w => call s w
  | .enter => afterTick s
  | .waitHooks ok => afterWaitHooks s ok
  | .wake => afterPromises parse s
  | .resumeHooks ok => afterResumeHooks parse s ok
  | .resolve w => resolveWaitpoint s w none
  | .reset => { s with resolversById := [], waitpointsByResolverId := [] }

/-! ## 保たれる性質 -/

/-- callback の走った wait の数。 -/
def State.entered (s : State ε) : Nat :=
  match s.current with
  | some ⟨n, _, .delayed⟩ => n
  | _ => s.started

/-- 残された waitpoint の id は重ならず、一つの promise の resolver は一つの id だけに登録されている。promise の番号は
callback の走った wait のものである。 -/
structure Consistent (s : State ε) : Prop where
  stored : ∀ p ∈ s.waitpointsByResolverId, targetOf p.2 (some p.1) = some p.1
  keysNodup : (s.waitpointsByResolverId.map Prod.fst).Nodup
  injective : ∀ {id id' slot}, s.resolversById.get id = some slot →
    s.resolversById.get id' = some slot → id' = id
  registered : ∀ {id slot}, s.resolversById.get id = some slot → slot.1 < s.entered
  resolvedNumber : ∀ p ∈ s.resolved, p.1.1 < s.entered
  running : ∀ {r}, s.current = some r → r.number < s.started

theorem targetOf_eq_some {w : CompletedWaitpoint} {resolverId : Option String} {id : String}
    (h : targetOf w resolverId = some id) : targetOf w (some id) = some id := by
  unfold targetOf at h ⊢
  split at h
  · cases h
  · next hbatch =>
    rw [if_neg hbatch, Option.some_or]
    exact Option.filter_eq_some_iff.mpr ⟨rfl, (Option.filter_eq_some_iff.mp h).2⟩

/-! ### resolveWaitpoint -/

section ResolveAs

variable (s : State ε) (id : String) (w : CompletedWaitpoint)

theorem get_resolversById_resolveAs (id' : String) :
    (resolveAs s id w).resolversById.get id' =
      if id' = id then none else s.resolversById.get id' := by
  unfold resolveAs
  cases h : s.resolversById.get id with
  | none =>
    by_cases hid : id' = id
    · rw [if_pos hid, hid]
      exact h
    · rw [if_neg hid]
  | some slot => exact JsMap.get_delete _ _ _

theorem current_resolveAs : (resolveAs s id w).current = s.current := by
  unfold resolveAs
  split <;> rfl

theorem started_resolveAs : (resolveAs s id w).started = s.started := by
  unfold resolveAs
  split <;> rfl

theorem suspendable_resolveAs : (resolveAs s id w).suspendable = s.suspendable := by
  unfold resolveAs
  split <;> rfl

theorem entered_resolveAs : (resolveAs s id w).entered = s.entered := by
  unfold State.entered
  rw [current_resolveAs, started_resolveAs]

theorem resolved_resolveAs :
    (resolveAs s id w).resolved = s.resolved ++ (s.resolversById.get id).toList.map (·, w) := by
  unfold resolveAs
  cases s.resolversById.get id with
  | none => exact (List.append_nil _).symm
  | some slot => rfl

theorem get_waitpoints_resolveAs (id' : String) :
    (resolveAs s id w).waitpointsByResolverId.get id' =
      if id' = id then (if s.resolversById.get id = none then some w else none)
      else s.waitpointsByResolverId.get id' := by
  unfold resolveAs
  cases s.resolversById.get id with
  | none => exact JsMap.get_set _ _ _ _
  | some slot => exact JsMap.get_delete _ _ _

variable {s id w}

theorem Consistent.resolveAs (h : Consistent s) (hid : targetOf w (some id) = some id) :
    Consistent (resolveAs s id w) where
  stored p hp := by
    unfold Runtime.resolveAs at hp
    split at hp
    · rcases JsMap.mem_set (k := p.1) (b := p.2) hp with hold | ⟨hk, hw⟩
      · exact h.stored p hold
      · rw [hk, hw]
        exact hid
    · exact h.stored p (List.mem_of_mem_filter hp)
  keysNodup := by
    unfold Runtime.resolveAs
    split
    · exact JsMap.nodup_keys_set h.keysNodup _ _
    · exact h.keysNodup.sublist (List.filter_sublist.map _)
  injective h₁ h₂ := by
    rw [get_resolversById_resolveAs] at h₁ h₂
    split at h₁
    · cases h₁
    · split at h₂
      · cases h₂
      · exact h.injective h₁ h₂
  registered hslot := by
    rw [get_resolversById_resolveAs] at hslot
    rw [entered_resolveAs]
    split at hslot
    · cases hslot
    · exact h.registered hslot
  resolvedNumber p hp := by
    rw [resolved_resolveAs] at hp
    rw [entered_resolveAs]
    rcases List.mem_append.mp hp with hold | hnew
    · exact h.resolvedNumber p hold
    · obtain ⟨slot, hslot, rfl⟩ := List.mem_map.mp hnew
      exact h.registered (Option.mem_toList.mp hslot)
  running hr := by
    rw [current_resolveAs] at hr
    rw [started_resolveAs]
    exact h.running hr

end ResolveAs

/-! ### resolvePendingWaitpoints -/

/-- 残された waitpoint を順に届ける。 -/
def resolveAll (s : State ε) (l : List (String × CompletedWaitpoint)) : State ε :=
  l.foldl (fun s stored => resolveWaitpoint s stored.2 (some stored.1)) s

theorem resolveAll_cons {s : State ε} {id : String} {w : CompletedWaitpoint}
    {l : List (String × CompletedWaitpoint)} (h : targetOf w (some id) = some id) :
    resolveAll s ((id, w) :: l) = resolveAll (resolveAs s id w) l := by
  simp only [resolveAll, List.foldl_cons, resolveWaitpoint, h]

/-- `resolveAs` が保つ性質は、`resolveAll` も保つ。 -/
theorem resolveAll_induction {P : State ε → Prop}
    (hP : ∀ s id w, targetOf w (some id) = some id → P s → P (resolveAs s id w))
    {l : List (String × CompletedWaitpoint)} (hl : ∀ p ∈ l, targetOf p.2 (some p.1) = some p.1)
    {s : State ε} (hs : P s) : P (resolveAll s l) := by
  induction l generalizing s with
  | nil => exact hs
  | cons p l ih =>
    rw [resolveAll_cons (hl p List.mem_cons_self)]
    exact ih (fun q hq => hl q (List.mem_cons_of_mem p hq)) (hP s _ _ (hl p List.mem_cons_self) hs)

/-- 一つの id と一つの promise だけを見る。 -/
def view (s : State ε) (id : String) (slot : Slot) :
    Option Slot × Option CompletedWaitpoint × Option CompletedWaitpoint :=
  (s.resolversById.get id, s.waitpointsByResolverId.get id, s.resolved.lookup slot)

/-- promise `slot` の resolver は、`id` のほかには登録されていない。 -/
def Owns (s : State ε) (id : String) (slot : Slot) : Prop :=
  ∀ id', s.resolversById.get id' = some slot → id' = id

section View

variable {s t : State ε} {id id' : String} {slot : Slot}

theorem Owns.resolveAs (h : Owns s id slot) (w : CompletedWaitpoint) :
    Owns (resolveAs s id' w) id slot := by
  intro k hk
  rw [get_resolversById_resolveAs] at hk
  split at hk
  · cases hk
  · exact h k hk

/-- ほかの id に届いた waitpoint は見えない。 -/
theorem view_resolveAs_of_ne (h : Owns s id slot) (hne : id' ≠ id) (w : CompletedWaitpoint) :
    view (resolveAs s id' w) id slot = view s id slot := by
  have hlookup : (resolveAs s id' w).resolved.lookup slot = s.resolved.lookup slot := by
    rw [resolved_resolveAs, List.lookup_append]
    cases hget : s.resolversById.get id' with
    | none => exact Option.or_none
    | some slot' =>
      have hslot : slot ≠ slot' := by
        rintro rfl
        exact hne (h id' hget)
      simp [List.lookup_cons, beq_false_of_ne hslot]
  unfold view
  rw [hlookup, get_resolversById_resolveAs, get_waitpoints_resolveAs, if_neg hne.symm,
    if_neg hne.symm]

/-- `id` に届いた後は、直前の `id` の resolver だけで決まる。 -/
theorem view_resolveAs_self (s : State ε) (id : String) (slot : Slot) (w : CompletedWaitpoint) :
    view (resolveAs s id w) id slot =
      match s.resolversById.get id with
      | none => (none, some w, s.resolved.lookup slot)
      | some slot' =>
        (none, none, (s.resolved.lookup slot).or (if slot = slot' then some w else none)) := by
  unfold view
  rw [get_resolversById_resolveAs, get_waitpoints_resolveAs, resolved_resolveAs,
    List.lookup_append, if_pos rfl, if_pos rfl]
  cases s.resolversById.get id with
  | none => simp
  | some slot' =>
    by_cases h : slot = slot'
    · simp [h]
    · simp [h, List.lookup_cons, beq_false_of_ne h]

theorem view_resolveAs_congr (h : view s id slot = view t id slot) (w : CompletedWaitpoint) :
    view (resolveAs s id w) id slot = view (resolveAs t id w) id slot := by
  simp only [view, Prod.mk.injEq] at h
  rw [view_resolveAs_self, view_resolveAs_self, h.1, h.2.2]

/-- `resolveAll` は、一つの id については、その id に残された waitpoint を届けるだけである。 -/
theorem view_resolveAll {l : List (String × CompletedWaitpoint)} (hnodup : (l.map Prod.fst).Nodup)
    (hl : ∀ p ∈ l, targetOf p.2 (some p.1) = some p.1) (h : Owns s id slot) :
    view (resolveAll s l) id slot =
      match JsMap.get l id with
      | none => view s id slot
      | some w => view (resolveAs s id w) id slot := by
  induction l generalizing s with
  | nil => rfl
  | cons p l ih =>
    obtain ⟨k, w⟩ := p
    rw [List.map_cons, List.nodup_cons] at hnodup
    rw [resolveAll_cons (hl _ List.mem_cons_self),
      ih hnodup.2 (fun q hq => hl q (List.mem_cons_of_mem _ hq)) (h.resolveAs w)]
    unfold JsMap.get
    rw [List.lookup_cons]
    by_cases hk : k = id
    · -- 残りには `id` が無い
      subst hk
      have hnone : l.lookup k = none := List.lookup_eq_none_iff.mpr fun q hq =>
        bne_iff_ne.mpr fun heq => hnodup.1 (List.mem_map.mpr ⟨q, hq, heq.symm⟩)
      rw [hnone, beq_self_eq_true]
    · rw [beq_false_of_ne (Ne.symm hk)]
      cases l.lookup id with
      | none => exact view_resolveAs_of_ne h hk w
      | some w' => exact view_resolveAs_congr (view_resolveAs_of_ne h hk w) w'

end View

/-! ### 待ち始める -/

/-- resolver は、元からあるものか、この wait のものである。 -/
theorem get_registerResolvers {n : Nat} {ids : List String} {m : JsMap Slot} {id : String}
    {slot : Slot} (h : (registerResolvers n ids m).get id = some slot) :
    m.get id = some slot ∨ ∃ i, ids[i]? = some id ∧ slot = (n, i) := by
  have key : ∀ (l : List (String × Nat)) (m : JsMap Slot),
      (l.foldl (fun resolvers p => resolvers.set p.1 (n, p.2)) m).get id = some slot →
      m.get id = some slot ∨ ∃ i, (id, i) ∈ l ∧ slot = (n, i) := by
    intro l
    induction l with
    | nil => exact fun m h => .inl h
    | cons p l ih =>
      intro m h
      rcases ih _ h with hset | ⟨i, hmem, hslot⟩
      · rw [JsMap.get_set] at hset
        split at hset
        · next hid =>
          exact .inr ⟨p.2, by rw [hid]; exact List.mem_cons_self, (Option.some.inj hset).symm⟩
        · exact .inl hset
      · exact .inr ⟨i, List.mem_cons_of_mem p hmem, hslot⟩
  rcases key _ m h with hold | ⟨i, hmem, hslot⟩
  · exact .inl hold
  · exact .inr ⟨i, List.mem_zipIdx_iff_getElem?.mp hmem, hslot⟩

theorem get_foldl_of_not_mem {n : Nat} {l : List (String × Nat)} {m : JsMap Slot} {id : String}
    (h : id ∉ l.map Prod.fst) :
    (l.foldl (fun resolvers p => resolvers.set p.1 (n, p.2)) m).get id = m.get id := by
  induction l generalizing m with
  | nil => rfl
  | cons p l ih =>
    rw [List.map_cons, List.mem_cons, not_or] at h
    exact (ih h.2).trans (JsMap.get_set_of_ne _ h.1)

theorem get_registerResolvers_of_not_mem {n : Nat} {ids : List String} {m : JsMap Slot}
    {id : String} (h : id ∉ ids) : (registerResolvers n ids m).get id = m.get id :=
  get_foldl_of_not_mem (by rwa [List.zipIdx_map_fst])

/-- 待つ id に重なりが無ければ、どの id も自分の番号の promise に結ばれる。 -/
theorem get_registerResolvers_of_getElem {n : Nat} {ids : List String} {m : JsMap Slot}
    {id : String} {i : Nat} (hnodup : ids.Nodup) (h : ids[i]? = some id) :
    (registerResolvers n ids m).get id = some (n, i) := by
  have key : ∀ (l : List (String × Nat)) (m : JsMap Slot), (l.map Prod.fst).Nodup → (id, i) ∈ l →
      (l.foldl (fun resolvers p => resolvers.set p.1 (n, p.2)) m).get id = some (n, i) := by
    intro l
    induction l with
    | nil => exact fun m _ h => absurd h List.not_mem_nil
    | cons p l ih =>
      intro m hl hmem
      rw [List.map_cons, List.nodup_cons] at hl
      rcases List.mem_cons.mp hmem with rfl | hmem
      · -- 後の id は異なるので、書き換えられない
        exact (get_foldl_of_not_mem hl.1).trans (JsMap.get_set_self m id (n, i))
      · exact ih _ hl.2 hmem
  exact key _ m (by rwa [List.zipIdx_map_fst]) (List.mem_zipIdx_iff_getElem?.mpr h)

theorem batchResolverId_injective (id : String) :
    Function.Injective fun i : Nat => batchResolverId id (some i) := by
  intro i j h
  exact Text.toString_nat_injective (Text.append_left_cancel (c := id ++ "_") h)

theorem nodup_resolverIds (w : Wait) : w.resolverIds.Nodup := by
  cases w with
  | task id => exact List.nodup_singleton id
  | batch id runCount => exact List.nodup_range.map (batchResolverId_injective id)
  | waitpoint id => exact List.nodup_singleton id

section Enter

variable {s : State ε} {n : Nat} {w : Wait}

/-- resolver を登録した直後の状態。 -/
def register (s : State ε) (n : Nat) (w : Wait) : State ε :=
  { s with
    resolversById := registerResolvers n w.resolverIds s.resolversById
    current := some ⟨n, w, .onWait⟩ }

theorem enter_eq (h : w.resolverIds ≠ []) :
    enter s n w = resolveAll (register s n w) s.waitpointsByResolverId := by
  unfold enter
  split
  · exact absurd rfl h
  · rfl

theorem enter_of_eq_nil (h : w.resolverIds = []) :
    ∃ id, enter s n w = s.finish n (some (.batch id [])) := by
  cases w with
  | task id => cases h
  | batch id runCount =>
    cases runCount with
    | zero => exact ⟨id, rfl⟩
    | succ => simp [Wait.resolverIds] at h
  | waitpoint id => cases h

theorem Consistent.register (h : Consistent s) (hs : s.current = some ⟨n, w, .delayed⟩) :
    Consistent (register s n w) := by
  have hentered : s.entered = n := by
    unfold State.entered
    rw [hs]
  have hlt : n < s.started := h.running hs
  refine ⟨h.stored, h.keysNodup, fun h₁ h₂ => ?_, fun hslot => ?_, fun p hp => ?_, fun hr => ?_⟩
  · -- 古い promise の番号は `n` より小さい
    rcases get_registerResolvers h₁ with hold | ⟨i, hi, rfl⟩
    · rcases get_registerResolvers h₂ with hold' | ⟨i, -, rfl⟩
      · exact h.injective hold hold'
      · have := h.registered hold
        omega
    · rcases get_registerResolvers h₂ with hold | ⟨j, hj, heq⟩
      · have := h.registered hold
        omega
      · cases heq
        exact Option.some.inj (hj.symm.trans hi)
  · show _ < s.started
    rcases get_registerResolvers hslot with hold | ⟨i, -, rfl⟩
    · have := h.registered hold
      omega
    · exact hlt
  · show _ < s.started
    have := h.resolvedNumber p hp
    omega
  · cases hr
    exact hlt

end Enter

/-! ### 一歩 -/

/-- 一歩で起きること。 -/
inductive Effect (s : State ε) : Event → State ε → Prop
  | stay {e : Event} (h : ∀ w, e = .resolve w → targetOf w none = none) : Effect s e s
  | call {w : Wait} (h : s.current = none) : Effect s (.call w)
      { s with current := some ⟨s.started, w, .delayed⟩, started := s.started + 1 }
  | enter {n : Nat} {w : Wait} (h : s.current = some ⟨n, w, .delayed⟩) (hids : w.resolverIds ≠ []) :
      Effect s .enter (resolveAll (register s n w) s.waitpointsByResolverId)
  | skip {n : Nat} {w : Wait} {result : Option (WaitResult ε)}
      (h : s.current = some ⟨n, w, .delayed⟩) (hids : w.resolverIds = []) :
      Effect s .enter (s.finish n result)
  | advance {e : Event} {r r' : Running} {suspendable : List Bool} (h : s.current = some r)
      (hr : r.phase ≠ .delayed) (hnumber : r'.number = r.number) (hr' : r'.phase ≠ .delayed)
      (he : ∀ w, e ≠ .resolve w) (henter : e ≠ .enter) :
      Effect s e { s with current := some r', suspendable }
  | finish {e : Event} {r : Running} {n : Nat} {result : Option (WaitResult ε)}
      {suspendable : List Bool} (h : s.current = some r) (hr : r.phase ≠ .delayed)
      (he : ∀ w, e ≠ .resolve w) (henter : e ≠ .enter) :
      Effect s e (State.finish { s with suspendable } n result)
  | resolve {w : CompletedWaitpoint} {id : String} (h : targetOf w none = some id) :
      Effect s (.resolve w) (resolveAs s id w)
  | reset : Effect s .reset { s with resolversById := [], waitpointsByResolverId := [] }

section StepEffect

variable {parse : String → Option ε} {s : State ε}

theorem afterTick_effect : Effect s .enter (afterTick s) := by
  unfold afterTick
  split
  · next n w hs =>
    by_cases hids : w.resolverIds = []
    · obtain ⟨id, heq⟩ := enter_of_eq_nil (s := s) (n := n) hids
      rw [heq]
      exact .skip hs hids
    · rw [enter_eq hids]
      exact .enter hs hids
  · exact .stay fun _ h => Event.noConfusion h

theorem afterWaitHooks_effect {ok : Bool} : Effect s (.waitHooks ok) (afterWaitHooks s ok) := by
  unfold afterWaitHooks
  split
  · next n w hs =>
    have hphase : Phase.onWait ≠ .delayed := fun h => Phase.noConfusion h
    split
    · refine .advance hs hphase rfl ?_ (fun _ h => Event.noConfusion h) fun h => Event.noConfusion h
      intro h
      cases h
    · exact .finish hs hphase (fun _ h => Event.noConfusion h) fun h => Event.noConfusion h
  · exact .stay fun _ h => Event.noConfusion h

theorem afterPromises_effect : Effect s .wake (afterPromises parse s) := by
  unfold afterPromises
  split
  · next n w hs =>
    have hphase : Phase.suspended ≠ .delayed := fun h => Phase.noConfusion h
    split
    · next values _ =>
      have hadvance : Effect s .wake
          { s with
            current := some ⟨n, w, .onResume values⟩, suspendable := false :: s.suspendable } := by
        refine .advance hs hphase rfl ?_ (fun _ h => Event.noConfusion h)
          fun h => Event.noConfusion h
        intro h
        cases h
      unfold wake
      split
      · split
        · exact hadvance
        · exact .finish hs hphase (fun _ h => Event.noConfusion h) fun h => Event.noConfusion h
      · exact hadvance
    · exact .stay fun _ h => Event.noConfusion h
  · exact .stay fun _ h => Event.noConfusion h

theorem afterResumeHooks_effect {ok : Bool} :
    Effect s (.resumeHooks ok) (afterResumeHooks parse s ok) := by
  unfold afterResumeHooks
  split
  · next n w values hs =>
    have hphase : Phase.onResume values ≠ .delayed := fun h => Phase.noConfusion h
    exact .finish hs hphase (fun _ h => Event.noConfusion h) fun h => Event.noConfusion h
  · exact .stay fun _ h => Event.noConfusion h

theorem step_effect (parse : String → Option ε) (s : State ε) (e : Event) :
    Effect s e (step parse s e) := by
  cases e with
  | call w =>
    show Effect s _ (call s w)
    unfold call
    split
    · exact .stay fun _ h => Event.noConfusion h
    · next hs => exact .call hs
  | enter => exact afterTick_effect
  | waitHooks ok => exact afterWaitHooks_effect
  | wake => exact afterPromises_effect
  | resumeHooks ok => exact afterResumeHooks_effect
  | resolve w =>
    show Effect s _ (resolveWaitpoint s w none)
    unfold resolveWaitpoint
    split
    · next hid => exact .stay fun w' h => by cases h; exact hid
    · next id hid => exact .resolve hid
  | reset => exact .reset

end StepEffect

theorem Consistent.empty : Consistent ({} : State ε) where
  stored _ h := absurd h List.not_mem_nil
  keysNodup := List.nodup_nil
  injective h := by cases h
  registered h := by cases h
  resolvedNumber _ h := absurd h List.not_mem_nil
  running h := by cases h

/-- 二つの `Map` と promise が同じで、callback の走った wait の数が減らない変化。 -/
theorem Consistent.congr {s t : State ε} (h : Consistent s)
    (hresolvers : t.resolversById = s.resolversById)
    (hwaitpoints : t.waitpointsByResolverId = s.waitpointsByResolverId)
    (hresolved : t.resolved = s.resolved) (hentered : s.entered ≤ t.entered)
    (hrunning : ∀ {r}, t.current = some r → r.number < t.started) : Consistent t where
  stored p hp := h.stored p (hwaitpoints ▸ hp)
  keysNodup := hwaitpoints ▸ h.keysNodup
  injective h₁ h₂ := h.injective (hresolvers ▸ h₁) (hresolvers ▸ h₂)
  registered hslot := (h.registered (hresolvers ▸ hslot)).trans_le hentered
  resolvedNumber p hp := (h.resolvedNumber p (hresolved ▸ hp)).trans_le hentered
  running := hrunning

theorem entered_of_phase {s : State ε} {r : Running} (h : s.current = some r)
    (hr : r.phase ≠ .delayed) : s.entered = s.started := by
  unfold State.entered
  rw [h]
  split
  · next heq =>
    cases heq
    exact absurd rfl hr
  · rfl

theorem entered_of_none {s : State ε} (h : s.current = none) : s.entered = s.started := by
  unfold State.entered
  rw [h]

theorem entered_le {s : State ε} (h : Consistent s) : s.entered ≤ s.started := by
  unfold State.entered
  split
  · next heq => exact (h.running heq).le
  · exact le_rfl

theorem Consistent.effect {s t : State ε} {e : Event} (h : Consistent s) (he : Effect s e t) :
    Consistent t := by
  cases he with
  | stay => exact h
  | call hs =>
    refine h.congr rfl rfl rfl (entered_of_none hs).le fun hr => ?_
    cases hr
    exact Nat.lt_succ_self _
  | enter hs hids =>
    exact resolveAll_induction (fun _ _ _ hid hs => hs.resolveAs hid) h.stored (h.register hs)
  | skip hs hids => exact h.congr rfl rfl rfl (entered_le h) fun hr => by cases hr
  | advance hs hr hnumber hr' =>
    refine h.congr rfl rfl rfl ?_ fun heq => ?_
    · refine (entered_of_phase hs hr).le.trans (Eq.ge ?_)
      exact entered_of_phase rfl hr'
    · cases heq
      rw [hnumber]
      exact h.running hs
  | finish hs hr => exact h.congr rfl rfl rfl (entered_le h) fun hr => by cases hr
  | resolve hid => exact h.resolveAs (targetOf_eq_some hid)
  | reset =>
    exact {
      stored _ h := absurd h List.not_mem_nil
      keysNodup := List.nodup_nil
      injective h := by cases h
      registered h := by cases h
      resolvedNumber := h.resolvedNumber
      running := h.running }

/-- 解決された promise の値は残る。 -/
theorem resolved_of_effect {s t : State ε} {e : Event} (h : Consistent s) (he : Effect s e t) :
    ∃ l, t.resolved = s.resolved ++ l := by
  have hself : ∃ l, s.resolved = s.resolved ++ l := ⟨[], (List.append_nil _).symm⟩
  cases he with
  | enter hs hids =>
    refine resolveAll_induction (P := fun t => ∃ l, t.resolved = s.resolved ++ l) ?_ h.stored hself
    rintro t id w - ⟨l, ht⟩
    rw [resolved_resolveAs, ht, List.append_assoc]
    exact ⟨_, rfl⟩
  | resolve hid => exact ⟨_, resolved_resolveAs _ _ _⟩
  | _ => exact hself

/-! ## 一つの resolver id -/

/-- `id` に届く waitpoint。 -/
def delivered (id : String) : Event → Option CompletedWaitpoint
  | .resolve w => if targetOf w none = some id then some w else none
  | _ => none

/-- `id` に届いた waitpoint を、届いた順に並べる。 -/
def deliveries (id : String) (es : List Event) : List CompletedWaitpoint :=
  es.filterMap (delivered id)

/-- `id` を登録せず、`reset` でもない一歩。 -/
def Quiet (id : String) (s : State ε) (e : Event) : Prop :=
  e ≠ .reset ∧ (e = .enter → ∀ r ∈ s.current, r.phase = .delayed → id ∉ r.wait.resolverIds)

instance (id : String) (s : State ε) (e : Event) : Decidable (Quiet id s e) :=
  inferInstanceAs (Decidable (_ ∧ _))

/-- `id` を登録しない一歩は、届いた waitpoint のほかには `id` を変えない。 -/
theorem view_effect {s t : State ε} {e : Event} {id : String} {slot : Slot} (h : Consistent s)
    (he : Effect s e t) (hquiet : Quiet id s e)
    (hidle : s.resolversById.get id = none ∨ s.waitpointsByResolverId.get id = none)
    (howns : Owns s id slot) (hslot : slot.1 ≠ s.entered) :
    view t id slot =
      match delivered id e with
      | none => view s id slot
      | some w => view (resolveAs s id w) id slot := by
  cases he with
  | stay hstay =>
    cases e with
    | resolve w =>
      have hnone : delivered id (.resolve w) = none := by simp [delivered, hstay w rfl]
      rw [hnone]
    | _ => rfl
  | call | skip => rfl
  | advance hs hr hnumber hr' hresolve =>
    cases e with
    | resolve w => exact absurd rfl (hresolve w)
    | _ => rfl
  | finish hs hr hresolve =>
    cases e with
    | resolve w => exact absurd rfl (hresolve w)
    | _ => rfl
  | @enter n w hs hids =>
    show _ = view s id slot
    have hnot : id ∉ w.resolverIds := hquiet.2 rfl _ hs rfl
    have hentered : s.entered = n := by
      unfold State.entered
      rw [hs]
    have hget : (register s n w).resolversById.get id = s.resolversById.get id :=
      get_registerResolvers_of_not_mem hnot
    have hview : view (register s n w) id slot = view s id slot := by
      unfold view
      rw [hget]
      rfl
    -- 新しい promise の番号は `n` である
    have howns' : Owns (register s n w) id slot := by
      intro k hk
      rcases get_registerResolvers hk with hold | ⟨i, -, rfl⟩
      · exact howns k hold
      · exact absurd hentered.symm hslot
    rw [view_resolveAll h.keysNodup h.stored howns', ← hview]
    cases hstored : JsMap.get s.waitpointsByResolverId id with
    | none => rfl
    | some v =>
      have hnone : (register s n w).resolversById.get id = none := by
        rw [hget]
        exact hidle.resolve_right (by rw [hstored]; exact Option.some_ne_none _)
      show view (resolveAs (register s n w) id v) id slot = view (register s n w) id slot
      rw [view_resolveAs_self, hnone]
      unfold view
      rw [hnone]
      exact congrArg (fun o => (none, o, _)) hstored.symm
  | @resolve w id' hid =>
    by_cases heq : id' = id
    · have hsome : delivered id (.resolve w) = some w := by simp [delivered, hid, heq]
      rw [hsome, heq]
    · have hnone : delivered id (.resolve w) = none := by simp [delivered, hid, heq]
      rw [hnone]
      exact view_resolveAs_of_ne howns heq w
  | reset => exact absurd rfl hquiet.1

/-! ## 実行 -/

section Run

variable {parse : String → Option ε} {s : State ε} {id : String} {slot : Slot}

theorem Consistent.exec (h : Consistent s) (es : List Event) :
    Consistent (exec (step parse) s es) :=
  exec_invariant (fun s e hs => hs.effect (step_effect parse s e)) h

/-- `id` を待っていない間は、最後に届いた waitpoint が残る。 -/
theorem waitpoints_of_quiet {es : List Event} (h : Consistent s)
    (hnone : s.resolversById.get id = none) (hquiet : Along (step parse) (Quiet id) s es) :
    (exec (step parse) s es).resolversById.get id = none ∧
      (exec (step parse) s es).waitpointsByResolverId.get id =
        (deliveries id es).getLast?.or (s.waitpointsByResolverId.get id) := by
  induction es generalizing s with
  | nil => exact ⟨hnone, rfl⟩
  | cons e es ih =>
    have he := step_effect parse s e
    -- まだ誰のものでもない promise を選ぶ
    have howns : Owns s id (s.entered + 1, 0) := by
      intro k hk
      have := h.registered hk
      omega
    have hview := view_effect h he hquiet.1 (.inl hnone) howns (Nat.succ_ne_self _)
    have hstep : (step parse s e).resolversById.get id = none ∧
        (step parse s e).waitpointsByResolverId.get id =
          (delivered id e).or (s.waitpointsByResolverId.get id) := by
      cases hd : delivered id e with
      | none =>
        simp only [hd, view, Prod.mk.injEq] at hview
        exact ⟨hview.1.trans hnone, hview.2.1⟩
      | some w =>
        rw [hd] at hview
        dsimp only at hview
        rw [view_resolveAs_self, hnone] at hview
        simp only [view, Prod.mk.injEq] at hview
        exact ⟨hview.1, hview.2.1⟩
    obtain ⟨hnone', hwaitpoints⟩ := ih (h.effect he) hstep.1 hquiet.2
    refine ⟨hnone', hwaitpoints.trans ?_⟩
    rw [hstep.2]
    unfold deliveries
    cases hd : delivered id e with
    | none => rw [List.filterMap_cons_none hd, Option.none_or]
    | some w =>
      rw [List.filterMap_cons_some hd, List.getLast?_cons, Option.some_or]
      cases (es.filterMap (delivered id)).getLast? <;> rfl

/-- 解決された promise は、もう変わらない。 -/
theorem lookup_of_resolved {es : List Event} {w : CompletedWaitpoint} (h : Consistent s)
    (hw : s.resolved.lookup slot = some w) :
    (exec (step parse) s es).resolved.lookup slot = some w := by
  refine (exec_invariant (I := fun s => Consistent s ∧ s.resolved.lookup slot = some w) ?_
    ⟨h, hw⟩).2
  rintro s e ⟨hs, hw⟩
  obtain ⟨l, hl⟩ := resolved_of_effect hs (step_effect parse s e)
  refine ⟨hs.effect (step_effect parse s e), ?_⟩
  rw [hl, List.lookup_append, hw, Option.some_or]

/-- 登録された promise は、最初に届いた waitpoint で解決される。 -/
theorem lookup_of_registered {es : List Event} (h : Consistent s)
    (hview : view s id slot = (some slot, none, none))
    (hquiet : Along (step parse) (Quiet id) s es) :
    (exec (step parse) s es).resolved.lookup slot = (deliveries id es).head? := by
  induction es generalizing s with
  | nil =>
    simp only [view, Prod.mk.injEq] at hview
    exact hview.2.2
  | cons e es ih =>
    have he := step_effect parse s e
    have hget := hview
    simp only [view, Prod.mk.injEq] at hget
    have howns : Owns s id slot := fun k hk => h.injective hget.1 hk
    have hslot : slot.1 ≠ s.entered := (h.registered hget.1).ne
    have hstep := view_effect h he hquiet.1 (.inr hget.2.1) howns hslot
    unfold deliveries
    cases hd : delivered id e with
    | none =>
      rw [hd] at hstep
      rw [List.filterMap_cons_none hd]
      exact ih (h.effect he) (hstep.trans hview) hquiet.2
    | some w =>
      rw [hd] at hstep
      dsimp only at hstep
      rw [view_resolveAs_self, hget.1, hget.2.2] at hstep
      simp only [view, Prod.mk.injEq, if_true, Option.none_or] at hstep
      rw [List.filterMap_cons_some hd, List.head?_cons, exec_cons]
      exact lookup_of_resolved (h.effect he) hstep.2.2

/-- 待ち始めた wait の promise は、残っていた waitpoint で解決されるか、resolver が残る。 -/
theorem view_enter {n i : Nat} {w : Wait} (h : Consistent s)
    (hs : s.current = some ⟨n, w, .delayed⟩) (hi : w.resolverIds[i]? = some id) :
    view (step parse s .enter) id (n, i) =
      match s.waitpointsByResolverId.get id with
      | none => (some (n, i), none, none)
      | some v => (none, none, some v) := by
  have hids : w.resolverIds ≠ [] := by
    intro hnil
    rw [hnil] at hi
    cases hi
  have hentered : s.entered = n := by
    unfold State.entered
    rw [hs]
  have henter : step parse s .enter = resolveAll (register s n w) s.waitpointsByResolverId := by
    show afterTick s = _
    unfold afterTick
    rw [hs]
    exact enter_eq hids
  have hget : (register s n w).resolversById.get id = some (n, i) :=
    get_registerResolvers_of_getElem (nodup_resolverIds w) hi
  have hlookup : (register s n w).resolved.lookup (n, i) = none := by
    refine List.lookup_eq_none_iff.mpr fun p hp => bne_iff_ne.mpr fun heq => ?_
    have := h.resolvedNumber p hp
    rw [← heq, hentered] at this
    exact lt_irrefl n this
  have howns : Owns (register s n w) id (n, i) := fun k hk => (h.register hs).injective hget hk
  rw [henter, view_resolveAll h.keysNodup h.stored howns]
  cases hstored : JsMap.get s.waitpointsByResolverId id with
  | none =>
    unfold view
    rw [hget, hlookup]
    exact congrArg (fun o => (_, o, _)) hstored
  | some v =>
    show view (resolveAs (register s n w) id v) id (n, i) = _
    rw [view_resolveAs_self, hget, hlookup]
    simp

end Run

/-! ## 主定理 -/

/-- 添字で引く代わりに、要素を順に引く。 -/
theorem mapM_range {α β : Type} {f : Nat → Option β} {g : α → Option β} {l : List α}
    (h : ∀ i a, l[i]? = some a → f i = g a) : (List.range l.length).mapM f = l.mapM g := by
  induction l generalizing f with
  | nil => rfl
  | cons a l ih =>
    have hrest : (List.range l.length).mapM (fun i => f (i + 1)) = l.mapM g :=
      ih fun i b hb => h (i + 1) b hb
    rw [List.length_cons, List.range_succ_eq_map, List.mapM_cons, List.mapM_map, List.mapM_cons,
      h 0 a rfl]
    exact congrArg (fun tail => (g a).bind fun b => tail.bind fun bs => some (b :: bs)) hrest

section Main

variable (parse : String → Option ε) {es pre post : List Event} {n : Nat} {w : Wait}

/-- `id` の waitpoint は、待ち始める前の最後のものか、待ち始めた後の最初のものが使われる。 -/
def awaited (pre post : List Event) (id : String) : Option CompletedWaitpoint :=
  (deliveries id pre).getLast?.or (deliveries id post).head?

/-- 待ち始める前も後も `id` に触れない実行では、その promise は `awaited` で解決されている。 -/
theorem lookup_eq_awaited {s : State ε} {id : String} {i : Nat} (h : Consistent s)
    (hunused : s.resolversById.get id = none ∧ s.waitpointsByResolverId.get id = none)
    (hpre : Along (step parse) (Quiet id) s pre)
    (hcurrent : (exec (step parse) s pre).current = some ⟨n, w, .delayed⟩)
    (hpost : Along (step parse) (Quiet id) (exec (step parse) s (pre ++ [Event.enter])) post)
    (hi : w.resolverIds[i]? = some id) :
    (exec (step parse) s (pre ++ Event.enter :: post)).resolved.lookup (n, i) =
      awaited pre post id := by
  obtain ⟨-, hstored⟩ := waitpoints_of_quiet h hunused.1 hpre
  rw [hunused.2, Option.or_none] at hstored
  have hmid : Consistent (exec (step parse) s pre) := h.exec pre
  have hview := @view_enter _ parse _ _ _ _ _ hmid hcurrent hi
  rw [hstored] at hview
  rw [exec_append, exec_cons] at *
  unfold awaited
  cases hlast : (deliveries id pre).getLast? with
  | none =>
    rw [hlast] at hview
    exact lookup_of_registered (hmid.effect (step_effect parse _ _)) hview hpost
  | some v =>
    rw [hlast] at hview
    simp only [view, Prod.mk.injEq] at hview
    exact lookup_of_resolved (hmid.effect (step_effect parse _ _)) hview.2.2

/--
**待ち始める前も後も、待った id は一度しか登録されない実行では、`suspendable` は待った waitpoint がすべて届いたときに、
そのときに限り戻る。値は item の順に並び、waitpoint の届く順によらない。**
-/
theorem step_wake_eq
    (hunused : ∀ id ∈ w.resolverIds, (exec (step parse) {} es).resolversById.get id = none ∧
      (exec (step parse) {} es).waitpointsByResolverId.get id = none)
    (hpre : ∀ id ∈ w.resolverIds, Along (step parse) (Quiet id) (exec (step parse) {} es) pre)
    (hcurrent : (exec (step parse) {} (es ++ pre)).current = some ⟨n, w, .delayed⟩)
    (hpost : ∀ id ∈ w.resolverIds,
      Along (step parse) (Quiet id) (exec (step parse) {} (es ++ pre ++ [Event.enter])) post)
    (hsuspended : (exec (step parse) {} (es ++ pre ++ Event.enter :: post)).current =
      some ⟨n, w, .suspended⟩) :
    step parse (exec (step parse) {} (es ++ pre ++ Event.enter :: post)) .wake =
      match w.resolverIds.mapM (awaited pre post) with
      | none => exec (step parse) {} (es ++ pre ++ Event.enter :: post)
      | some values =>
        wake parse (exec (step parse) {} (es ++ pre ++ Event.enter :: post)) n w values := by
  have hstart : Consistent (exec (step parse) ({} : State ε) es) := Consistent.empty.exec es
  have hvalues : (exec (step parse) {} (es ++ pre ++ Event.enter :: post)).values n w =
      w.resolverIds.mapM (awaited pre post) := by
    refine mapM_range fun i id hi => ?_
    have hmem : id ∈ w.resolverIds := List.mem_of_getElem? hi
    rw [exec_append] at hcurrent
    have hpost' := hpost id hmem
    rw [List.append_assoc, exec_append] at hpost' ⊢
    exact lookup_eq_awaited parse hstart (hunused id hmem) (hpre id hmem) hcurrent hpost' hi
  show afterPromises parse _ = _
  unfold afterPromises
  rw [hsuspended]
  dsimp only
  rw [hvalues]
  cases w.resolverIds.mapM (awaited pre post) <;> rfl

/-- 一つ目の item は待ち始めた後に、二つ目の item は待ち始める前に届く。 -/
def itemWaitpoint (index : Nat) : CompletedWaitpoint :=
  { friendlyId := "waitpoint_1", type := .run, index := some index
    completedByTaskRun := some ⟨"run_1", some "batch_1"⟩ }

theorem step_wake_batch :
    (step (fun _ => (none : Option Unit)) (exec (step fun _ => none) {}
      [.call (.batch "batch_1" 2), .resolve (itemWaitpoint 1), .enter, .waitHooks true,
        .resolve (itemWaitpoint 0)]) .wake).current =
      some ⟨0, .batch "batch_1" 2, .onResume [itemWaitpoint 0, itemWaitpoint 1]⟩ := by
  have h := @step_wake_eq Unit (fun _ => none) []
    [.call (.batch "batch_1" 2), .resolve (itemWaitpoint 1)]
    [.waitHooks true, .resolve (itemWaitpoint 0)] 0 (.batch "batch_1" 2)
    (by decide +kernel) (by decide +kernel) (by decide +kernel) (by decide +kernel)
    (by decide +kernel)
  have hvalues : (Wait.batch "batch_1" 2).resolverIds.mapM
      (awaited [.call (.batch "batch_1" 2), .resolve (itemWaitpoint 1)]
        [.waitHooks true, .resolve (itemWaitpoint 0)]) =
      some [itemWaitpoint 0, itemWaitpoint 1] := by
    decide +kernel
  rw [hvalues] at h
  exact (congrArg State.current h).trans rfl

end Main

/-! ## SET_SUSPENDABLE -/

section Suspendable

variable {parse : String → Option ε} {s : State ε}

/-- `suspendable` の中で待っている。 -/
def State.waiting (s : State ε) : Bool := s.current.any (·.phase = .suspended)

/-- 待っているかどうかが変わる一歩だけが、その値を送る。 -/
def Signals (s t : State ε) : Prop :=
  t.suspendable = if t.waiting = s.waiting then s.suspendable else t.waiting :: s.suspendable

theorem Signals.refl (s : State ε) : Signals s s := (if_pos rfl).symm

theorem suspendable_resolveAll {l : List (String × CompletedWaitpoint)}
    (hl : ∀ p ∈ l, targetOf p.2 (some p.1) = some p.1) :
    (resolveAll s l).suspendable = s.suspendable ∧ (resolveAll s l).current = s.current := by
  refine resolveAll_induction (P := fun t => t.suspendable = s.suspendable ∧ t.current = s.current)
    (fun t id w _ ht => ?_) hl ⟨rfl, rfl⟩
  rw [suspendable_resolveAs, current_resolveAs]
  exact ht

theorem signals_afterTick (h : Consistent s) : Signals s (afterTick s) := by
  unfold afterTick
  split
  · next n w hs =>
    by_cases hids : w.resolverIds = []
    · obtain ⟨id, heq⟩ := enter_of_eq_nil (s := s) (n := n) hids
      simp [Signals, heq, State.waiting, State.finish, hs]
    · obtain ⟨hsuspendable, hcurrent⟩ := suspendable_resolveAll (s := register s n w) h.stored
      have hwaiting :
          (resolveAll (register s n w) s.waitpointsByResolverId).waiting = s.waiting := by
        unfold State.waiting
        rw [hcurrent, hs]
        rfl
      rw [enter_eq hids]
      exact hsuspendable.trans (if_pos hwaiting).symm
  · exact .refl s

theorem signals_step (h : Consistent s) (e : Event) : Signals s (step parse s e) := by
  cases e with
  | call w =>
    show Signals s (call s w)
    unfold call
    split
    · exact .refl s
    · next hs => simp [Signals, State.waiting, hs]
  | enter => exact signals_afterTick h
  | waitHooks ok =>
    show Signals s (afterWaitHooks s ok)
    unfold afterWaitHooks
    split
    · next hs => split <;> simp [Signals, State.waiting, State.finish, hs]
    · exact .refl s
  | wake =>
    show Signals s (afterPromises parse s)
    unfold afterPromises
    split
    · next hs =>
      split
      · unfold wake
        split
        · split <;> simp [Signals, State.waiting, State.finish, hs]
        · simp [Signals, State.waiting, hs]
      · exact .refl s
    · exact .refl s
  | resumeHooks ok =>
    show Signals s (afterResumeHooks parse s ok)
    unfold afterResumeHooks
    split
    · next hs => simp [Signals, State.waiting, State.finish, hs]
    · exact .refl s
  | resolve w =>
    show Signals s (resolveWaitpoint s w none)
    unfold resolveWaitpoint
    split
    · exact .refl s
    · simp [Signals, State.waiting, suspendable_resolveAs, current_resolveAs]
  | reset => exact .refl s

/-- **`SET_SUSPENDABLE` は `true` から交互に送られ、最後に送った値は、今待っているかどうかである。** -/
theorem suspendable_alternates (parse : String → Option ε) (es : List Event) :
    ((exec (step parse) {} es).suspendable ++ [false]).IsChain (· ≠ ·) ∧
      ((exec (step parse) {} es).suspendable ++ [false]).head? =
        some (exec (step parse) {} es).waiting := by
  refine (exec_invariant (I := fun s : State ε => Consistent s ∧
    (s.suspendable ++ [false]).IsChain (· ≠ ·) ∧
      (s.suspendable ++ [false]).head? = some s.waiting) ?_
    ⟨.empty, List.IsChain.singleton _, rfl⟩).2
  rintro s e ⟨h, hchain, hlast⟩
  refine ⟨h.effect (step_effect parse s e), ?_⟩
  have hsignals : (step parse s e).suspendable = _ := signals_step h e
  rw [hsignals]
  split
  · next heq => exact ⟨hchain, hlast.trans (congrArg some heq.symm)⟩
  · next hne =>
    refine ⟨?_, rfl⟩
    rw [List.cons_append, List.isChain_cons]
    refine ⟨fun b hb => ?_, hchain⟩
    rw [hlast] at hb
    cases hb
    exact hne

end Suspendable

end Runtime
