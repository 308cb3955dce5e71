import Trigger.Idempotency.Keys

/-!
# idempotency key の reset

`resetIdempotencyKey` は、渡された文字列が 64 文字なら hash とみなしてそのまま送り、そうでなければ材料から hash を
作り直す。作った key を渡したときは必ず同じ hash を送るが、元の key を渡したときは、64 文字の文字列や、task の外で
作った key で食い違う（`reset_addresses_iff`）。
-/

namespace Idempotency

open Infra (JsString)
open Infra.JsString (ofString)

structure ResetIdempotencyKeyOptions where
  scope : Option IdempotencyKeyScope := none
  parentRunId : Option JsString := none
  attemptNumber : Option Nat := none

/-- 空でない文字列。空の文字列は偽として扱われる。 -/
def truthy (s : Option JsString) : Option JsString := s.filter (· ≠ [])

/-- scope ごとの材料の末尾。足りないものがあれば投げる。 -/
def scopeSuffix (ctx : Option TaskRunContext) (options : ResetIdempotencyKeyOptions) :
    IdempotencyKeyScope → Except String (List JsString)
  | .run =>
    match truthy (options.parentRunId <|> ctx.map (·.runId)) with
    | some parentRunId => .ok [parentRunId]
    | none => .error <| "resetIdempotencyKey: parentRunId is required for 'run' scope " ++
        "when called outside a task context"
  | .attempt =>
    match truthy (options.parentRunId <|> ctx.map (·.runId)),
        options.attemptNumber <|> ctx.map (·.attemptNumber) with
    | some parentRunId, some attemptNumber => .ok [parentRunId, ofString (toString attemptNumber)]
    | _, _ => .error <| "resetIdempotencyKey: parentRunId and attemptNumber are required for " ++
        "'attempt' scope when called outside a task context"
  | .global => .ok []

section

variable (sha256 : String → JsString)

/-- catalog に残っている値があれば、渡された key と scope の代わりに使う。 -/
def rebuildKey (ctx : Option TaskRunContext) (key : KeyArgument)
    (attached : Option IdempotencyKeyOptions) (options : ResetIdempotencyKeyOptions) :
    Except String JsString :=
  let scope := ((attached.map (·.scope)) <|> options.scope).getD .run
  let keyArray := match key with
    | .array parts => parts
    | .string s => [(attached.map (·.key)).getD s]
  (scopeSuffix ctx options scope).map fun suffix =>
    generateIdempotencyKey sha256 (keyArray ++ suffix)

/-- client に送る hash。 -/
def resetIdempotencyKey (ctx : Option TaskRunContext) (key : KeyArgument)
    (options : ResetIdempotencyKeyOptions) (catalog : LRUIdempotencyKeyCatalog) :
    Except String JsString × LRUIdempotencyKeyCatalog :=
  match key with
  | .array _ => (rebuildKey sha256 ctx key none options, catalog)
  | .string s =>
    if s.length = 64 then (.ok s, catalog)
    else
      let found := catalog.getKeyOptions s
      (rebuildKey sha256 ctx key found.1 options, found.2)

/-- 一つの process が続けて key を作った後の catalog。 -/
def catalogAfter (calls : List Call) (catalog : LRUIdempotencyKeyCatalog) :
    LRUIdempotencyKeyCatalog :=
  calls.foldl (fun catalog call => (createIdempotencyKey sha256 call catalog).2) catalog

end

/-! ## catalog にあるのは hash だけである -/

/-- 登録された hash の長さは 64 である。 -/
def HoldsHashes (catalog : LRUIdempotencyKeyCatalog) : Prop :=
  ∀ p ∈ catalog.cache, p.1.length = 64

section

variable {sha256 : String → JsString}

theorem HoldsHashes.register {catalog : LRUIdempotencyKeyCatalog} {hash : JsString}
    {options : IdempotencyKeyOptions} (h : HoldsHashes catalog) (hhash : hash.length = 64) :
    HoldsHashes (catalog.registerKeyOptions hash options) := by
  intro p hp
  rcases List.mem_append.mp (List.mem_of_mem_drop hp) with hold | hnew
  · exact h p (List.mem_filter.mp hold).1
  · rw [List.mem_singleton.mp hnew]
    exact hhash

theorem HoldsHashes.catalogAfter (hsha256 : ∀ data, (sha256 data).length = 64)
    (calls : List Call) : ∀ {catalog : LRUIdempotencyKeyCatalog}, HoldsHashes catalog →
      HoldsHashes (catalogAfter sha256 calls catalog) := by
  induction calls with
  | nil => exact fun h => h
  | cons call calls ih => exact fun h => ih (h.register (hsha256 _))

/-- 64 文字でない文字列は、catalog に無い。 -/
theorem HoldsHashes.getKeyOptions {catalog : LRUIdempotencyKeyCatalog} (h : HoldsHashes catalog)
    {s : JsString} (hs : s.length ≠ 64) : (catalog.getKeyOptions s).1 = none := by
  unfold LRUIdempotencyKeyCatalog.getKeyOptions
  rcases hget : catalog.cache.lookup s with _ | options
  · rfl
  · obtain ⟨before, after, hcache, -⟩ := List.lookup_eq_some_iff.mp hget
    exact absurd (h (s, options) (by rw [hcache]; simp)) hs

/-! ## 作り直した hash -/

/-- 同じ文脈で作り直せる scope か。空の run の id は、無いものとして扱われる。 -/
def Rebuildable (ctx : Option TaskRunContext) : IdempotencyKeyScope → Prop
  | .global => True
  | _ => ∃ c, ctx = some c ∧ c.runId ≠ []

/-- 選択肢を渡さないときに使う run の id。 -/
theorem truthy_runId (ctx : Option TaskRunContext) :
    (∃ c, ctx = some c ∧ c.runId ≠ [] ∧
        truthy (none <|> ctx.map (·.runId)) = some c.runId) ∨
      (¬ ∃ c, ctx = some c ∧ c.runId ≠ []) ∧ truthy (none <|> ctx.map (·.runId)) = none := by
  rcases ctx with _ | ctx
  · exact .inr ⟨fun ⟨c, h, _⟩ => (by cases h), rfl⟩
  · by_cases hid : ctx.runId = []
    · refine .inr ⟨fun ⟨c, h, hne⟩ => hne (Option.some.inj h ▸ hid), ?_⟩
      exact Option.filter_eq_none_iff.mpr fun s hs => by
        rw [← Option.some.inj hs]
        exact fun h => of_decide_eq_true h hid
    · exact .inl ⟨ctx, rfl, hid, Option.filter_eq_some_iff.mpr ⟨rfl, decide_eq_true hid⟩⟩

/-- 選択肢を渡さなければ、文脈のある scope では作るときと同じ部分が付き、無ければ投げる。 -/
theorem scopeSuffix_cases (ctx : Option TaskRunContext) (given : Option IdempotencyKeyScope)
    (scope : IdempotencyKeyScope) :
    (Rebuildable ctx scope ∧
        scopeSuffix ctx ⟨given, none, none⟩ scope = .ok (injectScope ctx scope)) ∨
      (¬ Rebuildable ctx scope ∧
        ∃ error, scopeSuffix ctx ⟨given, none, none⟩ scope = .error error) := by
  cases scope with
  | global => exact .inl ⟨trivial, rfl⟩
  | run =>
    unfold scopeSuffix
    rcases truthy_runId ctx with ⟨c, rfl, hid, heq⟩ | ⟨hnone, heq⟩
    · exact .inl ⟨⟨c, rfl, hid⟩, by dsimp only; rw [heq]; rfl⟩
    · exact .inr ⟨hnone, _, by dsimp only; rw [heq]⟩
  | attempt =>
    unfold scopeSuffix
    rcases truthy_runId ctx with ⟨c, rfl, hid, heq⟩ | ⟨hnone, heq⟩
    · exact .inl ⟨⟨c, rfl, hid⟩, by dsimp only; rw [heq]; rfl⟩
    · exact .inr ⟨hnone, _, by dsimp only; rw [heq]⟩

/--
元の key でも作った hash を送れる呼び出し。64 文字の文字列は自分自身の hash でなければならず、ほかの key は、
作り直せる scope でなければならない。
-/
def Addressable (sha256 : String → JsString) (call : Call) : Prop :=
  match call.key with
  | .string s =>
    if s.length = 64 then createdKey sha256 call = s
    else Rebuildable call.ctx call.effectiveScope
  | .array _ => Rebuildable call.ctx call.effectiveScope

/-- catalog に何も無ければ、作り直した key は、作れるときには作った key と等しい。 -/
theorem rebuildKey_eq_iff (call : Call) :
    rebuildKey sha256 call.ctx call.key none ⟨call.scope, none, none⟩ =
      .ok (createdKey sha256 call) ↔ Rebuildable call.ctx call.effectiveScope := by
  -- catalog に無ければ、key の配列は渡されたものである。
  have hkeys : (match call.key with
      | .array parts => parts
      | .string s => [((none : Option IdempotencyKeyOptions).map (·.key)).getD s]) =
        call.key.keyArray := by
    cases call.key <;> rfl
  have hscope : (((none : Option IdempotencyKeyOptions).map (·.scope)) <|> call.scope).getD .run =
      call.effectiveScope := rfl
  unfold rebuildKey
  dsimp only
  rw [hkeys, hscope]
  rcases scopeSuffix_cases call.ctx call.scope call.effectiveScope with
    ⟨h, heq⟩ | ⟨h, error, heq⟩
  · rw [heq]
    exact ⟨fun _ => h, fun _ => rfl⟩
  · rw [heq]
    exact ⟨fun hok => (by cases hok), fun hrebuild => absurd hrebuild h⟩

/-- 元の key での reset が作った hash を送るのは、`Addressable` な呼び出しのときに限る。 -/
theorem reset_raw_iff {catalog : LRUIdempotencyKeyCatalog} (hcatalog : HoldsHashes catalog)
    (call : Call) :
    (resetIdempotencyKey sha256 call.ctx call.key ⟨call.scope, none, none⟩ catalog).1 =
      .ok (createdKey sha256 call) ↔ Addressable sha256 call := by
  have hrebuild := @rebuildKey_eq_iff sha256 call
  unfold Addressable
  rcases hkey : call.key with s | parts
  · rw [hkey] at hrebuild
    unfold resetIdempotencyKey
    dsimp only
    -- 64 文字の文字列は hash とみなされ、そのまま送られる。
    by_cases hlength : s.length = 64
    · rw [if_pos hlength, if_pos hlength]
      exact ⟨fun h => (Except.ok.inj h).symm, fun h => h ▸ rfl⟩
    · rw [if_neg hlength, if_neg hlength, hcatalog.getKeyOptions hlength]
      exact hrebuild
  · rw [hkey] at hrebuild
    exact hrebuild

/-- 作った key は 64 文字なので、そのまま送られる。 -/
theorem reset_created (hsha256 : ∀ data, (sha256 data).length = 64) (call : Call)
    (options : ResetIdempotencyKeyOptions) (catalog : LRUIdempotencyKeyCatalog) :
    (resetIdempotencyKey sha256 call.ctx (.string (createdKey sha256 call)) options
      catalog).1 = .ok (createdKey sha256 call) := by
  unfold resetIdempotencyKey
  dsimp only
  rw [if_pos (show (createdKey sha256 call).length = 64 from hsha256 _)]

end

/--
**どのような順に key を作った process でも、同じ文脈での reset が、作った key を渡しても、元の key と scope を
渡しても、作った hash を送るのは、呼び出しが `Addressable` なときに限る。**
-/
theorem reset_addresses_iff (sha256 : String → JsString)
    (hsha256 : ∀ data, (sha256 data).length = 64) (maxSize : Nat) (before between : List Call)
    (call : Call) :
    let catalog := catalogAfter sha256 (before ++ call :: between) (.new maxSize)
    let created := (createIdempotencyKey sha256 call
      (catalogAfter sha256 before (.new maxSize))).1
    ((∀ options, (resetIdempotencyKey sha256 call.ctx (.string created) options catalog).1 =
        .ok created) ∧
      (resetIdempotencyKey sha256 call.ctx call.key ⟨call.scope, none, none⟩ catalog).1 =
        .ok created) ↔ Addressable sha256 call := by
  have hempty : HoldsHashes (.new maxSize) := fun p hp => (by cases hp)
  have hcatalog := hempty.catalogAfter hsha256 (before ++ call :: between)
  have hraw := @reset_raw_iff sha256 _ hcatalog call
  exact ⟨fun h => hraw.mp h.2, fun h => ⟨fun options => reset_created hsha256 call options _,
    hraw.mpr h⟩⟩

/-- SHA-256 のつもりの、常に 64 文字を返す関数。"a" では SHA-256 の値である。 -/
def fixedSha256 (_ : String) : JsString :=
  ofString "ca978112ca1bbdcafac231b39a23dc4da786eff8147c4e72b9807785afee48bb"

theorem fixedSha256_length (data : String) : (fixedSha256 data).length = 64 := by
  show (ofString "ca978112ca1bbdcafac231b39a23dc4da786eff8147c4e72b9807785afee48bb").length = 64
  decide +kernel

/-- global の key を作る呼び出し。 -/
def globalCall : Call := ⟨.string (ofString "a"), some .global, none⟩

/-- global の key は、元の key でも reset できる。 -/
theorem reset_addresses_global :
    ((∀ options, (resetIdempotencyKey fixedSha256 none
        (.string (createIdempotencyKey fixedSha256 globalCall (.new 1000)).1) options
        (catalogAfter fixedSha256 [globalCall] (.new 1000))).1 =
          .ok (createIdempotencyKey fixedSha256 globalCall (.new 1000)).1) ∧
      (resetIdempotencyKey fixedSha256 none (.string (ofString "a")) ⟨some .global, none, none⟩
        (catalogAfter fixedSha256 [globalCall] (.new 1000))).1 =
          .ok (createIdempotencyKey fixedSha256 globalCall (.new 1000)).1) ↔
      Addressable fixedSha256 globalCall :=
  reset_addresses_iff fixedSha256 fixedSha256_length 1000 [] [] globalCall

/-- hash ではない 64 文字の文字列。 -/
def longKey : JsString :=
  ofString "0123456789012345678901234567890123456789012345678901234567890123"

/-- 64 文字の文字列と、task の外で作った run scope の key は、作った hash と食い違う。 -/
theorem reset_misses :
    (resetIdempotencyKey fixedSha256 none (.string longKey) ⟨some .global, none, none⟩
        (.new 1000)).1 ≠ .ok (createdKey fixedSha256 ⟨.string longKey, some .global, none⟩) ∧
    (resetIdempotencyKey fixedSha256 none (.string (ofString "a")) ⟨some .run, none, none⟩
        (.new 1000)).1 ≠
      .ok (createdKey fixedSha256 ⟨.string (ofString "a"), some .run, none⟩) := by
  refine ⟨fun h => ?_, fun h => ?_⟩
  · revert h
    decide +kernel
  · revert h
    decide +kernel

end Idempotency
