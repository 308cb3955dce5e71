import Trigger.Infra.JsString

/-!
# idempotency key

`createIdempotencyKey` は、key の配列と scope の部分を `-` でつないだ文字列の hash を返す。`-` は key や run の
id の中にも現れ、hash は encode した byte 列から作られるので、hash から決まるのは、encode した部分をどこまでも `-` で
切った断片の列だけである（`encode_join_eq_iff`）。

作った key の元の値と scope は、process の中の catalog に残る。
-/

namespace Idempotency

open Infra (JsString)
open Infra.JsString (ofString encode scalars)

/-! ## 文字列の連結 -/

/-- `parts.join("-")`。 -/
def join (parts : List JsString) : JsString := [0x2d].intercalate parts

/-- encode した部分をすべて `-` で切った断片の列。空の列は、空の文字列一つと同じ文字列になる。 -/
def pieces : List JsString → List (List Char)
  | [] => [[]]
  | part :: rest => (part :: rest).flatMap fun s => (scalars s).splitOn '-'

theorem splitOn_intercalate (part : List Char) (rest : List (List Char)) :
    (['-'].intercalate (part :: rest)).splitOn '-' = (part :: rest).flatMap (·.splitOn '-') := by
  induction rest generalizing part with
  | nil => simp
  | cons next rest ih =>
    rw [List.intercalate_cons_cons, List.append_assoc, List.singleton_append,
      List.splitOn_append_cons_self, ih]
    rfl

theorem scalars_join (parts : List JsString) :
    scalars (join parts) = ['-'].intercalate (parts.map scalars) :=
  Infra.JsString.scalars_intercalate (by decide) (by decide) parts

theorem splitOn_join (parts : List JsString) :
    (scalars (join parts)).splitOn '-' = pieces parts := by
  rw [scalars_join]
  cases parts with
  | nil => rfl
  | cons part rest =>
    rw [List.map_cons, splitOn_intercalate, ← List.map_cons, List.flatMap_map]
    rfl

/-- つないだ文字列の encode が等しいのは、断片の列が等しいときである。 -/
theorem encode_join_eq_iff {parts parts' : List JsString} :
    encode (join parts) = encode (join parts') ↔ pieces parts = pieces parts' := by
  constructor
  · intro h
    rw [← splitOn_join, ← splitOn_join, String.ofList_injective h]
  · intro h
    rw [← splitOn_join, ← splitOn_join] at h
    -- 切った断片をつなぎ直すと、encode した文字列に戻る。
    have hjoin := congrArg ['-'].intercalate h
    rw [List.intercalate_splitOn, List.intercalate_splitOn] at hjoin
    exact congrArg String.ofList hjoin

/-! ## catalog -/

inductive IdempotencyKeyScope where
  | run
  | attempt
  | global
deriving DecidableEq

structure IdempotencyKeyOptions where
  key : JsString
  scope : IdempotencyKeyScope
deriving DecidableEq

/-- `LRUIdempotencyKeyCatalog`。`Map` の先頭が最も古い。 -/
structure LRUIdempotencyKeyCatalog where
  cache : List (JsString × IdempotencyKeyOptions)
  maxSize : Nat

namespace LRUIdempotencyKeyCatalog

def new (maxSize : Nat) : LRUIdempotencyKeyCatalog := ⟨[], maxSize⟩

/-- `cache.delete(hash)` と、それに続く `cache.set(hash, options)`。 -/
def moveToEnd (hash : JsString) (options : IdempotencyKeyOptions)
    (cache : List (JsString × IdempotencyKeyOptions)) : List (JsString × IdempotencyKeyOptions) :=
  cache.filter (·.1 ≠ hash) ++ [(hash, options)]

/-- 末尾に入れ直し、溢れた分を先頭から捨てる。 -/
def registerKeyOptions (hash : JsString) (options : IdempotencyKeyOptions)
    (catalog : LRUIdempotencyKeyCatalog) : LRUIdempotencyKeyCatalog :=
  let cache := moveToEnd hash options catalog.cache
  { catalog with cache := cache.drop (cache.length - catalog.maxSize) }

/-- 見つかれば末尾に移す。 -/
def getKeyOptions (hash : JsString) (catalog : LRUIdempotencyKeyCatalog) :
    Option IdempotencyKeyOptions × LRUIdempotencyKeyCatalog :=
  match catalog.cache.lookup hash with
  | some options => (some options, { catalog with cache := moveToEnd hash options catalog.cache })
  | none => (none, catalog)

end LRUIdempotencyKeyCatalog

/-! ## key の作成 -/

/-- `taskContext.ctx` のうち読むもの。 -/
structure TaskRunContext where
  runId : JsString
  attemptNumber : Nat
deriving DecidableEq

/-- `string | string[]`。 -/
inductive KeyArgument where
  | string (s : JsString)
  | array (parts : List JsString)
deriving DecidableEq

/-- `Array.isArray(key) ? key : [key]`。 -/
def KeyArgument.keyArray : KeyArgument → List JsString
  | .string s => [s]
  | .array parts => parts

/-- scope が加える部分。task の外では何も加えない。 -/
def injectScope (ctx : Option TaskRunContext) : IdempotencyKeyScope → List JsString
  | .run => match ctx with
    | some ctx => [ctx.runId]
    | none => []
  | .attempt => match ctx with
    | some ctx => [ctx.runId, ofString (toString ctx.attemptNumber)]
    | none => []
  | .global => []

section

variable (sha256 : String → JsString)

/-- encode した byte 列の hash を 16 進で表した文字列。 -/
def digestSHA256 (data : JsString) : JsString := sha256 (encode data)

def generateIdempotencyKey (keyMaterial : List JsString) : JsString :=
  digestSHA256 sha256 (join keyMaterial)

/-- key の作成の引数と、呼ばれた場所の文脈。 -/
structure Call where
  key : KeyArgument
  scope : Option IdempotencyKeyScope
  ctx : Option TaskRunContext
deriving DecidableEq

/-- `options?.scope ?? "run"`。 -/
def Call.effectiveScope (call : Call) : IdempotencyKeyScope := call.scope.getD .run

/-- hash の材料。 -/
def Call.keyMaterial (call : Call) : List JsString :=
  call.key.keyArray ++ injectScope call.ctx call.effectiveScope

/-- 返す key。 -/
def createdKey (call : Call) : JsString := generateIdempotencyKey sha256 call.keyMaterial

/-- key を返し、元の値と scope を catalog に残す。 -/
def createIdempotencyKey (call : Call) (catalog : LRUIdempotencyKeyCatalog) :
    JsString × LRUIdempotencyKeyCatalog :=
  let userKey := join call.key.keyArray
  (createdKey sha256 call,
    catalog.registerKeyOptions (createdKey sha256 call) ⟨userKey, call.effectiveScope⟩)

end

/-! ## 同じ意味の呼び出し -/

/-- scope が含む文脈。 -/
def scopeContext (ctx : Option TaskRunContext) :
    IdempotencyKeyScope → Option (JsString × Option Nat)
  | .run => ctx.map fun ctx => (ctx.runId, none)
  | .attempt => ctx.map fun ctx => (ctx.runId, some ctx.attemptNumber)
  | .global => none

/-- key の配列と、scope と、scope が含む文脈が等しい。 -/
def SameMeaning (c c' : Call) : Prop :=
  c.key.keyArray = c'.key.keyArray ∧ c.effectiveScope = c'.effectiveScope ∧
    scopeContext c.ctx c.effectiveScope = scopeContext c'.ctx c'.effectiveScope

instance (c c' : Call) : Decidable (SameMeaning c c') := inferInstanceAs (Decidable (_ ∧ _ ∧ _))

/-- 意味の違う二つの呼び出しの材料が、同じ断片の列になる。 -/
def Confusable (c c' : Call) : Prop :=
  pieces c.keyMaterial = pieces c'.keyMaterial ∧ ¬ SameMeaning c c'

/-- 文脈の等しい scope は、同じ部分を加える。 -/
theorem injectScope_congr {ctx ctx' : Option TaskRunContext} {scope : IdempotencyKeyScope}
    (h : scopeContext ctx scope = scopeContext ctx' scope) :
    injectScope ctx scope = injectScope ctx' scope := by
  cases scope with
  | global => rfl
  | run =>
    cases ctx <;> cases ctx' <;> simp_all [scopeContext, injectScope]
  | attempt =>
    cases ctx <;> cases ctx' <;> simp_all [scopeContext, injectScope]

theorem SameMeaning.keyMaterial {c c' : Call} (h : SameMeaning c c') :
    c.keyMaterial = c'.keyMaterial := by
  obtain ⟨hkey, hscope, hctx⟩ := h
  unfold Call.keyMaterial
  rw [hkey, hscope]
  rw [hscope] at hctx
  rw [injectScope_congr hctx]

theorem createdKey_eq_iff {sha256 : String → JsString} (hsha256 : Function.Injective sha256)
    (c c' : Call) :
    createdKey sha256 c = createdKey sha256 c' ↔ pieces c.keyMaterial = pieces c'.keyMaterial :=
  hsha256.eq_iff.trans encode_join_eq_iff

/--
**hash が衝突しないとき、二つの呼び出しの key の等しさが意味の等しさと一致するのは、二つが紛らわしくない
ときに限る。紛らわしいのは、意味が違うのに、encode した材料をどこまでも `-` で切ると同じ断片の列になる二つである。**
-/
theorem createIdempotencyKey_distinguishes_iff (sha256 : String → JsString)
    (hsha256 : Function.Injective sha256) (c c' : Call) (catalog catalog' :
      LRUIdempotencyKeyCatalog) :
    ((createIdempotencyKey sha256 c catalog).1 = (createIdempotencyKey sha256 c' catalog').1 ↔
        SameMeaning c c') ↔
      ¬ Confusable c c' := by
  have heq := createdKey_eq_iff hsha256 c c'
  constructor
  · rintro hiff ⟨hpieces, hdiff⟩
    exact hdiff (hiff.mp (heq.mpr hpieces))
  · intro hclear
    refine ⟨fun h => ?_, fun hsame => ?_⟩
    · exact Classical.byContradiction fun hdiff => hclear ⟨heq.mp h, hdiff⟩
    · exact congrArg (generateIdempotencyKey sha256) hsame.keyMaterial

/-- `"a"` では SHA-256 の値を取り、ほかの byte 列とも衝突しない関数。 -/
def sampleSha256 (data : String) : JsString :=
  if data = "a" then
    ofString "ca978112ca1bbdcafac231b39a23dc4da786eff8147c4e72b9807785afee48bb"
  else ofString ("x" ++ data)

theorem sampleSha256_injective : Function.Injective sampleSha256 := by
  -- `"a"` の値は `c` で、ほかの値は `x` で始まる。
  have hhead : ∀ data : String,
      ofString "ca978112ca1bbdcafac231b39a23dc4da786eff8147c4e72b9807785afee48bb" ≠
        ofString ("x" ++ data) := by
    intro data h
    have hlist := congrArg String.toList (Infra.JsString.ofString_injective h)
    rw [String.toList_append] at hlist
    have hhead : 'c' = 'x' := Option.some.inj (congrArg List.head? hlist)
    exact absurd hhead (by decide)
  intro a b h
  unfold sampleSha256 at h
  split at h
  · next ha =>
    split at h
    · next hb => rw [ha, hb]
    · exact absurd h (hhead b)
  · split at h
    · exact absurd h.symm (hhead a)
    · exact Infra.Text.append_left_cancel (Infra.JsString.ofString_injective h)

/-- 一つの文字列と、それだけの配列は、同じ key になる。 -/
theorem createIdempotencyKey_distinguishes_singleton :
    ((createIdempotencyKey sampleSha256 ⟨.string (ofString "a"), some .global, none⟩
        (.new 1000)).1 =
        (createIdempotencyKey sampleSha256 ⟨.array [ofString "a"], some .global, none⟩
          (.new 1000)).1 ↔
      SameMeaning ⟨.string (ofString "a"), some .global, none⟩
        ⟨.array [ofString "a"], some .global, none⟩) ↔
      ¬ Confusable ⟨.string (ofString "a"), some .global, none⟩
        ⟨.array [ofString "a"], some .global, none⟩ :=
  createIdempotencyKey_distinguishes_iff sampleSha256 sampleSha256_injective _ _ _ _

/--
切り方の違う配列も、run の id を部分に持つ global の key も、空の配列と空の文字列も、異なる surrogate も、hash が
何であっても衝突する。
-/
theorem createIdempotencyKey_confuses :
    (∀ sha256, createdKey sha256 ⟨.array [ofString "a", ofString "b"], some .global, none⟩ =
        createdKey sha256 ⟨.string (ofString "a-b"), some .global, none⟩) ∧
      ¬ SameMeaning ⟨.array [ofString "a", ofString "b"], some .global, none⟩
        ⟨.string (ofString "a-b"), some .global, none⟩ ∧
    (∀ sha256, createdKey sha256 ⟨.array [ofString "a", ofString "run_1"], some .global, none⟩ =
        createdKey sha256 ⟨.string (ofString "a"), some .run, some ⟨ofString "run_1", 1⟩⟩) ∧
      ¬ SameMeaning ⟨.array [ofString "a", ofString "run_1"], some .global, none⟩
        ⟨.string (ofString "a"), some .run, some ⟨ofString "run_1", 1⟩⟩ ∧
    (∀ sha256, createdKey sha256 ⟨.array [], some .global, none⟩ =
        createdKey sha256 ⟨.string [], some .global, none⟩) ∧
      ¬ SameMeaning ⟨.array [], some .global, none⟩ ⟨.string [], some .global, none⟩ ∧
    (∀ sha256, createdKey sha256 ⟨.string [0xd800], some .global, none⟩ =
        createdKey sha256 ⟨.string [0xd801], some .global, none⟩) ∧
      ¬ SameMeaning ⟨.string [0xd800], some .global, none⟩
        ⟨.string [0xd801], some .global, none⟩ := by
  -- encode した材料が等しければ、hash が何であっても同じ key になる。
  have hcreated (sha256 : String → JsString) (c c' : Call)
      (h : encode (join c.keyMaterial) = encode (join c'.keyMaterial)) :
      createdKey sha256 c = createdKey sha256 c' := congrArg sha256 h
  refine ⟨fun sha256 => hcreated sha256 _ _ ?_, by decide +kernel,
    fun sha256 => hcreated sha256 _ _ ?_, by decide +kernel,
    fun sha256 => hcreated sha256 _ _ ?_, by decide +kernel,
    fun sha256 => hcreated sha256 _ _ ?_, by decide +kernel⟩
  all_goals decide +kernel

end Idempotency
