import Trigger.Tsql.Select

/-!
# 雛形が書くもの

printer が visit してよい構文木の条件 `H` と、書いてよい断片の条件 `T` の組（`Emission`）。`H` は部分木・
guard・変換後の値について閉じ、`T` は固定の語（`keywords`）・schema の文字列・許可表の関数名などを
含む。この組について、各 visitor の雛形が条件を守ること（`TemplateOk`）を示す。
-/

namespace Tsql

open Infra

/-! ## 固定の語 -/

/-- printer に書かれた固定の文字列。 -/
def keywords : List String :=
  -- 区切り
  ["", " ", ", ", ".", "(", ")", "))", ")))", "[", "]", "/", ")."," -> ", "*", ".*", ".:String",
    "1", "0", "NULL", "nan", "inf", "-inf",
    -- 比較と演算
    "equals(", "notEquals(", "isNull(", "isNotNull(", "less(", "lessOrEquals(", "greater(",
    "greaterOrEquals(", "like(", "ilike(", "notLike(", "notILike(", "in(", "notIn(", "globalIn(",
    "globalNotIn(", "match(", "not(match(", ", concat('(?i)', ", "plus(", "minus(", "multiply(",
    "divide(", "modulo(", " NOT", " BETWEEN ", " AND ", " DESC", " ASC", "tuple(",
    "tuple('__hx_tag', '__hx_obj'", "toStartOfInterval(", ", INTERVAL ", "SECOND", "MINUTE", "HOUR",
    "DAY", "WEEK", "MONTH",
    -- window
    "CURRENT ROW", "PRECEDING", "FOLLOWING", "UNBOUNDED ", "ROWS ", "RANGE ", "BETWEEN ",
    "PARTITION BY ", "ORDER BY ", " OVER ", " OVER (",
    -- 文
    " AS ", ") AS ", " AS (", "AS ", "FINAL", "ON ", "USING ", "SAMPLE ", " OFFSET ", " BY ",
    "DISTINCT ", "ARRAY JOIN", "LEFT ARRAY JOIN", "INNER ARRAY JOIN", " UNION ALL ",
    " UNION DISTINCT ", " INTERSECT ", " INTERSECT DISTINCT ", " EXCEPT "]

/-- schema に書かれた、そのまま印字される文字列。 -/
def SchemaText (ctx : PrinterContext) (x : String) : Prop :=
  ∃ t ∈ ctx.tables.values, x = t.clickhouseName ∨
    ∃ c ∈ t.columns.values, c.expression = some x ∨ c.nullValue = some x

/-! ## 印字してよいもの -/

/-- 文脈の table はすべて schema の table である。 -/
def Scoped (ctx : PrinterContext) (s : PrinterState) : Prop :=
  ∀ p ∈ s.tableContexts, p.2 ∈ ctx.tables.values

/-- visit してよい構文木 `H` と、書いてよい断片 `T`。 -/
structure Emission (ctx : PrinterContext) (H : Expr → Prop) (T : Piece → Prop) : Prop where
  child : ∀ {e c}, H e → c ∈ e.children → H c
  and : ∀ {es}, (∀ e ∈ es, H e) → H (.and es)
  constant : ∀ v, H (.constant v)
  mapStrings : ∀ f {e}, H e → H (mapStrings f e)
  guard : ∀ {t}, t ∈ ctx.tables.values → ∀ {a g}, g ∈ enforcedGuards ctx t a → H g
  keyword : ∀ k ∈ keywords, T (.keyword k)
  schema : ∀ {x}, SchemaText ctx x → T (.schema x)
  number : ∀ x, T (.number x)
  param : ∀ n v, T (.param n v)
  identifier : ∀ s, T (.identifier s)
  function : ∀ {name args params distinct f}, H (.call name args params distinct) →
    (findFunction ctx.toLowerCase aggregations name = some f ∨
      findFunction ctx.toLowerCase clickhouseFunctions name = some f) → T (functionPiece f)
  frameType : ∀ {f}, H (.windowFrame f) → T (frameTypePiece f.frameType)
  windowFunction : ∀ {name args exprs o w}, H (.windowFunction name args exprs o w) →
    T (.verbatim name)
  joinType : ∀ {q}, H (.selectQuery q) → ∀ {j}, j ∈ q.selectFrom → ∀ {k}, j.joinType = some k →
    T (.keyword k)

/-- 雛形の要素が条件を守る。 -/
def AtomOk (H : Expr → Prop) (T : Piece → Prop) : Atom → Prop
  | .text p => T p
  | .value v => ∀ n, T (.param n v)
  | .visit e => H e
  | .fail _ => True

def TemplateOk (H : Expr → Prop) (T : Piece → Prop) (t : Template) : Prop := ∀ a ∈ t, AtomOk H T a

variable {ctx : PrinterContext} {H : Expr → Prop} {T : Piece → Prop}

@[simp] theorem templateOk_append {t t' : Template} :
    TemplateOk H T (t ++ t') ↔ TemplateOk H T t ∧ TemplateOk H T t' := by
  simp only [TemplateOk, List.forall_mem_append]

@[simp] theorem templateOk_nil : TemplateOk H T [] := fun _ h => by cases h

@[simp] theorem templateOk_cons {a : Atom} {t : Template} :
    TemplateOk H T (a :: t) ↔ AtomOk H T a ∧ TemplateOk H T t := by
  simp only [TemplateOk, List.forall_mem_cons]

@[simp] theorem templateOk_kw {s : String} : TemplateOk H T (kw s) ↔ T (.keyword s) := by
  simp [kw, AtomOk]

@[simp] theorem templateOk_visitOne {e : Expr} : TemplateOk H T (visitOne e) ↔ H e := by
  simp [visitOne, AtomOk]

@[simp] theorem templateOk_failWith {e : PrintError} : TemplateOk H T (failWith e) := by
  simp [failWith, AtomOk]

theorem templateOk_joinTemplates {sep : String} {ts : List Template} (hsep : T (.keyword sep))
    (hts : ∀ t ∈ ts, TemplateOk H T t) : TemplateOk H T (joinTemplates sep ts) := by
  intro a ha
  rcases mem_join ha with rfl | ⟨t, ht, hat⟩
  · exact hsep
  · exact hts t ht a hat

theorem templateOk_visitAll {sep : String} {es : List Expr} (hsep : T (.keyword sep))
    (hes : ∀ e ∈ es, H e) : TemplateOk H T (visitAll sep es) := by
  refine templateOk_joinTemplates hsep fun t ht => ?_
  obtain ⟨e, he, rfl⟩ := List.mem_map.mp ht
  exact templateOk_visitOne.mpr (hes e he)

section Visitors

variable (hE : Emission ctx H T)
include hE

theorem Emission.kw {s : String} (hs : s ∈ keywords) : TemplateOk H T (kw s) :=
  templateOk_kw.mpr (hE.keyword s hs)

theorem Emission.printIdentifier (s : String) : TemplateOk H T (printIdentifier s) := by
  intro a ha
  rcases mem_printIdentifier ha with rfl | ⟨e, rfl⟩
  · exact hE.identifier s
  · trivial

theorem Emission.printChain (chain : Chain) : TemplateOk H T (printChain chain) := by
  refine templateOk_joinTemplates (hE.keyword _ (by decide)) fun t ht => ?_
  obtain ⟨part, -, rfl⟩ := List.mem_map.mp ht
  cases part with
  | name s => exact hE.printIdentifier s
  | index n => simpa [printIdentifierOrIndex, AtomOk] using hE.number n

theorem Emission.printResolved (chain : Except PrintError Chain) :
    TemplateOk H T (printResolved chain) := by
  cases chain with
  | ok chain => exact hE.printChain chain
  | error e => exact templateOk_failWith

end Visitors

/-! ## 文脈から引いた column -/

theorem truthy_eq_some {s : Option String} {x : String} (h : truthy s = some x) : s = some x := by
  obtain ⟨h, -⟩ := Option.filter_eq_some_iff.mp h
  exact h

/-- 検索で見つかる自前の column は、文脈のどれかの table の column である。 -/
theorem resolveFieldToColumnSchema_own {tables : JsMap TableSchema} {chain : Chain}
    {c : ColumnSchema} (h : resolveFieldToColumnSchema tables chain = some (.own c)) :
    ∃ p ∈ tables, ∃ k, p.2.columns.get k = some c := by
  unfold resolveFieldToColumnSchema at h
  split at h
  · next column =>
    obtain ⟨p, hp, hc⟩ := List.exists_of_findSome?_eq_some h
    exact ⟨p, hp, column, TableSchema.column_own.mp hc⟩
  · next table column _ =>
    obtain ⟨t, ht, hc⟩ := Option.bind_eq_some_iff.mp h
    exact ⟨(table, t), JsMap.mem_of_get ht, column, TableSchema.column_own.mp hc⟩
  · cases h

theorem virtualExpressionOf_eq_some {t : TableSchema} {column expression : String}
    (h : virtualExpressionOf t column = some expression) :
    ∃ c, t.columns.get column = some c ∧ c.expression = some expression := by
  obtain ⟨c, hc, hx⟩ := Option.bind_eq_some_iff.mp h
  exact ⟨c, hc, truthy_eq_some hx⟩

theorem getVirtualColumn_eq_some {tables : JsMap TableSchema} {chain : Chain}
    {name expression : String} (h : getVirtualColumn tables chain = some (name, expression)) :
    ∃ p ∈ tables, ∃ c, p.2.columns.get name = some c ∧ c.expression = some expression := by
  unfold getVirtualColumn at h
  split at h
  · obtain ⟨x, hx, heq⟩ := Option.map_eq_some_iff.mp h
    cases heq
    obtain ⟨p, hp, hv⟩ := List.exists_of_findSome?_eq_some hx
    exact ⟨p, hp, virtualExpressionOf_eq_some hv⟩
  · next table column _ =>
    obtain ⟨x, hx, heq⟩ := Option.map_eq_some_iff.mp h
    cases heq
    obtain ⟨t, ht, hv⟩ := Option.bind_eq_some_iff.mp hx
    exact ⟨(table, t), JsMap.mem_of_get ht, virtualExpressionOf_eq_some hv⟩
  · cases h

/-- 文脈から引いた column の式は、schema に書かれたものである。 -/
theorem Scoped.schemaText {s : PrinterState} (hs : Scoped ctx s) {p : String × TableSchema}
    (hp : p ∈ s.tableContexts) {k : String} {c : ColumnSchema} (hc : p.2.columns.get k = some c)
    {x : String} (hx : c.expression = some x ∨ c.nullValue = some x) : SchemaText ctx x :=
  ⟨p.2, hs p hp, .inr ⟨c, List.mem_map_of_mem (f := Prod.snd) (Record.mem_of_get hc), hx⟩⟩

/-! ## 各 visitor の雛形 -/

theorem unit_mem_keywords (fromTime toTime : Int) :
    (calculateTimeBucketInterval fromTime toTime).2 ∈ keywords := by
  have hall : ∀ b ∈ bucketThresholds, b.2.2 ∈ keywords := by decide
  unfold calculateTimeBucketInterval
  split
  · next b hb => exact hall b (List.mem_of_find?_eq_some hb)
  · decide

section Visitors

variable (hE : Emission ctx H T) {s : PrinterState} (hs : Scoped ctx s)
include hE

include hs in
theorem templateOk_visitField (chain : Chain) : TemplateOk H T (visitField ctx s chain) := by
  unfold visitField
  split
  · exact templateOk_failWith
  · exact hE.kw (by decide)
  · exact templateOk_append.mpr ⟨hE.printIdentifier _, hE.kw (by decide)⟩
  · dsimp only
    split
    · exact hE.printResolved _
    · split
      · next name expression hv =>
        split
        · exact hE.printIdentifier _
        · obtain ⟨p, hp, c, hc, hx⟩ := getVirtualColumn_eq_some hv
          simp only [templateOk_append, templateOk_cons, templateOk_nil, and_true]
          exact ⟨⟨hE.kw (by decide), hE.schema (hs.schemaText hp hc (.inl hx))⟩, hE.kw (by decide)⟩
      · split
        · exact templateOk_failWith
        · refine templateOk_append.mpr ⟨hE.printChain _, ?_⟩
          split
          · exact hE.kw (by decide)
          · exact templateOk_nil

theorem Emission.transform (column : Option ColumnRef) {e : Expr} (he : H e) :
    H (transformValueMapExpression ctx column e) := by
  unfold transformValueMapExpression
  split
  · split
    · exact hE.mapStrings _ he
    · exact he
  · exact he

theorem templateOk_compareLeft (op : CompareOp) {left : Expr} (hl : H left) :
    TemplateOk H T (compareLeft s op left) := by
  unfold compareLeft
  dsimp only
  split
  · exact templateOk_visitOne.mpr hl
  · split
    · split
      · exact templateOk_append.mpr ⟨templateOk_append.mpr ⟨hE.printIdentifier _,
          hE.kw (by decide)⟩, hE.printIdentifier _⟩
      · exact hE.printIdentifier _
    · exact hE.printIdentifier _

theorem templateOk_compareCall {before middle after : String} {l r : Template}
    (hb : before ∈ keywords) (hm : middle ∈ keywords) (ha : after ∈ keywords)
    (hl : TemplateOk H T l) (hr : TemplateOk H T r) :
    TemplateOk H T (compareCall before l middle r after) := by
  unfold compareCall
  simp only [templateOk_append, templateOk_kw]
  exact ⟨⟨⟨⟨hE.keyword _ hb, hl⟩, hE.keyword _ hm⟩, hr⟩, hE.keyword _ ha⟩

include hs in
theorem templateOk_compareNull {equalsName nullName : String} {side : Template} {e : Expr}
    (he : equalsName ∈ keywords) (hn : nullName ∈ keywords) (hside : TemplateOk H T side) :
    TemplateOk H T (compareNull equalsName nullName side (extractColumnSchema s.tableContexts e)) := by
  unfold compareNull
  split
  · next nullValue hv =>
    obtain ⟨c, hc, hx⟩ := Option.bind_eq_some_iff.mp hv
    obtain ⟨ref, href, hown⟩ := Option.bind_eq_some_iff.mp hc
    have hschema : SchemaText ctx nullValue := by
      cases ref with
      | inherited => cases hown
      | own c' =>
        cases hown
        cases e with
        | field chain =>
          obtain ⟨p, hp, k, hk⟩ := resolveFieldToColumnSchema_own href
          exact hs.schemaText hp hk (.inr (truthy_eq_some hx))
        | _ => cases href
    simp only [templateOk_append, templateOk_kw, templateOk_cons, templateOk_nil, and_true]
    exact ⟨⟨⟨⟨hE.keyword _ he, hside⟩, hE.keyword _ (by decide)⟩, hE.schema hschema⟩,
      hE.keyword _ (by decide)⟩
  · simp only [templateOk_append, templateOk_kw]
    exact ⟨⟨hE.keyword _ hn, hside⟩, hE.keyword _ (by decide)⟩

include hs in
theorem templateOk_visitCompareOperation (op : CompareOp) {left right : Expr} (hl : H left)
    (hr : H right) : TemplateOk H T (visitCompareOperation ctx s op left right) := by
  have hleft := templateOk_compareLeft hE (s := s) op hl
  have hright : TemplateOk H T (visitOne (transformValueMapExpression ctx
      (extractColumnSchema s.tableContexts left) right)) :=
    templateOk_visitOne.mpr (hE.transform _ hr)
  unfold visitCompareOperation
  cases op with
  | eq | notEq =>
    dsimp only
    split
    · exact templateOk_compareNull hE hs (by decide) (by decide) hleft
    · split
      · exact templateOk_compareNull hE hs (by decide) (by decide) hright
      · exact templateOk_compareCall hE (by decide) (by decide) (by decide) hleft hright
  | inCohort | notInCohort =>
    exact templateOk_append.mpr ⟨templateOk_append.mpr ⟨hleft, hright⟩, templateOk_failWith⟩
  | _ => exact templateOk_compareCall hE (by decide) (by decide) (by decide) hleft hright

theorem templateOk_visitConstant (v : Value) : TemplateOk H T (visitConstant v) := by
  unfold visitConstant
  split
  case h_7 => exact templateOk_cons.mpr ⟨hE.number _, templateOk_nil⟩
  case h_8 => exact templateOk_cons.mpr ⟨fun n => hE.param n _, templateOk_nil⟩
  all_goals exact hE.kw (by decide)

theorem templateOk_visitWindowFrameExpr {f : WindowFrameExpr} (hf : H (.windowFrame f)) :
    TemplateOk H T (visitWindowFrameExpr f) := by
  unfold visitWindowFrameExpr
  split
  · exact hE.kw (by decide)
  · split
    · simp only [templateOk_cons, templateOk_nil, and_true]
      exact ⟨hE.number _, hE.keyword _ (by decide), hE.frameType hf⟩
    · simp only [templateOk_cons, templateOk_nil, and_true]
      exact ⟨hE.keyword _ (by decide), hE.frameType hf⟩

theorem templateOk_visitWindowExpr {w : WindowExpr} (hw : ∀ c ∈ w.children, H c) :
    TemplateOk H T (visitWindowExpr w) := by
  have hpartition : ∀ e ∈ w.partitionBy, H e := fun e he => hw e (by simp [WindowExprOf.children, he])
  have horder : ∀ e ∈ w.orderBy, H e := fun e he => hw e (by simp [WindowExprOf.children, he])
  refine templateOk_joinTemplates (hE.keyword _ (by decide)) fun t ht => ?_
  rcases List.mem_append.mp ht with ht | ht
  · rcases List.mem_append.mp ht with ht | ht
    · split at ht
      · cases ht
      · rw [List.mem_singleton.mp ht]
        exact templateOk_append.mpr ⟨hE.kw (by decide),
          templateOk_visitAll (hE.keyword _ (by decide)) hpartition⟩
    · split at ht
      · cases ht
      · rw [List.mem_singleton.mp ht]
        exact templateOk_append.mpr ⟨hE.kw (by decide),
          templateOk_visitAll (hE.keyword _ (by decide)) horder⟩
  · have hmethod : ∀ m : FrameMethod, m.text ∈ keywords := by
      intro m; cases m <;> decide
    split at ht
    · next method start _ hstart =>
      have hs : H (.windowFrame start) := hw _ (by simp [WindowExprOf.children, hstart])
      split at ht
      · next stop hstop =>
        have he : H (.windowFrame stop) := hw _ (by simp [WindowExprOf.children, hstop])
        rw [List.mem_singleton.mp ht]
        simp only [templateOk_append, templateOk_kw, templateOk_visitOne]
        exact ⟨⟨⟨⟨hE.keyword _ (hmethod method), hE.keyword _ (by decide)⟩, hs⟩,
          hE.keyword _ (by decide)⟩, he⟩
      · rw [List.mem_singleton.mp ht]
        simp only [templateOk_append, templateOk_kw, templateOk_visitOne]
        exact ⟨hE.keyword _ (hmethod method), hs⟩
    · cases ht

theorem templateOk_visitWindowFunction {name : String} {args exprs : List Expr}
    {overIdentifier : Option String} {overExpr : Option WindowExpr}
    (h : H (.windowFunction name args exprs overIdentifier overExpr)) :
    TemplateOk H T (visitWindowFunction name args overIdentifier overExpr) := by
  have hargs : ∀ e ∈ args, H e := fun e he => hE.child h (by simp [Expr.children, he])
  have hcall : TemplateOk H T (([.text (.verbatim name), .text (.keyword "(")] : Template) ++
      visitAll ", " args ++ kw ")") := by
    simp only [templateOk_append, templateOk_kw, templateOk_cons, templateOk_nil, and_true]
    exact ⟨⟨⟨hE.windowFunction h, hE.keyword _ (by decide)⟩,
      templateOk_visitAll (hE.keyword _ (by decide)) hargs⟩, hE.keyword _ (by decide)⟩
  unfold visitWindowFunction
  dsimp only
  split
  · exact templateOk_append.mpr ⟨templateOk_append.mpr ⟨hcall, hE.kw (by decide)⟩,
      hE.printIdentifier _⟩
  · split
    · next w =>
      have hw : H (.windowExpr w) := hE.child h (by simp [Expr.children])
      simp only [templateOk_append, templateOk_kw, templateOk_visitOne] at hcall ⊢
      exact ⟨⟨⟨hcall, hE.keyword _ (by decide)⟩, hw⟩, hE.keyword _ (by decide)⟩
    · exact hcall

theorem templateOk_visitRatioExpr (r : RatioExpr) : TemplateOk H T (visitRatioExpr r) := by
  have hleft : TemplateOk H T (visitOptional r.left) := by
    unfold visitOptional
    split
    · exact templateOk_visitOne.mpr (hE.constant _)
    · exact templateOk_nil
  unfold visitRatioExpr
  split
  · exact templateOk_append.mpr ⟨templateOk_append.mpr ⟨hleft, hE.kw (by decide)⟩,
      templateOk_visitOne.mpr (hE.constant _)⟩
  · exact hleft

theorem templateOk_visitSampleExpr (sample : SampleExpr) :
    TemplateOk H T (visitSampleExpr sample) := by
  unfold visitSampleExpr
  split
  · exact templateOk_append.mpr ⟨templateOk_append.mpr ⟨templateOk_append.mpr
      ⟨hE.kw (by decide), templateOk_visitRatioExpr hE _⟩, hE.kw (by decide)⟩,
      templateOk_visitRatioExpr hE _⟩
  · exact templateOk_append.mpr ⟨hE.kw (by decide), templateOk_visitRatioExpr hE _⟩

theorem templateOk_visitTimeBucket (args : List Expr) :
    TemplateOk H T (visitTimeBucket ctx s args) := by
  unfold visitTimeBucket
  split
  · exact templateOk_failWith
  · split
    · exact templateOk_failWith
    · split
      · exact templateOk_failWith
      · next fromTime toTime _ =>
        dsimp only
        split
        · exact templateOk_failWith
        · simp only [templateOk_append, templateOk_kw, templateOk_cons, templateOk_nil, and_true]
          exact ⟨⟨⟨⟨⟨⟨hE.keyword _ (by decide), hE.printIdentifier _⟩, hE.keyword _ (by decide)⟩,
            hE.number _⟩, hE.keyword _ (by decide)⟩,
            hE.keyword _ (unit_mem_keywords fromTime toTime)⟩, hE.keyword _ (by decide)⟩

theorem templateOk_visitDict {items : List (Expr × Expr)}
    (hitems : ∀ i ∈ items, H i.1 ∧ H i.2) : TemplateOk H T (visitDict items) := by
  refine templateOk_append.mpr ⟨templateOk_append.mpr ⟨hE.kw (by decide), ?_⟩, hE.kw (by decide)⟩
  intro a ha
  obtain ⟨i, hi, ha⟩ := List.mem_flatMap.mp ha
  have hitem : TemplateOk H T (kw ", " ++ visitOne i.1 ++ kw ", " ++ visitOne i.2) := by
    simp only [templateOk_append, templateOk_kw, templateOk_visitOne]
    exact ⟨⟨⟨hE.keyword _ (by decide), (hitems i hi).1⟩, hE.keyword _ (by decide)⟩, (hitems i hi).2⟩
  exact hitem a ha

theorem templateOk_visitTupleAccess {e : Expr} (he : H e) (index : Number) :
    TemplateOk H T (visitTupleAccess e index) := by
  unfold visitTupleAccess
  split <;> simp only [templateOk_append, templateOk_kw, templateOk_cons, templateOk_nil,
    templateOk_visitOne, and_true]
  · exact ⟨⟨he, hE.keyword _ (by decide)⟩, hE.number _⟩
  · exact ⟨⟨⟨hE.keyword _ (by decide), he⟩, hE.keyword _ (by decide)⟩, hE.number _⟩

theorem templateOk_visitLambda (args : List String) {e : Expr} (he : H e) :
    TemplateOk H T (visitLambda args e) := by
  have hbody : TemplateOk H T (visitOne e) := templateOk_visitOne.mpr he
  unfold visitLambda
  split
  · exact templateOk_failWith
  · exact templateOk_append.mpr ⟨templateOk_append.mpr ⟨hE.printIdentifier _, hE.kw (by decide)⟩,
      hbody⟩
  · refine templateOk_append.mpr ⟨templateOk_append.mpr ⟨templateOk_append.mpr
      ⟨templateOk_append.mpr ⟨hE.kw (by decide), ?_⟩, hE.kw (by decide)⟩, hE.kw (by decide)⟩, hbody⟩
    refine templateOk_joinTemplates (hE.keyword _ (by decide)) fun t ht => ?_
    obtain ⟨arg, -, rfl⟩ := List.mem_map.mp ht
    exact hE.printIdentifier arg

theorem templateOk_bracketed {before after : String} {es : List Expr} (hb : before ∈ keywords)
    (ha : after ∈ keywords) (hes : ∀ e ∈ es, H e) :
    TemplateOk H T (kw before ++ visitAll ", " es ++ kw after) :=
  templateOk_append.mpr ⟨templateOk_append.mpr ⟨hE.kw hb,
    templateOk_visitAll (hE.keyword _ (by decide)) hes⟩, hE.kw ha⟩

include hs in
/-- 雛形で書ける節は、どれも条件を守る。 -/
theorem templateOk_exprTemplate {e : Expr} (he : H e) : TemplateOk H T (exprTemplate ctx s e) := by
  have hc : ∀ {c}, c ∈ e.children → H c := fun h => hE.child he h
  cases e with
  | cte e | placeholder e | joinConstraint _ e =>
    exact templateOk_visitOne.mpr (hc List.mem_cons_self)
  | «alias» e name hidden =>
    simp only [exprTemplate, visitAlias]
    split <;> simp only [templateOk_append, templateOk_kw, templateOk_visitOne]
    · exact hc List.mem_cons_self
    · exact ⟨⟨hc List.mem_cons_self, hE.keyword _ (by decide)⟩, hE.printIdentifier _⟩
  | arithmetic op left right =>
    have hname : op.name ++ "(" ∈ keywords := by cases op <;> decide
    exact templateOk_compareCall hE hname (by decide) (by decide)
      (templateOk_visitOne.mpr (hc (by simp [Expr.children])))
      (templateOk_visitOne.mpr (hc (by simp [Expr.children])))
  | compare op left right =>
    exact templateOk_visitCompareOperation hE hs op (hc (by simp [Expr.children]))
      (hc (by simp [Expr.children]))
  | between e low high negated =>
    have hnot : (if negated then " NOT" else "") ∈ keywords := by cases negated <;> decide
    simp only [exprTemplate, visitBetweenExpr, templateOk_append, templateOk_kw,
      templateOk_visitOne]
    exact ⟨⟨⟨⟨⟨hc (by simp [Expr.children]), hE.keyword _ hnot⟩, hE.keyword _ (by decide)⟩,
      hc (by simp [Expr.children])⟩, hE.keyword _ (by decide)⟩, hc (by simp [Expr.children])⟩
  | order e descending =>
    have hdir : (if descending then " DESC" else " ASC") ∈ keywords := by cases descending <;> decide
    exact templateOk_append.mpr ⟨templateOk_visitOne.mpr (hc List.mem_cons_self), hE.kw hdir⟩
  | arrayAccess array property =>
    simp only [exprTemplate, visitArrayAccess, templateOk_append, templateOk_kw,
      templateOk_visitOne]
    exact ⟨⟨⟨hc (by simp [Expr.children]), hE.keyword _ (by decide)⟩, hc (by simp [Expr.children])⟩,
      hE.keyword _ (by decide)⟩
  | array es => exact templateOk_bracketed hE (by decide) (by decide) fun e he => hc he
  | tuple es => exact templateOk_bracketed hE (by decide) (by decide) fun e he => hc he
  | dict items =>
    exact templateOk_visitDict hE fun i hi =>
      ⟨hc (List.mem_flatMap.mpr ⟨i, hi, by simp⟩), hc (List.mem_flatMap.mpr ⟨i, hi, by simp⟩)⟩
  | tupleAccess e index => exact templateOk_visitTupleAccess hE (hc List.mem_cons_self) index
  | lambda args e => exact templateOk_visitLambda hE args (hc List.mem_cons_self)
  | constant v => exact templateOk_visitConstant hE v
  | field chain => exact templateOk_visitField hE hs chain
  | windowFrame f => exact templateOk_visitWindowFrameExpr hE he
  | windowExpr w => exact templateOk_visitWindowExpr hE fun c h => hc h
  | windowFunction name args exprs o w => exact templateOk_visitWindowFunction hE he
  | ratio r => exact templateOk_visitRatioExpr hE r
  | sample sample => exact templateOk_visitSampleExpr hE sample
  -- 残りの節は印字されない
  | _ => exact templateOk_failWith

end Visitors

end Tsql
