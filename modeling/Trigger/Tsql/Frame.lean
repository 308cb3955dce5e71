import Trigger.Tsql.Emission

/-!
# visit が保つもの

`visit` の前後で、stack と、いまの SELECT 文の文脈（table、別名、内部用の column、GROUP BY の有無）は
変わらない（`Frame`）。射影と GROUP BY の flag だけは、入れ子の SELECT を通ると下りる。

同じ帰納で、出力の木についての性質も運ぶ。印字してよい構文木と断片の条件（`Emission`）と、木の作り方で
閉じた性質（`Closed`）から、各 visitor の出力がその性質を持つことを一度だけ示す。
-/

namespace Tsql

open Infra

/-! ## 文脈の保存 -/

/-- `visit` の前後の状態の関係。 -/
structure Frame (s s' : PrinterState) : Prop where
  stack : s'.stack = s.stack
  tableContexts : s'.tableContexts = s.tableContexts
  selectAliases : s'.selectAliases = s.selectAliases
  allowedInternalColumns : s'.allowedInternalColumns = s.allowedInternalColumns
  internalOnlyColumns : s'.internalOnlyColumns = s.internalOnlyColumns
  queryHasGroupBy : s'.queryHasGroupBy = s.queryHasGroupBy
  inProjectionContext : s'.inProjectionContext = true → s.inProjectionContext = true
  inGroupByContext : s'.inGroupByContext = true → s.inGroupByContext = true
  values : s.values <+: s'.values

theorem Frame.refl (s : PrinterState) : Frame s s :=
  ⟨rfl, rfl, rfl, rfl, rfl, rfl, id, id, List.prefix_refl _⟩

theorem Frame.trans {s₁ s₂ s₃ : PrinterState} (h : Frame s₁ s₂) (h' : Frame s₂ s₃) :
    Frame s₁ s₃ :=
  ⟨h'.stack.trans h.stack, h'.tableContexts.trans h.tableContexts,
    h'.selectAliases.trans h.selectAliases,
    h'.allowedInternalColumns.trans h.allowedInternalColumns,
    h'.internalOnlyColumns.trans h.internalOnlyColumns,
    h'.queryHasGroupBy.trans h.queryHasGroupBy,
    fun hp => h.inProjectionContext (h'.inProjectionContext hp),
    fun hg => h.inGroupByContext (h'.inGroupByContext hg), h.values.trans h'.values⟩

/-- FROM の印字の前後の関係。table の文脈は増える。 -/
structure FromFrame (ctx : PrinterContext) (s s' : PrinterState) : Prop where
  stack : s'.stack = s.stack
  inProjectionContext : s'.inProjectionContext = true → s.inProjectionContext = true
  inGroupByContext : s'.inGroupByContext = true → s.inGroupByContext = true
  values : s.values <+: s'.values
  scope : Scoped ctx s → Scoped ctx s'

theorem FromFrame.refl (ctx : PrinterContext) (s : PrinterState) : FromFrame ctx s s :=
  ⟨rfl, id, id, List.prefix_refl _, id⟩

theorem FromFrame.trans {ctx : PrinterContext} {s₁ s₂ s₃ : PrinterState}
    (h : FromFrame ctx s₁ s₂) (h' : FromFrame ctx s₂ s₃) : FromFrame ctx s₁ s₃ :=
  ⟨h'.stack.trans h.stack, fun hp => h.inProjectionContext (h'.inProjectionContext hp),
    fun hg => h.inGroupByContext (h'.inGroupByContext hg), h.values.trans h'.values,
    fun hs => h'.scope (h.scope hs)⟩

theorem Frame.scoped {ctx : PrinterContext} {s s' : PrinterState} (h : Frame s s')
    (hs : Scoped ctx s) : Scoped ctx s' := by
  rw [Scoped, h.tableContexts]
  exact hs

theorem Frame.fromFrame {ctx : PrinterContext} {s s' : PrinterState} (h : Frame s s') :
    FromFrame ctx s s' :=
  ⟨h.stack, h.inProjectionContext, h.inGroupByContext, h.values, h.scoped⟩

theorem stable_frame (ctx : PrinterContext) : Stable (Scoped ctx) Frame :=
  ⟨Frame.refl, Frame.trans, fun hs h => h.scoped hs⟩

theorem stable_fromFrame (ctx : PrinterContext) : Stable (Scoped ctx) (FromFrame ctx) :=
  ⟨FromFrame.refl ctx, FromFrame.trans, fun hs h => h.scope hs⟩

/-- 木の作り方で閉じた性質。 -/
structure Closed (T : Piece → Prop) (P : Sql → Prop) : Prop where
  text : ∀ {p}, T p → P (.text p)
  seq : ∀ {l}, (∀ t ∈ l, P t) → P (.seq l)
  and : ∀ {l}, (∀ t ∈ l, P t) → P (.and l)
  or : ∀ {l}, (∀ t ∈ l, P t) → P (.or l)
  not : ∀ {t}, P t → P (.not t)
  clause : ∀ {c t}, P t → P (.clause c t)
  trim : ∀ {t}, P t → P (.trim t)

/-- 出力についての約束。成功した `m` は文脈を保ち、結果は `Q` である。 -/
abbrev Keeps {α : Type} (ctx : PrinterContext) (Q : α → Prop) (m : M α) : Prop :=
  Spec (Scoped ctx) Frame Q m

section Visitors

variable {ctx : PrinterContext} {H : Expr → Prop} {T : Piece → Prop} {P : Sql → Prop}
  {visit : Expr → M Sql}
variable (hE : Emission ctx H T) (hC : Closed T P) (hv : ∀ e, H e → Keeps ctx P (visit e))

/-! ## 雛形の実行 -/

include hC in
theorem keeps_addValue {v : Value} (h : ∀ n, T (.param n v)) : Keeps ctx P (addValue v) := by
  intro s t s' _ hm
  obtain ⟨_, _, hg, hm⟩ := StateE.bind_eq_ok.mp hm
  obtain ⟨rfl, rfl⟩ := StateE.get_eq_ok.mp hg
  obtain ⟨_, _, hmod, hm⟩ := StateE.bind_eq_ok.mp hm
  rw [StateE.modify_eq_ok] at hmod
  subst hmod
  obtain ⟨rfl, rfl⟩ := StateE.pure_eq_ok.mp hm
  exact ⟨⟨rfl, rfl, rfl, rfl, rfl, rfl, id, id, List.prefix_append _ _⟩, hC.text (h _)⟩

include hC hv in
theorem keeps_runTemplate {t : Template} (ht : TemplateOk H T t) :
    Keeps ctx (fun ts => ∀ u ∈ ts, P u) (runTemplate visit t) := by
  have hF := stable_frame ctx
  induction t with
  | nil => exact Spec.pure hF fun _ h => by cases h
  | cons a rest ih =>
    obtain ⟨ha, hrest⟩ := templateOk_cons.mp ht
    have hatom : Keeps ctx P (runAtom visit a) := by
      cases a with
      | text p => exact Spec.pure hF (hC.text ha)
      | value v => exact keeps_addValue hC ha
      | visit e => exact hv e ha
      | fail e => exact Spec.throw e
    refine Spec.bind hF hatom fun u hu => ?_
    refine Spec.bind hF (ih hrest) fun us hus => Spec.pure hF ?_
    exact List.forall_mem_cons.mpr ⟨hu, hus⟩

include hC hv in
theorem keeps_run {t : Template} (ht : TemplateOk H T t) : Keeps ctx P (run visit t) :=
  Spec.map (stable_frame ctx) (keeps_runTemplate hC hv ht) fun _ h => hC.seq h

include hE hC in
theorem Closed.kw {s : String} (hs : s ∈ keywords) : P (.kw s) := hC.text (hE.keyword s hs)

/-! ## 論理演算 -/

include hE hC hv in
theorem keeps_connectiveLoop (conj : Bool) {es : List Expr} (hes : ∀ e ∈ es, H e) :
    ∀ {acc : List Sql}, (∀ t ∈ acc, P t) → Keeps ctx P (connectiveLoop visit conj es acc) := by
  have hF := stable_frame ctx
  have hbit : ∀ b, P (.kw (bit b)) := fun b => Closed.kw hE hC (by cases b <;> decide)
  induction es with
  | nil =>
    intro acc hacc
    match acc with
    | [] => exact Spec.pure hF (hbit conj)
    | [t] => exact Spec.pure hF (hacc t List.mem_cons_self)
    | _ :: _ :: _ =>
      refine Spec.pure hF ?_
      cases conj with
      | true => exact hC.and hacc
      | false => exact hC.or hacc
  | cons e rest ih =>
    intro acc hacc
    obtain ⟨he, hrest⟩ := List.forall_mem_cons.mp hes
    refine Spec.bind hF (hv e he) fun printed hp => ?_
    split
    · exact Spec.pure hF (hbit _)
    · split
      · exact ih hrest hacc
      · exact ih hrest (List.forall_mem_append.mpr ⟨hacc, by simpa using hp⟩)

include hE hC hv in
theorem keeps_visitConnective (conj : Bool) {es : List Expr} (hes : ∀ e ∈ es, H e) :
    Keeps ctx P (visitConnective visit conj es) := by
  match es with
  | [e] => exact hv e (hes e List.mem_cons_self)
  | [] => exact keeps_connectiveLoop hE hC hv conj hes fun _ h => by cases h
  | _ :: _ :: _ => exact keeps_connectiveLoop hE hC hv conj hes fun _ h => by cases h

/-! ## 関数呼び出し -/

include hE hC hv in
theorem keeps_visitFunctionCall {f : FunctionMeta} (hf : T (functionPiece f)) {args : List Expr}
    {params : Option (List Expr)} (hargs : ∀ e ∈ args, H e)
    (hparams : ∀ es, params = some es → ∀ e ∈ es, H e) (distinct : Bool) :
    Keeps ctx P (visitFunctionCall visit f args params distinct) := by
  have hF := stable_frame ctx
  have hcomma : T (.keyword ", ") := hE.keyword _ (by decide)
  refine Spec.bind hF (keeps_run hC hv (templateOk_visitAll hcomma hargs)) fun a ha => ?_
  have hp : TemplateOk H T (paramsTemplate params) := by
    cases params with
    | none => exact templateOk_nil
    | some es => exact templateOk_bracketed hE (by decide) (by decide) (hparams es rfl)
  refine Spec.bind hF (keeps_run hC hv hp) fun p hp => Spec.pure hF (hC.seq ?_)
  have hd : P (.kw (if distinct then "DISTINCT " else "")) :=
    Closed.kw hE hC (by cases distinct <;> decide)
  simp only [List.forall_mem_cons]
  exact ⟨hC.text hf, hp, Closed.kw hE hC (by decide), hd, ha, Closed.kw hE hC (by decide),
    fun _ h => by cases h⟩

include hE in
theorem templateOk_visitComparisonCall {s : PrinterState} (hs : Scoped ctx s) (name : String)
    {args : List Expr} (hargs : ∀ e ∈ args, H e) :
    TemplateOk H T (visitComparisonCall ctx s name args) := by
  unfold visitComparisonCall
  split
  · next left right =>
    have hl : H left := hargs left (by simp)
    have hr : H right := hargs right (by simp)
    split
    · exact templateOk_visitCompareOperation hE hs _ hl hr
    · exact templateOk_append.mpr ⟨templateOk_append.mpr ⟨templateOk_visitOne.mpr hl,
        templateOk_visitOne.mpr (hE.transform _ hr)⟩, templateOk_failWith⟩
  · exact templateOk_failWith

include hE hC hv in
theorem keeps_visitCall {name : String} {args : List Expr} {params : Option (List Expr)}
    {distinct : Bool} (h : H (.call name args params distinct)) :
    Keeps ctx P (visitCall ctx visit name args params distinct) := by
  have hargs : ∀ e ∈ args, H e := fun e he => hE.child h (by simp [Expr.children, he])
  have hparams : ∀ es, params = some es → ∀ e ∈ es, H e := fun es hes e he =>
    hE.child h (by simp [Expr.children, hes, he])
  refine Spec.get fun s hs => ?_
  split
  · exact keeps_run hC hv (templateOk_visitTimeBucket hE args)
  · split
    · exact keeps_run hC hv (templateOk_visitComparisonCall hE hs name hargs)
    · split
      · next f hf =>
        split
        · exact Spec.throw _
        · split
          · exact Spec.throw _
          · exact keeps_visitFunctionCall hE hC hv (hE.function h (.inl hf)) hargs hparams distinct
      · split
        · next f hf =>
          split
          · exact Spec.throw _
          · exact keeps_visitFunctionCall hE hC hv (hE.function h (.inr hf)) hargs hparams false
        · exact Spec.throw _

/-! ## LIMIT BY -/

include hE hC hv in
theorem keeps_visitLimitBy {l : LimitByExpr} (hl : ∀ c ∈ l.children, H c) :
    Keeps ctx P (visitLimitBy visit l) := by
  have hF := stable_frame ctx
  have hcomma : T (.keyword ", ") := hE.keyword _ (by decide)
  have hexprs : ∀ e ∈ l.exprs, H e := fun e he => hl e (by simp [LimitByExprOf.children, he])
  refine Spec.bind hF (keeps_run hC hv (templateOk_visitAll hcomma hexprs)) fun exprs he => ?_
  have hoffset : TemplateOk H T (offsetTemplate l.offsetValue) := by
    unfold offsetTemplate
    split
    · next offset ho =>
      exact templateOk_append.mpr ⟨hE.kw (by decide),
        templateOk_visitOne.mpr (hl _ (by simp [LimitByExprOf.children, ho]))⟩
    · exact templateOk_nil
  refine Spec.bind hF (keeps_run hC hv hoffset) fun offset ho => ?_
  refine Spec.bind hF (hv l.n (hl _ (by simp [LimitByExprOf.children]))) fun n hn => ?_
  refine Spec.pure hF (hC.seq ?_)
  simp only [List.forall_mem_cons]
  exact ⟨hn, ho, Closed.kw hE hC (by decide), he, fun _ h => by cases h⟩

/-! ## FROM -/

/-- 印字した FROM の項と、その guard についての約束。 -/
abbrev KeepsFrom {α : Type} (ctx : PrinterContext) (Q : α → Prop) (m : M α) : Prop :=
  Spec (Scoped ctx) (FromFrame ctx) Q m

theorem Keeps.fromFrame {α : Type} {Q Q' : α → Prop} {m : M α} (h : Keeps ctx Q m)
    (hQ : ∀ a, Q a → Q' a) : KeepsFrom ctx Q' m :=
  Spec.mono h (fun _ _ => Frame.fromFrame) hQ

/-- 登録した table も schema の table である。 -/
theorem fromFrame_registerTable {t : TableSchema} (ht : t ∈ ctx.tables.values) (a : String)
    (s : PrinterState) : FromFrame ctx s (registerTable t a s) := by
  refine ⟨rfl, id, id, List.prefix_refl _, fun hs p hp => ?_⟩
  rcases JsMap.mem_set hp with hp | ⟨-, heq⟩
  · exact hs p hp
  · rw [heq]; exact ht

include hE in
theorem Emission.enforcedGuard {t : TableSchema} (ht : t ∈ ctx.tables.values) {a : String}
    {g : Expr} (hg : createEnforcedGuard ctx t a = some g) : H g := by
  have hall : ∀ g ∈ enforcedGuards ctx t a, H g := fun g hg => hE.guard ht hg
  unfold createEnforcedGuard at hg
  split at hg
  · cases hg
  · next guard heq => cases hg; exact hall _ (by rw [heq]; exact List.mem_cons_self)
  · cases hg; exact hE.and hall

include hE in
theorem Emission.addGuard {guard condition : Option Expr} (hg : ∀ e ∈ guard, H e)
    (hc : ∀ e ∈ condition, H e) : ∀ e ∈ addGuard guard condition, H e := by
  intro e he
  unfold Tsql.addGuard at he
  split at he
  · exact hc e he
  · exact hg e he
  · next g exprs =>
    cases he
    refine hE.and (List.forall_mem_cons.mpr ⟨hg g rfl, fun e' he' => ?_⟩)
    exact hE.child (hc _ rfl) he'
  · next g e' _ =>
    cases he
    exact hE.and (by simpa using ⟨hg g rfl, hc e' rfl⟩)

include hE hC hv in
theorem keeps_visitTableReference (j : JoinExpr) (chain : Chain) :
    KeepsFrom ctx (fun p => P p.1 ∧ ∀ g ∈ p.2, H g) (visitTableReference ctx visit j chain) := by
  have hF := stable_fromFrame ctx
  unfold visitTableReference
  split
  · dsimp only
    split
    · split
      · refine Spec.bind hF ((keeps_run hC hv (hE.printIdentifier _)).fromFrame fun _ h => h)
          fun _ _ => Spec.throw _
      · exact Spec.throw _
    · next t ht =>
      have hmem : t ∈ ctx.tables.values := List.mem_map_of_mem (f := Prod.snd) (Record.mem_of_get ht)
      split
      · exact Spec.throw _
      · have htemplate : ∀ a, TemplateOk H T (([.text (.schema t.clickhouseName),
            .text (.keyword " AS ")] : Template) ++ printIdentifier a) := by
          intro a
          simp only [templateOk_append, templateOk_cons, templateOk_nil, and_true]
          exact ⟨⟨hE.schema ⟨t, hmem, .inl rfl⟩, hE.keyword _ (by decide)⟩, hE.printIdentifier a⟩
        refine Spec.bind hF ((keeps_run hC hv (htemplate _)).fromFrame fun _ h => h) fun p hp => ?_
        refine Spec.bind hF (Spec.modify fun s _ => fromFrame_registerTable hmem _ s) fun _ _ => ?_
        exact Spec.pure hF ⟨hp, fun g hg => hE.enforcedGuard hmem hg⟩
  · exact Spec.throw _

include hE hC hv in
theorem keeps_visitTable {j : JoinExpr} (hj : ∀ c ∈ j.children, H c) :
    KeepsFrom ctx (fun p => (∀ t ∈ p.1, P t) ∧ ∀ g ∈ p.2, H g) (visitTable ctx visit j) := by
  have hF := stable_fromFrame ctx
  unfold visitTable
  split
  · exact Spec.pure hF ⟨by simp, by simp⟩
  · refine Spec.bind hF (keeps_visitTableReference hE hC hv j _) fun p hp => ?_
    exact Spec.pure hF ⟨by simpa using hp.1, hp.2⟩
  · next e _ he =>
    have hH : H e := hj e (by simp [JoinExprOf.children, he])
    have hvisit : KeepsFrom ctx (fun p => (∀ t ∈ p.1, P t) ∧ ∀ g ∈ p.2, H g)
        (visit e >>= fun printed => pure ([printed], (none : Option Expr))) := by
      refine Spec.bind hF ((hv e hH).fromFrame fun _ h => h) fun t ht => Spec.pure hF ?_
      exact ⟨by simpa using ht, fun _ h => by cases h⟩
    split
    · exact hvisit
    · exact hvisit
    · exact hvisit
    · exact Spec.throw _

include hE in
theorem templateOk_joinTail {j : JoinExpr} (hj : ∀ c ∈ j.children, H c) :
    ∀ t ∈ joinTail j, TemplateOk H T t := by
  intro t ht
  unfold joinTail at ht
  rcases List.mem_append.mp ht with ht | ht
  · rcases List.mem_append.mp ht with ht | ht
    · rcases List.mem_append.mp ht with ht | ht
      · split at ht
        · rw [List.mem_singleton.mp ht]
          exact templateOk_append.mpr ⟨hE.kw (by decide), hE.printIdentifier _⟩
        · cases ht
      · split at ht
        · rw [List.mem_singleton.mp ht]
          exact hE.kw (by decide)
        · cases ht
    · obtain ⟨sample, -, rfl⟩ := List.mem_map.mp ht
      exact templateOk_visitSampleExpr hE sample
  · obtain ⟨⟨ct, e⟩, hc, rfl⟩ := List.mem_map.mp ht
    have hct : ct.text ∈ keywords := by cases ct <;> decide
    refine templateOk_append.mpr ⟨hE.kw hct, templateOk_visitOne.mpr (hj _ ?_)⟩
    simp only [JoinExprOf.children, List.mem_append, List.mem_map]
    exact .inl (.inr ⟨(ct, e), hc, rfl⟩)

theorem mem_spaced {t : Sql} : ∀ {l : List Sql}, t ∈ spaced l → t ∈ l ∨ t = .kw " "
  | [], h => by cases h
  | [_], h => .inl h
  | u :: u' :: l, h => by
    have h : t ∈ u :: .kw " " :: spaced (u' :: l) := h
    rcases List.mem_cons.mp h with rfl | h
    · exact .inl List.mem_cons_self
    · rcases List.mem_cons.mp h with rfl | h
      · exact .inr rfl
      · rcases mem_spaced h with h | h
        · exact .inl (List.mem_cons_of_mem _ h)
        · exact .inr h

include hE hC in
theorem Closed.spaced {l : List Sql} (hl : ∀ t ∈ l, P t) : P (.seq (spaced l)) := by
  refine hC.seq fun t ht => ?_
  rcases mem_spaced ht with ht | rfl
  · exact hl t ht
  · exact Closed.kw hE hC (by decide)

include hE hC hv in
theorem keeps_visitJoinExpr {q : SelectQuery} (hq : H (.selectQuery q)) {j : JoinExpr}
    (hj : j ∈ q.selectFrom) :
    KeepsFrom ctx (fun p => P p.1 ∧ ∀ g ∈ p.2, H g) (visitJoinExpr ctx visit j) := by
  have hF := stable_fromFrame ctx
  have hchildren : ∀ c ∈ j.children, H c := fun c hc => hE.child hq (by
    simp only [Expr.children, SelectQueryOf.children, List.mem_append, List.mem_flatMap]
    simp only [or_assoc]
    exact .inr (.inr (.inl ⟨j, hj, hc⟩)))
  refine Spec.bind hF (keeps_visitTable hE hC hv hchildren) fun p hp => ?_
  have htail : Keeps ctx (fun ts => ∀ t ∈ ts, P t) ((joinTail j).mapM (run visit)) :=
    Spec.mapM (stable_frame ctx) fun t ht => keeps_run hC hv (templateOk_joinTail hE hchildren t ht)
  refine Spec.bind hF (htail.fromFrame fun _ h => h) fun tail ht => Spec.pure hF ?_
  refine ⟨Closed.spaced hE hC fun t hmem => ?_, hp.2⟩
  rcases List.mem_append.mp hmem with hmem | hmem
  · rcases List.mem_append.mp hmem with hmem | hmem
    · obtain ⟨k, hk, rfl⟩ := List.mem_map.mp hmem
      exact hC.text (hE.joinType hq hj (truthy_eq_some (Option.mem_toList.mp hk)))
    · exact hp.1 t hmem
  · exact ht t hmem

include hE hC hv in
theorem keeps_visitJoins {q : SelectQuery} (hq : H (.selectQuery q)) :
    ∀ {js : List JoinExpr}, (∀ j ∈ js, j ∈ q.selectFrom) → ∀ {condition : Option Expr},
    (∀ e ∈ condition, H e) →
    KeepsFrom ctx (fun p => (∀ t ∈ p.1, P t) ∧ ∀ e ∈ p.2, H e) (visitJoins ctx visit js condition) := by
  have hF := stable_fromFrame ctx
  intro js
  induction js with
  | nil => exact fun _ condition hc => Spec.pure hF ⟨by simp, hc⟩
  | cons j rest ih =>
    intro hjs condition hc
    obtain ⟨hj, hrest⟩ := List.forall_mem_cons.mp hjs
    refine Spec.bind hF (keeps_visitJoinExpr hE hC hv hq hj) fun p hp => ?_
    refine Spec.bind hF (ih hrest (hE.addGuard hp.2 hc)) fun r hr => Spec.pure hF ?_
    exact ⟨List.forall_mem_cons.mpr ⟨hp.1, hr.1⟩, hr.2⟩

/-! ## SELECT の列 -/

include hE in
theorem templateOk_asPart (name : String) : TemplateOk H T (asPart name) :=
  templateOk_append.mpr ⟨hE.kw (by decide), hE.printIdentifier name⟩

include hE in
theorem templateOk_selectColumn {s : PrinterState} {col : Expr} (hcol : H col) :
    TemplateOk H T (selectColumn ctx s col).1 := by
  have hvisit : TemplateOk H T (visitOne col) := templateOk_visitOne.mpr hcol
  have has : ∀ name, TemplateOk H T (visitOne col ++ asPart name) := fun name =>
    templateOk_append.mpr ⟨hvisit, templateOk_asPart hE name⟩
  have htext : ∀ c name, TemplateOk H T (printIdentifier c ++ asPart name) := fun c name =>
    templateOk_append.mpr ⟨hE.printIdentifier c, templateOk_asPart hE name⟩
  unfold selectColumn
  dsimp only
  split
  · split
    · exact htext _ _
    · split
      · exact has _
      · split
        · exact has _
        · split
          · refine templateOk_append.mpr ⟨hvisit, ?_⟩
            split
            · exact templateOk_asPart hE _
            · exact templateOk_nil
          · exact hvisit
  case h_5 =>
    split
    · exact htext _ _
    · exact hvisit
  case h_6 => exact hvisit
  all_goals
    refine templateOk_append.mpr ⟨hvisit, ?_⟩
    cases truthy (analyzeSelectColumn ctx s.tableContexts _).outputName with
    | none => exact templateOk_nil
    | some name => exact templateOk_asPart hE name

include hE in
theorem templateOk_selectableColumn {t : TableSchema} (ht : t ∈ ctx.tables.values)
    {p : String × ColumnSchema} (hp : p ∈ t.columns.entries) :
    TemplateOk H T (selectableColumn p.1 p.2) := by
  have has : ∀ c, TemplateOk H T (printIdentifier c ++ kw " AS " ++ printIdentifier p.1) := fun c =>
    templateOk_append.mpr ⟨templateOk_append.mpr ⟨hE.printIdentifier c, hE.kw (by decide)⟩,
      hE.printIdentifier _⟩
  unfold selectableColumn
  split
  · next expression hx =>
    have hschema : SchemaText ctx expression :=
      ⟨t, ht, .inr ⟨p.2, List.mem_map_of_mem (f := Prod.snd) hp, .inl (truthy_eq_some hx)⟩⟩
    simp only [templateOk_append, templateOk_kw, templateOk_cons, templateOk_nil, and_true]
    exact ⟨⟨⟨hE.keyword _ (by decide), hE.schema hschema⟩, hE.keyword _ (by decide)⟩,
      hE.printIdentifier _⟩
  · split
    · exact has _
    · dsimp only
      split
      · exact has _
      · exact hE.printIdentifier _

include hE in
theorem templateOk_getSelectableColumns {t : TableSchema} (ht : t ∈ ctx.tables.values) :
    ∀ c ∈ (getSelectableColumns t).columns, TemplateOk H T c.1 := by
  intro c hc
  simp only [getSelectableColumns, List.partition_eq_filter_filter] at hc
  obtain ⟨p, hp, rfl⟩ := List.mem_map.mp hc
  have hp' : p ∈ t.columns.entries := List.mem_of_mem_filter (List.mem_of_mem_filter hp)
  exact templateOk_selectableColumn hE ht hp'

include hE in
theorem templateOk_expandAsterisk {tables : JsMap TableSchema}
    (htables : ∀ p ∈ tables, p.2 ∈ ctx.tables.values) {chain : Chain} {x : Expansion}
    (hx : expandAsterisk tables chain = some x) : ∀ c ∈ x.columns, TemplateOk H T c.1 := by
  intro c hc
  unfold expandAsterisk at hx
  split at hx
  · cases hx
    dsimp only at hc
    split at hc
    · rw [List.mem_singleton.mp hc]
      exact hE.kw (by decide)
    · obtain ⟨y, hy, hcy⟩ := List.mem_flatMap.mp hc
      obtain ⟨p, hp, rfl⟩ := List.mem_map.mp hy
      exact templateOk_getSelectableColumns hE (htables p hp) c hcy
  · split at hx
    · next t ht =>
      cases hx
      exact templateOk_getSelectableColumns hE (htables _ (JsMap.mem_of_get ht)) c hc
    · cases hx
      rw [List.mem_singleton.mp hc]
      exact templateOk_append.mpr ⟨hE.printIdentifier _, hE.kw (by decide)⟩
  · cases hx

/-- 文脈を変えない更新。 -/
theorem keeps_modify {g : PrinterState → PrinterState} (hg : ∀ s, Frame s (g s)) :
    Keeps ctx (fun _ => True) (modify g) := Spec.modify fun s _ => hg s

theorem keeps_collect (b : Bool) (columns : List OutputColumn) :
    Keeps ctx (fun _ => True) (collect b columns) := by
  refine keeps_modify fun s => ?_
  split
  · exact ⟨rfl, rfl, rfl, rfl, rfl, rfl, id, id, List.prefix_refl _⟩
  · exact Frame.refl s

include hE hC hv in
theorem keeps_visitSelectColumnWithMetadata (collectMetadata : Bool) {col : Expr} (hcol : H col) :
    Keeps ctx (fun ts => ∀ t ∈ ts, P t)
      (visitSelectColumnWithMetadata ctx visit collectMetadata col) := by
  have hF := stable_frame ctx
  refine Spec.get fun s hs => ?_
  split
  · next x hx =>
    have hcolumns : ∀ c ∈ x.columns, TemplateOk H T c.1 := by
      cases col with
      | field chain => exact templateOk_expandAsterisk hE hs hx
      | _ => cases hx
    refine Spec.bind hF (Spec.mapM hF fun c hc => keeps_run hC hv (hcolumns c hc)) fun ts hts => ?_
    refine Spec.bind hF (keeps_collect _ _) fun _ _ => ?_
    refine Spec.bind hF (keeps_modify fun s =>
      ⟨rfl, rfl, rfl, rfl, rfl, rfl, id, id, List.prefix_refl _⟩) fun _ _ => ?_
    exact Spec.pure hF hts
  · refine Spec.bind hF (keeps_run hC hv (templateOk_selectColumn hE hcol)) fun t ht => ?_
    refine Spec.bind hF (keeps_collect _ _) fun _ _ => ?_
    exact Spec.pure hF (by simpa using ht)

/-- flag を立てて実行し、下ろす。 -/
theorem keeps_bracket {α β : Type} {Q : α → Prop} {R : β → Prop} {g g' : PrinterState → PrinterState}
    (hg : ∀ s, (g s).tableContexts = s.tableContexts)
    (hgg : ∀ s s', Frame (g s) s' → Frame s (g' s')) {m : M α} (hm : Keeps ctx Q m) {f : α → β}
    (hf : ∀ a, Q a → R (f a)) :
    Keeps ctx R (modify g >>= fun _ => m >>= fun a => modify g' >>= fun _ => pure (f a)) := by
  intro s b s' hs h
  obtain ⟨_, _, hmod, h⟩ := StateE.bind_eq_ok.mp h
  rw [StateE.modify_eq_ok] at hmod
  subst hmod
  obtain ⟨a, s₁, ha, h⟩ := StateE.bind_eq_ok.mp h
  obtain ⟨_, _, hmod, h⟩ := StateE.bind_eq_ok.mp h
  rw [StateE.modify_eq_ok] at hmod
  subst hmod
  obtain ⟨rfl, rfl⟩ := StateE.pure_eq_ok.mp h
  obtain ⟨hframe, hq⟩ := hm (g s) a s₁ (by rw [Scoped, hg]; exact hs) ha
  exact ⟨hgg s s₁ hframe, hf a hq⟩

theorem keeps_inProjection {α : Type} {Q : α → Prop} {m : M α} (hm : Keeps ctx Q m) :
    Keeps ctx Q (inProjection m) := by
  unfold inProjection
  refine keeps_bracket ?_ ?_ hm fun _ h => h
  · exact fun _ => rfl
  · intro s s' h
    exact { h with inProjectionContext := fun hp => absurd hp (by simp) }

include hE hC hv in
theorem keeps_visitSelectColumns (top : Bool) {select : List Expr} (hselect : ∀ e ∈ select, H e) :
    Keeps ctx (fun ts => ∀ t ∈ ts, P t) (visitSelectColumns ctx visit top select) := by
  have hF := stable_frame ctx
  have hmap := Spec.mapM hF fun e he =>
    keeps_visitSelectColumnWithMetadata hE hC hv top (hselect e he)
  unfold visitSelectColumns
  split
  · refine Spec.pure hF ?_
    simpa using Closed.kw hE hC (by decide)
  · refine keeps_bracket ?_ ?_ hmap fun columns hc t ht => ?_
    · exact fun _ => rfl
    · intro s s' h
      exact { h with inProjectionContext := fun hp => absurd hp (by simp) }
    · obtain ⟨ts, hts, ht⟩ := List.mem_flatten.mp ht
      exact hc ts hts t ht

/-! ## SELECT の句 -/

/-- 句の出力についての性質。 -/
def OptionOk (P : Sql → Prop) (o : Option Sql) : Prop := ∀ t ∈ o, P t

include hE hC in
theorem Closed.commaSeparated : ∀ {l : List Sql}, (∀ t ∈ l, P t) → P (commaSeparated l)
  | [], _ => hC.seq fun _ h => by cases h
  | [t], h => h t List.mem_cons_self
  | t :: t' :: l, h => by
    obtain ⟨ht, hl⟩ := List.forall_mem_cons.mp h
    refine hC.seq ?_
    simp only [List.forall_mem_cons]
    exact ⟨ht, Closed.kw hE hC (by decide), Closed.commaSeparated hl, fun _ h => by cases h⟩

include hE hC hv in
theorem keeps_visitNamed {entries : List (String × Expr)} (h : ∀ p ∈ entries, H p.2) :
    Keeps ctx (fun ts => ∀ t ∈ ts, P t) (visitNamed visit entries) := by
  refine Spec.mapM (stable_frame ctx) fun p hp => keeps_run hC hv ?_
  simp only [templateOk_append, templateOk_kw, templateOk_visitOne]
  exact ⟨⟨⟨hE.printIdentifier _, hE.keyword _ (by decide)⟩, h p hp⟩, hE.keyword _ (by decide)⟩

include hv in
theorem keeps_visitOption {e : Option Expr} (he : ∀ x ∈ e, H x) :
    Keeps ctx (OptionOk P) (visitOption visit e) := by
  have hF := stable_frame ctx
  cases e with
  | none => exact Spec.pure hF fun _ h => by cases h
  | some e =>
    refine Spec.map hF (hv e (he e rfl)) fun t ht u hu => ?_
    cases hu
    exact ht

include hE hC in
/-- 空でなければ `, ` で区切った句にする。 -/
theorem optionOk_columns {ts : List Sql} (hts : ∀ t ∈ ts, P t) :
    OptionOk P (if ts.isEmpty then none else some (commaSeparated ts)) := by
  intro t ht
  split at ht
  · cases ht
  · cases ht
    exact Closed.commaSeparated hE hC hts

include hE hC hv in
theorem keeps_visitGroupBy {es : Option (List Expr)} (hes : ∀ l ∈ es, ∀ e ∈ l, H e) :
    Keeps ctx (OptionOk P) (visitGroupBy visit es) := by
  have hF := stable_frame ctx
  cases es with
  | none => exact Spec.pure hF fun _ h => by cases h
  | some es =>
    have hcolumns := keeps_inProjection (Spec.mapM hF fun e he => hv e (hes es rfl e he))
    refine keeps_bracket ?_ ?_ hcolumns fun ts hts => optionOk_columns hE hC hts
    · exact fun _ => rfl
    · intro s s' h
      exact { h with inGroupByContext := fun hg => absurd hg (by simp) }

include hv in
theorem keeps_visitHaving {e : Option Expr} (he : ∀ x ∈ e, H x) :
    Keeps ctx (OptionOk P) (visitHaving visit e) := by
  have hF := stable_frame ctx
  cases e with
  | none => exact Spec.pure hF fun _ h => by cases h
  | some e =>
    refine Spec.map hF (keeps_inProjection (hv e (he e rfl))) fun t ht u hu => ?_
    cases hu
    exact ht

include hE hC hv in
theorem keeps_visitOrderBy {es : Option (List Expr)} (hes : ∀ l ∈ es, ∀ e ∈ l, H e) :
    Keeps ctx (OptionOk P) (visitOrderBy visit es) := by
  have hF := stable_frame ctx
  cases es with
  | none => exact Spec.pure hF fun _ h => by cases h
  | some es =>
    refine Spec.bind hF (keeps_inProjection (Spec.mapM hF fun e he => hv e (hes es rfl e he)))
      fun ts hts => Spec.pure hF (optionOk_columns hE hC hts)

include hE hC hv in
theorem keeps_visitArrayJoin (op : Option String) {list : List Expr} (hlist : ∀ e ∈ list, H e) :
    Keeps ctx (OptionOk P) (visitArrayJoin visit op list) := by
  have hF := stable_frame ctx
  unfold visitArrayJoin
  split
  · exact Spec.pure hF fun _ h => by cases h
  · next op _ =>
    split
    · exact Spec.throw _
    · next hop =>
      split
      · exact Spec.throw _
      · have hkw : op ∈ keywords := by
          have : ∀ k ∈ ["ARRAY JOIN", "LEFT ARRAY JOIN", "INNER ARRAY JOIN"], k ∈ keywords := by
            decide
          exact this op (Classical.not_not.mp hop)
        refine Spec.map hF (keeps_run hC hv (templateOk_append.mpr ⟨templateOk_append.mpr
          ⟨hE.kw hkw, hE.kw (by decide)⟩, templateOk_visitAll (hE.keyword _ (by decide)) hlist⟩))
          fun t ht u hu => ?_
        cases hu
        exact ht

include hE in
theorem Emission.cappedLimit (top : Bool) {limit : Option Expr} (hlimit : ∀ e ∈ limit, H e) :
    ∀ e ∈ cappedLimit ctx top limit, H e := by
  intro e he
  unfold Tsql.cappedLimit at he
  split at he
  · split at he
    · cases he; exact hE.constant _
    · cases he; exact hlimit e rfl
    · cases he; exact hE.constant _
  · exact hlimit e he

include hC hv in
theorem keeps_visitLimit {limit offset : Option Expr} (hlimit : ∀ e ∈ limit, H e) (ties : Bool)
    (hoffset : ∀ e ∈ offset, H e) :
    Keeps ctx (fun ts => ∀ t ∈ ts, P t) (visitLimit visit limit ties offset) := by
  have hF := stable_frame ctx
  cases limit with
  | none => exact Spec.pure hF fun _ h => by cases h
  | some e =>
    refine Spec.bind hF (hv e (hlimit e rfl)) fun n hn => ?_
    refine Spec.bind hF (keeps_visitOption hv hoffset) fun o ho => Spec.pure hF ?_
    refine List.forall_mem_cons.mpr ⟨hC.clause hn, List.forall_mem_append.mpr ⟨?_, ?_⟩⟩
    · intro t ht
      split at ht
      · rw [List.mem_singleton.mp ht]
        exact hC.clause (hC.seq fun _ h => by cases h)
      · cases ht
    · intro t ht
      obtain ⟨u, hu, rfl⟩ := Option.map_eq_some_iff.mp (Option.mem_toList.mp ht)
      exact hC.clause (ho u hu)

include hE hC hv in
theorem keeps_visitLimitByClause {l : Option LimitByExpr} (hl : ∀ x ∈ l, ∀ c ∈ x.children, H c) :
    Keeps ctx (fun ts => ∀ t ∈ ts, P t) (visitLimitByClause visit l) := by
  have hF := stable_frame ctx
  cases l with
  | none => exact Spec.pure hF fun _ h => by cases h
  | some l =>
    refine Spec.map hF (keeps_visitLimitBy hE hC hv (hl l rfl)) fun t ht => ?_
    simpa using hC.clause ht

/-! ## SELECT 文 -/

/-- 印字した句がどれも `P` である。 -/
structure ClausesOk (P : Sql → Prop) (c : SelectClauses) : Prop where
  columns : ∀ t ∈ c.columns, P t
  windows : ∀ t ∈ c.windows, P t
  prewhere : OptionOk P c.prewhere
  whereSql : OptionOk P c.whereSql
  groupBy : OptionOk P c.groupBy
  having : OptionOk P c.having
  orderBy : OptionOk P c.orderBy
  arrayJoin : OptionOk P c.arrayJoin
  limitBy : ∀ t ∈ c.limitBy, P t
  limit : ∀ t ∈ c.limit, P t

include hE hC hv in
theorem keeps_visitClauses {q : SelectQuery} (hq : H (.selectQuery q)) (top : Bool)
    {condition : Option Expr} (hcondition : ∀ e ∈ condition, H e) :
    Keeps ctx (ClausesOk P) (visitClauses ctx visit q top condition) := by
  have hF := stable_frame ctx
  have hc : ∀ {e}, e ∈ q.children → H e := fun he => hE.child hq he
  unfold visitClauses
  refine Spec.bind hF (keeps_visitSelectColumns hE hC hv top fun e he => hc ?_) fun _ h1 => ?_
  · simp [SelectQueryOf.children, he]
  refine Spec.bind hF (keeps_visitNamed hE hC hv fun p hp => hc ?_) fun _ h2 => ?_
  · have := List.mem_map_of_mem (f := Prod.snd) hp
    simp only [SelectQueryOf.children, List.mem_append, this, or_true, true_or]
  refine Spec.bind hF (keeps_visitOption hv fun e he => hc ?_) fun _ h3 => ?_
  · have := Option.mem_toList.mpr he
    simp only [SelectQueryOf.children, List.mem_append, this, or_true, true_or]
  refine Spec.bind hF (keeps_visitOption hv hcondition) fun _ h4 => ?_
  refine Spec.bind hF (keeps_visitGroupBy hE hC hv fun l hl e he => hc ?_) fun _ h5 => ?_
  · have : e ∈ q.groupBy.toList.flatten :=
      List.mem_flatten.mpr ⟨l, Option.mem_toList.mpr hl, he⟩
    simp only [SelectQueryOf.children, List.mem_append, this, or_true, true_or]
  refine Spec.bind hF (keeps_visitHaving hv fun e he => hc ?_) fun _ h6 => ?_
  · have := Option.mem_toList.mpr he
    simp only [SelectQueryOf.children, List.mem_append, this, or_true, true_or]
  refine Spec.bind hF (keeps_visitOrderBy hE hC hv fun l hl e he => hc ?_) fun _ h7 => ?_
  · have : e ∈ q.orderBy.toList.flatten :=
      List.mem_flatten.mpr ⟨l, Option.mem_toList.mpr hl, he⟩
    simp only [SelectQueryOf.children, List.mem_append, this, or_true, true_or]
  refine Spec.bind hF (keeps_visitArrayJoin hE hC hv _ fun e he => hc ?_) fun _ h8 => ?_
  · simp only [SelectQueryOf.children, List.mem_append, he, or_true, true_or]
  refine Spec.bind hF (keeps_visitLimitByClause hE hC hv fun l hl e he => hc ?_) fun _ h9 => ?_
  · have : e ∈ q.limitBy.toList.flatMap LimitByExprOf.children :=
      List.mem_flatMap.mpr ⟨l, Option.mem_toList.mpr hl, he⟩
    simp only [SelectQueryOf.children, List.mem_append, this, or_true, true_or]
  refine Spec.bind hF (keeps_visitLimit hC hv (hE.cappedLimit top fun e he => hc ?_) _
    fun e he => hc ?_) fun _ h10 => ?_
  · have := Option.mem_toList.mpr he
    simp only [SelectQueryOf.children, List.mem_append, this, or_true, true_or]
  · have := Option.mem_toList.mpr he
    simp only [SelectQueryOf.children, List.mem_append, this, or_true]
  exact Spec.pure hF ⟨h1, h2, h3, h4, h5, h6, h7, h8, h9, h10⟩

include hC in
theorem Closed.clauseOf {c : Clause} {o : Option Sql} (ho : OptionOk P o) :
    ∀ t ∈ clauseOf c o, P t := by
  intro t ht
  obtain ⟨u, hu, rfl⟩ := Option.map_eq_some_iff.mp ht
  exact hC.clause (ho u (Option.filter_eq_some_iff.mp hu).1)

include hC in
theorem Closed.map_clause {c : Clause} {o : Option Sql} (ho : OptionOk P o) :
    ∀ t ∈ o.map (Sql.clause c), P t := by
  intro t ht
  obtain ⟨u, hu, rfl⟩ := Option.map_eq_some_iff.mp ht
  exact hC.clause (ho u hu)

include hE hC in
/-- 並べた句もすべて `P` である。 -/
theorem ClausesOk.toList {c : SelectClauses} (hc : ClausesOk P c) (distinct : Bool)
    {ctes joined : List Sql} (hctes : ∀ t ∈ ctes, P t) (hjoined : ∀ t ∈ joined, P t) :
    ∀ t ∈ c.toList distinct ctes joined, P t := by
  have hd : P (.kw (if distinct then "DISTINCT " else "")) :=
    Closed.kw hE hC (by cases distinct <;> decide)
  have hselect : P (.clause .select
      (.seq [.kw (if distinct then "DISTINCT " else ""), commaSeparated c.columns])) :=
    hC.clause (hC.seq (by simpa using ⟨hd, Closed.commaSeparated hE hC hc.columns⟩))
  have hfrom : OptionOk P (if joined.isEmpty then none
      else some (.clause .from (.seq (spaced joined)))) := by
    intro t ht
    split at ht
    · cases ht
    · cases ht; exact hC.clause (Closed.spaced hE hC hjoined)
  have hwith : OptionOk P (if ctes.isEmpty then none
      else some (.clause .with (commaSeparated ctes))) := by
    intro t ht
    split at ht
    · cases ht
    · cases ht; exact hC.clause (Closed.commaSeparated hE hC hctes)
  unfold SelectClauses.toList
  refine List.forall_mem_append.mpr ⟨List.forall_mem_append.mpr ⟨fun t ht => ?_, hc.limitBy⟩,
    hc.limit⟩
  obtain ⟨o, ho, hot⟩ := List.mem_filterMap.mp ht
  simp only [List.mem_cons, List.not_mem_nil, or_false] at ho
  rcases ho with rfl | rfl | rfl | rfl | rfl | rfl | rfl | rfl | rfl | rfl
  · exact hwith t hot
  · cases hot; exact hselect
  · exact hfrom t hot
  · exact hC.map_clause hc.arrayJoin t hot
  · exact hC.clauseOf hc.prewhere t hot
  · exact hC.clauseOf hc.whereSql t hot
  · exact hC.map_clause hc.groupBy t hot
  · exact hC.clauseOf hc.having t hot
  · exact hC.clauseOf (optionOk_columns hE hC hc.windows) t hot
  · exact hC.map_clause hc.orderBy t hot

include hE hC hv in
/-- SELECT 文は、入る前の文脈を戻して終わる。 -/
theorem keeps_visitSelectQuery {q : SelectQuery} (hq : H (.selectQuery q)) :
    Keeps ctx P (visitSelectQuery ctx visit q) := by
  intro s t s' _ h
  obtain ⟨ctes, s₁, joined, condition, s₂, clauses, s₃, hctes, hjoins, hclauses, rfl, rfl⟩ :=
    visitSelectQuery_eq_ok h
  have hnamed : ∀ p ∈ q.ctes, H p.2 := fun p hp => hE.child hq (by
    have := List.mem_map_of_mem (f := Prod.snd) hp
    simp only [Expr.children, SelectQueryOf.children, List.mem_append, this, true_or])
  have hwhere : ∀ e ∈ q.where, H e := fun e he => hE.child hq (by
    have := Option.mem_toList.mpr he
    simp only [Expr.children, SelectQueryOf.children, List.mem_append, this, or_true, true_or])
  have hs₀ : Scoped ctx (enterSelect s) := fun _ hp => by cases hp
  obtain ⟨f₁, hctes⟩ := keeps_visitNamed hE hC hv hnamed _ _ _ hs₀ hctes
  obtain ⟨f₂, hjoined, hcondition⟩ :=
    keeps_visitJoins hE hC hv hq (fun _ h => h) hwhere _ _ _ (f₁.scoped hs₀) hjoins
  have hs₂ : Scoped ctx (enterColumns ctx q s₂) := f₂.scope (f₁.scoped hs₀)
  obtain ⟨f₃, hclauses⟩ := keeps_visitClauses hE hC hv hq _ hcondition _ _ _ hs₂ hclauses
  refine ⟨?_, ?_⟩
  · exact ⟨f₃.stack.trans (f₂.stack.trans f₁.stack), rfl, rfl, rfl, rfl, rfl,
      fun hp => f₁.inProjectionContext (f₂.inProjectionContext (f₃.inProjectionContext hp)),
      fun hg => f₁.inGroupByContext (f₂.inGroupByContext (f₃.inGroupByContext hg)),
      f₁.values.trans (f₂.values.trans f₃.values)⟩
  · have hresponse : P (.seq (spaced (clauses.toList q.distinct ctes joined))) :=
      Closed.spaced hE hC (hclauses.toList hE hC q.distinct hctes hjoined)
    unfold selectResponse
    split
    · exact hresponse
    · refine hC.seq ?_
      simp only [List.forall_mem_cons]
      exact ⟨Closed.kw hE hC (by decide), hresponse, Closed.kw hE hC (by decide),
        fun _ h => by cases h⟩

include hE hC hv in
theorem keeps_visitSelectSetQuery {initial : Expr} {subsequent : List (SetOperator × Expr)}
    (h : H (.selectSetQuery initial subsequent)) :
    Keeps ctx P (visitSelectSetQuery visit initial subsequent) := by
  have hF := stable_frame ctx
  have htext : ∀ o : SetOperator, o.text ∈ keywords := by
    intro o; cases o <;> decide
  have htemplate : TemplateOk H T (visitOne initial ++
      subsequent.flatMap fun p => Tsql.kw p.1.text ++ visitOne p.2) := by
    refine templateOk_append.mpr ⟨templateOk_visitOne.mpr (hE.child h List.mem_cons_self), ?_⟩
    intro a ha
    obtain ⟨p, hp, ha⟩ := List.mem_flatMap.mp ha
    have hpart : TemplateOk H T (Tsql.kw p.1.text ++ visitOne p.2) :=
      templateOk_append.mpr ⟨hE.kw (htext _), templateOk_visitOne.mpr
        (hE.child h (List.mem_cons_of_mem _ (List.mem_map_of_mem hp)))⟩
    exact hpart a ha
  refine Spec.get fun s _ => Spec.bind hF (keeps_run hC hv htemplate) fun t ht => Spec.pure hF ?_
  split
  · refine hC.seq ?_
    simp only [List.forall_mem_cons]
    exact ⟨Closed.kw hE hC (by decide), hC.trim ht, Closed.kw hE hC (by decide),
      fun _ h => by cases h⟩
  · exact ht

/-! ## 振り分け -/

include hE hC hv in
theorem keeps_visitNode {e : Expr} (he : H e) : Keeps ctx P (visitNode ctx visit e) := by
  have hF := stable_frame ctx
  have htemplate : Keeps ctx P (get >>= fun s => run visit (exprTemplate ctx s e)) :=
    Spec.get fun s hs => keeps_run hC hv (templateOk_exprTemplate hE hs he)
  cases e with
  | and es => exact keeps_visitConnective hE hC hv true fun e h => hE.child he h
  | or es => exact keeps_visitConnective hE hC hv false fun e h => hE.child he h
  | not e => exact Spec.map hF (hv e (hE.child he List.mem_cons_self)) fun _ h => hC.not h
  | call name args params distinct => exact keeps_visitCall hE hC hv he
  | limitBy l =>
    exact Spec.map hF (keeps_visitLimitBy hE hC hv fun c hc => hE.child he hc) fun _ h => hC.clause h
  | selectQuery q => exact keeps_visitSelectQuery hE hC hv he
  | selectSetQuery initial subsequent => exact keeps_visitSelectSetQuery hE hC hv he
  | _ => exact htemplate

end Visitors

/-! ## visit 全体 -/

/-- visit の一段。節を stack に積んで振り分け、降ろす。 -/
theorem visit_succ_keeps {ctx : PrinterContext} {P P' : Sql → Prop} {n : Nat} {e : Expr}
    (habsent : P' (.seq [])) (hnode : Keeps ctx P (visitNode ctx (visit ctx n) e))
    (hP : ∀ s t s', Scoped ctx s → s.stack.head? = some e →
      visitNode ctx (visit ctx n) e s = .ok (t, s') → P t → P' (.node e t)) :
    Keeps ctx P' (visit ctx (n + 1) e) := by
  intro s t s' hs h
  by_cases he : e = .absent
  · subst he
    obtain ⟨rfl, rfl⟩ := StateE.pure_eq_ok.mp h
    exact ⟨Frame.refl _, habsent⟩
  · obtain ⟨u, s₁, hu, rfl, rfl⟩ := visit_succ_eq_ok he h
    have hs₀ : Scoped ctx { s with stack := e :: s.stack } := hs
    obtain ⟨f, hp⟩ := hnode _ _ _ hs₀ hu
    refine ⟨?_, hP _ _ _ hs₀ rfl hu hp⟩
    exact { f with stack := by simp only [f.stack, List.tail_cons] }

/-- **`visit` は文脈を保ち、出力は木の作り方で閉じた性質を持つ。** 節の記録については `hnode` で示す。 -/
theorem visit_keeps {ctx : PrinterContext} {H : Expr → Prop} {T : Piece → Prop} {P : Sql → Prop}
    (hE : Emission ctx H T) (hC : Closed T P)
    (hnode : ∀ n e s t s', Scoped ctx s → s.stack.head? = some e → H e →
      visitNode ctx (visit ctx n) e s = .ok (t, s') → P t → P (.node e t)) :
    ∀ (n : Nat) (e : Expr), H e → Keeps ctx P (visit ctx n e) := by
  intro n
  induction n with
  | zero => exact fun _ _ _ _ _ _ h => by cases h
  | succ n ih =>
    intro e he
    exact visit_succ_keeps (hC.seq fun _ h => by cases h) (keeps_visitNode hE hC ih he)
      fun s t s' hs hstack h => hnode n e s t s' hs hstack he h

/-- 条件を課さない組。 -/
theorem emission_trivial (ctx : PrinterContext) : Emission ctx (fun _ => True) (fun _ => True) := by
  constructor <;> intros <;> trivial

theorem closed_trivial : Closed (fun _ => True) (fun _ => True) := by
  constructor <;> intros <;> trivial

/-- `visit` は文脈を保つ。 -/
theorem visit_frame (ctx : PrinterContext) (n : Nat) (e : Expr) :
    Keeps ctx (fun _ => True) (visit ctx n e) :=
  visit_keeps (emission_trivial ctx) closed_trivial (fun _ _ _ _ _ _ _ _ _ _ => trivial) n e trivial

end Tsql
