import Trigger.Tsql.Boolean

/-!
# CASE と符号反転

`parser.ts` の `visitColumnExprCase`・`visitColumnExprNegate` と、その結果の印字。

`CASE` の operand は一つの平らな列で届く。先頭の式があれば `transform` に、無ければ `if` か `multiIf` に
なる。意味が保たれるのは、先頭の式が無く `ELSE` があるときに限る。
-/

namespace Tsql

open Infra

/-! ## parse tree と変換 -/

/-- `ColumnExprCaseContext`。文法は WHEN を一つ以上要求する。 -/
structure CaseContext where
  caseExpr : Option ColumnExpr
  branches : List (ColumnExpr × ColumnExpr)
  elseExpr : Option ColumnExpr
  branches_ne_nil : branches ≠ []

/-- WHEN と THEN を交互に並べる。 -/
def interleave {α : Type} (branches : List (α × α)) : List α := branches.flatMap fun b => [b.1, b.2]

/-- `ctx.columnExpr()`。 -/
def CaseContext.columnExpr (c : CaseContext) : List ColumnExpr :=
  c.caseExpr.toList ++ interleave c.branches ++ c.elseExpr.toList

/-- `exprs.push`。 -/
def Expr.push (x : Expr) : Expr → Expr
  | .array es => .array (es ++ [x])
  | e => e

/-- 変換のループの一回。 -/
def distribute (columns args : List Expr) (index : Nat) : List Expr :=
  args.modify ((index - 1) % 2 + 1) (Expr.push (columns.getD index .absent))

/-- `visitColumnExprCase`。 -/
def visitColumnExprCase (c : CaseContext) : Expr :=
  let columns := c.columnExpr.map ColumnExpr.convert
  match c.caseExpr with
  | some _ =>
    let args :=
      [columns.headD .absent, .array [], .array [], .absent, columns.getLastD .absent]
    .call "transform"
      ((List.range' 1 (columns.length - 2)).foldl (distribute columns) args) none false
  | none =>
    if columns.length = 3 then .call "if" columns none false else .call "multiIf" columns none false

/-- `visitColumnExprNegate`。零の節には `expression_type` が無い。 -/
def visitColumnExprNegate (e : ColumnExpr) : Expr :=
  .arithmetic .sub (.untyped (.number (.int 0))) e.convert

/-! ## 意味 -/

def CaseContext.whens (c : CaseContext) : List Expr := c.branches.map fun b => b.1.convert

def CaseContext.thens (c : CaseContext) : List Expr := c.branches.map fun b => b.2.convert

/-- 既定値。`ELSE` が無ければ NULL である。 -/
def CaseContext.default (c : CaseContext) : Expr :=
  (c.elseExpr.map ColumnExpr.convert).getD (.constant .null)

/-- `CASE` の意味を表す関数。 -/
def CaseContext.function (c : CaseContext) : String :=
  if c.caseExpr.isSome then "transform" else if c.branches.length = 1 then "if" else "multiIf"

/-- その関数に渡すべき引数。 -/
def CaseContext.arguments (c : CaseContext) : List Expr :=
  match c.caseExpr with
  | some e => [e.convert, .array c.whens, .array c.thens, c.default]
  | none => interleave (c.branches.map fun b => (b.1.convert, b.2.convert)) ++ [c.default]

/-- 引数が印字できる状態からは `e` も印字でき、`name(…)` の中にその引数だけが並ぶ。 -/
def PrintsArguments (ctx : PrinterContext) (e : Expr) (name : String) (args : List Expr) : Prop :=
  ∀ fuel s t s₁,
    run (visit ctx fuel) (visitAll ", " args) { s with stack := e :: s.stack } = .ok (t, s₁) →
    ∃ u, visit ctx (fuel + 1) e s = .ok (u, { s₁ with stack := s₁.stack.tail }) ∧
      u.render = name ++ "(" ++ t.render ++ ")"

/-- `CASE … END` または `-x`。 -/
inductive Conditional
  | case (c : CaseContext)
  | negate (e : ColumnExpr)

/-- 変換と印字が意味を保つ。 -/
def Conditional.KeepsMeaning (ctx : PrinterContext) : Conditional → Prop
  | .case c =>
    visitColumnExprCase c = .call c.function c.arguments none false ∧
      PrintsArguments ctx (visitColumnExprCase c) c.function c.arguments
  | .negate e =>
    visitColumnExprNegate e = .arithmetic .sub (.constant (.number (.int 0))) e.convert ∧
      PrintsArguments ctx (visitColumnExprNegate e) "minus"
        [.constant (.number (.int 0)), e.convert]

/-- 先頭の式が無く `ELSE` のある `CASE`。 -/
def Conditional.IsSearchedWithElse : Conditional → Prop
  | .case c => c.caseExpr = none ∧ c.elseExpr.isSome = true
  | .negate _ => False

/-! ## 平らな列の配分 -/

theorem length_interleave {α : Type} (branches : List (α × α)) :
    (interleave branches).length = 2 * branches.length := by
  induction branches with
  | nil => rfl
  | cons b rest ih =>
    have h : (interleave (b :: rest)).length = (interleave rest).length + 2 := rfl
    rw [h, ih, List.length_cons]
    omega

theorem map_interleave {α β : Type} (f : α → β) (branches : List (α × α)) :
    (interleave branches).map f = interleave (branches.map fun b => (f b.1, f b.2)) := by
  induction branches with
  | nil => rfl
  | cons b rest ih =>
    show f b.1 :: f b.2 :: (interleave rest).map f = _
    rw [ih]
    rfl

theorem interleave_concat {α : Type} (branches : List (α × α)) (b : α × α) :
    interleave (branches ++ [b]) = interleave branches ++ [b.1, b.2] := by
  simp [interleave]

/-- 奇数番目は二番目の引数に、偶数番目は三番目の引数に積まれる。 -/
theorem distribute_interleave (e middle d : Expr) (branches : List (Expr × Expr)) :
    ∀ (before after vs rs : List Expr) (i : Nat), before.length = 2 * i + 1 →
      (List.range' (2 * i + 1) (2 * branches.length)).foldl
          (distribute (before ++ interleave branches ++ after))
          [e, .array vs, .array rs, middle, d] =
        [e, .array (vs ++ branches.map Prod.fst), .array (rs ++ branches.map Prod.snd), middle,
          d] := by
  induction branches with
  | nil =>
    intro before after vs rs i _
    simp
  | cons b rest ih =>
    intro before after vs rs i hi
    have hlen : 2 * (b :: rest).length = 2 * rest.length + 2 := by
      rw [List.length_cons]
      omega
    have hcolumns : before ++ interleave (b :: rest) ++ after =
        (before ++ [b.1, b.2]) ++ interleave rest ++ after := by
      simp [interleave]
    have hfirst : (before ++ interleave (b :: rest) ++ after).getD (2 * i + 1) .absent = b.1 := by
      rw [← hi]
      simp [interleave]
    have hsecond : (before ++ interleave (b :: rest) ++ after).getD (2 * i + 1 + 1) .absent =
        b.2 := by
      rw [← hi]
      simp [interleave]
    have hodd : (2 * i + 1 - 1) % 2 + 1 = 1 := by omega
    have heven : (2 * i + 1 + 1 - 1) % 2 + 1 = 2 := by omega
    rw [hlen, List.range'_succ, List.range'_succ, List.foldl_cons, List.foldl_cons, distribute,
      distribute, hfirst, hsecond, hodd, heven]
    rw [hcolumns]
    have hnext := ih (before ++ [b.1, b.2]) after (vs ++ [b.1]) (rs ++ [b.2]) (i + 1)
      (by simp; omega)
    simpa [Expr.push, Nat.mul_add] using hnext

theorem distribute_case (e middle d : Expr) (branches : List (Expr × Expr)) (after : List Expr) :
    (List.range' 1 (2 * branches.length)).foldl
        (distribute (e :: (interleave branches ++ after))) [e, .array [], .array [], middle, d] =
      [e, .array (branches.map Prod.fst), .array (branches.map Prod.snd), middle, d] := by
  have h := distribute_interleave e middle d branches [e] after [] [] 0 rfl
  rw [List.append_assoc] at h
  exact h

/-- 先頭の式と `ELSE` があれば、余分な `undefined` を挟んで正しく配られる。 -/
theorem transform_arguments {c : CaseContext} {e d : ColumnExpr} (he : c.caseExpr = some e)
    (hd : c.elseExpr = some d) :
    visitColumnExprCase c = .call "transform"
      [e.convert, .array c.whens, .array c.thens, .absent, d.convert] none false := by
  have hcolumns : c.columnExpr.map ColumnExpr.convert = e.convert ::
      (interleave (c.branches.map fun b => (b.1.convert, b.2.convert)) ++ [d.convert]) := by
    simp [CaseContext.columnExpr, he, hd, map_interleave]
  have hlength : (c.columnExpr.map ColumnExpr.convert).length - 2 =
      2 * (c.branches.map fun b => (b.1.convert, b.2.convert)).length := by
    rw [hcolumns, List.length_cons, List.length_append, length_interleave, List.length_singleton]
    omega
  unfold visitColumnExprCase
  simp only [he]
  rw [hlength, hcolumns, List.headD_cons, ← List.cons_append, List.getLastD_concat,
    List.cons_append, distribute_case]
  simp [CaseContext.whens, CaseContext.thens]

/-- `ELSE` が無ければ、最後の THEN の式が既定値に取られる。 -/
theorem transform_arguments_without_else {c : CaseContext} {e v r : ColumnExpr}
    {branches : List (ColumnExpr × ColumnExpr)} (he : c.caseExpr = some e)
    (hd : c.elseExpr = none) (hb : c.branches = branches ++ [(v, r)]) :
    visitColumnExprCase c = .call "transform"
      [e.convert, .array c.whens, .array (branches.map fun b => b.2.convert), .absent, r.convert]
      none false := by
  obtain ⟨pairs, hpairs⟩ : ∃ pairs, branches.map (fun b => (b.1.convert, b.2.convert)) = pairs :=
    ⟨_, rfl⟩
  have hcolumns : c.columnExpr.map ColumnExpr.convert =
      e.convert :: (interleave pairs ++ [v.convert, r.convert]) := by
    simp [CaseContext.columnExpr, he, hd, hb, interleave_concat, map_interleave, hpairs]
  have hlength : (c.columnExpr.map ColumnExpr.convert).length - 2 = 2 * pairs.length + 1 := by
    rw [hcolumns, List.length_cons, List.length_append, length_interleave]
    simp only [List.length_cons, List.length_nil]
    omega
  have hlast : (e.convert :: (interleave pairs ++ [v.convert, r.convert])).getLastD .absent =
      r.convert := by
    rw [show e.convert :: (interleave pairs ++ [v.convert, r.convert]) =
      (e.convert :: (interleave pairs ++ [v.convert])) ++ [r.convert] by simp, List.getLastD_concat]
  -- 余った一つは最後の WHEN の値で、奇数番目なので二番目の引数に積まれる
  have hindex : 1 + 1 * (2 * pairs.length) = 2 * pairs.length + 1 := by omega
  have hodd : (2 * pairs.length + 1 - 1) % 2 + 1 = 1 := by omega
  have hget : (e.convert :: (interleave pairs ++ [v.convert, r.convert])).getD
      (2 * pairs.length + 1) .absent = v.convert := by
    rw [← length_interleave]
    simp
  unfold visitColumnExprCase
  simp only [he]
  rw [hlength, hcolumns, List.headD_cons, hlast, List.range'_concat, List.foldl_append,
    distribute_case, hindex, List.foldl_cons, List.foldl_nil, distribute, hodd, hget, ← hpairs]
  simp [CaseContext.whens, hb, Expr.push]

/-- 先頭の式があれば、`transform` の引数は必ず五つである。 -/
theorem transform_five_arguments {c : CaseContext} {e : ColumnExpr} (he : c.caseExpr = some e) :
    ∃ args, visitColumnExprCase c = .call "transform" args none false ∧ args.length = 5 := by
  cases hd : c.elseExpr with
  | some d => exact ⟨_, transform_arguments he hd, rfl⟩
  | none =>
    obtain ⟨branches, ⟨v, r⟩, hb⟩ := List.eq_nil_or_concat c.branches |>.resolve_left
      c.branches_ne_nil
    exact ⟨_, transform_arguments_without_else he hd (by rw [hb, List.concat_eq_append]), rfl⟩

/-! ## 印字 -/

section Print

variable {ctx : PrinterContext} {fuel : Nat} {s s₁ : PrinterState}

theorem visit_of_node {e : Expr} {u : Sql} (he : e ≠ .absent)
    (h : visitNode ctx (visit ctx fuel) e { s with stack := e :: s.stack } = .ok (u, s₁)) :
    visit ctx (fuel + 1) e s = .ok (.node e u, { s₁ with stack := s₁.stack.tail }) := by
  rw [visit_succ he]
  exact StateE.bind_eq_ok.mpr ⟨(), _, rfl, StateE.bind_eq_ok.mpr ⟨u, s₁, h, rfl⟩⟩

theorem visitFunctionCall_ok {visit : Expr → M Sql} {f : FunctionMeta} {args : List Expr}
    {t : Sql} (h : run visit (visitAll ", " args) s = .ok (t, s₁)) :
    visitFunctionCall visit f args none false s =
      .ok (.seq [.text (functionPiece f), .seq [], .kw "(", .kw "", t, .kw ")"], s₁) := by
  unfold visitFunctionCall
  exact StateE.bind_eq_ok.mpr ⟨t, s₁, h, rfl⟩

/-- 集約でも比較でもない関数の呼び出しは、引数の個数が合えば印字できる。 -/
theorem printsArguments_call {name : String} {args : List Expr} {f : FunctionMeta}
    (hbucket : ctx.toLowerCase name ≠ "timebucket")
    (hcompare : comparisonMapping.lookup name = none) (hproto : name ∉ objectPrototype)
    (hagg : findFunction ctx.toLowerCase aggregations name = none)
    (hfn : findFunction ctx.toLowerCase clickhouseFunctions name = some f)
    (hname : f.clickhouseName = some name)
    (hargs : validateFunctionArgs args.length f name "Function" = .ok ()) :
    PrintsArguments ctx (.call name args none false) name args := by
  intro fuel s t s₁ ht
  have hcall : visitCall ctx (visit ctx fuel) name args none false
      { s with stack := .call name args none false :: s.stack } =
        .ok (.seq [.text (functionPiece f), .seq [], .kw "(", .kw "", t, .kw ")"], s₁) := by
    unfold visitCall
    refine StateE.bind_eq_ok.mpr ⟨_, _, rfl, ?_⟩
    rw [if_neg hbucket, if_neg (by simp [hcompare, hproto])]
    simp only [hagg, hfn, hargs]
    exact visitFunctionCall_ok ht
  refine ⟨_, visit_of_node (by intro h; cases h) hcall, ?_⟩
  simp [Sql.render, Sql.renderAll, concat, functionPiece, hname, Piece.text, Sql.kw,
    String.append_assoc]

/-- 引数の個数が合わない関数の呼び出しは印字できない。 -/
theorem visit_call_rejected {name : String} {args : List Expr} {f : FunctionMeta}
    (hbucket : ctx.toLowerCase name ≠ "timebucket")
    (hcompare : comparisonMapping.lookup name = none) (hproto : name ∉ objectPrototype)
    (hagg : findFunction ctx.toLowerCase aggregations name = none)
    (hfn : findFunction ctx.toLowerCase clickhouseFunctions name = some f)
    {err : PrintError} (hargs : validateFunctionArgs args.length f name "Function" = .error err)
    {t : Sql} : visit ctx fuel (.call name args none false) s ≠ .ok (t, s₁) := by
  intro h
  cases fuel with
  | zero => cases h
  | succ fuel =>
    obtain ⟨u, s₂, hu, -, -⟩ := visit_succ_eq_ok (by intro h; cases h) h
    replace hu : visitCall ctx (visit ctx fuel) name args none false _ = .ok (u, s₂) := hu
    unfold visitCall at hu
    obtain ⟨s₃, s₄, hget, hu⟩ := StateE.bind_eq_ok.mp hu
    rw [if_neg hbucket, if_neg (by simp [hcompare, hproto])] at hu
    simp only [hagg, hfn, hargs] at hu
    cases hu

/-- `expression_type` の無い節は印字できない。 -/
theorem visit_untyped_rejected {v : Value} {t : Sql} :
    visit ctx fuel (.untyped v) s ≠ .ok (t, s₁) := by
  intro h
  cases fuel with
  | zero => cases h
  | succ fuel =>
    obtain ⟨u, s₂, hu, -, -⟩ := visit_succ_eq_ok (by intro h; cases h) h
    cases hu

/-- 符号反転は、どの式についても印字できない。 -/
theorem negate_rejected {e : ColumnExpr} {t : Sql} :
    visit ctx fuel (visitColumnExprNegate e) s ≠ .ok (t, s₁) := by
  intro h
  cases fuel with
  | zero => cases h
  | succ fuel =>
    obtain ⟨u, s₂, hu, -, -⟩ := visit_succ_eq_ok (by intro h; cases h) h
    replace hu : (get >>= fun s => run (visit ctx fuel) (exprTemplate ctx s
      (visitColumnExprNegate e)) : M Sql) _ = .ok (u, s₂) := hu
    obtain ⟨s₃, s₄, -, hu⟩ := StateE.bind_eq_ok.mp hu
    obtain ⟨ts, hts, -⟩ := StateE.map_eq_ok.mp hu
    -- `minus(` の次に零の節を visit する
    obtain ⟨_, s₅, -, hrest⟩ := StateE.bind_eq_ok.mp hts
    obtain ⟨_, s₆, hrest, -⟩ := StateE.bind_eq_ok.mp hrest
    obtain ⟨z, s₇, hz, -⟩ := StateE.bind_eq_ok.mp hrest
    exact visit_untyped_rejected hz

end Print

/-! ## 意味を保つ条件 -/

/-- `toLowerCase` は ASCII の英字の列では大文字だけを小文字に変える。 -/
def LowersAscii (toLowerCase : String → String) : Prop :=
  ∀ name : String, name.toList.all Char.isAlpha = true →
    toLowerCase name = String.ofList (name.toList.map Char.toLower)

/-- 先頭の式のある `CASE` は印字できない。 -/
theorem transform_rejected {ctx : PrinterContext} (hlower : LowersAscii ctx.toLowerCase)
    {c : CaseContext} {e : ColumnExpr} (he : c.caseExpr = some e) {fuel : Nat}
    {s s' : PrinterState} {t : Sql} :
    visit ctx fuel (visitColumnExprCase c) s ≠ .ok (t, s') := by
  obtain ⟨args, hargs, hlength⟩ := transform_five_arguments he
  have hname : ctx.toLowerCase "transform" = "transform" := by
    rw [hlower _ (by decide +kernel)]
    decide +kernel
  rw [hargs]
  refine visit_call_rejected (f := ⟨some "transform", 3, some 4, false⟩) ?_ (by decide +kernel)
    (by decide +kernel) ?_ ?_ (by rw [hlength]; rfl)
  · rw [hname]
    decide
  · unfold findFunction
    rw [hname, show aggregations.get "transform" = none by decide +kernel]
  · unfold findFunction
    rw [show clickhouseFunctions.get "transform" = some ⟨some "transform", 3, some 4, false⟩ by
      decide +kernel]

/-- `if` と `multiIf` は三つ以上の引数で印字できる。 -/
theorem printsArguments_conditional {ctx : PrinterContext} (hlower : LowersAscii ctx.toLowerCase)
    {args : List Expr} (hargs : 3 ≤ args.length) :
    (args.length = 3 → PrintsArguments ctx (.call "if" args none false) "if" args) ∧
      PrintsArguments ctx (.call "multiIf" args none false) "multiIf" args := by
  have hif : ctx.toLowerCase "if" = "if" := by
    rw [hlower _ (by decide +kernel)]
    decide +kernel
  have hmulti : ctx.toLowerCase "multiIf" = "multiif" := by
    rw [hlower _ (by decide +kernel)]
    decide +kernel
  constructor
  · intro hthree
    refine printsArguments_call (f := ⟨some "if", 3, some 3, false⟩) ?_ (by decide +kernel)
      (by decide +kernel) ?_ ?_ rfl (by rw [hthree]; rfl)
    · rw [hif]
      decide
    · unfold findFunction
      rw [hif, show aggregations.get "if" = none by decide +kernel]
    · unfold findFunction
      rw [show clickhouseFunctions.get "if" = some ⟨some "if", 3, some 3, false⟩ by
        decide +kernel]
  · refine printsArguments_call (f := ⟨some "multiIf", 3, none, false⟩) ?_ (by decide +kernel)
      (by decide +kernel) ?_ ?_ rfl ?_
    · rw [hmulti]
      decide
    · unfold findFunction
      rw [hmulti, show aggregations.get "multiIf" = none by decide +kernel,
        show aggregations.get "multiif" = none by decide +kernel]
    · unfold findFunction
      rw [show clickhouseFunctions.get "multiIf" = some ⟨some "multiIf", 3, none, false⟩ by
        decide +kernel]
    · simp [validateFunctionArgs, hargs]

/-- **`CASE` と符号反転が意味を保つのは、先頭の式が無く `ELSE` があるときに限る。** 先頭の式があれば
`transform` の引数が一つ余り、`ELSE` が無ければ既定値の NULL が落ち、符号反転の零は型を持たない。 -/
theorem keepsMeaning_iff (ctx : PrinterContext) (hlower : LowersAscii ctx.toLowerCase)
    (f : Conditional) : f.KeepsMeaning ctx ↔ f.IsSearchedWithElse := by
  cases f with
  | negate e =>
    refine ⟨fun h => ?_, False.elim⟩
    cases h.1
  | case c =>
    have hpairs : (interleave c.branches).map ColumnExpr.convert =
        interleave (c.branches.map fun b => (b.1.convert, b.2.convert)) := map_interleave _ _
    cases he : c.caseExpr with
    | some e =>
      refine ⟨fun h => ?_, fun h => absurd (he.symm.trans h.1) (by simp)⟩
      obtain ⟨args, hargs, hlength⟩ := transform_five_arguments he
      have harguments : args = c.arguments := by
        have hc := hargs.symm.trans h.1
        injection hc
      rw [harguments] at hlength
      simp [CaseContext.arguments, he] at hlength
    | none =>
      cases hd : c.elseExpr with
      | none =>
        refine ⟨fun h => ?_, fun h => absurd h.2 (by simp [hd])⟩
        have hargs : c.columnExpr.map ColumnExpr.convert = c.arguments := by
          have hc := h.1
          unfold visitColumnExprCase at hc
          simp only [he] at hc
          split at hc <;> injection hc
        -- 落ちる既定値の分だけ引数が少ない
        have hlength := congrArg List.length hargs
        simp [CaseContext.columnExpr, CaseContext.arguments, he, hd, length_interleave] at hlength
      | some d =>
        refine ⟨fun _ => ⟨he, by rw [hd]; rfl⟩, fun _ => ?_⟩
        have hargs : c.columnExpr.map ColumnExpr.convert = c.arguments := by
          simp [CaseContext.columnExpr, CaseContext.arguments, CaseContext.default, he, hd, hpairs]
        have hlength : c.arguments.length = 2 * c.branches.length + 1 := by
          rw [← hargs]
          simp [CaseContext.columnExpr, he, hd, length_interleave]
        have hpos : 0 < c.branches.length := List.length_pos_iff.mpr c.branches_ne_nil
        have hconvert : visitColumnExprCase c = .call c.function c.arguments none false := by
          unfold visitColumnExprCase CaseContext.function
          simp only [he, hargs, hlength]
          by_cases hone : c.branches.length = 1
          · rw [if_pos (by omega), if_neg (by simp), if_pos hone]
          · rw [if_neg (by omega), if_neg (by simp), if_neg hone]
        refine ⟨hconvert, ?_⟩
        obtain ⟨hif, hmulti⟩ := printsArguments_conditional hlower
          (show 3 ≤ c.arguments.length by omega)
        rw [hconvert]
        unfold CaseContext.function
        rw [if_neg (by simp [he])]
        split
        · next hone => exact hif (by omega)
        · exact hmulti

/-! ## 例 -/

def numberExpr (n : Nat) : ColumnExpr := .other (.constant (.number (.int n)))

/-- 小文字化が ASCII の規則に従う context。 -/
def asciiContext : PrinterContext :=
  { tables := Infra.Record.empty
    toLowerCase := fun name => String.ofList (name.toList.map Char.toLower) }

/-- `CASE WHEN TRUE THEN 1 WHEN FALSE THEN 2 ELSE 3 END`。 -/
def searchedCase : CaseContext :=
  ⟨none, [(.bool true, numberExpr 1), (.bool false, numberExpr 2)], some (numberExpr 3), by decide⟩

theorem keepsMeaning_searchedCase :
    (Conditional.case searchedCase).KeepsMeaning asciiContext ∧
      ∃ t s', visit asciiContext 9 (visitColumnExprCase searchedCase) {} = .ok (t, s') ∧
        t.render = "multiIf(1, 1, 0, 2, 3)" :=
  ⟨(keepsMeaning_iff asciiContext (fun _ _ => rfl) (.case searchedCase)).mpr ⟨rfl, rfl⟩,
    _, _, rfl, by decide +kernel⟩

/-- `CASE 1 WHEN 2 THEN 3 ELSE 4 END`。 -/
def simpleCase : CaseContext :=
  ⟨some (numberExpr 1), [(numberExpr 2, numberExpr 3)], some (numberExpr 4), by decide⟩

/-- `CASE WHEN TRUE THEN 1 WHEN FALSE THEN 2 END`。 -/
def searchedWithoutElse : CaseContext :=
  ⟨none, [(.bool true, numberExpr 1), (.bool false, numberExpr 2)], none, by decide⟩

/-- 先頭の式があれば印字が失敗し、`ELSE` が無ければ既定値が落ち、符号反転は印字が失敗する。 -/
theorem case_loses_meaning :
    (¬(Conditional.case simpleCase).KeepsMeaning asciiContext ∧
      ∀ fuel t s', visit asciiContext fuel (visitColumnExprCase simpleCase) {} ≠ .ok (t, s')) ∧
    (¬(Conditional.case searchedWithoutElse).KeepsMeaning asciiContext ∧
      ∃ t s', visit asciiContext 9 (visitColumnExprCase searchedWithoutElse) {} = .ok (t, s') ∧
        t.render = "multiIf(1, 1, 0, 2)") ∧
    (¬(Conditional.negate (numberExpr 1)).KeepsMeaning asciiContext ∧
      ∀ fuel t s',
        visit asciiContext fuel (visitColumnExprNegate (numberExpr 1)) {} ≠ .ok (t, s')) := by
  refine ⟨⟨fun h => ?_, fun _ _ _ => transform_rejected (fun _ _ => rfl) rfl⟩,
    ⟨fun h => ?_, _, _, rfl, by decide +kernel⟩, fun h => ?_, fun _ _ _ => negate_rejected⟩
  · exact absurd h.1 (fun h => by injection h with _ h; cases h)
  · exact absurd h.1 (fun h => by injection h with _ h; cases h)
  · exact absurd h.1 (fun h => by cases h)

end Tsql
