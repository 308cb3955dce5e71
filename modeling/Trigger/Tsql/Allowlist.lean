import Trigger.Tsql.Case

/-!
# 呼べる関数の範囲

`visitCall` と `visitWindowFunction` が許可表にある関数だけを印字するか。

`visitCall` は三つの表を引く。小文字にして引き直した名前が `Object.prototype` の property 名に
当たると、`undefined` という関数が印字される（`ReachesInherited`）。window 関数の名前は表を引かず、
そのまま印字される。引き直しは鍵の側を小文字にしないので、大文字を含む鍵は別の大小では見つからない。
-/

namespace Tsql

open Infra

/-! ## 主張の語 -/

/-- 表 `table` の entry `f` に、名前がそのまま、または小文字にして一致する。 -/
def Entry (toLowerCase : String → String) (table : FunctionTable) (name : String)
    (f : FunctionMeta) : Prop :=
  table.lookup name = some f ∨
    table.lookup name = none ∧ table.lookup (toLowerCase name) = some f ∧ f.caseSensitive = false

/-- 二つの関数表のどちらかの entry に一致する。 -/
def Listed (toLowerCase : String → String) (name : String) (f : FunctionMeta) : Prop :=
  Entry toLowerCase aggregations name f ∨ Entry toLowerCase clickhouseFunctions name f

/-- 引数の個数が entry の範囲にある。 -/
def InRange (f : FunctionMeta) (n : Nat) : Prop := f.minArgs ≤ n ∧ ∀ m ∈ f.maxArgs, n ≤ m

/-- 名前 `name` と引数の個数 `n` の呼び出しが許され、関数名 `out` で出力される。 -/
def Allowed (toLowerCase : String → String) (name : String) (n : Nat) (out : Option String) :
    Prop :=
  toLowerCase name = "timebucket" ∨ (comparisonMapping.lookup name).isSome ∨
    ∃ f, Listed toLowerCase name f ∧ InRange f n ∧ f.clickhouseName = out

/-- 出力の先頭の関数名。 -/
def calledName (t : Sql) : Option String := t.pieces.head?.map Piece.text

/-- 印字できた呼び出しは、許された呼び出しである。 -/
def CallsAllowed (ctx : PrinterContext) (name : String) (n : Nat) : Prop :=
  ∀ visit args params distinct s t s', args.length = n →
    visitNode ctx visit (.call name args params distinct) s = .ok (t, s') →
    Allowed ctx.toLowerCase name n (calledName t)

/-- 印字できた window 関数の呼び出しは、許された呼び出しである。 -/
def WindowAllowed (ctx : PrinterContext) (name : String) (n : Nat) : Prop :=
  ∀ visit args exprs overIdentifier overExpr s t s', args.length = n →
    visitNode ctx visit (.windowFunction name args exprs overIdentifier overExpr) s = .ok (t, s') →
    Allowed ctx.toLowerCase name n (calledName t)

/-- 引数が印字でき、外側に集約が無ければ、`n` 個の引数の呼び出しは印字できる。 -/
def PrintsCall (ctx : PrinterContext) (name : String) (n : Nat) : Prop :=
  ∀ visit : Expr → M Sql, (∀ e s, ∃ r, visit e s = .ok r) →
    ∀ args params distinct s, args.length = n → s.tableContexts = [] →
      enclosingAggregation ctx.toLowerCase s.stack.tail = none →
      ∃ r, visitNode ctx visit (.call name args params distinct) s = .ok r

/-- 一致する entry の範囲にある個数の引数で呼び出せる。 -/
def Accepted (ctx : PrinterContext) (name : String) : Prop :=
  ∃ f, Listed ctx.toLowerCase name f ∧ ∀ n, InRange f n → PrintsCall ctx name n

/-- 大小を区別しない entry の鍵と、英字の大小だけが違う。 -/
def SameIgnoringCase (toLowerCase : String → String) (name : String) : Prop :=
  ∃ key f, (key, f) ∈ clickhouseFunctions ++ aggregations ∧ f.caseSensitive = false ∧
    toLowerCase name = toLowerCase key

/-- **「許可表の関数だけが呼ばれる」という主張。** -/
structure AllowListed (ctx : PrinterContext) (name : String) (n : Nat) : Prop where
  calls : CallsAllowed ctx name n
  windows : WindowAllowed ctx name n
  ignoresCase : SameIgnoringCase ctx.toLowerCase name → Accepted ctx name

/-! ## 表 -/

/-- entry の形。 -/
def WellFormedEntry (f : FunctionMeta) : Prop :=
  (∃ ch ∈ f.clickhouseName, ch ≠ "undefined") ∧ f.caseSensitive = false ∧ InRange f f.minArgs

instance (f : FunctionMeta) : Decidable (WellFormedEntry f) := by
  unfold WellFormedEntry InRange
  infer_instance

theorem tables_wellFormed :
    (∀ p ∈ clickhouseFunctions, WellFormedEntry p.2) ∧ ∀ p ∈ aggregations, WellFormedEntry p.2 := by
  decide +kernel

/-- 集約の表の鍵は、継承した名前と重ならない。 -/
theorem aggregations_lookup_inherited :
    ∀ name ∈ objectPrototype, aggregations.lookup name = none := by
  decide +kernel

/-- 比較関数は、二引数の関数として表にもある。 -/
theorem comparison_listed : ∀ p ∈ comparisonMapping,
    clickhouseFunctions.lookup p.1 =
      some { clickhouseName := p.1, minArgs := 2, maxArgs := some 2 } := by
  decide +kernel

/-- 比較関数の演算子は、どれも印字できる。 -/
theorem comparison_printable :
    ∀ p ∈ comparisonMapping, p.2 ≠ .inCohort ∧ p.2 ≠ .notInCohort := by
  decide +kernel

/-! ## 成り立つ条件 -/

/-- 小文字にした名前だけが `Object.prototype` の property 名である。 -/
structure ReachesInherited (toLowerCase : String → String) (name : String) : Prop where
  notBucket : toLowerCase name ≠ "timebucket"
  notCompare : comparisonMapping.lookup name = none
  notInherited : name ∉ objectPrototype
  notAggregation : aggregations.lookup name = none
  inherited : toLowerCase name ∈ objectPrototype

/-- 比較関数であるか、継承した名前でなく、どちらかの表に entry がある。 -/
structure Callable (toLowerCase : String → String) (name : String) : Prop where
  notBucket : toLowerCase name ≠ "timebucket"
  notInherited : (comparisonMapping.lookup name).isSome ∨ name ∉ objectPrototype
  listed : ∃ f, Listed toLowerCase name f

/-! ## 表の検索 -/

section Lookup

variable {lower : String → String} {table : FunctionTable} {name : String} {f : FunctionMeta}

theorem Entry.wellFormed (h : Entry lower table name f)
    (ht : ∀ p ∈ table, WellFormedEntry p.2) : WellFormedEntry f := by
  rcases h with h | ⟨-, h, -⟩
  · exact ht _ (JsMap.mem_of_get h)
  · exact ht _ (JsMap.mem_of_get h)

theorem Listed.wellFormed (h : Listed lower name f) : WellFormedEntry f := by
  rcases h with h | h
  · exact h.wellFormed tables_wellFormed.2
  · exact h.wellFormed tables_wellFormed.1

/-- 名前が継承されたものでなければ、検索は entry か、小文字にして継承された property を返す。 -/
theorem findFunction_cases (hname : name ∉ objectPrototype)
    (h : findFunction lower table name = some f) :
    Entry lower table name f ∨
      table.lookup name = none ∧ table.lookup (lower name) = none ∧
        lower name ∈ objectPrototype ∧ f = { clickhouseName := none } := by
  unfold findFunction at h
  split at h
  · next g hg =>
    cases h
    unfold FunctionTable.get at hg
    split at hg
    · next hl => cases hg; exact .inl (.inl hl)
    · rw [if_neg hname] at hg; cases hg
  · next hnone =>
    have hl : table.lookup name = none := by
      unfold FunctionTable.get at hnone
      split at hnone
      · cases hnone
      · assumption
    split at h
    · cases h
    · next g hg =>
      split at h
      · cases h
      · next hcase =>
        cases h
        unfold FunctionTable.get at hg
        split at hg
        · next hll => cases hg; exact .inl (.inr ⟨hl, hll, by simpa using hcase⟩)
        · next hll =>
          split at hg
          · next hin => cases hg; exact .inr ⟨hl, hll, hin, rfl⟩
          · cases hg

/-- 継承されていない名前の entry は見つかる。 -/
theorem findFunction_isSome (h : Entry lower table name f) :
    (findFunction lower table name).isSome := by
  unfold findFunction FunctionTable.get
  rcases h with h | ⟨hn, h, hcase⟩
  · simp [h]
  · by_cases hin : name ∈ objectPrototype
    · simp [hn, hin]
    · simp [hn, hin, h, hcase]

/-- 小文字にした名前が継承されていれば、検索は必ず何かを返す。 -/
theorem findFunction_isSome_of_inherited (h : lower name ∈ objectPrototype)
    (hl : table.lookup (lower name) = none) : (findFunction lower table name).isSome := by
  unfold findFunction FunctionTable.get
  cases table.lookup name with
  | some g => rfl
  | none =>
    by_cases hin : name ∈ objectPrototype
    · simp [hin]
    · simp [hin, hl, h]

theorem validateFunctionArgs_iff {n : Nat} {term : String} :
    validateFunctionArgs n f name term = .ok () ↔ InRange f n := by
  unfold validateFunctionArgs InRange
  dsimp only
  by_cases hfew : n < f.minArgs
  · simp only [if_pos hfew]
    refine ⟨fun h => ?_, fun h => absurd h.1 (by omega)⟩
    split at h <;> cases h
  · by_cases hmany : ∃ m ∈ f.maxArgs, m < n
    · simp only [if_neg hfew, if_pos hmany]
      refine ⟨fun h => ?_, fun h => ?_⟩
      · split at h <;> cases h
      · obtain ⟨m, hm, hlt⟩ := hmany
        exact absurd (h.2 m hm) (by omega)
    · rw [if_neg (fun h => h.2.elim hfew hmany), if_neg hfew, if_neg hmany]
      refine iff_of_true rfl ⟨by omega, fun m hm => ?_⟩
      by_contra hlt
      exact hmany ⟨m, hm, by omega⟩

end Lookup

/-! ## 雛形の実行 -/

section Run

variable {visit : Expr → M Sql}

/-- 例外を投げる要素が無い。 -/
def NoFail (tmpl : Template) : Prop := ∀ e, .fail e ∉ tmpl

theorem noFail_kw (k : String) : NoFail (kw k) := by
  intro e h
  simp [kw] at h

theorem noFail_visitOne (e : Expr) : NoFail (visitOne e) := by
  intro err h
  simp [visitOne] at h

theorem NoFail.append {a b : Template} (ha : NoFail a) (hb : NoFail b) : NoFail (a ++ b) := by
  intro e h
  rcases List.mem_append.mp h with h | h
  · exact ha e h
  · exact hb e h

theorem noFail_visitAll (sep : String) (es : List Expr) : NoFail (visitAll sep es) := by
  intro e h
  rcases mem_join h with h | ⟨t, ht, h⟩
  · cases h
  · obtain ⟨e', -, rfl⟩ := List.mem_map.mp ht
    exact noFail_visitOne e' e h

theorem runTemplate_total (hv : ∀ e s, ∃ r, visit e s = .ok r) {tmpl : Template}
    (h : NoFail tmpl) (s : PrinterState) : ∃ r, runTemplate visit tmpl s = .ok r := by
  induction tmpl generalizing s with
  | nil => exact ⟨_, rfl⟩
  | cons a rest ih =>
    obtain ⟨⟨t, s₁⟩, ha⟩ : ∃ r, runAtom visit a s = .ok r := by
      cases a with
      | text p => exact ⟨_, rfl⟩
      | value v => exact ⟨_, rfl⟩
      | visit e => exact hv e s
      | fail e => exact absurd List.mem_cons_self (h e)
    obtain ⟨⟨ts, s₂⟩, hrest⟩ := ih (fun e he => h e (List.mem_cons_of_mem _ he)) s₁
    exact ⟨(t :: ts, s₂), StateE.bind_eq_ok.mpr
      ⟨t, s₁, ha, StateE.bind_eq_ok.mpr ⟨ts, s₂, hrest, rfl⟩⟩⟩

/-- 部分木が印字でき、例外を投げる要素が無ければ、雛形は実行できる。 -/
theorem run_total (hv : ∀ e s, ∃ r, visit e s = .ok r) {tmpl : Template} (h : NoFail tmpl)
    (s : PrinterState) : ∃ r, run visit tmpl s = .ok r := by
  obtain ⟨⟨ts, s₁⟩, hr⟩ := runTemplate_total hv h s
  exact ⟨(.seq ts, s₁), StateE.map_eq_ok.mpr ⟨ts, hr, rfl⟩⟩

theorem run_fail {tmpl : Template} {err : PrintError} (h : .fail err ∈ tmpl) {s s' : PrinterState}
    {t : Sql} : run visit tmpl s ≠ .ok (t, s') := by
  intro hr
  obtain ⟨ts, hts, -⟩ := StateE.map_eq_ok.mp hr
  exact runTemplate_fail h hts

/-- 断片で始まる雛形の出力は、その断片で始まる。 -/
theorem calledName_run {p : Piece} {rest : Template} {s s' : PrinterState} {t : Sql}
    (h : run visit (.text p :: rest) s = .ok (t, s')) : calledName t = some p.text := by
  obtain ⟨ts, hts, rfl⟩ := StateE.map_eq_ok.mp h
  obtain ⟨u, s₁, hu, hts⟩ := StateE.bind_eq_ok.mp hts
  obtain ⟨us, s₂, -, hp⟩ := StateE.bind_eq_ok.mp hts
  obtain ⟨rfl, rfl⟩ := StateE.pure_eq_ok.mp hp
  obtain ⟨rfl, rfl⟩ := StateE.pure_eq_ok.mp hu
  simp [calledName, Sql.pieces]

theorem calledName_functionCall {f : FunctionMeta} {args : List Expr}
    {params : Option (List Expr)} {distinct : Bool} {s s' : PrinterState} {t : Sql}
    (h : visitFunctionCall visit f args params distinct s = .ok (t, s')) :
    calledName t = some (functionPiece f).text := by
  obtain ⟨a, s₁, -, h⟩ := StateE.bind_eq_ok.mp h
  obtain ⟨p, s₂, -, h⟩ := StateE.bind_eq_ok.mp h
  obtain ⟨rfl, rfl⟩ := StateE.pure_eq_ok.mp h
  simp [calledName, Sql.pieces]

theorem visitFunctionCall_total (hv : ∀ e s, ∃ r, visit e s = .ok r) (f : FunctionMeta)
    (args : List Expr) (params : Option (List Expr)) (distinct : Bool) (s : PrinterState) :
    ∃ r, visitFunctionCall visit f args params distinct s = .ok r := by
  obtain ⟨⟨a, s₁⟩, ha⟩ := run_total hv (noFail_visitAll ", " args) s
  have hparams : NoFail (paramsTemplate params) := by
    cases params with
    | none => exact fun e h => by cases h
    | some ps => exact ((noFail_kw "(").append (noFail_visitAll ", " ps)).append (noFail_kw ")")
  obtain ⟨⟨p, s₂⟩, hp⟩ := run_total hv hparams s₁
  exact ⟨_, StateE.bind_eq_ok.mpr ⟨a, s₁, ha, StateE.bind_eq_ok.mpr ⟨p, s₂, hp, rfl⟩⟩⟩

end Run

/-! ## 呼び出しの一歩 -/

section Call

variable {ctx : PrinterContext} {visit : Expr → M Sql} {name : String} {args : List Expr}
  {params : Option (List Expr)} {distinct : Bool} {s s' : PrinterState} {t : Sql}

/-- 演算子の無い比較の呼び出しは、必ず例外になる。 -/
theorem run_visitComparisonCall_inherited (hlookup : comparisonMapping.lookup name = none) :
    run visit (visitComparisonCall ctx s name args) s ≠ .ok (t, s') := by
  unfold visitComparisonCall
  split
  · simp only [hlookup]
    exact run_fail (List.mem_append_right _ List.mem_cons_self)
  · exact run_fail List.mem_cons_self

/-- 印字できた呼び出しが通った経路。 -/
theorem visitCall_ok (h : visitCall ctx visit name args params distinct s = .ok (t, s')) :
    ctx.toLowerCase name = "timebucket" ∨ (comparisonMapping.lookup name).isSome ∨
      name ∉ objectPrototype ∧ ∃ f, InRange f args.length ∧
        calledName t = some (functionPiece f).text ∧
        (findFunction ctx.toLowerCase aggregations name = some f ∨
          findFunction ctx.toLowerCase aggregations name = none ∧
            findFunction ctx.toLowerCase clickhouseFunctions name = some f) := by
  unfold visitCall at h
  obtain ⟨s₁, s₂, hget, h⟩ := StateE.bind_eq_ok.mp h
  obtain ⟨rfl, rfl⟩ := StateE.get_eq_ok.mp hget
  by_cases hbucket : ctx.toLowerCase name = "timebucket"
  · exact .inl hbucket
  rw [if_neg hbucket] at h
  by_cases hcompare : (comparisonMapping.lookup name).isSome
  · exact .inr (.inl hcompare)
  by_cases hproto : name ∈ objectPrototype
  · rw [if_pos (.inr hproto)] at h
    exact absurd h (run_visitComparisonCall_inherited
      (Option.not_isSome_iff_eq_none.mp hcompare))
  rw [if_neg (not_or.mpr ⟨hcompare, hproto⟩)] at h
  refine .inr (.inr ⟨hproto, ?_⟩)
  cases hagg : findFunction ctx.toLowerCase aggregations name with
  | some f =>
    simp only [hagg] at h
    cases hargs : validateFunctionArgs args.length f name "Aggregation" with
    | error e => simp only [hargs] at h; cases h
    | ok u =>
      simp only [hargs] at h
      cases hnest : enclosingAggregation ctx.toLowerCase s.stack.tail with
      | some outer => simp only [hnest] at h; cases h
      | none =>
        simp only [hnest] at h
        exact ⟨f, validateFunctionArgs_iff.mp hargs, calledName_functionCall h, .inl rfl⟩
  | none =>
    simp only [hagg] at h
    cases hfn : findFunction ctx.toLowerCase clickhouseFunctions name with
    | some f =>
      simp only [hfn] at h
      cases hargs : validateFunctionArgs args.length f name "Function" with
      | error e => simp only [hargs] at h; cases h
      | ok u =>
        simp only [hargs] at h
        exact ⟨f, validateFunctionArgs_iff.mp hargs, calledName_functionCall h, .inr ⟨rfl, rfl⟩⟩
    | none => simp only [hfn] at h; cases h

/-- 表から見つかった関数は、引数の個数が範囲にあれば印字できる。 -/
theorem visitCall_total (hv : ∀ e s, ∃ r, visit e s = .ok r)
    (hbucket : ctx.toLowerCase name ≠ "timebucket")
    (hcompare : comparisonMapping.lookup name = none) (hproto : name ∉ objectPrototype)
    {f : FunctionMeta} (hargs : InRange f args.length)
    (hf : findFunction ctx.toLowerCase aggregations name = some f ∨
      findFunction ctx.toLowerCase aggregations name = none ∧
        findFunction ctx.toLowerCase clickhouseFunctions name = some f)
    (hnest : enclosingAggregation ctx.toLowerCase s.stack.tail = none) :
    ∃ r, visitCall ctx visit name args params distinct s = .ok r := by
  have hcond : ¬ ((comparisonMapping.lookup name).isSome ∨ name ∈ objectPrototype) := by
    simp [hcompare, hproto]
  rcases hf with hagg | ⟨hagg, hfn⟩
  · obtain ⟨r, hr⟩ := visitFunctionCall_total hv f args params distinct s
    refine ⟨r, StateE.bind_eq_ok.mpr ⟨s, s, rfl, ?_⟩⟩
    rw [if_neg hbucket, if_neg hcond]
    simp only [hagg, validateFunctionArgs_iff.mpr hargs, hnest]
    exact hr
  · obtain ⟨r, hr⟩ := visitFunctionCall_total hv f args params false s
    refine ⟨r, StateE.bind_eq_ok.mpr ⟨s, s, rfl, ?_⟩⟩
    rw [if_neg hbucket, if_neg hcond]
    simp only [hagg, hfn, validateFunctionArgs_iff.mpr hargs]
    exact hr

end Call

/-! ## 主張の三つの部分 -/

section Parts

variable {ctx : PrinterContext} {name : String} {n : Nat}

theorem functionPiece_text {f : FunctionMeta} (h : WellFormedEntry f) :
    f.clickhouseName = some (functionPiece f).text := by
  obtain ⟨⟨ch, hch, -⟩, -⟩ := h
  rw [Option.mem_def] at hch
  simp [functionPiece, hch, Piece.text]

theorem callsAllowed_of_not_reaches (h : ¬ ReachesInherited ctx.toLowerCase name) :
    CallsAllowed ctx name n := by
  intro visit args params distinct s t s' hlen hr
  rcases visitCall_ok hr with hbucket | hcompare | ⟨hproto, f, hargs, hcalled, hf⟩
  · exact .inl hbucket
  · exact .inr (.inl hcompare)
  by_cases hbucket : ctx.toLowerCase name = "timebucket"
  · exact .inl hbucket
  by_cases hcompare : (comparisonMapping.lookup name).isSome
  · exact .inr (.inl hcompare)
  have hlisted : Listed ctx.toLowerCase name f := by
    rcases hf with hagg | ⟨hagg, hfn⟩
    · rcases findFunction_cases hproto hagg with hentry | ⟨hl, -, hin, -⟩
      · exact .inl hentry
      · exact absurd ⟨hbucket, Option.not_isSome_iff_eq_none.mp hcompare, hproto, hl, hin⟩ h
    · rcases findFunction_cases hproto hfn with hentry | ⟨-, -, hin, -⟩
      · exact .inr hentry
      -- 小文字の名前が継承されていれば、集約の表の検索も何かを返す
      · have hsome := findFunction_isSome_of_inherited hin (aggregations_lookup_inherited _ hin)
        rw [hagg] at hsome
        cases hsome
  rw [hcalled]
  exact .inr (.inr ⟨f, hlisted, hlen ▸ hargs, functionPiece_text hlisted.wellFormed⟩)

/-- 部分木を空に印字する visitor。 -/
def visitEmpty : Expr → M Sql := fun _ => pure (.seq [])

theorem visitEmpty_total : ∀ e s, ∃ r, visitEmpty e s = .ok r := fun _ _ => ⟨_, rfl⟩

theorem not_callsAllowed_of_reaches (h : ReachesInherited ctx.toLowerCase name) :
    ¬ CallsAllowed ctx name n := by
  intro hall
  have hl := aggregations_lookup_inherited _ h.inherited
  have hfind :
      findFunction ctx.toLowerCase aggregations name = some { clickhouseName := none } := by
    unfold findFunction FunctionTable.get
    simp [h.notAggregation, h.notInherited, hl, h.inherited]
  have hlen : (List.replicate n Expr.absent).length = n := List.length_replicate
  obtain ⟨⟨t, s'⟩, hr⟩ :
      ∃ r, visitCall ctx visitEmpty name (List.replicate n .absent) none false {} = .ok r :=
    visitCall_total visitEmpty_total h.notBucket h.notCompare h.notInherited
      ⟨Nat.zero_le _, fun _ hm => by cases hm⟩ (.inl hfind) rfl
  have hcalled : calledName t = some "undefined" := by
    rcases visitCall_ok hr with hb | hc | ⟨-, f, -, hcalled, hagg | ⟨hagg, -⟩⟩
    · exact absurd hb h.notBucket
    · rw [h.notCompare] at hc; cases hc
    · rw [hfind] at hagg
      cases hagg
      exact hcalled
    · rw [hfind] at hagg
      cases hagg
  rcases hall visitEmpty _ none false {} t s' hlen hr with hb | hc | ⟨f, hf, -, hout⟩
  · exact h.notBucket hb
  · rw [h.notCompare] at hc; cases hc
  · obtain ⟨⟨ch, hch, hne⟩, -⟩ := hf.wellFormed
    rw [hcalled] at hout
    rw [Option.mem_def, hout] at hch
    cases hch
    exact hne rfl

theorem windowAllowed_iff :
    WindowAllowed ctx name n ↔ Allowed ctx.toLowerCase name n (some name) := by
  constructor
  · intro h
    have hfail : NoFail (visitWindowFunction name (List.replicate n .absent) none none) := by
      show NoFail ([Atom.text (.verbatim name)] ++ kw "(" ++ visitAll ", " _ ++ kw ")")
      refine (NoFail.append ?_ (noFail_visitAll _ _)).append (noFail_kw _)
      exact fun e he => by simp [kw] at he
    obtain ⟨⟨t, s'⟩, hr⟩ := run_total visitEmpty_total hfail {}
    have := h visitEmpty (List.replicate n .absent) [] none none {} t s' List.length_replicate
      (StateE.bind_eq_ok.mpr ⟨{}, {}, rfl, hr⟩)
    rwa [calledName_run hr] at this
  · intro h visit args exprs overIdentifier overExpr s t s' _ hr
    obtain ⟨s₁, s₂, hget, hr⟩ := StateE.bind_eq_ok.mp hr
    obtain ⟨rfl, rfl⟩ := StateE.get_eq_ok.mp hget
    have hhead : ∃ rest,
        exprTemplate ctx s (.windowFunction name args exprs overIdentifier overExpr) =
          .text (.verbatim name) :: rest := by
      show ∃ rest, visitWindowFunction name args overIdentifier overExpr = _
      unfold visitWindowFunction
      dsimp only
      split
      · exact ⟨_, rfl⟩
      · split
        · exact ⟨_, rfl⟩
        · exact ⟨_, rfl⟩
    obtain ⟨rest, hrest⟩ := hhead
    rw [hrest] at hr
    rw [calledName_run hr]
    exact h

/-- table が無ければ、どの引数についても `timeBucket()` は例外になる。 -/
theorem run_visitTimeBucket_nil {visit : Expr → M Sql} {args : List Expr} {s s' : PrinterState}
    {t : Sql} : run visit (visitTimeBucket ctx {} args) s ≠ .ok (t, s') := by
  unfold visitTimeBucket
  split
  · exact run_fail List.mem_cons_self
  · exact run_fail List.mem_cons_self

theorem callable_of_accepted (h : Accepted ctx name) : Callable ctx.toLowerCase name := by
  obtain ⟨f, hf, hprints⟩ := h
  obtain ⟨⟨t, s'⟩, hr⟩ := hprints f.minArgs hf.wellFormed.2.2 visitEmpty visitEmpty_total
    (List.replicate f.minArgs .absent) none false {} List.length_replicate rfl rfl
  obtain ⟨s₁, s₂, hget, hr⟩ := StateE.bind_eq_ok.mp hr
  obtain ⟨rfl, rfl⟩ := StateE.get_eq_ok.mp hget
  have hbucket : ctx.toLowerCase name ≠ "timebucket" := by
    intro hbucket
    rw [if_pos hbucket] at hr
    exact run_visitTimeBucket_nil hr
  refine ⟨hbucket, ?_, f, hf⟩
  by_cases hcompare : (comparisonMapping.lookup name).isSome
  · exact .inl hcompare
  · refine .inr fun hproto => ?_
    rw [if_neg hbucket, if_pos (.inr hproto)] at hr
    exact run_visitComparisonCall_inherited (Option.not_isSome_iff_eq_none.mp hcompare) hr

theorem extractColumnSchema_nil (e : Expr) : extractColumnSchema [] e = none := by
  unfold extractColumnSchema resolveFieldToColumnSchema
  split
  · split <;> rfl
  · rfl

theorem noFail_visitCompareOperation {s : PrinterState} (hs : s.tableContexts = []) {op : CompareOp}
    (hop : op ≠ .inCohort ∧ op ≠ .notInCohort) (left right : Expr) :
    NoFail (visitCompareOperation ctx s op left right) := by
  have hleft : compareLeft s op left = visitOne left := by
    have hnone : getTextColumnForExpression [] left = none := by
      unfold getTextColumnForExpression getTextColumnForField
      split
      · split <;> rfl
      · rfl
    unfold compareLeft
    rw [hs, hnone]
    cases op.usesTextColumn <;> rfl
  have hcall (before middle after : String) (e e' : Expr) :
      NoFail (compareCall before (visitOne e) middle (visitOne e') after) :=
    ((((noFail_kw before).append (noFail_visitOne e)).append (noFail_kw middle)).append
      (noFail_visitOne e')).append (noFail_kw after)
  have hnull (equalsName nullName : String) (e : Expr) :
      NoFail (compareNull equalsName nullName (visitOne e) none) :=
    ((noFail_kw nullName).append (noFail_visitOne e)).append (noFail_kw ")")
  unfold visitCompareOperation
  rw [hs, extractColumnSchema_nil, extractColumnSchema_nil, hleft]
  dsimp only
  cases op with
  | inCohort => exact absurd rfl hop.1
  | notInCohort => exact absurd rfl hop.2
  | eq | notEq =>
    dsimp only
    split
    · exact hnull _ _ _
    · split
      · exact hnull _ _ _
      · exact hcall _ _ _ _ _
  | _ => exact hcall _ _ _ _ _

theorem accepted_of_callable (h : Callable ctx.toLowerCase name) : Accepted ctx name := by
  cases hcompare : comparisonMapping.lookup name with
  | some op =>
    refine ⟨_, .inr (.inl (comparison_listed _ (JsMap.mem_of_get hcompare))), ?_⟩
    rintro n ⟨hmin, hmax⟩ visit hv args params distinct s hlen hs -
    have htwo : args.length = 2 := by
      have := hmax 2 rfl
      have : 2 ≤ n := hmin
      omega
    obtain ⟨left, right, rfl⟩ := List.length_eq_two.mp htwo
    obtain ⟨r, hr⟩ := run_total hv
      (noFail_visitCompareOperation hs (comparison_printable _ (JsMap.mem_of_get hcompare)) left right)
      s
    refine ⟨r, StateE.bind_eq_ok.mpr ⟨s, s, rfl, ?_⟩⟩
    rw [if_neg h.notBucket, if_pos (.inl (by rw [hcompare]; rfl))]
    unfold visitComparisonCall
    simp only [hcompare]
    exact hr
  | none =>
    have hproto : name ∉ objectPrototype := by
      rcases h.notInherited with hsome | hproto
      · rw [hcompare] at hsome; cases hsome
      · exact hproto
    obtain ⟨f, hf⟩ := h.listed
    -- 検索が見つけた関数 `g` の範囲で印字できる
    have hprints (g : FunctionMeta)
        (hg : findFunction ctx.toLowerCase aggregations name = some g ∨
          findFunction ctx.toLowerCase aggregations name = none ∧
            findFunction ctx.toLowerCase clickhouseFunctions name = some g) :
        ∀ n, InRange g n → PrintsCall ctx name n := by
      intro n hn visit hv args params distinct s hlen _ hnest
      exact visitCall_total hv h.notBucket hcompare hproto (hlen ▸ hn) hg hnest
    cases hagg : findFunction ctx.toLowerCase aggregations name with
    | some g =>
      rcases findFunction_cases hproto hagg with hentry | ⟨-, -, -, rfl⟩
      · exact ⟨g, .inl hentry, hprints g (.inl hagg)⟩
      -- 継承した property には引数の制限が無い
      · exact ⟨f, hf, fun n _ => hprints _ (.inl hagg) n ⟨Nat.zero_le n, fun m hm => by cases hm⟩⟩
    | none =>
      have hentry : Entry ctx.toLowerCase clickhouseFunctions name f := by
        rcases hf with hf | hf
        · have hsome := findFunction_isSome hf
          rw [hagg] at hsome
          cases hsome
        · exact hf
      obtain ⟨g, hfn⟩ := Option.isSome_iff_exists.mp (findFunction_isSome hentry)
      rcases findFunction_cases hproto hfn with hg | ⟨-, -, hin, -⟩
      · exact ⟨g, .inr hg, hprints g (.inr ⟨hagg, hfn⟩)⟩
      · have hsome := findFunction_isSome_of_inherited hin (aggregations_lookup_inherited _ hin)
        rw [hagg] at hsome
        cases hsome

end Parts

/-! ## 主張 -/

/-- **許可表の関数だけが呼ばれるのは、次の三つが成り立つとき、かつそのときに限る。小文字にした名前だけが
継承した property 名であることが無く、window 関数としての名前そのものが許可表の出力名で、大小だけが違う
鍵があれば一致する entry もある。** -/
theorem allowListed_iff (ctx : PrinterContext) (name : String) (n : Nat) :
    AllowListed ctx name n ↔ ¬ ReachesInherited ctx.toLowerCase name ∧
      Allowed ctx.toLowerCase name n (some name) ∧
      (SameIgnoringCase ctx.toLowerCase name → Callable ctx.toLowerCase name) := by
  constructor
  · rintro ⟨hcalls, hwindows, hcase⟩
    exact ⟨fun h => not_callsAllowed_of_reaches h hcalls, windowAllowed_iff.mp hwindows,
      fun h => callable_of_accepted (hcase h)⟩
  · rintro ⟨hcalls, hwindows, hcase⟩
    exact ⟨callsAllowed_of_not_reaches hcalls, windowAllowed_iff.mpr hwindows,
      fun h => accepted_of_callable (hcase h)⟩

/-- window 関数としてなら、許可表に無い `sleepEachRow` も印字される。 -/
theorem sleep_window_is_printed : ¬ ∀ ctx name n, AllowListed ctx name n := by
  intro h
  have hwindow := (h emptyContext "sleepEachRow" 1).windows visitEmpty [.absent] [] none none {}
    (.seq [.text (.verbatim "sleepEachRow"), .text (.keyword "("), .seq [], .text (.keyword ")")])
    {} rfl rfl
  rcases hwindow with hbucket | hcompare | ⟨f, hf, -, hout⟩
  · exact absurd hbucket (by decide)
  · exact absurd hcompare (by decide +kernel)
  · have hnone : aggregations.lookup "sleepEachRow" = none ∧
        clickhouseFunctions.lookup "sleepEachRow" = none := by decide +kernel
    have hno (table : FunctionTable) (ht : table.lookup "sleepEachRow" = none) :
        ¬ Entry id table "sleepEachRow" f := by
      intro hentry
      rcases hentry with h | ⟨-, h, -⟩
      · rw [ht] at h; cases h
      · rw [id, ht] at h; cases h
    rcases hf with hf | hf
    · exact hno _ hnone.1 hf
    · exact hno _ hnone.2 hf

end Tsql
