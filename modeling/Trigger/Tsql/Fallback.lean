import Trigger.Tsql.Visitors

/-!
# 既定の条件の挿入

`index.ts` の `isColumnReferencedInExpression` と `injectFallbackConditions`。利用者が WHERE で触れていない
column に、既定の条件を加える。

探索（`Mentions`）は六種類の節だけを降り、field の連鎖のどの要素とも比べる。利用者が column に触れること
（`Refers`）は、入れ子の SELECT を除くどの深さの field も数え、`column` か `table.column` だけを数える。

* `isColumnReferencedInExpression_iff` — 探索が見つける field
* `injected_iff` — 挿入が正しいのは、既定の条件を持つどの column でも二つが一致するときに限る
* `call_hides_filter` — 一致しない WHERE
-/

namespace Tsql

open Infra

/-! ## 探索 -/

mutual
/-- `isColumnReferencedInExpression`。 -/
def isColumnReferencedInExpression (column : String) : Expr → Bool
  | .and exprs => someReferenced column exprs
  | .or exprs => someReferenced column exprs
  | .compare _ left right =>
    isColumnReferencedInExpression column left || isColumnReferencedInExpression column right
  | .between expr _ _ _ => isColumnReferencedInExpression column expr
  | .field chain => chain.any (· == .name column)
  | .not expr => isColumnReferencedInExpression column expr
  | _ => false

/-- `exprs.some((e) => isColumnReferencedInExpression(e, column))`。 -/
def someReferenced (column : String) : List Expr → Bool
  | [] => false
  | e :: exprs => isColumnReferencedInExpression column e || someReferenced column exprs
end

/-- WHERE が無ければ、どの column にも触れていない。 -/
def isColumnReferenced (condition : Option Expr) (column : String) : Bool :=
  match condition with
  | none => false
  | some e => isColumnReferencedInExpression column e

/-! ## 挿入 -/

/-- `createFallbackExpression`。printer の `createConditionExpression` と同じものを、table の名前なしで作る。 -/
def createFallbackExpression (column : String) (fallback : WhereClauseCondition) : Expr :=
  createConditionExpression column fallback ""

/-- WHERE が触れていない column の条件。 -/
def fallbackExprs (fallbacks : Record WhereClauseCondition) (existingWhere : Option Expr) :
    List Expr :=
  (fallbacks.entries.filter fun c => !isColumnReferenced existingWhere c.1).map
    fun c => createFallbackExpression c.1 c.2

/-- 条件を加えた WHERE。 -/
def combineWhere (exprs : List Expr) (existingWhere : Option Expr) : Expr :=
  match existingWhere, exprs with
  | none, [e] => e
  | none, exprs => .and exprs
  | some w, exprs => .and (exprs ++ [w])

/-- 一つの SELECT への挿入。 -/
def injectIntoSelect (fallbacks : Record WhereClauseCondition) (q : SelectQuery) : SelectQuery :=
  match fallbackExprs fallbacks q.where with
  | [] => q
  | e :: exprs => { q with «where» := some (combineWhere (e :: exprs) q.where) }

mutual
/-- `injectFallbackConditions`。 -/
def injectFallbackConditions (fallbacks : Record WhereClauseCondition) : Expr → Expr
  | .selectSetQuery initial subsequent =>
    .selectSetQuery (injectFallbackConditions fallbacks initial)
      (injectSubsequent fallbacks subsequent)
  | .selectQuery q => .selectQuery (injectIntoSelect fallbacks q)
  | e => e

def injectSubsequent (fallbacks : Record WhereClauseCondition) :
    List (SetOperator × Expr) → List (SetOperator × Expr)
  | [] => []
  | (op, e) :: rest => (op, injectFallbackConditions fallbacks e) :: injectSubsequent fallbacks rest
end

/-! ## 正しい挿入 -/

/-- 入れ子の SELECT の中を除いた、直下の部分木。 -/
def Expr.innerChildren (e : Expr) : List Expr :=
  if e.isSelectQuery || e.isSelectSetQuery then [] else e.children

/-- field が column を指す。`column` か `table.column` である。 -/
def RefersTo (column : String) (chain : Chain) : Prop :=
  chain = [.name column] ∨ ∃ table : String, chain = [.name table, .name column]

/-- WHERE のどこかの field が column を指す。 -/
def Refers (condition : Option Expr) (column : String) : Prop :=
  ∃ e ∈ condition, ∃ f, Relation.ReflTransGen (fun a b => b ∈ a.innerChildren) e f ∧
    ∃ chain, f = .field chain ∧ RefersTo column chain

mutual
/-- 最上位の連言の項。 -/
def conjuncts : Expr → List Expr
  | .and exprs => conjunctsAll exprs
  | e => [e]

def conjunctsAll : List Expr → List Expr
  | [] => []
  | e :: exprs => conjuncts e ++ conjunctsAll exprs
end

def topConjuncts (condition : Option Expr) : List Expr := conjunctsAll condition.toList

open Classical in
/-- 触れられていない column の条件だけが連言の項に加わり、ほかは変わらない。 -/
structure AddsExactly (fallbacks : Record WhereClauseCondition) (q q' : SelectQuery) : Prop where
  others : q' = { q with «where» := q'.where }
  added : topConjuncts q'.where =
    (fallbacks.entries.filter fun c => ¬ Refers q.where c.1).map
      (fun c => createFallbackExpression c.1 c.2) ++ topConjuncts q.where

mutual
/-- 集合演算のどの SELECT にも、正しく挿入されている。 -/
def Injected (fallbacks : Record WhereClauseCondition) : Expr → Expr → Prop
  | .selectSetQuery initial subsequent, e' => ∃ initial' subsequent',
      e' = .selectSetQuery initial' subsequent' ∧ Injected fallbacks initial initial' ∧
        InjectedAll fallbacks subsequent subsequent'
  | .selectQuery q, e' => ∃ q', e' = .selectQuery q' ∧ AddsExactly fallbacks q q'
  | e, e' => e' = e

def InjectedAll (fallbacks : Record WhereClauseCondition) :
    List (SetOperator × Expr) → List (SetOperator × Expr) → Prop
  | [], l => l = []
  | (op, e) :: rest, l => ∃ e' rest', l = (op, e') :: rest' ∧ Injected fallbacks e e' ∧
      InjectedAll fallbacks rest rest'
end

mutual
/-- 集合演算の枝の SELECT。 -/
def arms : Expr → List SelectQuery
  | .selectSetQuery initial subsequent => arms initial ++ armsAll subsequent
  | .selectQuery q => [q]
  | _ => []

def armsAll : List (SetOperator × Expr) → List SelectQuery
  | [] => []
  | (_, e) :: rest => arms e ++ armsAll rest
end

/-! ## 探索が見る場所 -/

/-- 探索が降りる部分木。 -/
def Expr.walkChildren : Expr → List Expr
  | .and exprs | .or exprs => exprs
  | .compare _ left right => [left, right]
  | .between expr _ _ _ => [expr]
  | .not expr => [expr]
  | _ => []

/-- 探索が届く、column の名前を持つ field がある。 -/
def MentionsIn (column : String) (e : Expr) : Prop :=
  ∃ f, Relation.ReflTransGen (fun a b => b ∈ a.walkChildren) e f ∧
    ∃ chain, f = .field chain ∧ .name column ∈ chain

/-- WHERE の探索が、column の名前を持つ field に届く。 -/
def Mentions (condition : Option Expr) (column : String) : Prop :=
  ∃ e ∈ condition, MentionsIn column e

/-- 節が目当ての field でなければ、目当ての field は子のどれかにある。 -/
theorem reaches_iff {step : Expr → List Expr} {e : Expr} {p : Expr → Prop} (hp : ¬ p e) :
    (∃ f, Relation.ReflTransGen (fun a b => b ∈ step a) e f ∧ p f) ↔
      ∃ c ∈ step e, ∃ f, Relation.ReflTransGen (fun a b => b ∈ step a) c f ∧ p f := by
  constructor
  · rintro ⟨f, h, hf⟩
    rcases Relation.ReflTransGen.cases_head h with rfl | ⟨c, hc, h⟩
    · exact absurd hf hp
    · exact ⟨c, hc, f, h, hf⟩
  · rintro ⟨c, hc, f, h, hf⟩
    exact ⟨f, .head hc h, hf⟩

variable {column : String}

theorem mentionsIn_iff (e : Expr) (cs : List Expr) (hc : e.walkChildren = cs)
    (h : ∀ chain, e ≠ .field chain) : MentionsIn column e ↔ ∃ c ∈ cs, MentionsIn column c := by
  rw [← hc]
  exact reaches_iff fun ⟨chain, he, _⟩ => h chain he

theorem mentionsIn_field (column : String) (chain : Chain) :
    MentionsIn column (.field chain) ↔ .name column ∈ chain := by
  constructor
  · rintro ⟨f, h, chain', rfl, hmem⟩
    rcases Relation.ReflTransGen.cases_head h with heq | ⟨c, hc, -⟩
    · rw [Expr.field.inj heq]
      exact hmem
    · cases hc
  · exact fun h => ⟨_, .refl, chain, rfl, h⟩

mutual
/-- **探索が見つけるのは、届く field の連鎖に column の名前が現れるときである。** -/
theorem isColumnReferencedInExpression_iff (column : String) (e : Expr) :
    isColumnReferencedInExpression column e = true ↔ MentionsIn column e := by
  unfold isColumnReferencedInExpression
  split
  · next exprs =>
    rw [someReferenced_iff column exprs,
      mentionsIn_iff (.and exprs) exprs rfl fun _ => Expr.noConfusion]
  · next exprs =>
    rw [someReferenced_iff column exprs,
      mentionsIn_iff (.or exprs) exprs rfl fun _ => Expr.noConfusion]
  · next left right =>
    rw [Bool.or_eq_true, isColumnReferencedInExpression_iff column left,
      isColumnReferencedInExpression_iff column right,
      mentionsIn_iff (.compare _ left right) [left, right] rfl fun _ => Expr.noConfusion]
    simp only [List.mem_cons, List.not_mem_nil, or_false, exists_eq_or_imp, exists_eq_left]
  · next expr _ _ _ =>
    rw [isColumnReferencedInExpression_iff column expr,
      mentionsIn_iff (.between expr _ _ _) [expr] rfl fun _ => Expr.noConfusion]
    simp only [List.mem_singleton, exists_eq_left]
  · next chain =>
    rw [mentionsIn_field, List.any_eq_true]
    simp
  · next expr =>
    rw [isColumnReferencedInExpression_iff column expr,
      mentionsIn_iff (.not expr) [expr] rfl fun _ => Expr.noConfusion]
    simp only [List.mem_singleton, exists_eq_left]
  · next hand hor hcompare hbetween hfield hnot =>
    rw [mentionsIn_iff e [] ?_ hfield]
    · simp
    · unfold Expr.walkChildren
      split
      · exact absurd rfl (hand _)
      · exact absurd rfl (hor _)
      · exact absurd rfl (hcompare _ _ _)
      · exact absurd rfl (hbetween _ _ _ _)
      · exact absurd rfl (hnot _)
      · rfl

theorem someReferenced_iff (column : String) (exprs : List Expr) :
    someReferenced column exprs = true ↔ ∃ e ∈ exprs, MentionsIn column e := by
  cases exprs with
  | nil => simp [someReferenced]
  | cons e exprs =>
    rw [someReferenced, Bool.or_eq_true, isColumnReferencedInExpression_iff column e,
      someReferenced_iff column exprs, List.exists_mem_cons_iff]
end

theorem isColumnReferenced_iff (condition : Option Expr) (column : String) :
    isColumnReferenced condition column = true ↔ Mentions condition column := by
  cases condition with
  | none => exact ⟨fun h => absurd h Bool.false_ne_true, fun ⟨e, he, _⟩ => by cases he⟩
  | some e =>
    refine (isColumnReferencedInExpression_iff column e).trans ⟨fun h => ⟨e, rfl, h⟩, ?_⟩
    rintro ⟨e', he, h⟩
    rw [Option.mem_some_iff.mp he]
    exact h

/-! ## 一つの SELECT -/

theorem conjunctsAll_append : ∀ es es' : List Expr,
    conjunctsAll (es ++ es') = conjunctsAll es ++ conjunctsAll es'
  | [], _ => rfl
  | e :: es, es' => by
    rw [List.cons_append, conjunctsAll, conjunctsAll, conjunctsAll_append es es',
      List.append_assoc]

/-- 既定の条件は連言ではなく、column の名前から決まる field を持つ。 -/
theorem conjuncts_createFallbackExpression (column : String) (fallback : WhereClauseCondition) :
    conjuncts (createFallbackExpression column fallback) =
      [createFallbackExpression column fallback] := by
  cases fallback <;> rfl

theorem createFallbackExpression_inj {c d : String} {f g : WhereClauseCondition}
    (h : createFallbackExpression c f = createFallbackExpression d g) : c = d := by
  have hfield : guardField c "" = guardField d "" := by
    cases f <;> cases g <;> simp_all [createFallbackExpression, createConditionExpression]
  simpa [guardField] using hfield

theorem conjunctsAll_fallbacks (entries : List (String × WhereClauseCondition)) :
    conjunctsAll (entries.map fun c => createFallbackExpression c.1 c.2) =
      entries.map fun c => createFallbackExpression c.1 c.2 := by
  induction entries with
  | nil => rfl
  | cons c entries ih =>
    rw [List.map_cons, conjunctsAll, conjuncts_createFallbackExpression, ih]
    rfl

/-- 加えた後の連言の項は、加えた条件と元の項である。 -/
theorem topConjuncts_combineWhere (exprs : List Expr) (w : Option Expr) :
    topConjuncts (some (combineWhere exprs w)) = conjunctsAll exprs ++ topConjuncts w := by
  unfold combineWhere topConjuncts
  split
  · exact (List.append_nil _).symm
  · show conjunctsAll exprs ++ [] = conjunctsAll exprs ++ []
    rfl
  · show conjunctsAll (exprs ++ [_]) ++ [] = _
    rw [List.append_nil, conjunctsAll_append]
    rfl

theorem topConjuncts_inject (fallbacks : Record WhereClauseCondition) (q : SelectQuery) :
    topConjuncts (injectIntoSelect fallbacks q).where =
      fallbackExprs fallbacks q.where ++ topConjuncts q.where := by
  have hself : conjunctsAll (fallbackExprs fallbacks q.where) = fallbackExprs fallbacks q.where :=
    conjunctsAll_fallbacks _
  unfold injectIntoSelect
  cases hexprs : fallbackExprs fallbacks q.where with
  | nil => rfl
  | cons e exprs =>
    rw [hexprs] at hself
    exact (topConjuncts_combineWhere _ _).trans (by rw [hself])

/-- 二つの選び方の条件の並びが等しいのは、どの column でも選び方が等しいときに限る。 -/
theorem filter_map_eq_iff (p r : String → Bool) (entries : List (String × WhereClauseCondition)) :
    (entries.filter fun c => p c.1).map (fun c => createFallbackExpression c.1 c.2) =
        (entries.filter fun c => r c.1).map (fun c => createFallbackExpression c.1 c.2) ↔
      ∀ c ∈ entries, p c.1 = r c.1 := by
  constructor
  · intro h c hc
    have hmem : ∀ f : String → Bool, f c.1 = true ↔ createFallbackExpression c.1 c.2 ∈
        (entries.filter fun c => f c.1).map fun c => createFallbackExpression c.1 c.2 := fun f => by
      constructor
      · exact fun hf => List.mem_map_of_mem (List.mem_filter.mpr ⟨hc, hf⟩)
      · intro hm
        obtain ⟨d, hd, heq⟩ := List.mem_map.mp hm
        rw [← createFallbackExpression_inj heq]
        exact (List.mem_filter.mp hd).2
    rw [Bool.eq_iff_iff, hmem p, hmem r, h]
  · exact fun h => congrArg _ (List.filter_congr h)

/-- 探索と、利用者が指す column の一致。 -/
structure Agrees (condition : Option Expr) (column : String) : Prop where
  seen : Refers condition column → Mentions condition column
  real : Mentions condition column → Refers condition column

theorem addsExactly_iff (fallbacks : Record WhereClauseCondition) (q : SelectQuery) :
    AddsExactly fallbacks q (injectIntoSelect fallbacks q) ↔
      ∀ c ∈ fallbacks.entries, Agrees q.where c.1 := by
  classical
  have hothers : injectIntoSelect fallbacks q =
      { q with «where» := (injectIntoSelect fallbacks q).where } := by
    unfold injectIntoSelect
    split <;> rfl
  have hadded : topConjuncts (injectIntoSelect fallbacks q).where =
      (fallbacks.entries.filter fun c => ¬ Refers q.where c.1).map
        (fun c => createFallbackExpression c.1 c.2) ++ topConjuncts q.where ↔
      ∀ c ∈ fallbacks.entries, Agrees q.where c.1 := by
    rw [topConjuncts_inject, List.append_left_inj, fallbackExprs]
    refine (filter_map_eq_iff (fun c => !isColumnReferenced q.where c)
      (fun c => decide (¬ Refers q.where c)) _).trans (forall₂_congr fun c _ => ?_)
    rw [Bool.eq_iff_iff, Bool.not_eq_true', ← Bool.not_eq_true, isColumnReferenced_iff,
      decide_eq_true_iff, not_iff_not]
    exact ⟨fun h => ⟨h.mpr, h.mp⟩, fun h => ⟨h.real, h.seen⟩⟩
  rw [← hadded]
  exact ⟨fun h => h.added, fun h => ⟨hothers, h⟩⟩

/-! ## 集合演算 -/

variable {fallbacks : Record WhereClauseCondition}

/-- 枝のどの SELECT でも、既定の条件を持つ column の探索が、利用者が指す column と一致する。 -/
def AgreesOn (fallbacks : Record WhereClauseCondition) (qs : List SelectQuery) : Prop :=
  ∀ q ∈ qs, ∀ c ∈ fallbacks.entries, Agrees q.where c.1

theorem agreesOn_append (qs qs' : List SelectQuery) :
    AgreesOn fallbacks (qs ++ qs') ↔ AgreesOn fallbacks qs ∧ AgreesOn fallbacks qs' :=
  List.forall_mem_append

mutual
theorem injected_iff_agreesOn (e : Expr) :
    Injected fallbacks e (injectFallbackConditions fallbacks e) ↔
      AgreesOn fallbacks (arms e) := by
  unfold injectFallbackConditions arms
  split
  · next initial subsequent =>
    rw [agreesOn_append, ← injected_iff_agreesOn initial, ← injectedAll_iff_agreesOn subsequent,
      Injected]
    constructor
    · rintro ⟨_, _, heq, hinitial, hsubsequent⟩
      injection heq with hi hs
      subst hi hs
      exact ⟨hinitial, hsubsequent⟩
    · exact fun ⟨hinitial, hsubsequent⟩ => ⟨_, _, rfl, hinitial, hsubsequent⟩
  · next q =>
    rw [AgreesOn, List.forall_mem_singleton, ← addsExactly_iff]
    unfold Injected
    constructor
    · rintro ⟨_, heq, h⟩
      injection heq with hq
      subst hq
      exact h
    · exact fun h => ⟨_, rfl, h⟩
  · next hset hselect =>
    refine iff_of_true ?_ fun q hq => absurd hq List.not_mem_nil
    unfold Injected
    split
    · exact absurd rfl (hset _ _)
    · exact absurd rfl (hselect _)
    · rfl

theorem injectedAll_iff_agreesOn (rest : List (SetOperator × Expr)) :
    InjectedAll fallbacks rest (injectSubsequent fallbacks rest) ↔
      AgreesOn fallbacks (armsAll rest) := by
  cases rest with
  | nil =>
    refine iff_of_true ?_ fun q hq => absurd hq List.not_mem_nil
    unfold InjectedAll injectSubsequent
    rfl
  | cons entry rest =>
    obtain ⟨op, e⟩ := entry
    rw [armsAll, agreesOn_append, ← injected_iff_agreesOn e, ← injectedAll_iff_agreesOn rest,
      injectSubsequent, InjectedAll]
    constructor
    · rintro ⟨_, _, heq, he, hrest⟩
      injection heq with hentry htail
      injection hentry with _ hexpr
      subst hexpr htail
      exact ⟨he, hrest⟩
    · exact fun ⟨he, hrest⟩ => ⟨_, _, rfl, he, hrest⟩
end

/--
**挿入が正しいのは、枝のどの SELECT でも、既定の条件を持つ column を WHERE のどこかの field が指すことと、探索が
届く field にその名前が現れることが一致するときに限る。**
-/
theorem injected_iff (fallbacks : Record WhereClauseCondition) (ast : Expr) :
    Injected fallbacks ast (injectFallbackConditions fallbacks ast) ↔
      ∀ q ∈ arms ast, ∀ c ∈ fallbacks.entries, Agrees q.where c.1 :=
  injected_iff_agreesOn ast

/-- `time` の既定の条件。 -/
def timeFallback : Record WhereClauseCondition :=
  ⟨[("time", .compare .gte (.string "2024-01-01"))], by simp⟩

/-- `SELECT … WHERE toDate(time) > '2024-06-01'` -/
def filteredByCall : SelectQuery :=
  { «where» := some (.compare .gt (.call "toDate" [.field [.name "time"]] none false)
      (.constant (.string "2024-06-01"))) }

/-- 関数の引数で触れた column にも、既定の条件が加わる。 -/
theorem call_hides_filter : ¬ ∀ (fallbacks : Record WhereClauseCondition) (ast : Expr),
    Injected fallbacks ast (injectFallbackConditions fallbacks ast) := by
  intro h
  have hinjected := h timeFallback (.selectQuery filteredByCall)
  rw [injected_iff_agreesOn, arms, AgreesOn, List.forall_mem_singleton] at hinjected
  have hagrees := hinjected _ List.mem_cons_self
  have hrefers : Refers filteredByCall.where "time" :=
    ⟨_, rfl, _, .head (List.mem_cons_self) (.head (List.mem_cons_self) .refl), _, rfl, .inl rfl⟩
  have hmentions := (isColumnReferenced_iff _ _).mpr (hagrees.seen hrefers)
  revert hmentions
  decide

end Tsql
