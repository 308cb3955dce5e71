import Trigger.Tsql.Boolean

/-!
# SELECT 文の印字の形

`visitSelectQuery` が成功したときに何が起きたか（`visitSelectQuery_eq_ok`）と、出力から句を取り出す
補題。
-/

namespace Tsql

open Infra

variable {ctx : PrinterContext} {visit : Expr → M Sql}

/-! ## 成功した印字 -/

/-- SELECT 文の出力。最上位でも UNION の項でもなければ括弧で囲む。 -/
def selectResponse (saved : PrinterState) (clauses : List Sql) : Sql :=
  if saved.partOfSelectUnion || saved.isTopLevelQuery then .seq (spaced clauses)
  else .seq [.kw "(", .seq (spaced clauses), .kw ")"]

/-- SELECT 文の印字は、CTE、FROM、残りの句の順に進み、最後に文脈を戻す。 -/
theorem visitSelectQuery_eq_ok {q : SelectQuery} {s s' : PrinterState} {t : Sql}
    (h : visitSelectQuery ctx visit q s = .ok (t, s')) :
    ∃ ctes s₁ joined condition s₂ clauses s₃,
      visitNamed visit q.ctes (enterSelect s) = .ok (ctes, s₁) ∧
      visitJoins ctx visit q.selectFrom q.where s₁ = .ok ((joined, condition), s₂) ∧
      visitClauses ctx visit q s.isTopLevelQuery condition (enterColumns ctx q s₂) =
        .ok (clauses, s₃) ∧
      s' = leaveSelect s s₃ ∧ t = selectResponse s (clauses.toList q.distinct ctes joined) := by
  obtain ⟨saved, s₀, hget, h⟩ := StateE.bind_eq_ok.mp h
  obtain ⟨rfl, rfl⟩ := StateE.get_eq_ok.mp hget
  obtain ⟨_, _, hmod, h⟩ := StateE.bind_eq_ok.mp h
  rw [StateE.modify_eq_ok] at hmod
  subst hmod
  obtain ⟨ctes, s₁, hctes, h⟩ := StateE.bind_eq_ok.mp h
  obtain ⟨⟨joined, condition⟩, s₂, hjoins, h⟩ := StateE.bind_eq_ok.mp h
  obtain ⟨_, _, hmod, h⟩ := StateE.bind_eq_ok.mp h
  rw [StateE.modify_eq_ok] at hmod
  subst hmod
  obtain ⟨clauses, s₃, hclauses, h⟩ := StateE.bind_eq_ok.mp h
  obtain ⟨_, _, hmod, h⟩ := StateE.bind_eq_ok.mp h
  rw [StateE.modify_eq_ok] at hmod
  subst hmod
  obtain ⟨rfl, rfl⟩ := StateE.pure_eq_ok.mp h
  exact ⟨ctes, s₁, joined, condition, s₂, clauses, s₃, hctes, hjoins, hclauses, rfl, rfl⟩

/-- 句の印字の列。状態を順に引き渡す。 -/
theorem visitClauses_eq_ok {q : SelectQuery} {top : Bool} {condition : Option Expr}
    {s s' : PrinterState} {c : SelectClauses}
    (h : visitClauses ctx visit q top condition s = .ok (c, s')) :
    ∃ s₁ s₂ s₃ s₄ s₅ s₆ s₇ s₈ s₉,
      visitSelectColumns ctx visit top q.select s = .ok (c.columns, s₁) ∧
      visitNamed visit q.windowExprs s₁ = .ok (c.windows, s₂) ∧
      visitOption visit q.prewhere s₂ = .ok (c.prewhere, s₃) ∧
      visitOption visit condition s₃ = .ok (c.whereSql, s₄) ∧
      visitGroupBy visit q.groupBy s₄ = .ok (c.groupBy, s₅) ∧
      visitHaving visit q.having s₅ = .ok (c.having, s₆) ∧
      visitOrderBy visit q.orderBy s₆ = .ok (c.orderBy, s₇) ∧
      visitArrayJoin visit q.arrayJoinOp q.arrayJoinList s₇ = .ok (c.arrayJoin, s₈) ∧
      visitLimitByClause visit q.limitBy s₈ = .ok (c.limitBy, s₉) ∧
      visitLimit visit (cappedLimit ctx top q.limit) q.limitWithTies q.offset s₉ =
        .ok (c.limit, s') := by
  obtain ⟨columns, s₁, h1, h⟩ := StateE.bind_eq_ok.mp h
  obtain ⟨windows, s₂, h2, h⟩ := StateE.bind_eq_ok.mp h
  obtain ⟨prewhere, s₃, h3, h⟩ := StateE.bind_eq_ok.mp h
  obtain ⟨whereSql, s₄, h4, h⟩ := StateE.bind_eq_ok.mp h
  obtain ⟨groupBy, s₅, h5, h⟩ := StateE.bind_eq_ok.mp h
  obtain ⟨having, s₆, h6, h⟩ := StateE.bind_eq_ok.mp h
  obtain ⟨orderBy, s₇, h7, h⟩ := StateE.bind_eq_ok.mp h
  obtain ⟨arrayJoin, s₈, h8, h⟩ := StateE.bind_eq_ok.mp h
  obtain ⟨limitBy, s₉, h9, h⟩ := StateE.bind_eq_ok.mp h
  obtain ⟨limit, s₁₀, h10, h⟩ := StateE.bind_eq_ok.mp h
  obtain ⟨rfl, rfl⟩ := StateE.pure_eq_ok.mp h
  exact ⟨s₁, s₂, s₃, s₄, s₅, s₆, s₇, s₈, s₉, h1, h2, h3, h4, h5, h6, h7, h8, h9, h10⟩

/-! ## 句の取り出し -/

theorem findClause_append (c : Clause) (l l' : List Sql) :
    findClause c (l ++ l') = (findClause c l).or (findClause c l') := by
  induction l with
  | nil => rfl
  | cons t l ih =>
    cases t with
    | clause c' t =>
      simp only [List.cons_append, findClause]
      split
      · rfl
      · exact ih
    | _ => exact ih

theorem findClause_spaced (c : Clause) : ∀ l : List Sql, findClause c (spaced l) = findClause c l
  | [] => rfl
  | [_] => rfl
  | t :: t' :: l => by
    have ih := findClause_spaced c (t' :: l)
    cases t with
    | clause c' t =>
      simp only [spaced, findClause, Sql.kw]
      rw [ih]
    | _ => exact ih

/-- 句でない、あるいは別の句だけの並び。 -/
theorem findClause_eq_none {c : Clause} {l : List Sql}
    (h : ∀ c' t, Sql.clause c' t ∈ l → c' ≠ c) : findClause c l = none := by
  induction l with
  | nil => rfl
  | cons t l ih =>
    have ih := ih fun c' t ht => h c' t (List.mem_cons_of_mem _ ht)
    cases t with
    | clause c' t =>
      rw [findClause, if_neg (h c' t List.mem_cons_self)]
      exact ih
    | _ => exact ih

/-- 省かれうる句から、句 `c` を取り出す。 -/
def optClause (c : Clause) (o : Option Sql) : Option Sql := o.bind fun t => findClause c [t]

theorem findClause_filterMap_cons (c : Clause) (o : Option Sql) (l : List (Option Sql)) :
    findClause c ((o :: l).filterMap id) = (optClause c o).or (findClause c (l.filterMap id)) := by
  cases o with
  | none => rfl
  | some t => exact findClause_append c [t] (l.filterMap id)

theorem optClause_map (c c' : Clause) (o : Option Sql) :
    optClause c (o.map (.clause c')) = if c' = c then o else none := by
  cases o with
  | none => exact (ite_self _).symm
  | some t => rfl

theorem optClause_clauseOf (c c' : Clause) (o : Option Sql) :
    optClause c (clauseOf c' o) = if c' = c then o.filter (fun t => t.render ≠ "") else none :=
  optClause_map c c' _

theorem optClause_ite (c c' : Clause) (b : Bool) (t : Sql) :
    optClause c (if b then none else some (.clause c' t)) =
      if b then none else if c' = c then some t else none := by
  cases b <;> rfl

theorem optClause_some (c c' : Clause) (t : Sql) :
    optClause c (some (.clause c' t)) = if c' = c then some t else none := rfl

theorem visitLimitByClause_eq_ok {l : Option LimitByExpr} {s s' : PrinterState} {ts : List Sql}
    (h : visitLimitByClause visit l s = .ok (ts, s')) : ∀ c t, Sql.clause c t ∈ ts → c = .limitBy := by
  intro c t hmem
  cases l with
  | none =>
    obtain ⟨rfl, -⟩ := StateE.pure_eq_ok.mp h
    cases hmem
  | some l =>
    obtain ⟨u, -, rfl⟩ := StateE.map_eq_ok.mp h
    cases List.mem_singleton.mp hmem
    rfl

/-- 出力の LIMIT 句は `visitLimit` の出力にある。 -/
theorem findClause_limit {c : SelectClauses} (hlimitBy : ∀ k t, Sql.clause k t ∈ c.limitBy →
    k = .limitBy) (k : Clause) (hk : k = .limit ∨ k = .withTies ∨ k = .offset) (distinct : Bool)
    (ctes joined : List Sql) :
    findClause k (c.toList distinct ctes joined) = findClause k c.limit := by
  unfold SelectClauses.toList
  have hnone : findClause k c.limitBy = none := by
    refine findClause_eq_none fun k' t ht => ?_
    rw [hlimitBy k' t ht]
    rcases hk with rfl | rfl | rfl <;> decide
  rw [findClause_append, findClause_append, hnone]
  simp only [findClause_filterMap_cons, optClause_map, optClause_clauseOf, optClause_ite,
    optClause_some]
  rcases hk with rfl | rfl | rfl <;> simp [findClause]

end Tsql
