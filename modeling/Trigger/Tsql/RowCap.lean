import Mathlib.Data.List.Dedup
import Mathlib.Data.List.Perm.Subperm
import Trigger.Tsql.Frame

/-!
# 行数の上限

印字された文が返す行を、LIMIT 以外を任意とした意味（`Database`）で読む。SELECT 文は `base` の行から
OFFSET を飛ばして LIMIT だけ取り、UNION などは項の行を合わせる。

`maxRows` による上限は、最上位の SELECT の LIMIT が無いか数の定数のときにだけ、SELECT ごとにかかる。構文木から
数えた上界（`rowBound`）が `maxRows` 以下なら、どのデータベースでも行数は `maxRows` 以下である（`row_cap`）。
UNION の項は別々に抑えられるので、合わせた行数は `maxRows` を超えうる（`union_exceeds_cap`）。
-/

namespace Tsql

open Infra

/-! ## 文の意味 -/

/-- データベースの内容。LIMIT・OFFSET のほかの評価はすべて任意とする。 -/
structure Database (ρ : Type) where
  /-- LIMIT と OFFSET を除いた SELECT 文の行。 -/
  base : Sql → List ρ
  /-- 数の定数でない LIMIT の値。 -/
  limit : Sql → Nat
  offset : Sql → Nat
  /-- WITH TIES が加える行数。 -/
  ties : Sql → Nat

/-- 非負の整数の定数。 -/
def Sql.numeral? : Sql → Option Nat
  | .text (.number (.int n)) => if 0 ≤ n then some n.toNat else none
  | .seq [t] => t.numeral?
  | .node _ t => t.numeral?
  | _ => none

section Semantics

variable {ρ : Type} [DecidableEq ρ] (db : Database ρ)

/-- SELECT 文の行。 -/
def selectRows (t : Sql) : List ρ :=
  let rows := (db.base t).drop (((t.clause? .offset).map db.offset).getD 0)
  match t.clause? .limit with
  | none => rows
  | some limit =>
    let n := limit.numeral?.getD (db.limit limit)
    rows.take (if (t.clause? .withTies).isSome then n + db.ties t else n)

def SetOperator.isIntersect : SetOperator → Bool
  | .intersect | .intersectDistinct => true
  | _ => false

/-- 二つの結果を合わせる。 -/
def SetOperator.rows (op : SetOperator) (left right : List ρ) : List ρ :=
  match op with
  | .unionAll => left ++ right
  | .unionDistinct => (left ++ right).dedup
  | .intersect => left.filter (· ∈ right)
  | .intersectDistinct => (left.filter (· ∈ right)).dedup
  | .except => left.filter (· ∉ right)

/-- 集合演算の行。INTERSECT は他より強く結びつくので、`combine` が左側の結果を待つ。 -/
def setRows (combine : List ρ → List ρ) (current : List ρ) : List (SetOperator × List ρ) → List ρ
  | [] => combine current
  | (op, right) :: rest =>
    if op.isIntersect then setRows combine (op.rows current right) rest
    else setRows (op.rows (combine current)) right rest

mutual
/-- 印字された文の行。 -/
def Sql.rows : Sql → List ρ
  | .node (.selectSetQuery _ subsequent) t =>
    match t.partRows with
    | [] => []
    | first :: rest => setRows id first ((subsequent.map Prod.fst).zip rest)
  | .node _ t => selectRows db t
  | t => db.base t

/-- 集合演算の項の行。 -/
def Sql.partRows : Sql → List (List ρ)
  | .seq l => Sql.partRowsAll l
  | .trim t => t.partRows
  | _ => []

def Sql.partRowsAll : List Sql → List (List ρ)
  | [] => []
  | .node e t :: rest => Sql.rows (.node e t) :: Sql.partRowsAll rest
  | t :: rest => t.partRows ++ Sql.partRowsAll rest
end

end Semantics

/-! ## 構文木から数える上界 -/

/-- SELECT 文の上界。`cap` は最上位の SELECT にかかる上限である。 -/
def limitBound (cap : Option Nat) (q : SelectQuery) : Option Nat :=
  if q.limitWithTies then none
  else
    match q.limit with
    | none => cap
    | some (.constant (.number (.int n))) =>
      if 0 ≤ n then some (match cap with
        | some m => min n.toNat m
        | none => n.toNat)
      else none
    | some _ => none

/-- 集合演算の上界。 -/
def setBound (combine : Nat → Nat) (current : Nat) : List (SetOperator × Nat) → Nat
  | [] => combine current
  | (op, right) :: rest =>
    if op.isIntersect then
      setBound combine (if op = .intersectDistinct then min current right else current) rest
    else
      let done := combine current
      setBound (fun n => if op = .except then done else done + n) right rest

mutual
/-- 文の上界。入れ子の集合演算の中の SELECT には `maxRows` がかからない。 -/
def rowBound (cap : Option Nat) : Expr → Option Nat
  | .selectQuery q => limitBound cap q
  | .selectSetQuery initial subsequent =>
    match rowBound (if initial.isSelectSetQuery then none else cap) initial,
      rowBounds cap subsequent with
    | some first, some rest => some (setBound id first rest)
    | _, _ => none
  | _ => none

def rowBounds (cap : Option Nat) : List (SetOperator × Expr) → Option (List (SetOperator × Nat))
  | [] => some []
  | (op, e) :: rest =>
    match rowBound (if e.isSelectSetQuery then none else cap) e, rowBounds cap rest with
    | some n, some rest => some ((op, n) :: rest)
    | _, _ => none
end

/-! ## 行数の評価 -/

section Rows

variable {ρ : Type} {db : Database ρ}

/-- 数の定数の LIMIT がかかり、WITH TIES の無い SELECT 文。 -/
theorem length_selectRows_le {t limit : Sql} {n : Nat} (hlimit : t.clause? .limit = some limit)
    (hn : limit.numeral? = some n) (hties : t.clause? .withTies = none) :
    (selectRows db t).length ≤ n := by
  unfold selectRows
  rw [hlimit]
  dsimp only
  rw [hn, hties]
  simp only [Option.getD_some, Option.isSome_none, Bool.false_eq_true, if_false, List.length_take]
  exact Nat.min_le_left _ _

variable [DecidableEq ρ]

/-- INTERSECT は左側より行を増やさない。重複を除けば右側よりも増やさない。 -/
theorem length_rows_intersect {op : SetOperator} (h : op.isIntersect) {left right : List ρ}
    {n m : Nat} (hleft : left.length ≤ n) (hright : right.length ≤ m) :
    (op.rows left right).length ≤ if op = .intersectDistinct then min n m else n := by
  cases op with
  | intersect => exact (List.length_filter_le _ _).trans hleft
  | intersectDistinct =>
    have hsubset : (left.filter (· ∈ right)).dedup ⊆ right := by
      intro x hx
      simpa using (List.mem_filter.mp (List.mem_dedup.mp hx)).2
    refine Nat.le_min.mpr ⟨?_, ?_⟩
    · exact ((List.dedup_sublist _).length_le.trans (List.length_filter_le _ _)).trans hleft
    · exact (List.Nodup.subperm (List.nodup_dedup _) hsubset).length_le.trans hright
  | _ => cases h

theorem length_rows_union {op : SetOperator} (h : ¬ op.isIntersect) (left right : List ρ) :
    (op.rows left right).length ≤
      if op = .except then left.length else left.length + right.length := by
  cases op with
  | unionAll => exact (List.length_append).le
  | unionDistinct =>
    exact (List.dedup_sublist _).length_le.trans (List.length_append).le
  | except => exact List.length_filter_le _ _
  | _ => exact absurd rfl h

/-- 集合演算の行数は、項の行数の上界から数えた上界を超えない。 -/
theorem length_setRows_le {combine : List ρ → List ρ} {bound : Nat → Nat}
    {subsequent : List (SetOperator × List ρ)} {bounds : List (SetOperator × Nat)}
    (hsubsequent : List.Forall₂ (fun p b => p.1 = b.1 ∧ p.2.length ≤ b.2) subsequent bounds) :
    ∀ {current : List ρ} {n : Nat},
      (∀ l m, l.length ≤ m → (combine l).length ≤ bound m) → current.length ≤ n →
      (setRows combine current subsequent).length ≤ setBound bound n bounds := by
  induction hsubsequent generalizing combine bound with
  | nil => exact fun hcombine hcurrent => hcombine _ _ hcurrent
  | @cons p b rest rest' hp _ ih =>
    intro current n hcombine hcurrent
    obtain ⟨op, right⟩ := p
    obtain ⟨op', m⟩ := b
    obtain ⟨rfl, hright⟩ := hp
    rw [setRows, setBound]
    split
    · next hop => exact ih hcombine (length_rows_intersect hop hcurrent hright)
    · next hop =>
      refine ih (fun l k hl => ?_) hright
      have hdone : (combine current).length ≤ bound n := hcombine current n hcurrent
      refine (length_rows_union hop (combine current) l).trans ?_
      split
      · exact hdone
      · exact Nat.add_le_add hdone hl

end Rows

/-! ## LIMIT の印字 -/

variable {ctx : PrinterContext}

theorem visit_number (fuel : Nat) (x : Number) (hx : (∃ i, x = .int i) ∨ ∃ q, x = .fraction q)
    (s : PrinterState) : visit ctx (fuel + 1) (.constant (.number x)) s =
      .ok (.node (.constant (.number x)) (.seq [.text (.number x)]), s) := by
  rcases hx with ⟨i, rfl⟩ | ⟨q, rfl⟩ <;> rfl

/-- 整数に切り詰めた LIMIT。 -/
theorem cappedLimit_int (top : Bool) (n : Int) :
    cappedLimit ctx top (some (.constant (.number (.int n)))) = some (.constant (.number (.int
      (if top && ctx.maxRows ≠ 0 then min n ctx.maxRows else n)))) := by
  unfold cappedLimit
  split <;> rfl

/-- 印字された LIMIT と WITH TIES。 -/
theorem visitLimit_eq_ok {visit : Expr → M Sql} {e : Expr} {withTies : Bool} {offset : Option Expr}
    {s s' : PrinterState} {ts : List Sql} (h : visitLimit visit (some e) withTies offset s = .ok (ts, s')) :
    ∃ t s₁, visit e s = .ok (t, s₁) ∧ findClause .limit ts = some t ∧
      findClause .withTies ts = if withTies then some (.seq []) else none := by
  obtain ⟨t, s₁, hvisit, h⟩ := StateE.bind_eq_ok.mp h
  obtain ⟨off, s₂, _, h⟩ := StateE.bind_eq_ok.mp h
  obtain ⟨rfl, rfl⟩ := StateE.pure_eq_ok.mp h
  refine ⟨t, s₁, hvisit, rfl, ?_⟩
  cases withTies <;> cases off <;> rfl

/-- SELECT 文の LIMIT 句と WITH TIES 句は、`visitLimit` の出力である。 -/
theorem visitSelectQuery_limit {visit : Expr → M Sql} {q : SelectQuery} {s s' : PrinterState}
    {t : Sql} (h : visitSelectQuery ctx visit q s = .ok (t, s'))
    (hplain : s.partOfSelectUnion || s.isTopLevelQuery) :
    ∃ limit s₁ s₂, visitLimit visit (cappedLimit ctx s.isTopLevelQuery q.limit) q.limitWithTies
        q.offset s₁ = .ok (limit, s₂) ∧
      t.clause? .limit = findClause .limit limit ∧
      t.clause? .withTies = findClause .withTies limit := by
  obtain ⟨ctes, _, joined, condition, _, clauses, _, _, _, hclauses, _, rfl⟩ :=
    visitSelectQuery_eq_ok h
  obtain ⟨_, _, _, _, _, _, _, _, s₉, _, _, _, _, _, _, _, _, hlimitBy, hlimit⟩ :=
    visitClauses_eq_ok hclauses
  have hby := visitLimitByClause_eq_ok hlimitBy
  refine ⟨clauses.limit, s₉, _, hlimit, ?_, ?_⟩
  · rw [selectResponse, if_pos hplain, Sql.clause?, findClause_spaced,
      findClause_limit hby .limit (.inl rfl)]
  · rw [selectResponse, if_pos hplain, Sql.clause?, findClause_spaced,
      findClause_limit hby .withTies (.inr (.inl rfl))]

/-- 最上位の SELECT にかかる上限。 -/
def capOf (ctx : PrinterContext) (top : Bool) : Option Nat :=
  if top && ctx.maxRows ≠ 0 then some ctx.maxRows else none

/-- 上界のある SELECT 文では、LIMIT に上界以下の定数が印字され、WITH TIES は付かない。 -/
theorem cappedLimit_of_limitBound {top : Bool} {q : SelectQuery} {b : Nat}
    (h : limitBound (capOf ctx top) q = some b) :
    q.limitWithTies = false ∧ ∃ n : Int, 0 ≤ n ∧ n.toNat ≤ b ∧
      cappedLimit ctx top q.limit = some (.constant (.number (.int n))) := by
  unfold limitBound at h
  split at h
  · cases h
  · next hties =>
    refine ⟨by simpa using hties, ?_⟩
    split at h
    · next hnone =>
      unfold capOf at h
      split at h
      · next htop =>
        cases h
        refine ⟨ctx.maxRows, by omega, by omega, ?_⟩
        rw [hnone, cappedLimit, if_pos htop]
      · cases h
    · next n hlimit =>
      split at h
      · next hn =>
        rw [hlimit, cappedLimit_int]
        refine ⟨_, ?_, ?_, rfl⟩
        · split <;> omega
        · unfold capOf at h
          cases h
          split
          · dsimp only
            omega
          · exact Nat.le_refl _
      · cases h
    · cases h

theorem limit_numeral {n : Int} (hn : 0 ≤ n) (e : Expr) :
    (Sql.node e (.seq [.text (.number (.int n))])).numeral? = some n.toNat := by
  simp [Sql.numeral?, hn]

section Rows

variable {ρ : Type} {db : Database ρ}

/-- 一つの SELECT 文の行数。 -/
theorem length_rows_selectQuery {fuel : Nat} {q : SelectQuery} {s s' : PrinterState} {t : Sql}
    {b : Nat} (h : visitSelectQuery ctx (visit ctx fuel) q s = .ok (t, s'))
    (hplain : s.partOfSelectUnion || s.isTopLevelQuery)
    (hb : limitBound (capOf ctx s.isTopLevelQuery) q = some b) :
    (selectRows db t).length ≤ b := by
  obtain ⟨limit, s₁, s₂, hlimit, hclause, hties⟩ := visitSelectQuery_limit h hplain
  obtain ⟨hno, n, hn, hle, hcapped⟩ := cappedLimit_of_limitBound hb
  rw [hcapped, hno] at hlimit
  obtain ⟨u, s₃, hvisit, hfind, hfindTies⟩ := visitLimit_eq_ok hlimit
  cases fuel with
  | zero => cases hvisit
  | succ fuel =>
    rw [visit_number fuel _ (.inl ⟨n, rfl⟩)] at hvisit
    cases hvisit
    refine (length_selectRows_le (hclause.trans hfind) (limit_numeral hn _) ?_).trans hle
    rw [hties, hfindTies]
    rfl

variable [DecidableEq ρ]

/-! ## 集合演算の項 -/

/-- 入れ子の集合演算には上限がかからない。 -/
def operandCap (cap : Option Nat) (e : Expr) : Option Nat := if e.isSelectSetQuery then none else cap

theorem rowBounds_cons_eq_some {cap : Option Nat} {op : SetOperator} {e : Expr}
    {rest : List (SetOperator × Expr)} {bounds : List (SetOperator × Nat)}
    (h : rowBounds cap ((op, e) :: rest) = some bounds) : ∃ n bounds',
      rowBound (operandCap cap e) e = some n ∧ rowBounds cap rest = some bounds' ∧
        bounds = (op, n) :: bounds' := by
  rw [rowBounds] at h
  split at h
  · next n bounds' hn hrest =>
    cases h
    exact ⟨n, bounds', hn, hrest, rfl⟩
  · cases h

theorem rowBound_set_eq_some {cap : Option Nat} {initial : Expr}
    {subsequent : List (SetOperator × Expr)} {b : Nat}
    (h : rowBound cap (.selectSetQuery initial subsequent) = some b) : ∃ n bounds,
      rowBound (operandCap cap initial) initial = some n ∧
        rowBounds cap subsequent = some bounds ∧ b = setBound id n bounds := by
  rw [rowBound] at h
  split at h
  · next n bounds hn hbounds =>
    cases h
    exact ⟨n, bounds, hn, hbounds, rfl⟩
  · cases h

/-- 項を順に印字すると、項の行数の列は上界の列に収まる。 -/
theorem rows_subsequent {visit : Expr → M Sql} {G : PrinterState → Prop} {cap : Option Nat}
    (hv : ∀ e s t s' b, G s → visit e s = .ok (t, s') → rowBound (operandCap cap e) e = some b →
      G s' ∧ (∃ u, t = .node e u) ∧ (t.rows db).length ≤ b)
    (subsequent : List (SetOperator × Expr)) : ∀ {s s' : PrinterState} {ts : List Sql}
      {bounds : List (SetOperator × Nat)}, G s →
      runTemplate visit (subsequent.flatMap fun p => kw p.1.text ++ visitOne p.2) s = .ok (ts, s') →
      rowBounds cap subsequent = some bounds →
      List.Forall₂ (fun p b => p.1 = b.1 ∧ p.2.length ≤ b.2)
        ((subsequent.map Prod.fst).zip (Sql.partRowsAll db ts)) bounds := by
  induction subsequent with
  | nil =>
    intro s s' ts bounds _ _ hbounds
    rw [rowBounds] at hbounds
    cases hbounds
    exact .nil
  | cons p rest ih =>
    obtain ⟨op, e⟩ := p
    intro s s' ts bounds hs h hbounds
    obtain ⟨n, bounds', hn, hrest, rfl⟩ := rowBounds_cons_eq_some hbounds
    obtain ⟨keyword, s₁, hkeyword, h⟩ := StateE.bind_eq_ok.mp h
    obtain ⟨rfl, rfl⟩ := StateE.pure_eq_ok.mp hkeyword
    obtain ⟨ts', s₂, hoperands, hts⟩ := StateE.bind_eq_ok.mp h
    obtain ⟨rfl, rfl⟩ := StateE.pure_eq_ok.mp hts
    obtain ⟨t, s₃, hvisit, hrest'⟩ := StateE.bind_eq_ok.mp hoperands
    obtain ⟨ts'', s₄, hrun, hts⟩ := StateE.bind_eq_ok.mp hrest'
    obtain ⟨rfl, rfl⟩ := StateE.pure_eq_ok.mp hts
    obtain ⟨hs₃, ⟨u, rfl⟩, hlength⟩ := hv e _ _ _ n hs hvisit hn
    have hparts : Sql.partRowsAll db (.text (.keyword op.text) :: .node e u :: ts'') =
        Sql.rows db (.node e u) :: Sql.partRowsAll db ts'' := by
      simp [Sql.partRowsAll, Sql.partRows]
    rw [hparts, List.map_cons, List.zip_cons_cons]
    exact .cons ⟨rfl, hlength⟩ (ih hs₃ hrun hrest)

/-- 集合演算の行数。括弧で囲んでも変わらない。 -/
theorem length_rows_selectSetQuery {visit : Expr → M Sql} {G : PrinterState → Prop}
    {cap : Option Nat} {initial : Expr} {subsequent : List (SetOperator × Expr)}
    (hv : ∀ e s t s' b, G s → visit e s = .ok (t, s') → rowBound (operandCap cap e) e = some b →
      G s' ∧ (∃ u, t = .node e u) ∧ (t.rows db).length ≤ b)
    {s s' : PrinterState} {t : Sql} {b : Nat} (hs : G s)
    (h : visitSelectSetQuery visit initial subsequent s = .ok (t, s'))
    (hb : rowBound cap (.selectSetQuery initial subsequent) = some b) :
    ((Sql.node (.selectSetQuery initial subsequent) t).rows db).length ≤ b := by
  obtain ⟨n, bounds, hn, hbounds, rfl⟩ := rowBound_set_eq_some hb
  obtain ⟨_, _, hget, h⟩ := StateE.bind_eq_ok.mp h
  obtain ⟨rfl, rfl⟩ := StateE.get_eq_ok.mp hget
  obtain ⟨ret, s₁, hrun, h⟩ := StateE.bind_eq_ok.mp h
  obtain ⟨rfl, rfl⟩ := StateE.pure_eq_ok.mp h
  obtain ⟨ts, hts, rfl⟩ := StateE.map_eq_ok.mp hrun
  obtain ⟨t₀, s₂, hvisit, hts⟩ := StateE.bind_eq_ok.mp hts
  obtain ⟨ts', s₃, hsubsequent, hts⟩ := StateE.bind_eq_ok.mp hts
  obtain ⟨rfl, rfl⟩ := StateE.pure_eq_ok.mp hts
  obtain ⟨hs₂, ⟨u, rfl⟩, hlength⟩ := hv initial _ _ _ n hs hvisit hn
  have hrows := rows_subsequent hv subsequent hs₂ hsubsequent hbounds
  have hparts : ∀ t, (t = .seq (.node initial u :: ts') ∨
      t = .seq [.kw "(", .trim (.seq (.node initial u :: ts')), .kw ")"]) →
      Sql.partRows db t = Sql.rows db (.node initial u) :: Sql.partRowsAll db ts' := by
    rintro t (rfl | rfl) <;> simp [Sql.partRows, Sql.partRowsAll, Sql.kw]
  rw [Sql.rows, hparts _ (by split <;> simp)]
  exact length_setRows_le hrows (fun _ _ hl => hl) hlength

/-! ## 文全体 -/

/-- 最上位か、集合演算の項である。 -/
def OperandState (ctx : PrinterContext) (stack : List Expr) (s : PrinterState) : Prop :=
  Scoped ctx s ∧ s.stack = stack ∧ ∀ e ∈ stack.head?, e.isSelectSetQuery

/-- `stack` の下で visit される文にかかる上限。 -/
def statementCap (ctx : PrinterContext) (stack : List Expr) (e : Expr) : Option Nat :=
  capOf ctx (stack.length ≤ if e.isSelectSetQuery then 0 else 1)

theorem isTopLevelQuery_operand {stack : List Expr} {q : SelectQuery} {s : PrinterState}
    (hstack : s.stack = .selectQuery q :: stack) (hset : ∀ e ∈ stack.head?, e.isSelectSetQuery) :
    s.isTopLevelQuery = decide (stack.length ≤ 1) ∧
      (s.partOfSelectUnion || s.isTopLevelQuery) = true := by
  unfold PrinterState.isTopLevelQuery PrinterState.partOfSelectUnion
  rw [hstack]
  cases stack with
  | nil => exact ⟨rfl, rfl⟩
  | cons x rest =>
    have hx : x.isSelectSetQuery := hset x rfl
    cases rest <;> simp [hx]

theorem operandCap_statementCap (stack : List Expr) (initial : Expr)
    (subsequent : List (SetOperator × Expr)) (e : Expr) :
    operandCap (statementCap ctx stack (.selectSetQuery initial subsequent)) e =
      statementCap ctx (.selectSetQuery initial subsequent :: stack) e := by
  unfold operandCap statementCap
  cases he : e.isSelectSetQuery with
  | true => simp [capOf]
  | false => simp [Expr.isSelectSetQuery]

/-- 文でない節に上界は無い。 -/
theorem isStatement_of_rowBound {cap : Option Nat} {e : Expr} {b : Nat}
    (h : rowBound cap e = some b) : e.isSelectQuery ∨ e.isSelectSetQuery := by
  cases e with
  | selectQuery q => exact .inl rfl
  | selectSetQuery initial subsequent => exact .inr rfl
  | _ => simp [rowBound] at h

/-- 印字された文の行数は、構文木から数えた上界を超えない。 -/
theorem length_rows_le : ∀ (fuel : Nat) (e : Expr) (stack : List Expr) (s : PrinterState) (t : Sql)
    (s' : PrinterState) (b : Nat), OperandState ctx stack s → visit ctx fuel e s = .ok (t, s') →
    rowBound (statementCap ctx stack e) e = some b →
    OperandState ctx stack s' ∧ (∃ u, t = .node e u) ∧ (t.rows db).length ≤ b
  | 0, _, _, _, _, _, _, _, h, _ => by cases h
  | fuel + 1, e, stack, s, t, s', b, ⟨hscoped, hstack, hset⟩, h, hb => by
    have hframe := (visit_frame ctx (fuel + 1) e s t s' hscoped h).1
    have hstate : OperandState ctx stack s' :=
      ⟨hframe.scoped hscoped, hframe.stack.trans hstack, hset⟩
    have hstatement := isStatement_of_rowBound hb
    have habsent : e ≠ .absent := by
      rintro rfl
      simp [Expr.isSelectQuery, Expr.isSelectSetQuery] at hstatement
    obtain ⟨u, s₁, hnode, rfl, _⟩ := visit_succ_eq_ok habsent h
    refine ⟨hstate, ⟨u, rfl⟩, ?_⟩
    cases e with
    | selectQuery q =>
      obtain ⟨htop, hplain⟩ := isTopLevelQuery_operand (s := { s with
        stack := .selectQuery q :: s.stack }) (by rw [hstack]) hset
      rw [rowBound] at hb
      rw [Sql.rows]
      · refine length_rows_selectQuery hnode hplain ?_
        rw [htop]
        exact hb
      · nofun
    | selectSetQuery initial subsequent =>
      refine length_rows_selectSetQuery (G := OperandState ctx
        (.selectSetQuery initial subsequent :: stack)) (fun e s t s' b hs hvisit hb => ?_) ?_ hnode hb
      · rw [operandCap_statementCap] at hb
        exact length_rows_le fuel e _ s t s' b hs hvisit hb
      · refine ⟨hscoped, ?_, fun x hx => ?_⟩
        · show _ :: s.stack = _
          rw [hstack]
        · cases hx
          rfl
    | _ => simp [Expr.isSelectQuery, Expr.isSelectSetQuery] at hstatement

end Rows

/-! ## 最上位の文 -/

/-- 負でない数。 -/
def Number.NonNeg : Number → Prop
  | .int n => 0 ≤ n
  | .fraction q => 0 ≤ q.mantissa
  | .infinity => True
  | .nan | .negInfinity => False

theorem minNat_printable {n : Number} (hn : n.NonNeg) (m : Nat) :
    (∃ i, n.minNat m = .int i) ∨ ∃ q, n.minNat m = .fraction q := by
  cases n with
  | int n => exact .inl ⟨_, rfl⟩
  | fraction q =>
    rw [Number.minNat]
    split
    · exact .inr ⟨q, rfl⟩
    · exact .inl ⟨m, rfl⟩
  | infinity => exact .inl ⟨m, rfl⟩
  | nan | negInfinity => cases hn

/-- 最上位の SELECT 文の、負でない数の定数の LIMIT は、`maxRows` との小さい方になる。 -/
theorem visit_limit {fuel : Nat} {q : SelectQuery} {s s' : PrinterState} {t : Sql} {n : Number}
    (hmax : ctx.maxRows ≠ 0) (hstack : s.stack = [])
    (h : visit ctx fuel (.selectQuery q) s = .ok (t, s'))
    (hlimit : q.limit = some (.constant (.number n))) (hn : n.NonNeg) :
    ∃ u limit, t = .node (.selectQuery q) u ∧ u.clause? .limit = some limit ∧
      limit.render = (n.minNat ctx.maxRows).text := by
  cases fuel with
  | zero => cases h
  | succ fuel =>
    have habsent : Expr.selectQuery q ≠ .absent := by nofun
    obtain ⟨u, s₁, hnode, rfl, _⟩ := visit_succ_eq_ok habsent h
    have hpushed : (.selectQuery q :: s.stack : List Expr) = [.selectQuery q] := by rw [hstack]
    obtain ⟨htop, hplain⟩ := isTopLevelQuery_operand (s := { s with
      stack := .selectQuery q :: s.stack }) hpushed nofun
    obtain ⟨clauses, s₂, s₃, hclauses, hclause, _⟩ := visitSelectQuery_limit hnode hplain
    have hcapped : cappedLimit ctx true (some (.constant (.number n))) =
        some (.constant (.number (n.minNat ctx.maxRows))) := by
      simp [cappedLimit, hmax]
    rw [htop, hlimit] at hclauses
    rw [show decide (([] : List Expr).length ≤ 1) = true from rfl, hcapped] at hclauses
    obtain ⟨limit, s₄, hvisit, hfind, _⟩ := visitLimit_eq_ok hclauses
    cases fuel with
    | zero => cases hvisit
    | succ fuel =>
      rw [visit_number fuel _ (minNat_printable hn _)] at hvisit
      cases hvisit
      refine ⟨u, _, rfl, hclause.trans hfind, ?_⟩
      simp [Sql.render, concat, Piece.text]

/--
**LIMIT から数えた上界が `maxRows` 以下の文は、どのデータベースでも `maxRows` より多くの行を返さない。最上位の SELECT
文の、負でない数の定数の LIMIT は、`maxRows` との小さい方として印字される。**
-/
theorem row_cap (ctx : PrinterContext) (fuel : Nat) (e : Expr) {r : PrintResult}
    (hmax : ctx.maxRows ≠ 0) (h : print ctx fuel e = .ok r) :
    (∀ b, rowBound (some ctx.maxRows) e = some b → b ≤ ctx.maxRows →
      ∀ (ρ : Type) [DecidableEq ρ] (db : Database ρ), (r.sql.rows db).length ≤ ctx.maxRows) ∧
    ∀ q n, e = .selectQuery q → q.limit = some (.constant (.number n)) → n.NonNeg →
      ∃ u limit, r.sql = .node e u ∧ u.clause? .limit = some limit ∧
        limit.render = (n.minNat ctx.maxRows).text := by
  unfold print at h
  split at h
  · cases h
  · next sql s' hvisit =>
    cases h
    constructor
    · intro b hb hle ρ _ db
      have hscoped : Scoped ctx {} := fun _ hp => by cases hp
      have hcap : statementCap ctx [] e = some ctx.maxRows := by
        simp [statementCap, capOf, hmax]
      rw [← hcap] at hb
      exact (length_rows_le fuel e [] {} sql s' b ⟨hscoped, rfl, by nofun⟩ hvisit hb).2.2.trans hle
    · rintro q n rfl hlimit hn
      exact visit_limit hmax rfl hvisit hlimit hn

/-- `maxRows` が 1 の context。 -/
def oneRowContext : PrinterContext := { emptyContext with maxRows := 1 }

/-- `SELECT 1 LIMIT limit`。 -/
def limitedSample (limit : Option Expr) : SelectQuery :=
  { select := [.constant (.number 1)], limit := limit }

/-- どの SELECT 文も、LIMIT のほかには同じ一行を二つ返す。 -/
def twoRows : Database Unit := ⟨fun _ => [(), ()], fun _ => 2, fun _ => 0, fun _ => 0⟩

/-- 二つの項を合わせて三行になる `UNION ALL`。 -/
def threeRowUnion : Expr :=
  .selectSetQuery (.selectQuery (limitedSample (some (.constant (.number 1)))))
    [(.unionAll, .selectQuery (limitedSample (some (.constant (.number 2)))))]

/-- `SELECT 1 LIMIT 5` は `LIMIT 1` になる。`UNION ALL` は、項の上限の和が `maxRows` に収まれば抑えられている。 -/
theorem row_cap_sample : (∃ r, print oneRowContext 4
      (.selectQuery (limitedSample (some (.constant (.number 5))))) = .ok r ∧
    r.sql.render = "SELECT 1 AS `1` LIMIT 1" ∧ (r.sql.rows twoRows).length ≤ 1) ∧
    ∃ r, print { emptyContext with maxRows := 3 } 4 threeRowUnion = .ok r ∧
      r.sql.render = "SELECT 1 AS `1` LIMIT 1 UNION ALL SELECT 1 AS `1` LIMIT 2" ∧
      (r.sql.rows twoRows).length = 3 ∧
      ∀ (ρ : Type) [DecidableEq ρ] (db : Database ρ), (r.sql.rows db).length ≤ 3 := by
  refine ⟨⟨_, rfl, by decide +kernel, ?_⟩, _, rfl, by decide +kernel, by decide +kernel, ?_⟩
  · exact (row_cap oneRowContext 4 (.selectQuery (limitedSample (some (.constant (.number 5)))))
      (by decide) rfl).1 1 (by decide +kernel) (by decide) Unit twoRows
  · exact (row_cap { emptyContext with maxRows := 3 } 4 threeRowUnion (by decide) rfl).1 3
      (by decide +kernel) (by decide)

/-- `SELECT 1 UNION ALL SELECT 1` の二つの項は、それぞれ一行までに抑えられる。 -/
theorem union_exceeds_cap : ∃ r, print oneRowContext 4 (.selectSetQuery
      (.selectQuery (limitedSample none)) [(.unionAll, .selectQuery (limitedSample none))]) = .ok r ∧
    r.sql.render = "SELECT 1 AS `1` LIMIT 1 UNION ALL SELECT 1 AS `1` LIMIT 1" ∧
    ¬ ∀ (ρ : Type) [DecidableEq ρ] (db : Database ρ), (r.sql.rows db).length ≤ 1 := by
  refine ⟨_, rfl, by decide +kernel, fun h => ?_⟩
  have hrows := h Unit twoRows
  revert hrows
  decide +kernel

/-- 定数でない LIMIT は抑えられない。 -/
example : ∃ r, print oneRowContext 5 (.selectQuery (limitedSample
      (some (.arithmetic .add (.constant (.number 1)) (.constant (.number 1)))))) = .ok r ∧
    r.sql.render = "SELECT 1 AS `1` LIMIT plus(1, 1)" ∧ (r.sql.rows twoRows).length = 2 :=
  ⟨_, rfl, by decide +kernel, by decide +kernel⟩

end Tsql
