import Mathlib.Algebra.Group.Nat.Defs
import Mathlib.Data.Rat.Defs
import Mathlib.Logic.Relation

/-!
# TSQL の構文木

`ast.ts` の `Expression`。printer が `expression_type` で振り分ける節を構成子とし、`Expr` が自分自身を
含む節（`SelectQuery` など）は型引数つきの構造体で与える。

値は `Constant.value` に現れるもので、数は JavaScript の number である。
-/

namespace Tsql

/-! ## 数と値 -/

/-- 整数でない有限の number。`mantissa × 10 ^ -(scale + 1)` で、最短の十進表記を表す。 -/
structure Fraction where
  mantissa : Int
  scale : Nat
  canonical : mantissa % 10 ≠ 0
deriving DecidableEq

/-- JavaScript の number。 -/
inductive Number
  | int (n : Int)
  | fraction (q : Fraction)
  | nan
  | infinity
  | negInfinity
deriving DecidableEq

instance (n : Nat) : OfNat Number n := ⟨.int n⟩

def Fraction.value (q : Fraction) : ℚ := q.mantissa / 10 ^ (q.scale + 1)

/-- 指数表記 `1.5e+21`。`digits` は末尾に 0 を持たない。 -/
def exponential (digits : List Char) (exponent : Int) : String :=
  let sign := if exponent < 0 then "-" else "+"
  let head := match digits with
    | [] => ""
    | [d] => String.ofList [d]
    | d :: rest => String.ofList (d :: '.' :: rest)
  head ++ "e" ++ sign ++ toString exponent.natAbs

/-- `String(n)`（整数）。10^21 以上は指数表記になる。 -/
def natText (n : Nat) : String :=
  if n < 10 ^ 21 then toString n
  else
    let digits := (toString n).toList
    exponential (digits.reverse.dropWhile (· == '0')).reverse (digits.length - 1)

/-- `String(q)`（小数）。小数点の位置は ECMAScript の `Number::toString` に従う。 -/
def fractionText (mantissa scale : Nat) : String :=
  let digits := (toString mantissa).toList
  let point : Int := digits.length - (scale + 1 : Nat)
  if 0 < point then
    String.ofList (digits.take point.toNat ++ '.' :: digits.drop point.toNat)
  else if -6 < point then
    "0." ++ String.ofList (List.replicate (-point).toNat '0' ++ digits)
  else exponential digits (point - 1)

/-- `String(x)`。 -/
def Number.text : Number → String
  | .int n => (if n < 0 then "-" else "") ++ natText n.natAbs
  | .fraction q => (if q.mantissa < 0 then "-" else "") ++ fractionText q.mantissa.natAbs q.scale
  | .nan => "NaN"
  | .infinity => "Infinity"
  | .negInfinity => "-Infinity"

def Number.isInteger : Number → Bool
  | .int _ => true
  | _ => false

/-- `Math.min(x, cap)`。`cap` は自然数である。 -/
def Number.minNat (cap : Nat) : Number → Number
  | .int n => .int (min n cap)
  | .fraction q => if q.value ≤ cap then .fraction q else .int cap
  | .nan => .nan
  | .infinity => .int cap
  | .negInfinity => .negInfinity

/-- `Constant.value`。`Date` や配列は、printer が読む二つの文字列で表す。 -/
inductive Value
  | null
  | bool (b : Bool)
  | number (x : Number)
  | string (s : String)
  | other (clickHouseType : String) (text : String)
deriving DecidableEq

/-! ## 演算子と語 -/

/-- `ArithmeticOperationOp`。 -/
inductive ArithmeticOp
  | add | sub | mult | div | mod
deriving DecidableEq

/-- `CompareOperationOp`。 -/
inductive CompareOp
  | eq | notEq | gt | gtEq | lt | ltEq
  | like | iLike | notLike | notILike
  | in | globalIn | notIn | globalNotIn
  | inCohort | notInCohort
  | regex | iRegex | notRegex | notIRegex
deriving DecidableEq

/-- `SetOperator`。 -/
inductive SetOperator
  | unionAll | unionDistinct | intersect | intersectDistinct | except
deriving DecidableEq

/-- `JoinConstraint.constraint_type`。 -/
inductive ConstraintType
  | on | using
deriving DecidableEq

/-- `WindowFrameExpr.frame_type`。 -/
inductive FrameType
  | currentRow | preceding | following
deriving DecidableEq

/-- `WindowExpr.frame_method`。 -/
inductive FrameMethod
  | rows | range
deriving DecidableEq

/-- `Field.chain` の要素。 -/
inductive ChainPart
  | name (s : String)
  | index (n : Number)
deriving DecidableEq

abbrev Chain := List ChainPart

/-! ## 構文木 -/

/-- `WindowFrameExpr`。 -/
structure WindowFrameExpr where
  frameType : Option FrameType
  frameValue : Option Number
deriving DecidableEq

/-- `RatioExpr`。`left` が無いのは、placeholder を `RatioExpr` として読んだときである。 -/
structure RatioExpr where
  left : Option Value
  right : Option Value
deriving DecidableEq

/-- `SampleExpr`。 -/
structure SampleExpr where
  sampleValue : RatioExpr
  offsetValue : Option RatioExpr
deriving DecidableEq

/-- `WindowExpr`。 -/
structure WindowExprOf (ε : Type) where
  partitionBy : List ε
  orderBy : List ε
  frameMethod : Option FrameMethod
  frameStart : Option WindowFrameExpr
  frameEnd : Option WindowFrameExpr

/-- `LimitByExpr`。 -/
structure LimitByExprOf (ε : Type) where
  n : ε
  exprs : List ε
  offsetValue : Option ε

/-- `JoinExpr`。`next_join` の連鎖は `SelectQueryOf.selectFrom` のリストで表す。 -/
structure JoinExprOf (ε : Type) where
  joinType : Option String := none
  table : Option ε := none
  «alias» : Option String := none
  constraint : Option (ConstraintType × ε) := none
  sample : Option SampleExpr := none

/-- `SelectQuery`。`ctes` と `window_exprs` は `Object.entries` の順に並べる。 -/
structure SelectQueryOf (ε : Type) where
  ctes : List (String × ε) := []
  select : List ε := []
  distinct : Bool := false
  selectFrom : List (JoinExprOf ε) := []
  arrayJoinOp : Option String := none
  arrayJoinList : List ε := []
  windowExprs : List (String × ε) := []
  «where» : Option ε := none
  prewhere : Option ε := none
  having : Option ε := none
  groupBy : Option (List ε) := none
  orderBy : Option (List ε) := none
  limit : Option ε := none
  limitBy : Option (LimitByExprOf ε) := none
  limitWithTies : Bool := false
  offset : Option ε := none

/-- `Expression`。`absent` は `undefined`、`untyped` は `expression_type` を持たない節である。 -/
inductive Expr
  | cte (expr : Expr)
  | alias (expr : Expr) (name : String) (hidden : Bool)
  | arithmetic (op : ArithmeticOp) (left right : Expr)
  | and (exprs : List Expr)
  | or (exprs : List Expr)
  | compare (op : CompareOp) (left right : Expr)
  | not (expr : Expr)
  | between (expr low high : Expr) (negated : Bool)
  | order (expr : Expr) (descending : Bool)
  | arrayAccess (array property : Expr)
  | array (exprs : List Expr)
  | dict (items : List (Expr × Expr))
  | tupleAccess (tuple : Expr) (index : Number)
  | tuple (exprs : List Expr)
  | lambda (args : List String) (expr : Expr)
  | constant (value : Value)
  | field (chain : Chain)
  | placeholder (expr : Expr)
  | call (name : String) (args : List Expr) (params : Option (List Expr)) (distinct : Bool)
  | exprCall (expr : Expr) (args : List Expr)
  | tsqlxTag (kind : String)
  | untyped (value : Value)
  | joinExpr
  | joinConstraint (constraintType : ConstraintType) (expr : Expr)
  | windowFrame (frame : WindowFrameExpr)
  | windowExpr (window : WindowExprOf Expr)
  | windowFunction (name : String) (args exprs : List Expr) (overIdentifier : Option String)
      (overExpr : Option (WindowExprOf Expr))
  | limitBy (limit : LimitByExprOf Expr)
  | ratio (ratio : RatioExpr)
  | sample (sample : SampleExpr)
  | selectQuery (query : SelectQueryOf Expr)
  | selectSetQuery (initial : Expr) (subsequent : List (SetOperator × Expr))
  | absent

abbrev WindowExpr := WindowExprOf Expr
abbrev LimitByExpr := LimitByExprOf Expr
abbrev JoinExpr := JoinExprOf Expr
abbrev SelectQuery := SelectQueryOf Expr

/-! ## 節の種類 -/

def Expr.isCompare : Expr → Bool
  | .compare .. => true
  | _ => false

def Expr.isSelectSetQuery : Expr → Bool
  | .selectSetQuery .. => true
  | _ => false

def Expr.isSelectQuery : Expr → Bool
  | .selectQuery _ => true
  | _ => false

/-- 論理演算の節。 -/
def Expr.isConnective : Expr → Bool
  | .and _ | .or _ | .not _ => true
  | _ => false

/-! ## 部分木 -/

def RatioExpr.children (r : RatioExpr) : List Expr :=
  (r.left.toList ++ r.right.toList).map .constant

def SampleExpr.children (s : SampleExpr) : List Expr :=
  s.sampleValue.children ++ s.offsetValue.toList.flatMap RatioExpr.children

def WindowExprOf.children (w : WindowExpr) : List Expr :=
  w.partitionBy ++ w.orderBy ++ (w.frameStart.toList ++ w.frameEnd.toList).map .windowFrame

def LimitByExprOf.children (l : LimitByExpr) : List Expr :=
  l.n :: l.exprs ++ l.offsetValue.toList

def JoinExprOf.children (j : JoinExpr) : List Expr :=
  j.table.toList ++ j.constraint.toList.map (fun c => .joinConstraint c.1 c.2) ++
    j.sample.toList.flatMap SampleExpr.children

def SelectQueryOf.children (q : SelectQuery) : List Expr :=
  q.ctes.map Prod.snd ++ q.select ++ q.selectFrom.flatMap JoinExprOf.children ++
    q.arrayJoinList ++ q.windowExprs.map Prod.snd ++ q.where.toList ++ q.prewhere.toList ++
    q.having.toList ++ q.groupBy.toList.flatten ++ q.orderBy.toList.flatten ++ q.limit.toList ++
    q.limitBy.toList.flatMap LimitByExprOf.children ++ q.offset.toList

/-- 直下の部分木。printer が `visit` に渡しうる節を並べる。 -/
def Expr.children : Expr → List Expr
  | .cte e | .alias e _ _ | .not e | .order e _ | .tupleAccess e _ | .lambda _ e
  | .placeholder e | .joinConstraint _ e => [e]
  | .arithmetic _ l r | .compare _ l r | .arrayAccess l r => [l, r]
  | .and es | .or es | .array es | .tuple es => es
  | .between e low high _ => [e, low, high]
  | .dict items => items.flatMap fun i => [i.1, i.2]
  | .call _ args params _ => args ++ params.toList.flatten
  | .exprCall e args => e :: args
  | .windowExpr w => w.children
  | .windowFunction _ args exprs _ w => args ++ exprs ++ w.toList.map .windowExpr
  | .limitBy l => l.children
  | .ratio r => r.children
  | .sample s => s.children
  | .selectQuery q => q.children
  | .selectSetQuery e rest => e :: rest.map Prod.snd
  | .constant _ | .field _ | .tsqlxTag _ | .untyped _ | .joinExpr | .windowFrame _ | .absent => []

/-- `e` の部分木（`e` 自身を含む）がすべて `p` を満たす。 -/
def Expr.All (p : Expr → Prop) (e : Expr) : Prop :=
  ∀ e', Relation.ReflTransGen (fun a b => b ∈ a.children) e e' → p e'

theorem Expr.all_iff {p : Expr → Prop} {e : Expr} :
    e.All p ↔ p e ∧ ∀ c ∈ e.children, c.All p := by
  constructor
  · intro h
    exact ⟨h e .refl, fun c hc e' hce => h e' (.head hc hce)⟩
  · intro ⟨he, hc⟩ e' h
    rcases Relation.ReflTransGen.cases_head h with rfl | ⟨c, hec, hce⟩
    · exact he
    · exact hc c hec e' hce

theorem Expr.All.self {p : Expr → Prop} {e : Expr} (h : e.All p) : p e := (Expr.all_iff.mp h).1

theorem Expr.All.child {p : Expr → Prop} {e c : Expr} (h : e.All p) (hc : c ∈ e.children) :
    c.All p := (Expr.all_iff.mp h).2 c hc

end Tsql
