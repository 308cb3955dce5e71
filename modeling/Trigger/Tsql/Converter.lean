import Trigger.Tsql.Printer

/-!
# 条件の parse tree と変換

`parser.ts` の `TSQLParseTreeConverter` のうち、条件を組み立てる部分
（`visitColumnExprAnd`・`visitColumnExprOr`・`visitColumnExprNot`・`visitColumnExprParens` と、
比較・BETWEEN・IS NULL・tuple・配列・TRUE / FALSE）。

AND と OR は、変換した operand が `exprs` を持てばその中身を取り込んで平らにする。`exprs` は
And・Or だけでなく tuple・配列・window function も持つ。
-/

namespace Tsql

/-- `columnExpr` の parse tree。`other` は残りの選択肢で、変換の結果だけを持つ。 -/
inductive ColumnExpr
  | and (left right : ColumnExpr)
  | or (left right : ColumnExpr)
  | not (expr : ColumnExpr)
  | parens (expr : ColumnExpr)
  | compare (op : CompareOp) (left right : ColumnExpr)
  | between (expr low high : ColumnExpr) (negated : Bool)
  | isNull (expr : ColumnExpr) (negated : Bool)
  | tuple (exprs : List ColumnExpr)
  | array (exprs : List ColumnExpr)
  | bool (b : Bool)
  | other (expr : Expr)

/-- `"exprs" in expr && expr.exprs`。 -/
def Expr.exprs? : Expr → Option (List Expr)
  | .and es | .or es | .array es | .tuple es => some es
  | .windowFunction _ _ exprs _ _ => some exprs
  | .limitBy l => some l.exprs
  | _ => none

/-- operand を取り込む列。 -/
def Expr.operands (e : Expr) : List Expr := e.exprs?.getD [e]

mutual
/-- 変換。 -/
def ColumnExpr.convert : ColumnExpr → Expr
  | .and left right => .and (left.convert.operands ++ right.convert.operands)
  | .or left right => .or (left.convert.operands ++ right.convert.operands)
  | .not e => .not e.convert
  | .parens e => e.convert
  | .compare op left right => .compare op left.convert right.convert
  | .between e low high negated => .between e.convert low.convert high.convert negated
  | .isNull e negated => .compare (if negated then .notEq else .eq) e.convert (.constant .null)
  | .tuple es => .tuple (ColumnExpr.convertAll es)
  | .array es => .array (ColumnExpr.convertAll es)
  | .bool b => .constant (.bool b)
  | .other e => e

def ColumnExpr.convertAll : List ColumnExpr → List Expr
  | [] => []
  | e :: rest => e.convert :: ColumnExpr.convertAll rest
end

/-! ## 条件 -/

/-- 条件を組み立てる atom。 -/
def ColumnExpr.IsAtom : ColumnExpr → Prop
  | .compare .. | .between .. | .isNull .. | .tuple _ | .array _ | .bool _ => True
  | _ => False

/-- atom から AND・OR・NOT・括弧で組み立てた条件。 -/
def ColumnExpr.IsCondition : ColumnExpr → Prop
  | .and left right | .or left right => left.IsCondition ∧ right.IsCondition
  | .not e | .parens e => e.IsCondition
  | e => e.IsAtom

/-- parse tree の真理値。定数以外の atom の値は `w` が与える。 -/
def ColumnExpr.eval (w : Expr → Bool) : ColumnExpr → Bool
  | .and left right => left.eval w && right.eval w
  | .or left right => left.eval w || right.eval w
  | .not e => !e.eval w
  | .parens e => e.eval w
  | .bool b => b
  | e => w e.convert

/-- 括弧を外した parse tree。 -/
def ColumnExpr.core : ColumnExpr → ColumnExpr
  | .parens e => e.core
  | e => e

/-- AND の operand にしてよい。括弧を外して、OR・tuple・配列・window function でない。 -/
def ColumnExpr.AndOperand (e : ColumnExpr) : Prop :=
  match e.core with
  | .or .. | .tuple _ | .array _ => False
  | .other e => e.exprs? = none
  | _ => True

/-- OR の operand にしてよい。括弧を外して、AND・tuple・配列・window function でない。 -/
def ColumnExpr.OrOperand (e : ColumnExpr) : Prop :=
  match e.core with
  | .and .. | .tuple _ | .array _ => False
  | .other e => e.exprs? = none
  | _ => True

/-- どの AND・OR も、平らにしてよい operand だけを持つ。 -/
def ColumnExpr.Unmixed : ColumnExpr → Prop
  | .and left right => left.AndOperand ∧ right.AndOperand ∧ left.Unmixed ∧ right.Unmixed
  | .or left right => left.OrOperand ∧ right.OrOperand ∧ left.Unmixed ∧ right.Unmixed
  | .not e | .parens e => e.Unmixed
  | _ => True

end Tsql
