import Mathlib.Tactic.Common
import Trigger.Tsql.Escape

/-!
# 出力される SQL の木

printer は文字列を連結するが、模型ではその連結の構造を木 `Sql` として残す。`render` が文字列を与え、
`text` の葉は出所ごとに分けた `Piece` である。`node e t` は構文木 `e` を印字した結果が `t` であることを
記録するだけで、文字列には現れない。

論理演算の出力 `and(…)`・`or(…)`・`not(…)` の真理値（`truth`）は、残りの節への割り当てから決まる。
-/

namespace Tsql

/-! ## 断片 -/

/-- 出力の断片。 -/
inductive Piece
  /-- printer に書かれた固定の文字列。 -/
  | keyword (s : String)
  /-- schema から取った名前や式。 -/
  | schema (s : String)
  /-- 許可表の関数名。 -/
  | function (s : String)
  | number (x : Number)
  /-- `{tsql_val_n: Type}`。 -/
  | param (n : Nat) (value : Value)
  /-- `escapeClickHouseIdentifier` の出力。 -/
  | identifier (s : String)
  /-- そのまま出力される文字列。 -/
  | verbatim (s : String)
deriving DecidableEq

/-- parameter の placeholder。 -/
def paramText (n : Nat) (v : Value) : String :=
  "\x7btsql_val_" ++ toString n ++ ": " ++ getClickHouseType v ++ "\x7d"

def Piece.text : Piece → String
  | .keyword s | .schema s | .function s | .verbatim s => s
  | .number x => x.text
  | .param n v => paramText n v
  | .identifier s => identifierText s

/-- SELECT 文の句。 -/
inductive Clause
  | with | select | from | arrayJoin | prewhere | where | groupBy | having | window | orderBy
  | limitBy | limit | withTies | offset
deriving DecidableEq

/-- 句の先頭に置く語。 -/
def Clause.keyword : Clause → String
  | .with => "WITH "
  | .select => "SELECT "
  | .from => "FROM "
  | .arrayJoin => ""
  | .prewhere => "PREWHERE "
  | .where => "WHERE "
  | .groupBy => "GROUP BY "
  | .having => "HAVING "
  | .window => "WINDOW "
  | .orderBy => "ORDER BY "
  | .limitBy | .limit => "LIMIT "
  | .withTies => "WITH TIES"
  | .offset => "OFFSET "

/-! ## 木 -/

/-- 出力の木。 -/
inductive Sql
  | text (p : Piece)
  | seq (l : List Sql)
  | and (l : List Sql)
  | or (l : List Sql)
  | not (t : Sql)
  | clause (c : Clause) (t : Sql)
  | node (e : Expr) (t : Sql)
  | trim (t : Sql)

/-- 固定の文字列。 -/
def Sql.kw (s : String) : Sql := .text (.keyword s)

/-- 連結。 -/
def concat : List String → String
  | [] => ""
  | s :: rest => s ++ concat rest

/-- `join(sep)`。 -/
def joinWith (sep : String) : List String → String
  | [] => ""
  | [s] => s
  | s :: rest => s ++ sep ++ joinWith sep rest

/-- `String.prototype.trim` が除く文字。 -/
def isJsSpace (c : Char) : Bool :=
  c ∈ ['\t', '\n', '\x0b', '\x0c', '\r', ' ', '\u00a0', '\u1680', '\u2028', '\u2029', '\u202f',
    '\u205f', '\u3000', '\ufeff'] || (0x2000 ≤ c.toNat && c.toNat ≤ 0x200a)

/-- `trim()`。 -/
def trimText (s : String) : String :=
  String.ofList (((s.toList.dropWhile isJsSpace).reverse.dropWhile isJsSpace).reverse)

mutual
/-- 出力の文字列。 -/
def Sql.render : Sql → String
  | .text p => p.text
  | .seq l => concat (Sql.renderAll l)
  | .and l => "and(" ++ joinWith ", " (Sql.renderAll l) ++ ")"
  | .or l => "or(" ++ joinWith ", " (Sql.renderAll l) ++ ")"
  | .not t => "not(" ++ t.render ++ ")"
  | .clause c t => c.keyword ++ t.render
  | .node _ t => t.render
  | .trim t => trimText t.render

def Sql.renderAll : List Sql → List String
  | [] => []
  | t :: rest => t.render :: Sql.renderAll rest
end

mutual
/-- 木に現れる断片。 -/
def Sql.pieces : Sql → List Piece
  | .text p => [p]
  | .seq l | .and l | .or l => Sql.piecesAll l
  | .not t | .clause _ t | .node _ t | .trim t => t.pieces

def Sql.piecesAll : List Sql → List Piece
  | [] => []
  | t :: rest => t.pieces ++ Sql.piecesAll rest
end

mutual
/-- 木に現れる、構文木の印字の記録。 -/
def Sql.nodes : Sql → List (Expr × Sql)
  | .text _ => []
  | .seq l | .and l | .or l => Sql.nodesAll l
  | .not t | .clause _ t | .trim t => t.nodes
  | .node e t => (e, t) :: t.nodes

def Sql.nodesAll : List Sql → List (Expr × Sql)
  | [] => []
  | t :: rest => t.nodes ++ Sql.nodesAll rest
end

mutual
/-- 条件としての真理値。論理演算でない節の値は `v` が与える。 -/
def Sql.truth (v : Expr → Sql → Bool) : Sql → Bool
  | .text p => p.text = "1"
  | .seq _ => false
  | .and l => Sql.truthAll v l
  | .or l => Sql.truthAny v l
  | .not t => !t.truth v
  | .clause _ t | .trim t => t.truth v
  | .node e t => if e.isConnective then t.truth v else v e t

def Sql.truthAll (v : Expr → Sql → Bool) : List Sql → Bool
  | [] => true
  | t :: rest => t.truth v && Sql.truthAll v rest

def Sql.truthAny (v : Expr → Sql → Bool) : List Sql → Bool
  | [] => false
  | t :: rest => t.truth v || Sql.truthAny v rest
end

/-! ## リストについての形 -/

@[simp] theorem Sql.renderAll_eq (l : List Sql) : Sql.renderAll l = l.map Sql.render := by
  induction l with
  | nil => rfl
  | cons t l ih => rw [Sql.renderAll, ih]; rfl

@[simp] theorem Sql.piecesAll_eq (l : List Sql) : Sql.piecesAll l = l.flatMap Sql.pieces := by
  induction l with
  | nil => rfl
  | cons t l ih => rw [Sql.piecesAll, ih]; rfl

@[simp] theorem Sql.nodesAll_eq (l : List Sql) : Sql.nodesAll l = l.flatMap Sql.nodes := by
  induction l with
  | nil => rfl
  | cons t l ih => rw [Sql.nodesAll, ih]; rfl

@[simp] theorem Sql.truthAll_eq (v : Expr → Sql → Bool) (l : List Sql) :
    Sql.truthAll v l = l.all (Sql.truth v) := by
  induction l with
  | nil => rfl
  | cons t l ih => rw [Sql.truthAll, ih]; rfl

@[simp] theorem Sql.truthAny_eq (v : Expr → Sql → Bool) (l : List Sql) :
    Sql.truthAny v l = l.any (Sql.truth v) := by
  induction l with
  | nil => rfl
  | cons t l ih => rw [Sql.truthAny, ih]; rfl

/-! ## 句の取り出し -/

/-- 並びの中の句 `c`。 -/
def findClause (c : Clause) : List Sql → Option Sql
  | [] => none
  | .clause c' t :: rest => if c' = c then some t else findClause c rest
  | _ :: rest => findClause c rest

/-- SELECT 文の木が持つ句 `c`。 -/
def Sql.clause? (c : Clause) : Sql → Option Sql
  | .seq l => findClause c l
  | _ => none

end Tsql
