import Trigger.Infra.StateE
import Trigger.Tsql.Schema
import Trigger.Tsql.Sql

/-!
# printer の状態と雛形

`ClickHousePrinter` の可変の field と、例外つきの状態 monad。

多くの visitor は「断片を書く」「部分木を visit する」「値を parameter にする」を書かれた順に行うだけ
である。そのような visitor は雛形 `Template` を返す純粋な関数とし、`run` が左から順に実行する。
-/

namespace Tsql

open Infra

/-! ## 状態 -/

/-- `OutputColumnMetadata`。 -/
structure OutputColumn where
  name : String
  type : String
  customRenderType : Option String := none
  description : Option String := none
deriving DecidableEq

/-- `ClickHousePrinter` の状態。`stack` は先頭が最も内側の節で、`values` は parameter の値を
番号の順に並べたものである。 -/
structure PrinterState where
  stack : List Expr := []
  tableContexts : JsMap TableSchema := []
  outputColumns : List OutputColumn := []
  hiddenColumns : List String := []
  selectAliases : JsMap String := []
  allowedInternalColumns : List String := []
  internalOnlyColumns : List String := []
  inGroupByContext : Bool := false
  queryHasGroupBy : Bool := false
  inProjectionContext : Bool := false
  values : List Value := []

abbrev M := StateE PrinterState PrintError

/-! ## 雛形 -/

/-- 雛形の一要素。 -/
inductive Atom
  | text (p : Piece)
  | value (v : Value)
  | visit (e : Expr)
  | fail (error : PrintError)

abbrev Template := List Atom

def kw (s : String) : Template := [.text (.keyword s)]

def visitOne (e : Expr) : Template := [.visit e]

def failWith (e : PrintError) : Template := [.fail e]

/-- `join(sep)`。 -/
def joinTemplates (sep : String) : List Template → Template
  | [] => []
  | [t] => t
  | t :: rest => t ++ kw sep ++ joinTemplates sep rest

/-- `exprs.map(visit).join(sep)`。 -/
def visitAll (sep : String) (es : List Expr) : Template :=
  joinTemplates sep (es.map visitOne)

/-- `printIdentifier`。 -/
def printIdentifier (s : String) : Template :=
  match escapeClickHouseIdentifier s with
  | .ok _ => [.text (.identifier s)]
  | .error e => failWith e

/-- `printIdentifierOrIndex`。 -/
def printIdentifierOrIndex : ChainPart → Template
  | .name s => printIdentifier s
  | .index n => [.text (.number n)]

/-- `chain.map(printIdentifierOrIndex).join(".")`。 -/
def printChain (chain : Chain) : Template := joinTemplates "." (chain.map printIdentifierOrIndex)

/-! ## 実行 -/

/-- `context.addValue`。 -/
def addValue (v : Value) : M Sql := do
  let s ← get
  modify fun s => { s with values := s.values ++ [v] }
  pure (.text (.param s.values.length v))

def runAtom (visit : Expr → M Sql) : Atom → M Sql
  | .text p => pure (.text p)
  | .value v => addValue v
  | .visit e => visit e
  | .fail e => throw e

def runTemplate (visit : Expr → M Sql) : Template → M (List Sql)
  | [] => pure []
  | a :: rest => do
    let t ← runAtom visit a
    let ts ← runTemplate visit rest
    pure (t :: ts)

/-- 雛形を実行し、結果を連結する。 -/
def run (visit : Expr → M Sql) (t : Template) : M Sql := Sql.seq <$> runTemplate visit t

theorem mem_join {sep : String} {a : Atom} {ts : List Template} (h : a ∈ joinTemplates sep ts) :
    a = .text (.keyword sep) ∨ ∃ t ∈ ts, a ∈ t := by
  induction ts with
  | nil => cases h
  | cons t ts ih =>
    cases ts with
    | nil => exact .inr ⟨t, List.mem_cons_self, h⟩
    | cons t' ts =>
      simp only [joinTemplates, kw, List.mem_append, List.mem_singleton] at h
      rcases h with (h | h) | h
      · exact .inr ⟨t, List.mem_cons_self, h⟩
      · exact .inl h
      · rcases ih h with h | ⟨u, hu, ha⟩
        · exact .inl h
        · exact .inr ⟨u, List.mem_cons_of_mem _ hu, ha⟩

theorem mem_printIdentifier {s : String} {a : Atom} (h : a ∈ printIdentifier s) :
    a = .text (.identifier s) ∨ ∃ e, a = .fail e := by
  unfold printIdentifier at h
  split at h
  · exact .inl (List.mem_singleton.mp h)
  · exact .inr ⟨_, List.mem_singleton.mp h⟩

end Tsql
