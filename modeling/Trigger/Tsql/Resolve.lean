import Mathlib.Data.List.Lex
import Trigger.Infra.Text
import Trigger.Tsql.Template

/-!
# 名前の解決

printer が `tableContexts`・`selectAliases` などを引いて field を解決する関数。いずれも状態を読むだけで
変えない。

field の chain は、先頭が table alias なら「table.column」、そうでなければ column（あるいは JSON の
path）として読まれる。
-/

namespace Tsql

open Infra
open Infra.Text (utf16)

/-! ## column の検索 -/

/-- `resolveFieldToColumnSchema`（`extractColumnSchemaFromExpression` も同じ）。 -/
def resolveFieldToColumnSchema (tables : JsMap TableSchema) : Chain → Option ColumnRef
  | [.name column] => tables.findSome? fun t => t.2.column column
  | .name table :: .name column :: _ => (tables.get table).bind fun t => t.column column
  | _ => none

/-- 式が field のとき、その column。 -/
def extractColumnSchema (tables : JsMap TableSchema) : Expr → Option ColumnRef
  | .field chain => resolveFieldToColumnSchema tables chain
  | _ => none

/-- `resolveFieldToColumn`。 -/
def resolveFieldToColumn (tables : JsMap TableSchema) :
    Chain → Option String × Option ColumnRef
  | [] => (none, none)
  | .index _ :: _ => (none, none)
  | .name first :: rest =>
    if first = "*" ∨ rest = [.name "*"] then (none, none)
    else
      match rest with
      | [] => (some first, tables.findSome? fun t => t.2.column first)
      | second :: _ =>
        match tables.get first with
        | none => (some first, none)
        | some t =>
          match second with
          | .index _ => (none, none)
          | .name column => (some column, t.column column)

/-- column が virtual なら、その式。 -/
def virtualExpressionOf (t : TableSchema) (column : String) : Option String :=
  (t.columns.get column).bind ColumnSchema.virtualExpression

/-- `getVirtualColumnNameForField` と `getVirtualColumnExpressionForField`。 -/
def getVirtualColumn (tables : JsMap TableSchema) : Chain → Option (String × String)
  | [.name column] => (tables.findSome? fun t => virtualExpressionOf t.2 column).map (column, ·)
  | .name table :: .name column :: _ =>
    ((tables.get table).bind fun t => virtualExpressionOf t column).map (column, ·)
  | _ => none

/-- `getTextColumnForField`。 -/
def getTextColumnForField (tables : JsMap TableSchema) : Chain → Option String
  | [.name column] =>
    (resolveFieldToColumnSchema tables [.name column]).bind fun c => c.own?.bind (·.textColumn)
  | [.name table, .name column] =>
    (tables.get table).bind fun t => (t.column column).bind fun c => c.own?.bind (·.textColumn)
  | _ => none

/-- `getTextColumnForExpression`。 -/
def getTextColumnForExpression (tables : JsMap TableSchema) : Expr → Option String
  | .field chain => getTextColumnForField tables chain
  | _ => none

/-! ## JSON の path -/

/-- `getDataPrefixForField`。 -/
def getDataPrefixForField (tables : JsMap TableSchema) : Chain → Option String
  | .name first :: second :: rest =>
    match tables.get first with
    | some t =>
      match second, rest with
      | .name column, _ :: _ => (t.column column).bind fun c => c.own?.bind (·.dataPrefix)
      | _, _ => none
    | none =>
      (resolveFieldToColumnSchema tables [.name first]).bind fun c => c.own?.bind (·.dataPrefix)
  | _ => none

/-- `injectDataPrefix`。 -/
def injectDataPrefix (tables : JsMap TableSchema) (chain : Chain) : Chain :=
  match truthy (getDataPrefixForField tables chain), chain with
  | some dataPrefix, .name first :: second :: rest =>
    match tables.get first with
    | some _ => .name first :: second :: .name dataPrefix :: rest
    | none => .name first :: .name dataPrefix :: second :: rest
  | _, _ => chain

/-- column の型が JSON である。 -/
def isJsonColumn (c : Option ColumnRef) : Bool := c.any fun c => c.own?.any (·.type = "JSON")

/-- `isJsonSubfieldAccess`。 -/
def isJsonSubfieldAccess (tables : JsMap TableSchema) : Chain → Bool
  | first :: _ :: _ => isJsonColumn (resolveFieldToColumnSchema tables [first])
  | _ => false

/-- chain の名前の部分。 -/
def Chain.names (chain : Chain) : List String :=
  chain.filterMap fun
    | .name s => some s
    | .index _ => none

/-- `buildAliasWithoutDataPrefix`。`indexOf` が 0 のときは何も除かない。 -/
def buildAliasWithoutDataPrefix (chain : Chain) (dataPrefix : Option String) : String :=
  let parts := Chain.names chain
  let parts := match truthy dataPrefix with
    | some p => if parts.head? = some p then parts else parts.erase p
    | none => parts
  joinWith "_" parts

/-! ## 比較の文脈 -/

/-- `isInWhereComparisonContext`。 -/
def PrinterState.isInWhereComparisonContext (s : PrinterState) : Bool := s.stack.any Expr.isCompare

/-- `isInComparisonContext`。 -/
def PrinterState.isInComparisonContext (s : PrinterState) : Bool :=
  s.inGroupByContext || s.isInWhereComparisonContext

/-! ## 例外の文面 -/

/-- `names.sort()`。UTF-16 の code unit の列の順に並べる。 -/
def sortNames (names : List String) : List String :=
  names.mergeSort fun a b => decide (utf16 a ≤ utf16 b)

/-- `getAvailableColumnNames`。 -/
def getAvailableColumnNames (tables : JsMap TableSchema) : List String :=
  sortNames (tables.flatMap fun t => t.2.columns.keys).dedup

/-- ClickHouse の名前から TSQL の名前を引く。 -/
def TableSchema.tsqlNameOf (t : TableSchema) (clickhouseName : String) : Option String :=
  (t.columns.entries.find? fun c => c.2.clickhouseName = some clickhouseName).map Prod.fst

/-- `findTSQLNameForClickHouseName`。 -/
def findTSQLNameForClickHouseName (tables : JsMap TableSchema) (clickhouseName : String) :
    Option String :=
  tables.findSome? fun t => t.2.tsqlNameOf clickhouseName

def quoted (s : String) : String := "\"" ++ s ++ "\""

def unknownColumn (column : String) (hint : String) : PrintError :=
  .query ("Unknown column " ++ quoted column ++ hint)

/-! ## chain の解決 -/

/-- 解決した column 名。`undefined` を識別子として印字しようとすると TypeError になる。 -/
def ColumnRef.nameOrError (c : ColumnRef) : Except PrintError String :=
  match c.resolvedName with
  | some name => .ok name
  | none => .error .typeError

/-- column に公開されていない、内部用の column 名。 -/
def TableSchema.isInternalColumn (t : TableSchema) (column : String) : Bool :=
  some column = t.tenantColumns.organizationId || some column = t.tenantColumns.projectId ||
    some column = t.tenantColumns.environmentId ||
    t.requiredFilters.any fun f => f.column = column

/-- `resolveColumnName`。 -/
def resolveColumnName (t : TableSchema) (column tableAlias : String) : Except PrintError String :=
  match t.column column with
  | some c => c.nameOrError
  | none =>
    if t.isInternalColumn column then .ok column
    else
      match t.tsqlNameOf column with
      | some name => .error (unknownColumn column (". Did you mean " ++ quoted name ++ "?"))
      | none =>
        let tableName := (truthy (some tableAlias)).getD t.name
        .error (unknownColumn column (" on table " ++ quoted tableName ++ ". Available columns: " ++
          joinWith ", " (sortNames t.columns.keys)))

/-- 名前だけの field を解決する。 -/
def resolveUnqualified (toLowerCase : String → String) (s : PrinterState) (column : String) :
    Except PrintError String :=
  match s.tableContexts.findSome? fun t => t.2.column column with
  | some c => c.nameOrError
  | none =>
    match s.selectAliases.get (toLowerCase column) with
    | some canonical => .ok canonical
    | none =>
      if s.inProjectionContext ∧ column ∈ s.internalOnlyColumns then
        .error (.query ("Column " ++ quoted column ++
          " is not available for querying. Available columns: " ++
          joinWith ", " (getAvailableColumnNames s.tableContexts)))
      else if column ∈ s.allowedInternalColumns then .ok column
      else if s.tableContexts = [] then .ok column
      else
        match truthy (findTSQLNameForClickHouseName s.tableContexts column) with
        | some name => .error (unknownColumn column (". Did you mean " ++ quoted name ++ "?"))
        | none =>
          .error (unknownColumn column (". Available columns: " ++
            joinWith ", " (getAvailableColumnNames s.tableContexts)))

/-- `resolveFieldChain`。 -/
def resolveFieldChain (toLowerCase : String → String) (s : PrinterState) (chain : Chain) :
    Except PrintError Chain :=
  match chain with
  | [.name column] => (resolveUnqualified toLowerCase s column).map fun name => [.name name]
  | .name table :: .name column :: rest =>
    match s.tableContexts.get table with
    | some t =>
      (resolveColumnName t column table).map fun name => .name table :: .name name :: rest
    -- table alias でなければ、JSON の path かもしれないのでそのまま返す
    | none => .ok chain
  | _ => .ok chain

/-- `resolveFieldChainWithTableAlias`。 -/
def resolveFieldChainWithTableAlias (toLowerCase : String → String) (s : PrinterState)
    (chain : Chain) : Except PrintError Chain :=
  match chain with
  | [.name column] =>
    match s.tableContexts.findSome? fun t => (t.2.column column).map (t.1, ·) with
    | some (tableAlias, c) => c.nameOrError.map fun name => [.name tableAlias, .name name]
    | none => .ok chain
  | .name _ :: _ :: _ => resolveFieldChain toLowerCase s chain
  | _ => .ok chain

/-! ## field の印字 -/

def printResolved (chain : Except PrintError Chain) : Template :=
  match chain with
  | .ok chain => printChain chain
  | .error e => failWith e

/-- `visitField`。 -/
def visitField (ctx : PrinterContext) (s : PrinterState) (chain : Chain) : Template :=
  match chain with
  | [] => failWith (.impossibleAst "Field chain is empty")
  | [.name "*"] => kw "*"
  | [.name table, .name "*"] => printIdentifier table ++ kw ".*"
  | first :: _ =>
    let column := resolveFieldToColumnSchema s.tableContexts chain
    let raw := column.any fun c => c.own?.any (·.whereTransform.isSome)
    if raw && s.isInComparisonContext then
      printResolved (resolveFieldChainWithTableAlias ctx.toLowerCase s chain)
    else
      match getVirtualColumn s.tableContexts chain with
      | some (name, expression) =>
        if s.inGroupByContext then printIdentifier name
        else kw "(" ++ [Atom.text (.schema expression)] ++ kw ")"
      | none =>
        match resolveFieldChain ctx.toLowerCase s (injectDataPrefix s.tableContexts chain) with
        | .error e => failWith e
        | .ok resolved =>
          let root := resolveFieldToColumnSchema s.tableContexts [first]
          let hint := 1 < resolved.length && isJsonColumn root && s.queryHasGroupBy &&
            !s.isInWhereComparisonContext
          printChain resolved ++ if hint then kw ".:String" else []

end Tsql
