import Trigger.Tsql.Metadata

/-!
# ClickHousePrinter

`printer.ts` の `ClickHousePrinter`（`pretty = false`）。

visitor は再帰先 `visit` を引数に取り、`visit` が燃料の帰納でそれを閉じる。guard や変換後の値のように
入力の部分木でない構文木も visit するので、構文木の構造についての再帰にはならない。
-/

namespace Tsql

open Infra

section Visitors

variable (ctx : PrinterContext) (visit : Expr → M Sql)

/-! ## 論理演算 -/

/-- 論理値の印字。 -/
def bit (b : Bool) : String := if b then "1" else "0"

/-- AND（`conj`）と OR に共通のループ。`acc` はそれまでに残した出力である。 -/
def connectiveLoop (conj : Bool) : List Expr → List Sql → M Sql
  | [], [] => pure (.kw (bit conj))
  | [], [t] => pure t
  | [], acc => pure (if conj then .and acc else .or acc)
  | e :: rest, acc => do
    let printed ← visit e
    if printed.render = bit (!conj) then pure (.kw (bit (!conj)))
    else if printed.render = bit conj then connectiveLoop conj rest acc
    else connectiveLoop conj rest (acc ++ [printed])

/-- operand が一つなら、その出力をそのまま返す。 -/
def visitConnective (conj : Bool) : List Expr → M Sql
  | [e] => visit e
  | es => connectiveLoop visit conj es []

/-- `visitAnd`。 -/
def visitAnd (es : List Expr) : M Sql := visitConnective visit true es

/-- `visitOr`。 -/
def visitOr (es : List Expr) : M Sql := visitConnective visit false es

/-- `visitNot`。 -/
def visitNot (e : Expr) : M Sql := Sql.not <$> visit e

/-! ## 関数呼び出し -/

/-- 外側の集約関数の名前。`stack` の先頭はいま見ている呼び出しである。 -/
def enclosingAggregation (toLowerCase : String → String) : List Expr → Option String
  | [] => none
  | .selectQuery _ :: _ => none
  | .call name _ _ _ :: rest =>
    if (findFunction toLowerCase aggregations name).isSome then some name
    else enclosingAggregation toLowerCase rest
  | _ :: rest => enclosingAggregation toLowerCase rest

/-- 関数名の断片。継承した property では `undefined` になる。 -/
def functionPiece (f : FunctionMeta) : Piece :=
  match f.clickhouseName with
  | some name => .function name
  | none => .verbatim "undefined"

/-- parametric な関数の parameter。 -/
def paramsTemplate : Option (List Expr) → Template
  | some params => kw "(" ++ visitAll ", " params ++ kw ")"
  | none => []

/-- 関数呼び出しの出力。引数を parameter より先に visit する。 -/
def visitFunctionCall (f : FunctionMeta) (args : List Expr) (params : Option (List Expr))
    (distinct : Bool) : M Sql := do
  let args ← run visit (visitAll ", " args)
  let params ← run visit (paramsTemplate params)
  pure (.seq [.text (functionPiece f), params, .kw "(", .kw (if distinct then "DISTINCT " else ""),
    args, .kw ")"])

/-- 比較関数の呼び出し。継承した property では演算子が関数になり、最後に例外になる。 -/
def visitComparisonCall (s : PrinterState) (name : String) (args : List Expr) : Template :=
  match args with
  | [left, right] =>
    match comparisonMapping.lookup name with
    | some op => visitCompareOperation ctx s op left right
    | none =>
      let column := extractColumnSchema s.tableContexts left
      visitOne left ++ visitOne (transformValueMapExpression ctx column right) ++
        failWith (.impossibleAst ("Unknown CompareOperationOp: " ++ name))
  | _ => failWith (.query ("Comparison '" ++ name ++ "' requires exactly two arguments"))

/-- `visitCall`。 -/
def visitCall (name : String) (args : List Expr) (params : Option (List Expr)) (distinct : Bool) :
    M Sql := do
  let s ← get
  if ctx.toLowerCase name = "timebucket" then run visit (visitTimeBucket ctx s args)
  else if (comparisonMapping.lookup name).isSome ∨ name ∈ objectPrototype then
    run visit (visitComparisonCall ctx s name args)
  else
    match findFunction ctx.toLowerCase aggregations name with
    | some f => do
      match validateFunctionArgs args.length f name "Aggregation" with
      | .error e => throw e
      | .ok () =>
        match enclosingAggregation ctx.toLowerCase s.stack.tail with
        | some outer =>
          throw (.query ("Aggregation '" ++ name ++ "' cannot be nested inside another aggregation '"
            ++ outer ++ "'"))
        | none => visitFunctionCall visit f args params distinct
    | none =>
      match findFunction ctx.toLowerCase clickhouseFunctions name with
      | some f =>
        match validateFunctionArgs args.length f name "Function" with
        | .error e => throw e
        | .ok () => visitFunctionCall visit f args params false
      | none => throw (.query ("Unknown function: " ++ name))

/-! ## LIMIT BY -/

/-- LIMIT BY の OFFSET。 -/
def offsetTemplate : Option Expr → Template
  | some offset => kw " OFFSET " ++ visitOne offset
  | none => []

/-- `LIMIT n OFFSET m BY exprs` の `LIMIT` より後ろ。`exprs` を先に visit する。 -/
def visitLimitBy (l : LimitByExpr) : M Sql := do
  let exprs ← run visit (visitAll ", " l.exprs)
  let offsetPart ← run visit (offsetTemplate l.offsetValue)
  let n ← visit l.n
  pure (.seq [n, offsetPart, .kw " BY ", exprs])

/-! ## FROM -/

/-- `expression_type`。 -/
def Expr.expressionType : Expr → String
  | .cte _ => "cte" | .alias .. => "alias" | .arithmetic .. => "arithmetic_operation"
  | .and _ => "and" | .or _ => "or" | .compare .. => "compare_operation" | .not _ => "not"
  | .between .. => "between_expr" | .order .. => "order_expr" | .arrayAccess .. => "array_access"
  | .array _ => "array" | .dict _ => "dict" | .tupleAccess .. => "tuple_access"
  | .tuple _ => "tuple" | .lambda .. => "lambda" | .constant _ => "constant" | .field _ => "field"
  | .placeholder _ => "placeholder" | .call .. => "call" | .exprCall .. => "expr_call"
  | .tsqlxTag _ => "tsqlx_tag" | .untyped _ | .absent => "undefined" | .joinExpr => "join_expr"
  | .joinConstraint .. => "join_constraint" | .windowFrame _ => "window_frame_expr"
  | .windowExpr _ => "window_expr" | .windowFunction .. => "window_function"
  | .limitBy _ => "limit_by_expr" | .ratio _ => "ratio_expr" | .sample _ => "sample_expr"
  | .selectQuery _ => "select_query" | .selectSetQuery .. => "select_set_query"

/-- table 参照で登録される内部用の column。 -/
def TableSchema.internalColumns (t : TableSchema) : List String :=
  t.tenantColumns.names ++ t.requiredFilters.map (·.column)

/-- table 参照を文脈に登録する。 -/
def registerTable (t : TableSchema) (tableAlias : String) (s : PrinterState) : PrinterState :=
  { s with
    tableContexts := s.tableContexts.set tableAlias t
    allowedInternalColumns := s.allowedInternalColumns ++ t.internalColumns
    internalOnlyColumns := s.internalOnlyColumns ++
      t.internalColumns.filter fun c => !t.isColumnExposed c }

/-- 直接の table 参照が使う別名。 -/
def effectiveAlias (j : JoinExpr) (tableName : String) : String := (truthy j.alias).getD tableName

/-- 直接の table 参照。 -/
def visitTableReference (j : JoinExpr) (chain : Chain) : M (Sql × Option Expr) :=
  match chain with
  | .name tableName :: _ =>
    let tableAlias := effectiveAlias j tableName
    match ctx.tables.get tableName with
    | none =>
      if tableName ∈ objectPrototype then do
        -- 継承した property には columns が無く、guard を作るところで TypeError になる
        let _ ← run visit (printIdentifier tableAlias)
        throw .typeError
      else
        let available := joinWith ", " ctx.tables.keys
        throw (.query ("Table " ++ quoted tableName ++ " is not accessible. Available tables: " ++
          (truthy (some available)).getD "(none)"))
    | some t =>
      match validateRequiredTenantColumns ctx t with
      | .error e => throw e
      | .ok () => do
        let printed ← run visit ([.text (.schema t.clickhouseName), .text (.keyword " AS ")] ++
          printIdentifier tableAlias)
        modify (registerTable t tableAlias)
        pure (printed, createEnforcedGuard ctx t tableAlias)
  | _ => throw (.query "Table name must be a string")

/-- FROM の一項の table 部分。 -/
def visitTable (j : JoinExpr) : M (List Sql × Option Expr) :=
  match j.table with
  | none => pure ([], none)
  | some (.field chain) => do
    let (printed, guard) ← visitTableReference ctx visit j chain
    pure ([printed], guard)
  | some e =>
    match e with
    | .selectQuery _ | .selectSetQuery .. | .placeholder _ => do
      let printed ← visit e
      pure ([printed], none)
    | e => throw (.query ("Unsupported table expression type: " ++ e.expressionType))

def ConstraintType.text : ConstraintType → String
  | .on => "ON "
  | .using => "USING "

/-- table より後ろの語。 -/
def joinTail (j : JoinExpr) : List Template :=
  let aliasPart : List Template := match truthy j.alias with
    | some name => [kw "AS " ++ printIdentifier name]
    | none => []
  let finalPart : List Template := match j.table with
    | some (.field _) => [kw "FINAL"]
    | _ => []
  let samplePart := j.sample.toList.map visitSampleExpr
  let constraintPart := j.constraint.toList.map fun c =>
    kw c.1.text ++ visitOne (.joinConstraint c.1 c.2)
  aliasPart ++ finalPart ++ samplePart ++ constraintPart

/-- 空白で区切る。 -/
def spaced : List Sql → List Sql
  | [] => []
  | [t] => [t]
  | t :: rest => t :: .kw " " :: spaced rest

/-- `visitJoinExpr`。 -/
def visitJoinExpr (j : JoinExpr) : M (Sql × Option Expr) := do
  let joinType := (truthy j.joinType).toList.map Sql.kw
  let (table, guard) ← visitTable ctx visit j
  let tail ← (joinTail j).mapM (run visit)
  pure (.seq (spaced (joinType ++ table ++ tail)), guard)

/-- FROM の連鎖。guard を条件に加えながら進む。 -/
def visitJoins : List JoinExpr → Option Expr → M (List Sql × Option Expr)
  | [], condition => pure ([], condition)
  | j :: rest, condition => do
    let (printed, guard) ← visitJoinExpr ctx visit j
    let (joined, condition) ← visitJoins rest (addGuard guard condition)
    pure (printed :: joined, condition)

/-! ## SELECT の列 -/

/-- 列の後ろに付ける ` AS name`。 -/
def asPart (name : String) : Template := kw " AS " ++ printIdentifier name

/-- 一列の出力と、metadata に使う名前。 -/
def selectColumn (s : PrinterState) (col : Expr) : Template × Option String :=
  let tables := s.tableContexts
  let analysis := analyzeSelectColumn ctx tables col
  let outputName := analysis.outputName
  match col with
  | .field chain =>
    match getTextColumnForField tables chain, truthy outputName with
    | some textColumn, some name => (printIdentifier textColumn ++ asPart name, outputName)
    | _, _ =>
      match getVirtualColumn tables chain with
      | some (name, _) => (visitOne col ++ asPart name, outputName)
      | none =>
        if isJsonSubfieldAccess tables chain then
          let name := buildAliasWithoutDataPrefix chain (getDataPrefixForField tables chain)
          (visitOne col ++ asPart name, some name)
        else
          match truthy outputName, truthy (analysis.sourceColumn.bind (·.clickhouseName)) with
          | some name, some clickhouseName =>
            (visitOne col ++ if clickhouseName ≠ name then asPart name else [], outputName)
          | _, _ => (visitOne col, outputName)
  | .call .. | .arithmetic .. | .constant _ =>
    (visitOne col ++ ((truthy outputName).map asPart).getD [], outputName)
  | .alias (.field chain) name _ =>
    match getTextColumnForField tables chain with
    | some textColumn => (printIdentifier textColumn ++ asPart name, outputName)
    | none => (visitOne col, outputName)
  | _ => (visitOne col, outputName)

/-- 列の metadata。 -/
def columnMetadata (analysis : ColumnAnalysis) (name : Option String) : List OutputColumn :=
  match truthy name with
  | none => []
  | some name =>
    let source := analysis.sourceColumn.getD {}
    [⟨name, (source.type.or analysis.inferredType).getD "String", truthy source.customRenderType,
      truthy source.description⟩]

/-- 列の metadata を記録する。最上位の SELECT だけが行う。 -/
def collect (collectMetadata : Bool) (columns : List OutputColumn) : M Unit :=
  modify fun s => if collectMetadata then
    { s with outputColumns := s.outputColumns ++ columns } else s

/-- 展開した列の出力。 -/
def visitExpansion (expansion : Expansion) (collectMetadata : Bool) : M (List Sql) := do
  let columns ← expansion.columns.mapM fun c => run visit c.1
  collect collectMetadata (expansion.columns.filterMap Prod.snd)
  modify fun s => { s with hiddenColumns := s.hiddenColumns ++ expansion.hidden }
  pure columns

/-- field なら `SELECT *` の展開。 -/
def expansionOf (tables : JsMap TableSchema) : Expr → Option Expansion
  | .field chain => expandAsterisk tables chain
  | _ => none

/-- `visitSelectColumnWithMetadata`。 -/
def visitSelectColumnWithMetadata (collectMetadata : Bool) (col : Expr) : M (List Sql) := do
  let s ← get
  match expansionOf s.tableContexts col with
  | some expansion => visitExpansion visit expansion collectMetadata
  | none =>
    let (template, name) := selectColumn ctx s col
    let printed ← run visit template
    collect collectMetadata (columnMetadata (analyzeSelectColumn ctx s.tableContexts col) name)
    pure [printed]

/-- SELECT 句の列。 -/
def visitSelectColumns (isTopLevel : Bool) (select : List Expr) : M (List Sql) :=
  match select with
  | [] => pure [.kw "1"]
  | select => do
    modify fun s => { s with
      outputColumns := if isTopLevel then [] else s.outputColumns, inProjectionContext := true }
    let columns ← select.mapM (visitSelectColumnWithMetadata ctx visit isTopLevel)
    modify fun s => { s with inProjectionContext := false }
    pure columns.flatten

/-! ## SELECT の句 -/

/-- `, ` で区切る。 -/
def commaSeparated : List Sql → Sql
  | [] => .seq []
  | [t] => t
  | t :: rest => .seq [t, .kw ", ", commaSeparated rest]

/-- 空でない出力だけを句にする。 -/
def clauseOf (c : Clause) (t : Option Sql) : Option Sql :=
  (t.filter fun t => t.render ≠ "").map (.clause c)

/-- `name AS (expr)` の並び。 -/
def visitNamed : List (String × Expr) → M (List Sql)
  | entries => entries.mapM fun p => run visit (printIdentifier p.1 ++ kw " AS (" ++ visitOne p.2 ++
      kw ")")

/-- 式があれば visit する。 -/
def visitOption : Option Expr → M (Option Sql)
  | none => pure none
  | some e => some <$> visit e

/-- 利用者の射影の文脈で `m` を実行する。 -/
def inProjection {α : Type} (m : M α) : M α := do
  modify fun s => { s with inProjectionContext := true }
  let a ← m
  modify fun s => { s with inProjectionContext := false }
  pure a

/-- GROUP BY。 -/
def visitGroupBy : Option (List Expr) → M (Option Sql)
  | none => pure none
  | some es => do
    modify fun s => { s with inGroupByContext := true }
    let columns ← inProjection (es.mapM visit)
    modify fun s => { s with inGroupByContext := false }
    pure (if columns.isEmpty then none else some (commaSeparated columns))

/-- HAVING。 -/
def visitHaving : Option Expr → M (Option Sql)
  | none => pure none
  | some e => some <$> inProjection (visit e)

/-- ORDER BY。 -/
def visitOrderBy : Option (List Expr) → M (Option Sql)
  | none => pure none
  | some es => do
    let columns ← inProjection (es.mapM visit)
    pure (if columns.isEmpty then none else some (commaSeparated columns))

/-- ARRAY JOIN。 -/
def visitArrayJoin (op : Option String) (list : List Expr) : M (Option Sql) :=
  match truthy op with
  | none => pure none
  | some op =>
    if op ∉ ["ARRAY JOIN", "LEFT ARRAY JOIN", "INNER ARRAY JOIN"] then
      throw (.impossibleAst ("Invalid ARRAY JOIN operation: " ++ op))
    else if list = [] then throw (.impossibleAst "Invalid ARRAY JOIN without an array")
    else some <$> run visit (kw op ++ kw " " ++ visitAll ", " list)

/-- 印字する LIMIT の式。最上位では `maxRows` で抑える。 -/
def cappedLimit (isTopLevel : Bool) (limit : Option Expr) : Option Expr :=
  if isTopLevel && ctx.maxRows ≠ 0 then
    match limit with
    | some (.constant (.number n)) => some (.constant (.number (n.minNat ctx.maxRows)))
    | some e => some e
    | none => some (.constant (.number (.int ctx.maxRows)))
  else limit

/-- LIMIT・WITH TIES・OFFSET。 -/
def visitLimit (limit : Option Expr) (withTies : Bool) (offset : Option Expr) : M (List Sql) :=
  match limit with
  | none => pure []
  | some e => do
    let n ← visit e
    let offset ← visitOption visit offset
    pure (.clause .limit n :: (if withTies then [.clause .withTies (.seq [])] else []) ++
      (offset.map (Sql.clause .offset)).toList)

/-- 最後の LIMIT BY。 -/
def visitLimitByClause : Option LimitByExpr → M (List Sql)
  | none => pure []
  | some l => (fun t => [Sql.clause .limitBy t]) <$> visitLimitBy visit l

/-! ## SELECT 文 -/

/-- 親が UNION などである。 -/
def PrinterState.partOfSelectUnion (s : PrinterState) : Bool :=
  match s.stack with
  | _ :: parent :: _ => parent.isSelectSetQuery
  | _ => false

/-- 最上位の SELECT である。 -/
def PrinterState.isTopLevelQuery (s : PrinterState) : Bool :=
  s.stack.length ≤ 1 || (s.stack.length = 2 && s.partOfSelectUnion)

/-- SELECT 文に入るときの状態。 -/
def enterSelect (s : PrinterState) : PrinterState :=
  { s with tableContexts := [], allowedInternalColumns := [], internalOnlyColumns := [] }

/-- SELECT 句の別名と GROUP BY の有無を記録する。 -/
def enterColumns (q : SelectQuery) (s : PrinterState) : PrinterState :=
  { s with
    selectAliases := selectAliasesOf ctx.toLowerCase q.select
    queryHasGroupBy := q.groupBy.isSome }

/-- SELECT 文を出るときに、入る前の文脈を戻す。 -/
def leaveSelect (saved s : PrinterState) : PrinterState :=
  { s with
    selectAliases := saved.selectAliases
    queryHasGroupBy := saved.queryHasGroupBy
    tableContexts := saved.tableContexts
    allowedInternalColumns := saved.allowedInternalColumns
    internalOnlyColumns := saved.internalOnlyColumns }

/-- 印字した句。 -/
structure SelectClauses where
  columns : List Sql
  windows : List Sql
  prewhere : Option Sql
  whereSql : Option Sql
  groupBy : Option Sql
  having : Option Sql
  orderBy : Option Sql
  arrayJoin : Option Sql
  limitBy : List Sql
  limit : List Sql

/-- SELECT より後ろの句を、印字する順に visit する。 -/
def visitClauses (q : SelectQuery) (isTopLevel : Bool) (condition : Option Expr) :
    M SelectClauses := do
  let columns ← visitSelectColumns ctx visit isTopLevel q.select
  let windows ← visitNamed visit q.windowExprs
  let prewhere ← visitOption visit q.prewhere
  let whereSql ← visitOption visit condition
  let groupBy ← visitGroupBy visit q.groupBy
  let having ← visitHaving visit q.having
  let orderBy ← visitOrderBy visit q.orderBy
  let arrayJoin ← visitArrayJoin visit q.arrayJoinOp q.arrayJoinList
  let limitBy ← visitLimitByClause visit q.limitBy
  let limit ← visitLimit visit (cappedLimit ctx isTopLevel q.limit) q.limitWithTies q.offset
  pure { columns, windows, prewhere, whereSql, groupBy, having, orderBy, arrayJoin, limitBy, limit }

/-- 句を並べる。空の句は落とす。 -/
def SelectClauses.toList (c : SelectClauses) (distinct : Bool) (ctes joined : List Sql) :
    List Sql :=
  let select := Sql.clause .select
    (.seq [.kw (if distinct then "DISTINCT " else ""), commaSeparated c.columns])
  [if ctes.isEmpty then none else some (.clause .with (commaSeparated ctes)),
    some select,
    if joined.isEmpty then none else some (.clause .from (.seq (spaced joined))),
    c.arrayJoin.map (.clause .arrayJoin),
    clauseOf .prewhere c.prewhere,
    clauseOf .where c.whereSql,
    c.groupBy.map (.clause .groupBy),
    clauseOf .having c.having,
    clauseOf .window (if c.windows.isEmpty then none else some (commaSeparated c.windows)),
    c.orderBy.map (.clause .orderBy)].filterMap id ++ c.limitBy ++ c.limit

/-- `visitSelectQuery`。 -/
def visitSelectQuery (q : SelectQuery) : M Sql := do
  let saved ← get
  modify enterSelect
  let ctes ← visitNamed visit q.ctes
  let (joined, condition) ← visitJoins ctx visit q.selectFrom q.where
  modify (enterColumns ctx q)
  let clauses ← visitClauses ctx visit q saved.isTopLevelQuery condition
  modify (leaveSelect saved)
  let response := Sql.seq (spaced (clauses.toList q.distinct ctes joined))
  pure (if saved.partOfSelectUnion || saved.isTopLevelQuery then response
    else .seq [.kw "(", response, .kw ")"])

def SetOperator.text : SetOperator → String
  | .unionAll => " UNION ALL "
  | .unionDistinct => " UNION DISTINCT "
  | .intersect => " INTERSECT "
  | .intersectDistinct => " INTERSECT DISTINCT "
  | .except => " EXCEPT "

/-- `visitSelectSetQuery`。 -/
def visitSelectSetQuery (initial : Expr) (subsequent : List (SetOperator × Expr)) : M Sql := do
  let s ← get
  let ret ← run visit (visitOne initial ++ subsequent.flatMap fun p => kw p.1.text ++ visitOne p.2)
  pure (if 1 < s.stack.length then .seq [.kw "(", .trim ret, .kw ")"] else ret)

/-! ## 振り分け -/

/-- 雛形で書ける節。 -/
def exprTemplate (s : PrinterState) : Expr → Template
  | .cte e | .placeholder e | .joinConstraint _ e => visitOne e
  | .alias e name hidden => visitAlias e name hidden
  | .arithmetic op left right => visitArithmeticOperation op left right
  | .compare op left right => visitCompareOperation ctx s op left right
  | .between e low high negated => visitBetweenExpr e low high negated
  | .order e descending => visitOrderExpr e descending
  | .arrayAccess array property => visitArrayAccess array property
  | .array es => visitArray es
  | .dict items => visitDict items
  | .tupleAccess e index => visitTupleAccess e index
  | .tuple es => visitTuple es
  | .lambda args e => visitLambda args e
  | .constant v => visitConstant v
  | .field chain => visitField ctx s chain
  | .windowFrame f => visitWindowFrameExpr f
  | .windowExpr w => visitWindowExpr w
  | .windowFunction name args _ overIdentifier overExpr =>
    visitWindowFunction name args overIdentifier overExpr
  | .ratio r => visitRatioExpr r
  | .sample sample => visitSampleExpr sample
  | .joinExpr => failWith (.impossibleAst "JoinExpr should be handled via visitJoinExpr")
  | e => failWith (.notImplemented ("Unknown expression type: " ++ e.expressionType))

/-- `visit` の振り分け。 -/
def visitNode (e : Expr) : M Sql :=
  match e with
  | .and es => visitAnd visit es
  | .or es => visitOr visit es
  | .not e => visitNot visit e
  | .call name args params distinct => visitCall ctx visit name args params distinct
  | .limitBy l => (fun t => Sql.clause .limitBy t) <$> visitLimitBy visit l
  | .selectQuery q => visitSelectQuery ctx visit q
  | .selectSetQuery initial subsequent => visitSelectSetQuery visit initial subsequent
  | e => do
    let s ← get
    run visit (exprTemplate ctx s e)

end Visitors

/-! ## 再帰を閉じる -/

/-- `visit`。節を stack に積んで振り分ける。 -/
def visit (ctx : PrinterContext) : Nat → Expr → M Sql
  | 0, _ => throw .outOfFuel
  | _ + 1, .absent => pure (.seq [])
  | fuel + 1, e => do
    modify fun s => { s with stack := e :: s.stack }
    let response ← visitNode ctx (visit ctx fuel) e
    modify fun s => { s with stack := s.stack.tail }
    pure (.node e response)

/-- `PrintResult`。 -/
structure PrintResult where
  sql : Sql
  params : List Value
  columns : List OutputColumn
  hiddenColumns : List String

/-- `printToClickHouse`。 -/
def print (ctx : PrinterContext) (fuel : Nat) (node : Expr) : Except PrintError PrintResult :=
  match visit ctx fuel node {} with
  | .error e => .error e
  | .ok (sql, s) => .ok ⟨sql, s.values, s.outputColumns, s.hiddenColumns⟩

end Tsql
