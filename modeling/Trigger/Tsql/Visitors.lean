import Trigger.Tsql.Resolve

/-!
# 式の visitor

`ClickHousePrinter` の visitor のうち、雛形で書けるもの。状態は読むだけである。

強制される条件（`createEnforcedGuard`）も、ここで構文木として作る。
-/

namespace Tsql

open Infra

/-! ## 値の変換 -/

/-- `transformSingleValue`。 -/
def transformSingleValue (ctx : PrinterContext) (c : ColumnSchema) (value : String) : String :=
  match c.whereTransform with
  | some f => f value
  | none =>
    let internalValue := getInternalValue ctx.toLowerCase c value
    if internalValue ≠ value then internalValue
    else
      match truthy c.fieldMapping with
      | some mapping =>
        (getInternalValueFromMapping ctx.toLowerCase ctx.fieldMappings mapping value).getD value
      | none => value

mutual
/-- 定数・配列・tuple の中の文字列を置き換える。 -/
def mapStrings (f : String → String) : Expr → Expr
  | .constant (.string value) => .constant (.string (f value))
  | .array es => .array (mapStringsAll f es)
  | .tuple es => .tuple (mapStringsAll f es)
  | e => e

def mapStringsAll (f : String → String) : List Expr → List Expr
  | [] => []
  | e :: rest => mapStrings f e :: mapStringsAll f rest
end

/-- 値の変換を持つ column である。 -/
def ColumnSchema.hasValueTransform (c : ColumnSchema) : Bool :=
  c.whereTransform.isSome || !c.valueMap.isEmpty || (truthy c.fieldMapping).isSome

/-- `transformValueMapExpression`。 -/
def transformValueMapExpression (ctx : PrinterContext) (column : Option ColumnRef) (e : Expr) :
    Expr :=
  match column.bind ColumnRef.own? with
  | some c => if c.hasValueTransform then mapStrings (transformSingleValue ctx c) e else e
  | none => e

/-! ## 比較 -/

def CompareOp.usesTextColumn : CompareOp → Bool
  | .eq | .notEq | .like | .iLike | .notLike | .notILike => true
  | _ => false

/-- `CompareOperationOp` の値。 -/
def CompareOp.text : CompareOp → String
  | .eq => "==" | .notEq => "!=" | .gt => ">" | .gtEq => ">=" | .lt => "<" | .ltEq => "<="
  | .like => "like" | .iLike => "ilike" | .notLike => "not like" | .notILike => "not ilike"
  | .in => "in" | .globalIn => "global in" | .notIn => "not in" | .globalNotIn => "global not in"
  | .inCohort => "in cohort" | .notInCohort => "not in cohort"
  | .regex => "=~" | .iRegex => "=~*" | .notRegex => "!~" | .notIRegex => "!~*"

def Expr.isNull : Expr → Bool
  | .constant .null => true
  | _ => false

/-- 比較の左辺。JSON の column を丸ごと比べるときは text column を使う。 -/
def compareLeft (s : PrinterState) (op : CompareOp) (left : Expr) : Template :=
  let textColumn := if op.usesTextColumn then
    truthy (getTextColumnForExpression s.tableContexts left) else none
  match textColumn with
  | none => visitOne left
  | some column =>
    match left with
    | .field (.name table :: _ :: _) =>
      if (s.tableContexts.get table).isSome then
        printIdentifier table ++ kw "." ++ printIdentifier column
      else printIdentifier column
    | _ => printIdentifier column

/-- NULL との比較。`nullValue` を持つ column では、その値との比較になる。 -/
def compareNull (equalsName nullName : String) (side : Template) (column : Option ColumnRef) :
    Template :=
  match (column.bind ColumnRef.own?).bind fun c => truthy c.nullValue with
  | some nullValue =>
    kw equalsName ++ side ++ kw ", " ++ [Atom.text (.schema nullValue)] ++ kw ")"
  | none => kw nullName ++ side ++ kw ")"

/-- 関数の形の比較。 -/
def compareCall (before : String) (left : Template) (middle : String) (right : Template)
    (after : String) : Template :=
  kw before ++ left ++ kw middle ++ right ++ kw after

/-- `visitCompareOperation`。NULL と比べる側は断片を持たないので、visit しても出力に現れない。 -/
def visitCompareOperation (ctx : PrinterContext) (s : PrinterState) (op : CompareOp)
    (left right : Expr) : Template :=
  let column := extractColumnSchema s.tableContexts left
  let rightColumn := extractColumnSchema s.tableContexts right
  let right := transformValueMapExpression ctx column right
  let l := compareLeft s op left
  let r := visitOne right
  let call (name : String) : Template := compareCall name l ", " r ")"
  let withNull (equalsName nullName : String) : Template :=
    if right.isNull then compareNull equalsName nullName l column
    else if left.isNull then compareNull equalsName nullName r rightColumn
    else call equalsName
  match op with
  | .eq => withNull "equals(" "isNull("
  | .notEq => withNull "notEquals(" "isNotNull("
  | .lt => call "less("
  | .ltEq => call "lessOrEquals("
  | .gt => call "greater("
  | .gtEq => call "greaterOrEquals("
  | .like => call "like("
  | .iLike => call "ilike("
  | .notLike => call "notLike("
  | .notILike => call "notILike("
  | .in => call "in("
  | .notIn => call "notIn("
  | .globalIn => call "globalIn("
  | .globalNotIn => call "globalNotIn("
  | .regex => call "match("
  | .notRegex => compareCall "not(match(" l ", " r "))"
  | .iRegex => compareCall "match(" l ", concat('(?i)', " r "))"
  | .notIRegex => compareCall "not(match(" l ", concat('(?i)', " r ")))"
  | .inCohort | .notInCohort =>
    l ++ r ++ failWith (.impossibleAst ("Unknown CompareOperationOp: " ++ op.text))

/-! ## 単純な式 -/

def ArithmeticOp.name : ArithmeticOp → String
  | .add => "plus"
  | .sub => "minus"
  | .mult => "multiply"
  | .div => "divide"
  | .mod => "modulo"

/-- `visitArithmeticOperation`。 -/
def visitArithmeticOperation (op : ArithmeticOp) (left right : Expr) : Template :=
  compareCall (op.name ++ "(") (visitOne left) ", " (visitOne right) ")"

/-- `visitAlias`。 -/
def visitAlias (e : Expr) (name : String) (hidden : Bool) : Template :=
  if hidden then visitOne e else visitOne e ++ kw " AS " ++ printIdentifier name

/-- `visitBetweenExpr`。 -/
def visitBetweenExpr (e low high : Expr) (negated : Bool) : Template :=
  visitOne e ++ kw (if negated then " NOT" else "") ++ kw " BETWEEN " ++ visitOne low ++
    kw " AND " ++ visitOne high

/-- `visitOrderExpr`。 -/
def visitOrderExpr (e : Expr) (descending : Bool) : Template :=
  visitOne e ++ kw (if descending then " DESC" else " ASC")

/-- `visitArrayAccess`。 -/
def visitArrayAccess (array property : Expr) : Template :=
  visitOne array ++ kw "[" ++ visitOne property ++ kw "]"

/-- `visitArray`。 -/
def visitArray (es : List Expr) : Template := kw "[" ++ visitAll ", " es ++ kw "]"

/-- `visitDict`。 -/
def visitDict (items : List (Expr × Expr)) : Template :=
  kw "tuple('__hx_tag', '__hx_obj'" ++
    items.flatMap (fun i => kw ", " ++ visitOne i.1 ++ kw ", " ++ visitOne i.2) ++ kw ")"

/-- 括弧なしで要素を取り出せる式。 -/
def Expr.isSimple : Expr → Bool
  | .field _ | .tuple _ | .call .. => true
  | _ => false

/-- `visitTupleAccess`。 -/
def visitTupleAccess (e : Expr) (index : Number) : Template :=
  if e.isSimple then visitOne e ++ kw "." ++ [Atom.text (.number index)]
  else kw "(" ++ visitOne e ++ kw ")." ++ [Atom.text (.number index)]

/-- `visitTuple`。 -/
def visitTuple (es : List Expr) : Template := kw "tuple(" ++ visitAll ", " es ++ kw ")"

/-- `visitLambda`。 -/
def visitLambda (args : List String) (e : Expr) : Template :=
  match args with
  | [] => failWith (.query "Lambdas require at least one argument")
  | [arg] => printIdentifier arg ++ kw " -> " ++ visitOne e
  | args =>
    kw "(" ++ joinTemplates ", " (args.map printIdentifier) ++ kw ")" ++ kw " -> " ++ visitOne e

/-- `visitConstant`。 -/
def visitConstant : Value → Template
  | .null => kw "NULL"
  | .bool true => kw "1"
  | .bool false => kw "0"
  | .number .nan => kw "nan"
  | .number .infinity => kw "inf"
  | .number .negInfinity => kw "-inf"
  | .number x => [.text (.number x)]
  | v => [.value v]

/-! ## window -/

def FrameType.text : FrameType → String
  | .currentRow => "CURRENT ROW"
  | .preceding => "PRECEDING"
  | .following => "FOLLOWING"

/-- `frame_type` の文字列。無ければ `undefined` と印字される。 -/
def frameTypePiece : Option FrameType → Piece
  | some t => .keyword t.text
  | none => .verbatim "undefined"

/-- `visitWindowFrameExpr`。 -/
def visitWindowFrameExpr (f : WindowFrameExpr) : Template :=
  if f.frameType = some .currentRow then kw "CURRENT ROW"
  else
    match f.frameValue with
    | some value => [.text (.number value), .text (.keyword " "), .text (frameTypePiece f.frameType)]
    | none => [.text (.keyword "UNBOUNDED "), .text (frameTypePiece f.frameType)]

def FrameMethod.text : FrameMethod → String
  | .rows => "ROWS "
  | .range => "RANGE "

/-- `visitWindowExpr`。 -/
def visitWindowExpr (w : WindowExpr) : Template :=
  let partition : List Template :=
    if w.partitionBy.isEmpty then [] else [kw "PARTITION BY " ++ visitAll ", " w.partitionBy]
  let order : List Template :=
    if w.orderBy.isEmpty then [] else [kw "ORDER BY " ++ visitAll ", " w.orderBy]
  let frame : List Template :=
    match w.frameMethod, w.frameStart with
    | some method, some start =>
      match w.frameEnd with
      | some stop =>
        [kw method.text ++ kw "BETWEEN " ++ visitOne (.windowFrame start) ++ kw " AND " ++
          visitOne (.windowFrame stop)]
      | none => [kw method.text ++ visitOne (.windowFrame start)]
    | _, _ => []
  joinTemplates " " (partition ++ order ++ frame)

/-- `visitWindowFunction`。関数名は表を引かず、そのまま印字される。 -/
def visitWindowFunction (name : String) (args : List Expr) (overIdentifier : Option String)
    (overExpr : Option WindowExpr) : Template :=
  let funcCall : Template :=
    [Atom.text (.verbatim name), .text (.keyword "(")] ++ visitAll ", " args ++ kw ")"
  match truthy overIdentifier with
  | some w => funcCall ++ kw " OVER " ++ printIdentifier w
  | none =>
    match overExpr with
    | some w => funcCall ++ kw " OVER (" ++ visitOne (.windowExpr w) ++ kw ")"
    | none => funcCall

/-! ## SAMPLE -/

/-- `visit(constant)`。`undefined` なら何も印字しない。 -/
def visitOptional (v : Option Value) : Template :=
  match v with
  | some v => visitOne (.constant v)
  | none => []

/-- `visitRatioExpr`。 -/
def visitRatioExpr (r : RatioExpr) : Template :=
  match r.right with
  | some right => visitOptional r.left ++ kw "/" ++ visitOne (.constant right)
  | none => visitOptional r.left

/-- `visitSampleExpr`。 -/
def visitSampleExpr (s : SampleExpr) : Template :=
  match s.offsetValue with
  | some offset => kw "SAMPLE " ++ visitRatioExpr s.sampleValue ++ kw " OFFSET " ++
      visitRatioExpr offset
  | none => kw "SAMPLE " ++ visitRatioExpr s.sampleValue

/-! ## timeBucket() -/

/-- `findTimeConstraintTable`。見つかった column の ClickHouse 名を返す。 -/
def findTimeConstraintColumn (tables : JsMap TableSchema) : Option ColumnRef :=
  tables.findSome? fun t => (truthy t.2.timeConstraint).bind t.2.column

/-- `visitTimeBucket`。 -/
def visitTimeBucket (ctx : PrinterContext) (s : PrinterState) (args : List Expr) : Template :=
  if args ≠ [] then
    failWith (.query ("timeBucket() does not accept arguments. It automatically uses the table's " ++
      "time constraint column."))
  else
    match findTimeConstraintColumn s.tableContexts with
    | none =>
      failWith (.query "timeBucket() requires a table with a timeConstraint defined in its schema.")
    | some column =>
      match ctx.timeRange with
      | none =>
        failWith (.query ("timeBucket() requires a time range to be provided. Pass a timeRange " ++
          "option when compiling the query."))
      | some (fromTime, toTime) =>
        let (value, unit) := calculateTimeBucketInterval fromTime toTime
        match column.nameOrError with
        | .error e => failWith e
        | .ok name =>
          kw "toStartOfInterval(" ++ printIdentifier name ++ kw ", INTERVAL " ++
            [Atom.text (.number (.int value))] ++ kw " " ++ kw unit ++ kw ")"

/-! ## 強制される条件の構文木 -/

/-- `createValueExpression`。 -/
def createValueExpression : ConditionValue → Expr
  | .date time =>
    .call "toDateTime64" [.constant (.string (formatDateForClickHouse time)), .constant (.number 3)]
      none false
  | .string s => .constant (.string s)
  | .number x => .constant (.number x)

/-- `mapConditionOpToCompareOp`。 -/
def ConditionOp.toCompareOp : ConditionOp → CompareOp
  | .eq => .eq
  | .neq => .notEq
  | .gt => .gt
  | .gte => .gtEq
  | .lt => .lt
  | .lte => .ltEq

/-- guard が参照する field。 -/
def guardField (column tableAlias : String) : Expr :=
  if tableAlias ≠ "" then .field [.name tableAlias, .name column] else .field [.name column]

/-- `createConditionExpression`。 -/
def createConditionExpression (column : String) (condition : WhereClauseCondition)
    (tableAlias : String) : Expr :=
  let field := guardField column tableAlias
  match condition with
  | .between low high =>
    .between field (createValueExpression low) (createValueExpression high) false
  | .in values => .compare .in field (.tuple (values.map createValueExpression))
  | .compare op value => .compare op.toCompareOp field (createValueExpression value)

/-- required filter の等式。 -/
def requiredFilterExpression (filter : RequiredFilter) (tableAlias : String) : Expr :=
  .compare .eq (.field [.name tableAlias, .name filter.column]) (.constant (.string filter.value))

/-- guard をかけてよい column。 -/
def TableSchema.validColumns (t : TableSchema) : List String := t.columns.keys ++ t.tenantColumns.names

/-- table 参照ごとの guard の並び。 -/
def enforcedGuards (ctx : PrinterContext) (t : TableSchema) (tableAlias : String) : List Expr :=
  ctx.enforcedWhereClause.entries.filterMap (fun c => c.2.bind fun condition =>
    if c.1 ∈ t.validColumns then some (createConditionExpression c.1 condition tableAlias)
    else none) ++
    t.requiredFilters.map (requiredFilterExpression · tableAlias)

/-- `createEnforcedGuard`。 -/
def createEnforcedGuard (ctx : PrinterContext) (t : TableSchema) (tableAlias : String) :
    Option Expr :=
  match enforcedGuards ctx t tableAlias with
  | [] => none
  | [guard] => some guard
  | guards => some (.and guards)

/-- guard を WHERE の条件に加える。 -/
def addGuard (guard : Option Expr) (condition : Option Expr) : Option Expr :=
  match guard, condition with
  | none, condition => condition
  | some g, none => some g
  | some g, some (.and exprs) => some (.and (g :: exprs))
  | some g, some e => some (.and [g, e])

/-- `validateRequiredTenantColumns`。 -/
def validateRequiredTenantColumns (ctx : PrinterContext) (t : TableSchema) :
    Except PrintError Unit :=
  match truthy t.tenantColumns.organizationId with
  | none => .ok ()
  | some column =>
    -- 値が undefined の自前の property は偽、継承した property は真である
    let present := match ctx.enforcedWhereClause.get column with
      | some condition => condition.isSome
      | none => column ∈ objectPrototype
    if present then .ok ()
    else .error (.query ("Table '" ++ t.name ++ "' requires '" ++ column ++
      "' in enforcedWhereClause for tenant isolation"))

end Tsql
