import Trigger.Tsql.Visitors

/-!
# SELECT の列の metadata

列の出力名と型を決める `analyzeSelectColumn`、`SELECT *` の展開、SELECT 句で定義される別名。
-/

namespace Tsql

open Infra

/-! ## 型の推定 -/

/-- 文字列が、`d` を数字一つと読む型 `pattern` で始まる。 -/
def matchesPattern : List Char → List Char → Bool
  | [], _ => true
  | _, [] => false
  | 'd' :: pattern, c :: rest => c.isDigit && matchesPattern pattern rest
  | p :: pattern, c :: rest => p == c && matchesPattern pattern rest

/-- `inferConstantType`。 -/
def inferConstantType : Value → String
  | .null => "Nullable(String)"
  | .bool _ => "UInt8"
  | .number x => if x.isInteger then "Int64" else "Float64"
  | .string s =>
    if matchesPattern "dddd-dd-ddTdd:dd:dd".toList s.toList then "DateTime64"
    else if matchesPattern "dddd-dd-dd".toList s.toList ∧ s.length = 10 then "Date"
    else "String"
  | .other _ _ => "String"

/-- `s.startsWith(head)`。 -/
def startsWith (head s : String) : Bool := head.toList.isPrefixOf s.toList

def isDateTimeType (type : Option String) : Bool :=
  type.any fun t => t ∈ ["DateTime", "DateTime64", "Date", "Date32"] ||
    startsWith "Nullable(DateTime" t || startsWith "Nullable(Date" t

def isFloatType (type : Option String) : Bool :=
  type.any fun t => t ∈ ["Float32", "Float64", "Nullable(Float32)", "Nullable(Float64)"]

def isIntType (type : Option String) : Bool :=
  type.any fun t => startsWith "Int" t || startsWith "UInt" t || startsWith "Nullable(Int" t ||
    startsWith "Nullable(UInt" t

/-- `widerIntType`。 -/
def widerIntType (left right : Option String) : String :=
  match ["Int64", "UInt64", "Int32", "UInt32"].find? fun t => left = some t || right = some t with
  | some t => t
  | none => "Int64"

/-- `inferArithmeticType`。 -/
def inferArithmeticType (op : ArithmeticOp) (left right : Option String) : String :=
  if isDateTimeType left && isDateTimeType right then "Int64"
  else if isFloatType left || isFloatType right then "Float64"
  else if op = .div then "Float64"
  else if isIntType left && isIntType right then widerIntType left right
  else "Float64"

/-- 関数名だけで決まる型の表。先に一致したものを使う。 -/
def callTypes : List (List String × String) :=
  [(["todate", "todate32"], "Date"), (["todatetime"], "DateTime"), (["todatetime64"], "DateTime64"),
    (["toyear", "tomonth", "todayofmonth", "todayofweek", "todayofyear", "tohour", "tominute",
      "tosecond"], "UInt16"), (["tounixtimestamp"], "UInt32"), (["toint8"], "Int8"),
    (["toint16"], "Int16"), (["toint32"], "Int32"), (["toint64"], "Int64"), (["touint8"], "UInt8"),
    (["touint16"], "UInt16"), (["touint32"], "UInt32"), (["touint64"], "UInt64"),
    (["tofloat32"], "Float32"), (["tofloat64"], "Float64"),
    (["empty", "notempty", "isnull", "isnotnull", "in", "notin"], "UInt8")]

/-- `inferCallType`。`name` は小文字で、`args` は引数の型である。 -/
def inferCallType (name : String) (args : List (Option String)) : String :=
  if name ∈ ["count", "countif", "countdistinct", "countdistinctif"] then "UInt64"
  else if startsWith "uniq" name then "UInt64"
  else if name ∈ ["sum", "sumif"] then "Int64"
  else if name ∈ ["avg", "avgif"] then "Float64"
  else if startsWith "quantile" name then "Float64"
  else if name ∈ ["min", "max", "minif", "maxif"] then
    (args.head?.bind truthy).getD "Float64"
  else if name ∈ ["datediff", "date_diff"] then "Int64"
  else if name ∈ ["concat", "substring", "substr", "lower", "upper", "trim", "replace",
      "tostring"] then "String"
  else
    match callTypes.find? fun t => name ∈ t.1 with
    | some t => t.2
    | none =>
      match name, args with
      | "if", _ :: thenType :: _ => (truthy thenType).getD "String"
      | _, _ =>
        if name ∈ ["grouparray", "groupuniqarray", "array"] then "Array(String)"
        else if name ∈ ["length", "lengthutf8", "char_length"] then "UInt64"
        else "String"

/-- 検索した column の型。 -/
def ColumnRef.type? (c : ColumnRef) : Option String := c.own?.map (·.type)

mutual
/-- `inferExpressionType`。 -/
def inferExpressionType (ctx : PrinterContext) (tables : JsMap TableSchema) :
    Expr → Option String
  | .field chain => (resolveFieldToColumn tables chain).2.bind ColumnRef.type?
  | .call name args _ _ =>
    some (inferCallType (ctx.toLowerCase name) (inferExpressionTypes ctx tables args))
  | .arithmetic op left right =>
    some (inferArithmeticType op (inferExpressionType ctx tables left)
      (inferExpressionType ctx tables right))
  | .constant v => some (inferConstantType v)
  | _ => none

def inferExpressionTypes (ctx : PrinterContext) (tables : JsMap TableSchema) :
    List Expr → List (Option String)
  | [] => []
  | e :: rest => inferExpressionType ctx tables e :: inferExpressionTypes ctx tables rest
end

/-! ## 列の分析 -/

/-- `Partial<ColumnSchema>` のうち、列の出力が読む部分。 -/
structure SourceColumn where
  type : Option String := none
  clickhouseName : Option String := none
  customRenderType : Option String := none
  description : Option String := none

def ColumnRef.source : ColumnRef → SourceColumn
  | .own c => ⟨some c.type, c.clickhouseName, c.customRenderType, c.description⟩
  | .inherited _ => {}

/-- `analyzeSelectColumn` の結果。 -/
structure ColumnAnalysis where
  outputName : Option String := none
  sourceColumn : Option SourceColumn := none
  inferredType : Option String := none

/-- 値の性質を引き継ぐ集約関数。 -/
def valuePreservingAggregates : List String :=
  ["sum", "sumif", "avg", "avgif", "min", "minif", "max", "maxif", "quantile"]

/-- `generateImplicitName`（定数）。 -/
def constantName : Value → String
  | .null => "NULL"
  | .string s => "'" ++ s ++ "'"
  | .bool b => if b then "true" else "false"
  | .number x => x.text
  | .other _ text => text

/-- 集約関数が最初の引数から引き継ぐ `customRenderType`。 -/
def aggregateSource (ctx : PrinterContext) (tables : JsMap TableSchema) (name : String)
    (args : List Expr) (type : String) : Option SourceColumn :=
  match args with
  | .field chain :: _ =>
    if ctx.toLowerCase name ∈ valuePreservingAggregates then
      ((resolveFieldToColumn tables chain).2.bind fun c => c.own?.bind fun c =>
        truthy c.customRenderType).map fun render =>
          { type := some type, customRenderType := some render }
    else none
  | _ => none

/-- `analyzeSelectColumn`。 -/
def analyzeSelectColumn (ctx : PrinterContext) (tables : JsMap TableSchema) :
    Expr → ColumnAnalysis
  | .alias e name _ => { analyzeSelectColumn ctx tables e with outputName := some name }
  | .field chain =>
    let (outputName, column) := resolveFieldToColumn tables chain
    ⟨outputName, column.map ColumnRef.source, column.bind ColumnRef.type?⟩
  | .call name args _ _ =>
    let type := inferCallType (ctx.toLowerCase name) (inferExpressionTypes ctx tables args)
    ⟨some (ctx.toLowerCase name), aggregateSource ctx tables name args type, some type⟩
  | .arithmetic op left right =>
    ⟨some op.name, none, some (inferArithmeticType op (inferExpressionType ctx tables left)
      (inferExpressionType ctx tables right))⟩
  | .constant v => ⟨some (constantName v), none, some (inferConstantType v)⟩
  | _ => {}

/-! ## SELECT * の展開 -/

/-- 展開した列と、隠した列。 -/
structure Expansion where
  columns : List (Template × Option OutputColumn) := []
  hidden : List String := []

/-- 展開した一列の雛形。 -/
def selectableColumn (name : String) (c : ColumnSchema) : Template :=
  match c.virtualExpression with
  | some expression =>
    kw "(" ++ [Atom.text (.schema expression)] ++ kw ") AS " ++ printIdentifier name
  | none =>
    match truthy c.textColumn with
    | some textColumn => printIdentifier textColumn ++ kw " AS " ++ printIdentifier name
    | none =>
      let clickhouseName := c.clickhouseName.getD name
      if clickhouseName ≠ name then
        printIdentifier clickhouseName ++ kw " AS " ++ printIdentifier name
      else printIdentifier name

/-- `getSelectableColumnsFromSchema`。 -/
def getSelectableColumns (t : TableSchema) : Expansion :=
  let selectable := t.columns.entries.filter fun c => c.2.selectable
  let coreOnly := selectable.any fun c => c.2.coreColumn
  let (shown, hidden) := selectable.partition fun c => !coreOnly || c.2.coreColumn
  { columns := shown.map fun c => (selectableColumn c.1 c.2,
      some ⟨c.1, c.2.type, truthy c.2.customRenderType, truthy c.2.description⟩)
    hidden := hidden.map Prod.fst }

/-- `expandAsterisk`。 -/
def expandAsterisk (tables : JsMap TableSchema) : Chain → Option Expansion
  | [.name "*"] =>
    let all := tables.map fun t => getSelectableColumns t.2
    let columns := all.flatMap (·.columns)
    some { columns := if columns.isEmpty then [(kw "*", none)] else columns
           hidden := all.flatMap (·.hidden) }
  | [.name table, .name "*"] =>
    match tables.get table with
    | some t => some (getSelectableColumns t)
    | none => some { columns := [(printIdentifier table ++ kw ".*", none)] }
  | _ => none

/-! ## SELECT 句の別名 -/

/-- `extractSelectAlias`。 -/
def extractSelectAlias (toLowerCase : String → String) (aliases : JsMap String) :
    Expr → JsMap String
  | .alias _ name _ => aliases.set (toLowerCase name) name
  | .call name _ _ _ => aliases.set (toLowerCase name) (toLowerCase name)
  | .arithmetic op _ _ => aliases.set op.name op.name
  | _ => aliases

/-- SELECT 句全体が定義する別名。 -/
def selectAliasesOf (toLowerCase : String → String) (select : List Expr) : JsMap String :=
  select.foldl (extractSelectAlias toLowerCase) []

end Tsql
