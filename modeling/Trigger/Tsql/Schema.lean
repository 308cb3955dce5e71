import Trigger.Infra.Record
import Trigger.Tsql.Functions

/-!
# schema と printer の context

`schema.ts` の table と column の定義、`printer_context.ts` の `PrinterContext`、
`time_buckets.ts` の区間の選択。

`tableSchema.columns[name]` は普通の object の参照なので、`Object.prototype` の property も見つかる。
見つかったものが自前か継承かを `ColumnRef` で区別する。
-/

namespace Tsql

open Infra

/-- JavaScript の真偽。空文字列は偽である。 -/
def truthy (s : Option String) : Option String := s.filter (· ≠ "")

/-! ## column と table -/

/-- `ColumnSchema`。 -/
structure ColumnSchema where
  name : String
  clickhouseName : Option String := none
  type : String
  selectable : Bool := true
  filterable : Bool := true
  sortable : Bool := true
  groupable : Bool := true
  description : Option String := none
  customRenderType : Option String := none
  coreColumn : Bool := false
  valueMap : List (String × String) := []
  expression : Option String := none
  fieldMapping : Option String := none
  whereTransform : Option (String → String) := none
  nullValue : Option String := none
  textColumn : Option String := none
  dataPrefix : Option String := none

/-- `TenantColumnConfig`。 -/
structure TenantColumns where
  organizationId : Option String := none
  projectId : Option String := none
  environmentId : Option String := none

/-- `RequiredFilter`。 -/
structure RequiredFilter where
  column : String
  value : String

/-- `TableSchema`。 -/
structure TableSchema where
  name : String
  clickhouseName : String
  columns : Record ColumnSchema
  tenantColumns : TenantColumns := {}
  requiredFilters : List RequiredFilter := []
  timeConstraint : Option String := none

/-- 設定された tenant column の名前。 -/
def TenantColumns.names (t : TenantColumns) : List String :=
  (truthy t.organizationId).toList ++ (truthy t.projectId).toList ++
    (truthy t.environmentId).toList

/-- `isVirtualColumn`。 -/
def ColumnSchema.virtualExpression (c : ColumnSchema) : Option String := truthy c.expression

/-- `columns[name]` の値。`inherited` は `Object.prototype` の property である。 -/
inductive ColumnRef
  | own (column : ColumnSchema)
  | inherited (key : String)

def ColumnRef.own? : ColumnRef → Option ColumnSchema
  | .own c => some c
  | .inherited _ => none

/-- `clickhouseName || name`。継承した関数では関数名で、`__proto__` では `undefined` になる。 -/
def ColumnRef.resolvedName : ColumnRef → Option String
  | .own c => some ((truthy c.clickhouseName).getD c.name)
  | .inherited key =>
    if key = "__proto__" then none
    else if key = "constructor" then some "Object"
    else some key

/-- `tableSchema.columns[name]`。 -/
def TableSchema.column (t : TableSchema) (name : String) : Option ColumnRef :=
  match t.columns.get name with
  | some c => some (.own c)
  | none => if name ∈ objectPrototype then some (.inherited name) else none

theorem TableSchema.column_own {t : TableSchema} {name : String} {c : ColumnSchema} :
    t.column name = some (.own c) ↔ t.columns.get name = some c := by
  unfold TableSchema.column
  constructor
  · intro h
    split at h
    · next hg => cases h; exact hg
    · split at h <;> cases h
  · intro h
    rw [h]

/-- `isColumnExposedInSchema`。 -/
def TableSchema.isColumnExposed (t : TableSchema) (clickhouseColumnName : String) : Bool :=
  t.columns.entries.any fun c => (truthy c.2.clickhouseName).getD c.1 = clickhouseColumnName

/-! ## 値の変換 -/

/-- `getInternalValue`。 -/
def getInternalValue (toLowerCase : String → String) (c : ColumnSchema) (userValue : String) :
    String :=
  match c.valueMap.find? fun m => toLowerCase m.2 = toLowerCase userValue with
  | some m => m.1
  | none => userValue

/-- `getInternalValueFromMappingCaseInsensitive`。 -/
def getInternalValueFromMapping (toLowerCase : String → String)
    (mappings : Record (Record String)) (mappingName externalValue : String) : Option String :=
  (mappings.get mappingName).bind fun mapping =>
    (mapping.entries.find? fun m => toLowerCase m.2 = toLowerCase externalValue).map Prod.fst

/-! ## 強制される条件 -/

/-- 条件の値。`Date` は epoch からのミリ秒で表す。 -/
inductive ConditionValue
  | date (time : Int)
  | string (s : String)
  | number (x : Number)
deriving DecidableEq

/-- `SimpleComparisonCondition.op`。 -/
inductive ConditionOp
  | eq | neq | gt | gte | lt | lte
deriving DecidableEq

/-- `WhereClauseCondition`。 -/
inductive WhereClauseCondition
  | compare (op : ConditionOp) (value : ConditionValue)
  | between (low high : ConditionValue)
  | in (values : List ConditionValue)
deriving DecidableEq

/-- `PrinterContext` の、出力中に変わらない部分。`toLowerCase` は言語の組み込み関数である。 -/
structure PrinterContext where
  tables : Record TableSchema
  fieldMappings : Record (Record String) := Record.empty
  enforcedWhereClause : Record (Option WhereClauseCondition) := Record.empty
  timeRange : Option (Int × Int) := none
  maxRows : Nat := 10000
  toLowerCase : String → String

/-- 数を `width` 桁になるまで 0 で埋める（`padStart`）。 -/
def padZero (width : Nat) (n : Int) : String :=
  let s := toString n
  String.ofList (List.replicate (width - s.length) '0') ++ s

/-- UTC の年月日。`days` は epoch からの日数である。 -/
def civilFromDays (days : Int) : Int × Int × Int :=
  let z := days + 719468
  let era := z.fdiv 146097
  let doe := z - era * 146097
  let yoe := (doe - doe / 1460 + doe / 36524 - doe / 146096) / 365
  let doy := doe - (365 * yoe + yoe / 4 - yoe / 100)
  let mp := (5 * doy + 2) / 153
  let month := if mp < 10 then mp + 3 else mp - 9
  let year := yoe + era * 400 + if month ≤ 2 then 1 else 0
  (year, month, doy - (153 * mp + 2) / 5 + 1)

/-- `formatDateForClickHouse`。 -/
def formatDateForClickHouse (time : Int) : String :=
  let (year, month, day) := civilFromDays (time.fdiv 86400000)
  let ms := time.fmod 86400000
  toString year ++ "-" ++ padZero 2 month ++ "-" ++ padZero 2 day ++ " " ++
    padZero 2 (ms / 3600000) ++ ":" ++ padZero 2 (ms / 60000 % 60) ++ ":" ++
    padZero 2 (ms / 1000 % 60) ++ "." ++ padZero 3 (ms % 1000)

example : formatDateForClickHouse 1709210096789 = "2024-02-29 12:34:56.789" := by decide +kernel

/-! ## 区間の選択 -/

/-- `BUCKET_THRESHOLDS`。上限はミリ秒で書く。 -/
def bucketThresholds : List (Nat × Nat × String) :=
  [(300000, 5, "SECOND"), (1800000, 30, "SECOND"), (7200000, 1, "MINUTE"), (21600000, 5, "MINUTE"),
    (86400000, 15, "MINUTE"), (259200000, 1, "HOUR"), (1209600000, 6, "HOUR"),
    (5184000000, 1, "DAY"), (31536000000, 1, "WEEK")]

/-- `calculateTimeBucketInterval`。 -/
def calculateTimeBucketInterval (fromTime toTime : Int) : Nat × String :=
  match bucketThresholds.find? fun b => (toTime - fromTime).natAbs < b.1 with
  | some b => b.2
  | none => (1, "MONTH")

end Tsql
