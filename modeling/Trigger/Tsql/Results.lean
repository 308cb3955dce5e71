import Trigger.Tsql.Schema

/-!
# 結果の値の変換

`results.ts` の `transformResults` と、`schema.ts` の `getUserFriendlyValue`・`getExternalValue`。

ClickHouse から届いた文字列を、column の `valueMap` または実行時の `fieldMapping` で利用者向けの値に
直す。column は結果の列名だけで選ばれる。表は普通の object なので、`Object.prototype` の property 名の
文字列には、表に無くても継承した値が返る。
-/

namespace Tsql

open Infra

/-- 結果の一つの値。`α` は文字列でも `null` でもない値の型である。 -/
inductive Cell (α : Type)
  | string (s : String)
  | null
  /-- `Object.prototype` から継承した property。 -/
  | inherited (key : String)
  | other (a : α)

section

variable {α : Type}

/-- `mapping[key]`。 -/
def propertyOf (mapping : List (String × String)) (key : String) : Option (Cell α) :=
  match mapping.lookup key with
  | some value => some (.string value)
  | none => if key ∈ objectPrototype then some (.inherited key) else none

/-- `getUserFriendlyValue`。 -/
def getUserFriendlyValue (toLowerCase : String → String) (c : ColumnSchema)
    (internalValue : String) : Cell α :=
  match propertyOf c.valueMap internalValue with
  | some shown => shown
  | none =>
    match c.valueMap.find? fun m => toLowerCase m.1 = toLowerCase internalValue with
    | some m => .string m.2
    | none => .string internalValue

/-- `getExternalValue`。`mappings[mappingName]` が継承した object なら、その property は文字列の表の
値ではないので、継承した値として扱う。 -/
def getExternalValue (mappings : Record (Record String)) (mappingName internalValue : String) :
    Cell α :=
  match mappings.get mappingName with
  | some mapping => (propertyOf mapping.entries internalValue).getD .null
  | none => if mappingName ∈ objectPrototype then .inherited mappingName else .null

/-- `transformSingleValue`。 -/
def transformResultValue (toLowerCase : String → String) (c : ColumnSchema) (value : String)
    (fieldMappings : Option (Record (Record String))) : Cell α :=
  if c.valueMap ≠ [] then getUserFriendlyValue toLowerCase c value
  else
    match truthy c.fieldMapping, fieldMappings with
    | some mapping, some mappings => getExternalValue mappings mapping value
    | _, _ => .string value

/-- `buildColumnTransformMaps`。同じ名前の column は、後の table のものが残る。 -/
def buildColumnTransformMaps (schema : List TableSchema) : JsMap ColumnSchema :=
  (schema.flatMap fun t => t.columns.entries).foldl
    (fun columnMaps c =>
      if c.2.valueMap ≠ [] ∨ (truthy c.2.fieldMapping).isSome then columnMaps.set c.1 c.2
      else columnMaps) []

/-- `transformRow`。変わった値が無いときに元の行を返すのは参照を保つためで、内容は同じである。 -/
def transformRow (toLowerCase : String → String) (columnTransformMaps : JsMap ColumnSchema)
    (fieldMappings : Option (Record (Record String))) (row : List (String × Cell α)) :
    List (String × Cell α) :=
  row.map fun cell =>
    match columnTransformMaps.get cell.1, cell.2 with
    | some c, .string value => (cell.1, transformResultValue toLowerCase c value fieldMappings)
    | _, _ => cell

/-- `transformResults`。 -/
def transformResults (toLowerCase : String → String) (rows : List (List (String × Cell α)))
    (schema : List TableSchema) (fieldMappings : Option (Record (Record String))) :
    List (List (String × Cell α)) :=
  let columnTransformMaps := buildColumnTransformMaps schema
  if columnTransformMaps = [] then rows
  else rows.map (transformRow toLowerCase columnTransformMaps fieldMappings)

end

end Tsql
