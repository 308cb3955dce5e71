import Trigger.Tsql.Escape

/-!
# 関数の許可表

`functions.ts` の `TSQL_CLICKHOUSE_FUNCTIONS`・`TSQL_AGGREGATIONS`・`TSQL_COMPARISON_MAPPING`。

表は普通の object なので、`Object.prototype` の property 名でも検索が成功する。その値には
`clickhouseName` が無く、出力は `undefined` になる。
-/

namespace Tsql

/-- `Object.prototype` の property 名。 -/
def objectPrototype : List String :=
  ["constructor", "__defineGetter__", "__defineSetter__", "hasOwnProperty", "__lookupGetter__",
    "__lookupSetter__", "isPrototypeOf", "propertyIsEnumerable", "toString", "valueOf",
    "__proto__", "toLocaleString"]

/-- `TSQLFunctionMeta`。継承した property では `clickhouseName` が無い。 -/
structure FunctionMeta where
  clickhouseName : Option String
  minArgs : Nat := 0
  maxArgs : Option Nat := none
  caseSensitive : Bool := false
deriving DecidableEq

abbrev FunctionTable := List (String × FunctionMeta)

def fn (name : String) (minArgs maxArgs : Nat) : String × FunctionMeta :=
  (name, { clickhouseName := name, minArgs := minArgs, maxArgs := maxArgs })

def fnMany (name : String) (minArgs : Nat) : String × FunctionMeta :=
  (name, { clickhouseName := name, minArgs := minArgs })

def fnAs (name clickhouseName : String) (minArgs maxArgs : Nat) : String × FunctionMeta :=
  (name, { clickhouseName := clickhouseName, minArgs := minArgs, maxArgs := maxArgs })

/-- `TSQL_CLICKHOUSE_FUNCTIONS`。 -/
def clickhouseFunctions : FunctionTable :=
    -- Comparison
  [ fn "equals" 2 2, fn "notEquals" 2 2, fn "less" 2 2, fn "greater" 2 2, fn "lessOrEquals" 2 2,
    fn "greaterOrEquals" 2 2,
    -- Logical
    fnMany "and" 2, fnMany "or" 2, fnMany "xor" 2, fn "not" 1 1,
    -- Conditional
    fn "if" 3 3, fnMany "multiIf" 3,
    -- In
    fn "in" 2 2, fn "notIn" 2 2,
    -- Arithmetic
    fn "plus" 2 2, fn "minus" 2 2, fn "multiply" 2 2, fn "divide" 2 2, fn "intDiv" 2 2,
    fn "intDivOrZero" 2 2, fn "modulo" 2 2, fn "moduloOrZero" 2 2, fn "positiveModulo" 2 2,
    fn "negate" 1 1, fn "abs" 1 1, fn "gcd" 2 2, fn "lcm" 2 2,
    -- Mathematical
    fn "exp" 1 1, fn "log" 1 1, fnAs "ln" "log" 1 1, fn "exp2" 1 1, fn "log2" 1 1, fn "exp10" 1 1,
    fn "log10" 1 1, fn "sqrt" 1 1, fn "cbrt" 1 1, fn "erf" 1 1, fn "erfc" 1 1, fn "lgamma" 1 1,
    fn "tgamma" 1 1, fn "sin" 1 1, fn "cos" 1 1, fn "tan" 1 1, fn "asin" 1 1, fn "acos" 1 1,
    fn "atan" 1 1, fn "pow" 2 2, fn "power" 2 2, fn "round" 1 2, fn "floor" 1 2, fn "ceil" 1 2,
    fn "ceiling" 1 2, fn "trunc" 1 2, fn "truncate" 1 2, fn "sign" 1 1,
    -- String functions
    fn "empty" 1 1, fn "notEmpty" 1 1, fn "length" 1 1, fn "lengthUTF8" 1 1, fn "char_length" 1 1,
    fn "character_length" 1 1, fn "lower" 1 1, fn "upper" 1 1, fn "lowerUTF8" 1 1,
    fn "upperUTF8" 1 1, fn "reverse" 1 1, fn "reverseUTF8" 1 1, fnMany "concat" 1,
    fnMany "concatAssumeInjective" 1, fn "substring" 2 3, fnAs "substr" "substring" 2 3,
    fnAs "mid" "substring" 2 3, fn "substringUTF8" 2 3, fn "appendTrailingCharIfAbsent" 2 2,
    fn "convertCharset" 3 3, fn "base58Encode" 1 1, fn "base58Decode" 1 1, fn "base64Encode" 1 1,
    fn "base64Decode" 1 1, fn "tryBase64Decode" 1 1, fn "endsWith" 2 2, fn "startsWith" 2 2,
    fn "trim" 1 2, fn "trimLeft" 1 2, fn "trimRight" 1 2, fnAs "ltrim" "trimLeft" 1 1,
    fnAs "rtrim" "trimRight" 1 1, fn "leftPad" 2 3, fn "rightPad" 2 3, fn "leftPadUTF8" 2 3,
    fn "rightPadUTF8" 2 3, fn "left" 2 2, fn "right" 2 2, fn "repeat" 2 2, fn "space" 1 1,
    fn "replace" 3 3, fn "replaceOne" 3 3, fn "replaceAll" 3 3, fn "replaceRegexpOne" 3 3,
    fn "replaceRegexpAll" 3 3, fn "position" 2 2, fn "positionCaseInsensitive" 2 2,
    fn "positionUTF8" 2 2, fn "positionCaseInsensitiveUTF8" 2 2, fn "locate" 2 2, fn "match" 2 2,
    fn "multiMatchAny" 2 2, fn "multiMatchAnyIndex" 2 2, fn "multiMatchAllIndices" 2 2,
    fn "multiSearchFirstPosition" 2 2, fn "multiSearchFirstIndex" 2 2, fn "multiSearchAny" 2 2,
    fn "extract" 2 2, fn "extractAll" 2 2, fn "extractAllGroupsHorizontal" 2 2,
    fn "extractAllGroupsVertical" 2 2, fn "like" 2 2, fn "ilike" 2 2, fn "notLike" 2 2,
    fn "notILike" 2 2, fn "splitByChar" 2 3, fn "splitByString" 2 3, fn "splitByRegexp" 2 3,
    fn "arrayStringConcat" 1 2, fnMany "format" 1, fnMany "coalesce" 1, fn "ifNull" 2 2,
    fn "nullIf" 2 2, fn "assumeNotNull" 1 1, fn "toNullable" 1 1, fn "isNull" 1 1,
    fn "isNotNull" 1 1,
    -- Type conversions
    fn "toString" 1 1, fn "toFixedString" 2 2, fn "toUInt8" 1 1, fn "toUInt16" 1 1,
    fn "toUInt32" 1 1, fn "toUInt64" 1 1, fn "toInt8" 1 1, fn "toInt16" 1 1, fn "toInt32" 1 1,
    fn "toInt64" 1 1, fn "toInt128" 1 1, fn "toInt256" 1 1, fn "toUInt128" 1 1,
    fn "toUInt256" 1 1, fn "toFloat32" 1 1, fn "toFloat64" 1 1, fn "toDecimal32" 2 2,
    fn "toDecimal64" 2 2, fn "toDecimal128" 2 2, fn "toDecimal256" 2 2, fn "toDate" 1 2,
    fn "toDateOrNull" 1 2, fn "toDateOrZero" 1 2, fn "toDate32" 1 2, fn "toDate32OrNull" 1 2,
    fn "toDate32OrZero" 1 2, fn "toDateTime" 1 2, fn "toDateTimeOrNull" 1 2,
    fn "toDateTimeOrZero" 1 2, fn "toDateTime64" 1 3, fn "toDateTime64OrNull" 1 3,
    fn "toDateTime64OrZero" 1 3, fn "toUUID" 1 1, fn "toUUIDOrNull" 1 1, fn "toUUIDOrZero" 1 1,
    fn "toTypeName" 1 1,
    -- Date/time functions
    fn "now" 0 1, fn "now64" 0 2, fn "today" 0 0, fn "yesterday" 0 0, fn "toYear" 1 1,
    fn "toQuarter" 1 1, fn "toMonth" 1 1, fn "toDayOfYear" 1 1, fn "toDayOfMonth" 1 1,
    fn "toDayOfWeek" 1 3, fn "toHour" 1 1, fn "toMinute" 1 1, fn "toSecond" 1 1,
    fn "toUnixTimestamp" 1 2, fn "toStartOfYear" 1 1, fn "toStartOfQuarter" 1 1,
    fn "toStartOfMonth" 1 1, fn "toMonday" 1 1, fn "toStartOfWeek" 1 2, fn "toStartOfDay" 1 1,
    fn "toStartOfHour" 1 1, fn "toStartOfMinute" 1 1, fn "toStartOfSecond" 1 1,
    fn "toStartOfFiveMinutes" 1 1, fn "toStartOfTenMinutes" 1 1, fn "toStartOfFifteenMinutes" 1 1,
    fn "toStartOfInterval" 2 4, fn "toTime" 1 2, fn "toISOYear" 1 1, fn "toISOWeek" 1 1,
    fn "toWeek" 1 3, fn "toYearWeek" 1 3, fn "date_add" 3 3, fn "date_diff" 3 4,
    fn "date_sub" 3 3, fn "date_trunc" 2 3, fn "dateDiff" 3 4, fn "dateAdd" 3 3, fn "dateSub" 3 3,
    fn "dateTrunc" 2 3, fn "addSeconds" 2 2, fn "addMinutes" 2 2, fn "addHours" 2 2,
    fn "addDays" 2 2, fn "addWeeks" 2 2, fn "addMonths" 2 2, fn "addQuarters" 2 2,
    fn "addYears" 2 2, fn "subtractSeconds" 2 2, fn "subtractMinutes" 2 2, fn "subtractHours" 2 2,
    fn "subtractDays" 2 2, fn "subtractWeeks" 2 2, fn "subtractMonths" 2 2,
    fn "subtractQuarters" 2 2, fn "subtractYears" 2 2, fn "toTimeZone" 2 2,
    fn "formatDateTime" 2 3, fn "parseDateTime" 2 3, fn "parseDateTimeBestEffort" 1 2,
    fn "parseDateTimeBestEffortOrNull" 1 2, fn "parseDateTimeBestEffortOrZero" 1 2,
    fn "parseDateTime64BestEffort" 1 3, fn "parseDateTime64BestEffortOrNull" 1 3,
    fn "parseDateTime64BestEffortOrZero" 1 3,
    -- Interval functions
    fn "toIntervalSecond" 1 1, fn "toIntervalMinute" 1 1, fn "toIntervalHour" 1 1,
    fn "toIntervalDay" 1 1, fn "toIntervalWeek" 1 1, fn "toIntervalMonth" 1 1,
    fn "toIntervalQuarter" 1 1, fn "toIntervalYear" 1 1,
    -- Array functions
    fnMany "array" 0, fn "range" 1 3, fn "arrayElement" 2 2, fn "has" 2 2, fn "hasAll" 2 2,
    fn "hasAny" 2 2, fn "hasSubstr" 2 2, fn "indexOf" 2 2, fn "arrayCount" 1 2,
    fn "countEqual" 2 2, fn "arrayEnumerate" 1 1, fnMany "arrayEnumerateDense" 1,
    fnMany "arrayEnumerateUniq" 1, fnMany "arrayEnumerateUniqRanked" 1, fn "arrayPopBack" 1 1,
    fn "arrayPopFront" 1 1, fn "arrayPushBack" 2 2, fn "arrayPushFront" 2 2, fn "arrayResize" 2 3,
    fn "arraySlice" 2 3, fn "arraySort" 1 2, fn "arrayPartialSort" 2 3, fn "arrayReverseSort" 1 2,
    fn "arrayPartialReverseSort" 2 3, fn "arrayShuffle" 1 2, fnMany "arrayUniq" 1,
    fn "arrayJoin" 1 1, fn "arrayDifference" 1 1, fn "arrayDistinct" 1 1,
    fnMany "arrayIntersect" 1, fnMany "arrayReduce" 2, fn "arrayReverse" 1 1,
    fn "arrayFlatten" 1 1, fn "arrayCompact" 1 1, fnMany "arrayZip" 1, fn "arrayMap" 2 2,
    fn "arrayFilter" 2 2, fn "arrayFill" 2 2, fn "arrayReverseFill" 2 2, fn "arraySplit" 2 2,
    fn "arrayReverseSplit" 2 2, fn "arrayExists" 1 2, fn "arrayAll" 1 2, fn "arrayFirst" 1 2,
    fn "arrayLast" 1 2, fn "arrayFirstIndex" 1 2, fn "arrayLastIndex" 1 2, fn "arrayMin" 1 2,
    fn "arrayMax" 1 2, fn "arraySum" 1 2, fn "arrayAvg" 1 2, fn "arrayCumSum" 1 2,
    fn "arrayCumSumNonNegative" 1 2, fn "arrayProduct" 1 1,
    -- JSON functions
    fnMany "JSONHas" 1, fnMany "JSONLength" 1, fnMany "JSONType" 1, fnMany "JSONExtractUInt" 1,
    fnMany "JSONExtractInt" 1, fnMany "JSONExtractFloat" 1, fnMany "JSONExtractBool" 1,
    fnMany "JSONExtractString" 1, fnMany "JSONExtract" 2, fnMany "JSONExtractRaw" 1,
    fnMany "JSONExtractArrayRaw" 1, fn "JSONExtractKeysAndValues" 2 2, fnMany "JSONExtractKeys" 1,
    fn "toJSONString" 1 1,
    -- Tuple functions
    fnMany "tuple" 0, fn "tupleElement" 2 3, fn "untuple" 1 1,
    -- Map functions
    fnMany "map" 0, fn "mapFromArrays" 2 2, fn "mapContains" 2 2, fn "mapKeys" 1 1,
    fn "mapValues" 1 1,
    -- Hash functions
    fn "MD5" 1 1, fn "SHA1" 1 1, fn "SHA224" 1 1, fn "SHA256" 1 1, fn "SHA384" 1 1,
    fn "SHA512" 1 1, fnMany "sipHash64" 1, fnMany "sipHash128" 1, fnMany "cityHash64" 1,
    fn "intHash32" 1 1, fn "intHash64" 1 1, fnMany "farmHash64" 1, fnMany "farmFingerprint64" 1,
    fnMany "xxHash32" 1, fnMany "xxHash64" 1, fnMany "murmurHash2_32" 1,
    fnMany "murmurHash2_64" 1, fnMany "murmurHash3_32" 1, fnMany "murmurHash3_64" 1,
    fnMany "murmurHash3_128" 1, fn "hex" 1 1, fn "unhex" 1 1,
    -- URL functions
    fn "protocol" 1 1, fn "domain" 1 1, fn "domainWithoutWWW" 1 1, fn "topLevelDomain" 1 1,
    fn "firstSignificantSubdomain" 1 1, fn "cutToFirstSignificantSubdomain" 1 1,
    fn "cutToFirstSignificantSubdomainWithWWW" 1 1, fn "port" 1 2, fn "path" 1 1,
    fn "pathFull" 1 1, fn "queryString" 1 1, fn "fragment" 1 1, fn "extractURLParameter" 2 2,
    fn "extractURLParameters" 1 1, fn "encodeURLComponent" 1 1, fn "decodeURLComponent" 1 1,
    -- UUID functions
    fn "generateUUIDv4" 0 0, fn "UUIDStringToNum" 1 1, fn "UUIDNumToString" 1 1,
    -- Other functions
    fn "isFinite" 1 1, fn "isInfinite" 1 1, fn "ifNotFinite" 1 1, fn "isNaN" 1 1, fn "bar" 4 4,
    fn "transform" 3 4, fn "formatReadableDecimalSize" 1 1, fn "formatReadableSize" 1 1,
    fn "formatReadableQuantity" 1 1, fn "formatReadableTimeDelta" 1 2, fn "least" 2 2,
    fn "greatest" 2 2, fn "min2" 2 2, fn "max2" 2 2, fn "runningDifference" 1 1,
    fn "runningDifferenceStartingWithFirstValue" 1 1, fn "neighbor" 2 3,
    -- Window functions
    fn "rank" 0 0, fn "dense_rank" 0 0, fn "row_number" 0 0, fn "first_value" 1 1,
    fn "last_value" 1 1, fn "nth_value" 2 2, fn "lagInFrame" 1 3, fn "leadInFrame" 1 3,
    fnAs "lag" "lagInFrame" 1 3, fnAs "lead" "leadInFrame" 1 3 ]

/-- `TSQL_AGGREGATIONS`。 -/
def aggregations : FunctionTable :=
    -- Standard aggregate functions
  [ fn "count" 0 1, fn "countIf" 1 2, fn "countDistinct" 1 1, fn "countDistinctIf" 1 2,
    fn "min" 1 1, fn "minIf" 2 2, fn "max" 1 1, fn "maxIf" 2 2, fn "sum" 1 1, fn "sumIf" 2 2,
    fn "avg" 1 1, fn "avgIf" 2 2, fn "any" 1 1, fn "anyIf" 2 2, fn "anyLast" 1 1,
    fn "anyLastIf" 2 2, fn "anyHeavy" 1 1, fn "anyHeavyIf" 2 2, fn "argMin" 2 2,
    fn "argMinIf" 3 3, fn "argMax" 2 2, fn "argMaxIf" 3 3, fn "stddevPop" 1 1,
    fn "stddevSamp" 1 1, fn "varPop" 1 1, fn "varSamp" 1 1, fn "covarPop" 2 2, fn "covarSamp" 2 2,
    fn "corr" 2 2,
    -- Array aggregations
    fn "groupArray" 1 1, fn "groupArrayIf" 2 2, fn "groupUniqArray" 1 1,
    fn "groupUniqArrayIf" 2 2, fn "groupArrayInsertAt" 2 2, fn "groupArrayMovingAvg" 1 1,
    fn "groupArrayMovingSum" 1 1, fn "groupArraySample" 1 1, fnAs "array_agg" "groupArray" 1 1,
    -- Bitmap aggregations
    fn "groupBitmap" 1 1, fn "groupBitmapAnd" 1 1, fn "groupBitmapOr" 1 1,
    fn "groupBitmapXor" 1 1,
    -- Uniq functions
    fnMany "uniq" 1, fnMany "uniqIf" 2, fnMany "uniqExact" 1, fnMany "uniqExactIf" 2,
    fnMany "uniqHLL12" 1, fnMany "uniqTheta" 1,
    -- Quantile functions
    fn "median" 1 1, fn "medianIf" 2 2, fn "medianExact" 1 1, fn "quantile" 1 1,
    fn "quantileIf" 2 2, fnMany "quantiles" 1,
    -- Statistical functions
    fn "simpleLinearRegression" 2 2, fn "contingency" 2 2, fn "cramersV" 2 2, fn "theilsU" 2 2,
    -- Sum/Map variants
    fn "sumMap" 1 2, fn "minMap" 1 2, fn "maxMap" 1 2,
    -- TopK
    fn "topK" 1 1,
    -- Funnel
    fn "windowFunnel" 1 99 ]

/-- `TSQL_COMPARISON_MAPPING`。 -/
def comparisonMapping : List (String × CompareOp) :=
  [("equals", .eq), ("notEquals", .notEq), ("less", .lt), ("greater", .gt), ("lessOrEquals", .ltEq),
    ("greaterOrEquals", .gtEq), ("like", .like), ("ilike", .iLike), ("notLike", .notLike),
    ("notILike", .notILike), ("in", .in), ("notIn", .notIn)]

/-! ## 検索 -/

/-- `functions[name]`。 -/
def FunctionTable.get (functions : FunctionTable) (name : String) : Option FunctionMeta :=
  match functions.lookup name with
  | some f => some f
  | none => if name ∈ objectPrototype then some { clickhouseName := none } else none

/-- `findFunction`。見つからなければ小文字にして引き直す。 -/
def findFunction (toLowerCase : String → String) (functions : FunctionTable) (name : String) :
    Option FunctionMeta :=
  match functions.get name with
  | some f => some f
  | none =>
    match functions.get (toLowerCase name) with
    | none => none
    | some f => if f.caseSensitive then none else some f

/-- 二つの表に現れる関数名。 -/
def allowedFunctionNames : List String :=
  (clickhouseFunctions ++ aggregations).filterMap fun f => f.2.clickhouseName

theorem FunctionTable.mem_of_get {functions : FunctionTable} {name : String} {f : FunctionMeta}
    {ch : String} (h : functions.get name = some f) (hch : f.clickhouseName = some ch) :
    ch ∈ functions.filterMap fun f => f.2.clickhouseName := by
  unfold FunctionTable.get at h
  split at h
  · next g hg =>
    cases h
    obtain ⟨l₁, l₂, hl, -⟩ := List.lookup_eq_some_iff.mp hg
    rw [hl]
    simp [hch]
  · split at h
    · cases h
      cases hch
    · cases h

theorem findFunction_mem {lower : String → String} {functions : FunctionTable} {name : String}
    {f : FunctionMeta} {ch : String} (h : findFunction lower functions name = some f)
    (hch : f.clickhouseName = some ch) :
    ch ∈ functions.filterMap fun f => f.2.clickhouseName := by
  unfold findFunction at h
  split at h
  · next hg => cases h; exact FunctionTable.mem_of_get hg hch
  · split at h
    · cases h
    · next hg =>
      split at h
      · cases h
      · cases h; exact FunctionTable.mem_of_get hg hch

/-! ## 引数の個数 -/

/-- `validateFunctionArgs`。`term` は文頭に置く語である。 -/
def validateFunctionArgs (count : Nat) (f : FunctionMeta) (name : String) (term : String) :
    Except PrintError Unit :=
  let tooFew := count < f.minArgs
  let tooMany := ∃ m ∈ f.maxArgs, m < count
  let expects (bound : String) (n : Nat) : PrintError :=
    .error (term ++ " '" ++ name ++ "' expects " ++ bound ++ toString n ++ " argument" ++
      (if n ≠ 1 then "s" else "") ++ ", found " ++ toString count)
  if some f.minArgs = f.maxArgs ∧ (tooFew ∨ tooMany) then .error (expects "" f.minArgs)
  else if tooFew then .error (expects "at least " f.minArgs)
  else if tooMany then .error (expects "at most " (f.maxArgs.getD 0))
  else .ok ()

end Tsql
