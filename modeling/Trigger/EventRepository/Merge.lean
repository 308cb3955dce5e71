import Mathlib.Data.List.Perm.Basic
import Mathlib.Data.List.Count
import Trigger.EventRepository.DateTime
import Trigger.RunMetadata.Json

/-!
# span の record の統合

一つの span の record を、概要・詳細・詳細な概要の三つの形に統合する。三つは同じ fold に、形ごとの欄を足した
ものである（`mergeRecords`）。

最初に来た record が `message` と `duration` を決め、PARTIAL と最終の SPAN record がそれを上書きする。上書きする
record が無いとき、値は record の順による（`merge_orderIndependent_iff`）。
-/

namespace EventRepository

open RunMetadata (Json)

/-! ## record -/

inductive TaskEventLevel where
  | trace
  | debug
  | log
  | info
  | warn
  | error
deriving DecidableEq

/-- `kindToLevel`。 -/
def kindToLevel (kind : String) : TaskEventLevel :=
  if kind = "DEBUG_EVENT" ∨ kind = "LOG_DEBUG" then .debug
  else if kind = "LOG_LOG" then .log
  else if kind = "LOG_INFO" then .info
  else if kind = "LOG_WARN" then .warn
  else if kind = "LOG_ERROR" then .error
  else .trace

def isLogEvent (kind : String) : Bool := kind.startsWith "LOG_" || kind == "DEBUG_EVENT"

/-- `number | string`。文字列は十進の自然数である。 -/
inductive RawDuration where
  | number (n : ℤ)
  | text (s : List Char)

/-- `typeof d === "number" ? d : Number(d)`。 -/
def RawDuration.value : RawDuration → Option ℤ
  | .number n => some n
  | .text s => (toNumber s).map Int.ofNat

/-- ClickHouse から読んだ record。DateTime64 の列は必ず時刻に読める。 -/
structure TaskEventRecord where
  parent_span_id : String
  run_id : String
  start_time : List Char
  recordStartTime : ℤ
  start_time_reads : convertClickhouseDateTime64ToJsDate start_time = .ok (some recordStartTime)
  duration : RawDuration
  status : String
  kind : String
  metadata : String
  message : String
  attributes_text : String

/-! ## 共通の fold -/

/-- 三つの形に共通の七つの値。 -/
structure SpanData where
  message : String
  duration : Option ℤ
  isError : Bool
  isPartial : Bool
  isCancelled : Bool
  startTime : ℤ
  level : TaskEventLevel
deriving DecidableEq

namespace SpanData

/-- 最初の record から作る。 -/
def seed (record : TaskEventRecord) : SpanData where
  message := record.message
  duration := record.duration.value
  isError := false
  isPartial := true
  isCancelled := false
  startTime := record.recordStartTime
  level := kindToLevel record.kind

def applyLog (record : TaskEventRecord) (data : SpanData) : SpanData :=
  if isLogEvent record.kind then
    { data with isPartial := false, isCancelled := false, isError := record.status = "ERROR" }
  else data

def applyStatus (record : TaskEventRecord) (data : SpanData) : SpanData :=
  if record.status = "ERROR" then
    { data with isError := true, isPartial := false, isCancelled := false }
  else if record.status = "CANCELLED" then
    { data with isCancelled := true, isPartial := false, isError := false }
  else if record.status = "OK" then { data with isPartial := false }
  else data

def applySpan (record : TaskEventRecord) (data : SpanData) : SpanData :=
  if record.kind = "SPAN" then
    if record.status ≠ "PARTIAL" then
      { applyStatus record data with duration := record.duration.value }
    else { applyStatus record data with message := record.message }
  else data

end SpanData

/-- 最も早い開始時刻。ANCESTOR_OVERRIDE と SPAN_EVENT は数えない。 -/
def earlier (record : TaskEventRecord) (earliestStartTime : Option ℤ) : Option ℤ :=
  if record.kind ≠ "ANCESTOR_OVERRIDE" ∧ record.kind ≠ "SPAN_EVENT" ∧
      (earliestStartTime.all fun t => record.recordStartTime < t) then
    some record.recordStartTime
  else earliestStartTime

section Merge

variable {E : Type} (seed : TaskEventRecord → E) (extend : TaskEventRecord → E → E)

/-- 一つの record の統合。形ごとの欄は `seed` で始まり、`extend` で更新される。 -/
def mergeStep (acc : Option (SpanData × E) × Option ℤ) (record : TaskEventRecord) :
    Option (SpanData × E) × Option ℤ :=
  let span := acc.1.getD (SpanData.seed record, seed record)
  (some ((span.1.applyLog record).applySpan record, extend record span.2), earlier record acc.2)

def mergeRecords (records : List TaskEventRecord) : Option (SpanData × E) :=
  let (span, earliestStartTime) := records.foldl (mergeStep seed extend) (none, none)
  span.map fun span =>
    ({ span.1 with startTime := earliestStartTime.getD span.1.startTime }, span.2)

end Merge

/-! ## 三つの形 -/

section Shapes

variable (parse : String → Json)

/-- `#parseMetadata`。object でないものは捨てる。 -/
def parseMetadata (metadata : String) : Option Json :=
  if metadata = "" then none
  else
    match parse metadata with
    | .obj entries => some (.obj entries)
    | .arr items => some (.arr items)
    | _ => none

/-- object の property。 -/
def property (key : String) : Json → Option Json
  | .obj entries => entries.lookup key
  | _ => none

def truthy : Json → Bool
  | .null => false
  | .bool b => b
  | .num n => n ≠ 0
  | .str s => s ≠ ""
  | .arr _ | .obj _ => true

def asString : Json → Option String
  | .str s => some s
  | _ => none

def attemptNumberOf (metadata : Option Json) : Option ℚ :=
  match metadata.bind (property "attemptNumber") with
  | some (.num n) => some n
  | _ => none

def styleOf (metadata : Option Json) : Option Json :=
  (metadata.bind (property "style")).filter truthy

/-- span の event。 -/
structure SpanEvent where
  name : String
  time : ℤ
  properties : Json

def eventOf (record : TaskEventRecord) (metadata : Option Json) : SpanEvent where
  name := record.message
  time := record.recordStartTime
  properties := metadata.getD (.obj [])

/-- `SpanSummary` の残りの欄。 -/
structure SummaryFields where
  parentId : Option String
  runId : String
  style : Json
  isDebug : Bool
  events : List SpanEvent
  attemptNumber : Option ℚ

def parentIdOf (record : TaskEventRecord) : Option String :=
  if record.parent_span_id = "" then none else some record.parent_span_id

def SummaryFields.seed (record : TaskEventRecord) : SummaryFields where
  parentId := parentIdOf record
  runId := record.run_id
  style := .obj []
  isDebug := record.kind = "DEBUG_EVENT"
  events := []
  attemptNumber := none

def SummaryFields.extend (record : TaskEventRecord) (fields : SummaryFields) : SummaryFields :=
  let parsedMetadata := parseMetadata parse record.metadata
  { fields with
    attemptNumber := attemptNumberOf parsedMetadata <|> fields.attemptNumber
    events :=
      if record.kind = "ANCESTOR_OVERRIDE" ∨ record.kind = "SPAN_EVENT" then
        fields.events ++ [eventOf record parsedMetadata]
      else fields.events
    style := (styleOf parsedMetadata).getD fields.style }

/-- `#mergeRecordsIntoSpanSummary`。 -/
def mergeRecordsIntoSpanSummary (records : List TaskEventRecord) :
    Option (SpanData × SummaryFields) :=
  mergeRecords SummaryFields.seed (SummaryFields.extend parse) records

/-- `SpanDetailedSummary` の残りの欄。 -/
structure DetailedSummaryFields where
  parentId : Option String
  runId : String
  events : List SpanEvent
  attemptNumber : Option ℚ

def DetailedSummaryFields.seed (record : TaskEventRecord) : DetailedSummaryFields where
  parentId := parentIdOf record
  runId := record.run_id
  events := []
  attemptNumber := none

def DetailedSummaryFields.extend (record : TaskEventRecord) (fields : DetailedSummaryFields) :
    DetailedSummaryFields :=
  let parsedMetadata := parseMetadata parse record.metadata
  { fields with
    attemptNumber := attemptNumberOf parsedMetadata <|> fields.attemptNumber
    events :=
      if record.kind = "ANCESTOR_OVERRIDE" ∨ record.kind = "SPAN_EVENT" then
        fields.events ++ [eventOf record parsedMetadata]
      else fields.events }

/-- `#mergeRecordsIntoSpanDetailedSummary`。 -/
def mergeRecordsIntoSpanDetailedSummary (records : List TaskEventRecord) :
    Option (SpanData × DetailedSummaryFields) :=
  mergeRecords DetailedSummaryFields.seed (DetailedSummaryFields.extend parse) records

structure SpanEntity where
  type : Option String := none
  id : Option String := none
  metadata : Option String := none

/-- `SpanDetail` の残りの欄。 -/
structure DetailFields where
  parentId : Option String
  events : List SpanEvent
  style : Json
  properties : Option Json
  resourceProperties : Option Json
  entity : SpanEntity

def DetailFields.seed (record : TaskEventRecord) : DetailFields where
  parentId := parentIdOf record
  events := []
  style := .obj []
  properties := none
  resourceProperties := none
  entity := {}

/-- metadata の entity。型と id が揃わなければ使わない。 -/
def entityOf (metadata : Option Json) : Option SpanEntity := do
  let entity ← metadata.bind (property "entity")
  let type ← (property "entityType" entity).bind asString
  let id ← (property "entityId" entity).bind asString
  return {
    type := some type
    id := some id
    metadata := ((property "entityMetadata" entity).filter truthy).bind asString }

/-- `#parseAttributes`。 -/
def parseAttributes (attributes_text : String) : Json :=
  if attributes_text = "" then .obj [] else parse attributes_text

def withoutResource : Json → Json
  | .obj entries => .obj (entries.filter (·.1 ≠ "$resource"))
  | attributes => attributes

/-- まだ空の properties。 -/
def unset : Option Json → Bool
  | none | some .null | some (.obj []) | some (.arr []) => true
  | _ => false

def DetailFields.extend (record : TaskEventRecord) (fields : DetailFields) : DetailFields :=
  let parsedMetadata := parseMetadata parse record.metadata
  let parsedAttributes := parseAttributes parse record.attributes_text
  { fields with
    events :=
      if record.kind = "SPAN_EVENT" then fields.events ++ [eventOf record parsedMetadata]
      else fields.events
    style := (styleOf parsedMetadata).getD fields.style
    entity := (entityOf parsedMetadata).getD fields.entity
    properties :=
      if unset fields.properties then some (withoutResource parsedAttributes) else fields.properties
    resourceProperties :=
      if unset fields.properties then property "$resource" parsedAttributes
      else fields.resourceProperties }

/-- `#mergeRecordsIntoSpanDetail`。 -/
def mergeRecordsIntoSpanDetail (records : List TaskEventRecord) :
    Option (SpanData × DetailFields) :=
  mergeRecords DetailFields.seed (DetailFields.extend parse) records

end Shapes

/-! ## fold の結果 -/

/-- PARTIAL の SPAN record。 -/
def TaskEventRecord.isPartialSpan (record : TaskEventRecord) : Bool :=
  record.kind = "SPAN" ∧ record.status = "PARTIAL"

/-- 最終の SPAN record。 -/
def TaskEventRecord.isFinalSpan (record : TaskEventRecord) : Bool :=
  record.kind = "SPAN" ∧
    (record.status = "OK" ∨ record.status = "ERROR" ∨ record.status = "CANCELLED")

/-- 一つの span に書かれる record の種類。 -/
def TaskEventRecord.Known (record : TaskEventRecord) : Prop :=
  record.isPartialSpan = true ∨ record.isFinalSpan = true ∨
    record.kind = "SPAN_EVENT" ∨ record.kind = "ANCESTOR_OVERRIDE"

/-- 一つの span の record の列。 -/
structure SpanRecords (records : List TaskEventRecord) : Prop where
  known : ∀ r ∈ records, r.Known
  onePartial : records.countP TaskEventRecord.isPartialSpan ≤ 1
  oneFinal : records.countP TaskEventRecord.isFinalSpan ≤ 1
  someSpan : ∃ r ∈ records, r.kind = "SPAN"
  sameParent : ∀ r ∈ records, ∀ r' ∈ records, r.parent_span_id = r'.parent_span_id
  sameRun : ∀ r ∈ records, ∀ r' ∈ records, r.run_id = r'.run_id

/-- 一つの record が七つの値にすること。開始時刻を除く。 -/
def applyRecord (data : SpanData) (record : TaskEventRecord) : SpanData :=
  (data.applyLog record).applySpan record

/-- 七つの値だけを計算する fold。 -/
def mergeData : List TaskEventRecord → Option SpanData
  | [] => none
  | first :: rest =>
    let data := (first :: rest).foldl applyRecord (SpanData.seed first)
    let earliestStartTime := (first :: rest).foldl (fun earliest r => earlier r earliest) none
    some { data with startTime := earliestStartTime.getD data.startTime }

section Spec

variable {E : Type} {seed : TaskEventRecord → E} {extend : TaskEventRecord → E → E}
  {r r' : TaskEventRecord} {records : List TaskEventRecord} {data data' : SpanData}
  {earliest : Option ℤ}

/-- 七つの値の fold は、形ごとの欄によらない。 -/
theorem foldl_mergeStep : ∀ (records : List TaskEventRecord) (data : SpanData) (fields : E)
    (earliest : Option ℤ), ∃ fields',
      records.foldl (mergeStep seed extend) (some (data, fields), earliest) =
        (some (records.foldl applyRecord data, fields'),
          records.foldl (fun earliest r => earlier r earliest) earliest)
  | [], _, fields, _ => ⟨fields, rfl⟩
  | record :: records, data, fields, earliest =>
    foldl_mergeStep records (applyRecord data record) (extend record fields)
      (earlier record earliest)

/-- どの形の七つの値も、`mergeData` の値である。 -/
theorem mergeRecords_data (records : List TaskEventRecord) :
    (mergeRecords seed extend records).map Prod.fst = mergeData records := by
  cases records with
  | nil => rfl
  | cons first rest =>
    obtain ⟨fields, h⟩ := @foldl_mergeStep E seed extend rest
      (applyRecord (SpanData.seed first) first) (extend first (seed first)) (earlier first none)
    have hfirst : mergeStep seed extend (none, none) first =
        (some (applyRecord (SpanData.seed first) first, extend first (seed first)),
          earlier first none) := rfl
    unfold mergeRecords
    rw [List.foldl_cons, hfirst, h]
    rfl

/-- log でない種類の record は、log の更新をしない。 -/
theorem applyLog_of_not {kind : String} (hkind : r.kind = kind) (h : isLogEvent kind = false)
    (data : SpanData) : SpanData.applyLog r data = data := by
  unfold SpanData.applyLog
  rw [hkind, h]
  rfl

/-- SPAN でない種類の record は、何も変えない。 -/
theorem applyRecord_event {kind : String} (hkind : r.kind = kind) (h : isLogEvent kind = false)
    (hne : kind ≠ "SPAN") (data : SpanData) : applyRecord data r = data := by
  unfold applyRecord SpanData.applySpan
  rw [applyLog_of_not hkind h, if_neg (hkind ▸ hne)]

/-- `Known` な record がすること。 -/
theorem applyRecord_cases (h : r.Known) :
    (r.isPartialSpan = true ∧ r.isFinalSpan = false ∧
        ∀ data, applyRecord data r = { data with message := r.message }) ∨
      (r.isPartialSpan = false ∧ r.isFinalSpan = true ∧ ∀ data, applyRecord data r =
        { SpanData.applyStatus r data with duration := r.duration.value }) ∨
      (r.isPartialSpan = false ∧ r.isFinalSpan = false ∧ ∀ data, applyRecord data r = data) := by
  have hevent : ∀ kind, r.kind = kind → kind ≠ "SPAN" → isLogEvent kind = false →
      r.isPartialSpan = false ∧ r.isFinalSpan = false ∧ ∀ data, applyRecord data r = data := by
    intro kind hkind hne hlog
    exact ⟨decide_eq_false fun h => hne (hkind ▸ h.1), decide_eq_false fun h => hne (hkind ▸ h.1),
      applyRecord_event hkind hlog hne⟩
  rcases h with hincomplete | hfinal | hkind | hkind
  · obtain ⟨hkind, hstatus⟩ := of_decide_eq_true hincomplete
    refine .inl ⟨hincomplete, decide_eq_false ?_, fun data => ?_⟩
    · rw [hstatus]
      rintro ⟨-, h | h | h⟩ <;> exact absurd h (by decide)
    · unfold applyRecord SpanData.applySpan SpanData.applyStatus
      rw [applyLog_of_not hkind (by decide +kernel), if_pos hkind, hstatus]
      rfl
  · obtain ⟨hkind, hstatus⟩ := of_decide_eq_true hfinal
    have hne : r.status ≠ "PARTIAL" := by
      rcases hstatus with h | h | h <;> rw [h] <;> decide
    refine .inr (.inl ⟨decide_eq_false fun h => hne h.2, hfinal, fun data => ?_⟩)
    unfold applyRecord SpanData.applySpan
    rw [applyLog_of_not hkind (by decide +kernel), if_pos hkind, if_pos hne]
  · exact .inr (.inr (hevent _ hkind (by decide) (by decide +kernel)))
  · exact .inr (.inr (hevent _ hkind (by decide) (by decide +kernel)))

theorem applyStatus_message (r r' : TaskEventRecord) (data : SpanData) :
    (SpanData.applyStatus r data).message = data.message ∧
      (SpanData.applyStatus r data).level = data.level ∧
      (SpanData.applyStatus r { data with message := r'.message }) =
        { SpanData.applyStatus r data with message := r'.message } := by
  unfold SpanData.applyStatus
  split
  · exact ⟨rfl, rfl, rfl⟩
  · split
    · exact ⟨rfl, rfl, rfl⟩
    · split
      · exact ⟨rfl, rfl, rfl⟩
      · exact ⟨rfl, rfl, rfl⟩

/-! ### 順序を変える -/

/-- 高々一つしか当てはまらない述語を、二つの要素が満たせば、二つは等しい。 -/
theorem eq_of_countP_le_one {p : TaskEventRecord → Bool} (h : records.countP p ≤ 1)
    (hr : r ∈ records) (hr' : r' ∈ records) (hp : p r = true) (hp' : p r' = true) : r = r' := by
  obtain ⟨a, b, rfl⟩ := List.append_of_mem hr
  have hrest : (a ++ b).countP p = 0 := by
    rw [List.countP_append, List.countP_cons_of_pos hp] at h
    rw [List.countP_append]
    omega
  by_contra hne
  have hmem : r' ∈ a ++ b := by
    rcases List.mem_append.mp hr' with ha | hb
    · exact List.mem_append_left b ha
    · exact List.mem_append_right a ((List.mem_cons.mp hb).resolve_left (Ne.symm hne))
  exact absurd hp' (List.countP_eq_zero.mp hrest r' hmem)

/-- 同じ種類でない二つの record は、どちらを先に統合しても同じである。 -/
theorem applyRecord_comm (hr : r.Known) (hr' : r'.Known)
    (hincomplete : r.isPartialSpan = true → r'.isPartialSpan = true → r = r')
    (hfinal : r.isFinalSpan = true → r'.isFinalSpan = true → r = r') (data : SpanData) :
    applyRecord (applyRecord data r) r' = applyRecord (applyRecord data r') r := by
  have hswap : ∀ {a b : TaskEventRecord} (data : SpanData),
      (∀ data, applyRecord data a = { data with message := a.message }) →
      (∀ data, applyRecord data b =
        { SpanData.applyStatus b data with duration := b.duration.value }) →
      applyRecord (applyRecord data a) b = applyRecord (applyRecord data b) a := by
    intro a b data ha hb
    rw [ha, ha, hb, hb, (applyStatus_message b a data).2.2]
  rcases applyRecord_cases hr with ⟨hp, -, heq⟩ | ⟨-, hf, heq⟩ | ⟨-, -, heq⟩
  · rcases applyRecord_cases hr' with ⟨hp', -, heq'⟩ | ⟨-, -, heq'⟩ | ⟨-, -, heq'⟩
    · rw [hincomplete hp hp']
    · exact hswap data heq heq'
    · rw [heq', heq']
  · rcases applyRecord_cases hr' with ⟨-, -, heq'⟩ | ⟨-, hf', heq'⟩ | ⟨-, -, heq'⟩
    · exact (hswap data heq' heq).symm
    · rw [hfinal hf hf']
    · rw [heq', heq']
  · rw [heq, heq]

theorem foldl_applyRecord_perm {records' : List TaskEventRecord} (h : SpanRecords records)
    (hperm : records.Perm records') (data : SpanData) :
    records.foldl applyRecord data = records'.foldl applyRecord data :=
  hperm.foldl_eq' (fun _ hr _ hr' data => applyRecord_comm (h.known _ hr) (h.known _ hr')
    (eq_of_countP_le_one h.onePartial hr hr') (eq_of_countP_le_one h.oneFinal hr hr') data) data

/-- 最も早い開始時刻は、どの順に比べても同じである。 -/
theorem earlier_comm (earliest : Option ℤ) :
    earlier r' (earlier r earliest) = earlier r (earlier r' earliest) := by
  unfold earlier
  cases earliest with
  | none => grind
  | some t => grind

theorem foldl_earlier_perm {records' : List TaskEventRecord} (hperm : records.Perm records')
    (earliest : Option ℤ) :
    records.foldl (fun earliest r => earlier r earliest) earliest =
      records'.foldl (fun earliest r => earlier r earliest) earliest :=
  hperm.foldl_eq' (fun _ _ _ _ earliest => earlier_comm earliest) earliest

theorem earlier_isSome (h : earliest.isSome = true) : (earlier r earliest).isSome = true := by
  unfold earlier
  split
  · rfl
  · exact h

/-- SPAN の record があれば、開始時刻が見つかる。 -/
theorem foldl_earlier_isSome (h : earliest.isSome = true ∨ ∃ r ∈ records, r.kind = "SPAN") :
    (records.foldl (fun earliest r => earlier r earliest) earliest).isSome = true := by
  induction records generalizing earliest with
  | nil =>
    rcases h with h | ⟨r, hr, -⟩
    · exact h
    · cases hr
  | cons first rest ih =>
    refine ih ?_
    rcases h with h | ⟨r, hr, hkind⟩
    · exact .inl (earlier_isSome h)
    · rcases List.mem_cons.mp hr with rfl | hr
      · left
        cases earliest with
        | none =>
          show (earlier r none).isSome = true
          unfold earlier
          rw [if_pos ⟨by rw [hkind]; decide, by rw [hkind]; decide, rfl⟩]
          rfl
        | some t => exact earlier_isSome rfl
      · exact .inr ⟨r, hr, hkind⟩

/-! ### 最初の record の影響 -/

/-- 統合を続けても変わらない、七つの値の一致。開始時刻は最後に決まる。 -/
structure Agrees (data data' : SpanData) : Prop where
  flags : data.isError = data'.isError ∧ data.isPartial = data'.isPartial ∧
    data.isCancelled = data'.isCancelled
  level : data.level = data'.level

theorem agrees_foldl (hknown : ∀ r ∈ records, r.Known) (h : Agrees data data') :
    Agrees (records.foldl applyRecord data) (records.foldl applyRecord data') := by
  induction records generalizing data data' with
  | nil => exact h
  | cons r records ih =>
    refine ih (fun x hx => hknown x (List.mem_cons_of_mem r hx)) ?_
    obtain ⟨⟨he, hp, hc⟩, hl⟩ := h
    rcases applyRecord_cases (hknown r List.mem_cons_self) with
      ⟨-, -, heq⟩ | ⟨-, -, heq⟩ | ⟨-, -, heq⟩
    · rw [heq, heq]
      exact ⟨⟨he, hp, hc⟩, hl⟩
    · rw [heq, heq]
      unfold SpanData.applyStatus
      split
      · exact ⟨⟨rfl, rfl, rfl⟩, hl⟩
      · split
        · exact ⟨⟨rfl, rfl, rfl⟩, hl⟩
        · split
          · exact ⟨⟨he, rfl, hc⟩, hl⟩
          · exact ⟨⟨he, hp, hc⟩, hl⟩
    · rw [heq, heq]
      exact ⟨⟨he, hp, hc⟩, hl⟩

/-- `p` の record だけが書く欄。書く record が無ければ、はじめの値のままである。 -/
theorem foldl_field_of_none {α : Type} (field : SpanData → α) {p : TaskEventRecord → Bool}
    (hkeep : ∀ r ∈ records, p r = false → ∀ data, field (applyRecord data r) = field data)
    (hnone : ∀ r ∈ records, p r = false) (data : SpanData) :
    field (records.foldl applyRecord data) = field data := by
  induction records generalizing data with
  | nil => rfl
  | cons r records ih =>
    rw [List.foldl_cons, ih (fun x hx => hkeep x (List.mem_cons_of_mem r hx))
      (fun x hx => hnone x (List.mem_cons_of_mem r hx))]
    exact hkeep r List.mem_cons_self (hnone r List.mem_cons_self) data

/-- 書く record があれば、はじめの値によらない。 -/
theorem foldl_field_of_some {α : Type} (field : SpanData → α) {p : TaskEventRecord → Bool}
    (hkeep : ∀ r ∈ records, p r = false → ∀ data, field (applyRecord data r) = field data)
    (hset : ∀ r ∈ records, p r = true → ∀ data data',
      field (applyRecord data r) = field (applyRecord data' r))
    (h : (∃ r ∈ records, p r = true) ∨ field data = field data') :
    field (records.foldl applyRecord data) = field (records.foldl applyRecord data') := by
  induction records generalizing data data' with
  | nil =>
    rcases h with ⟨r, hr, -⟩ | h
    · cases hr
    · exact h
  | cons r records ih =>
    refine ih (fun x hx => hkeep x (List.mem_cons_of_mem r hx))
      (fun x hx => hset x (List.mem_cons_of_mem r hx)) ?_
    by_cases hp : p r = true
    · exact .inr (hset r List.mem_cons_self hp data data')
    · have hp : p r = false := Bool.eq_false_iff.mpr hp
      rcases h with ⟨x, hx, hpx⟩ | h
      · rcases List.mem_cons.mp hx with rfl | hx
        · rw [hp] at hpx
          cases hpx
        · exact .inl ⟨x, hx, hpx⟩
      · right
        rw [hkeep r List.mem_cons_self hp, hkeep r List.mem_cons_self hp, h]

/-- `message` を書くのは PARTIAL の record だけである。 -/
theorem message_field (h : r.Known) :
    (r.isPartialSpan = false → ∀ data, (applyRecord data r).message = data.message) ∧
      (r.isPartialSpan = true → ∀ data data',
        (applyRecord data r).message = (applyRecord data' r).message) := by
  rcases applyRecord_cases h with ⟨hp, -, heq⟩ | ⟨hp, -, heq⟩ | ⟨hp, -, heq⟩
  · refine ⟨fun hn => ?_, fun _ data data' => by rw [heq, heq]⟩
    rw [hp] at hn
    cases hn
  · refine ⟨fun _ data => ?_, fun hn => ?_⟩
    · rw [heq]
      exact (applyStatus_message r r data).1
    · rw [hp] at hn
      cases hn
  · refine ⟨fun _ data => by rw [heq], fun hn => ?_⟩
    rw [hp] at hn
    cases hn

/-- `duration` を書くのは最終の record だけである。 -/
theorem duration_field (h : r.Known) :
    (r.isFinalSpan = false → ∀ data, (applyRecord data r).duration = data.duration) ∧
      (r.isFinalSpan = true → ∀ data data',
        (applyRecord data r).duration = (applyRecord data' r).duration) := by
  rcases applyRecord_cases h with ⟨-, hf, heq⟩ | ⟨-, hf, heq⟩ | ⟨-, hf, heq⟩
  · refine ⟨fun _ data => by rw [heq], fun hn => ?_⟩
    rw [hf] at hn
    cases hn
  · refine ⟨fun hn => ?_, fun _ data data' => by rw [heq, heq]⟩
    rw [hf] at hn
    cases hn
  · refine ⟨fun _ data => by rw [heq], fun hn => ?_⟩
    rw [hf] at hn
    cases hn

theorem seed_agrees (h : r.Known) (h' : r'.Known) : Agrees (.seed r) (.seed r') := by
  have hlevel : ∀ {x : TaskEventRecord}, x.Known → kindToLevel x.kind = .trace := by
    intro x hx
    rcases hx with hp | hf | hk | hk
    · rw [(of_decide_eq_true hp).1]
      decide
    · rw [(of_decide_eq_true hf).1]
      decide
    · rw [hk]
      decide
    · rw [hk]
      decide
  exact ⟨⟨rfl, rfl, rfl⟩, (hlevel h).trans (hlevel h').symm⟩

/-! ### 主定理 -/

/--
PARTIAL の record があるか、どの record の `message` も等しい。最終の record があるか、どの record の
`duration` も等しい。
-/
def Settled (records : List TaskEventRecord) : Prop :=
  ((∃ r ∈ records, r.isPartialSpan = true) ∨
    ∀ r ∈ records, ∀ r' ∈ records, r.message = r'.message) ∧
  ((∃ r ∈ records, r.isFinalSpan = true) ∨
    ∀ r ∈ records, ∀ r' ∈ records, r.duration.value = r'.duration.value)

theorem mergeData_perm {records' : List TaskEventRecord} (h : SpanRecords records)
    (hsettled : Settled records) (hperm : records.Perm records') :
    mergeData records = mergeData records' := by
  match records, records' with
  | [], _ => rw [hperm.nil_eq]
  | first :: rest, [] => cases hperm.eq_nil
  | first :: rest, first' :: rest' =>
    have hfirst : first ∈ first :: rest := List.mem_cons_self
    have hfirst' : first' ∈ first :: rest := hperm.mem_iff.mpr List.mem_cons_self
    have hagree := agrees_foldl h.known (seed_agrees (h.known _ hfirst) (h.known _ hfirst'))
    have hmessage : ((first :: rest).foldl applyRecord (.seed first)).message =
        ((first :: rest).foldl applyRecord (.seed first')).message :=
      foldl_field_of_some SpanData.message (fun r hr => (message_field (h.known r hr)).1)
      (fun r hr => (message_field (h.known r hr)).2)
      (hsettled.1.imp id fun hall => hall _ hfirst _ hfirst')
    have hduration : ((first :: rest).foldl applyRecord (.seed first)).duration =
        ((first :: rest).foldl applyRecord (.seed first')).duration :=
      foldl_field_of_some SpanData.duration (fun r hr => (duration_field (h.known r hr)).1)
      (fun r hr => (duration_field (h.known r hr)).2)
      (hsettled.2.imp id fun hall => hall _ hfirst _ hfirst')
    unfold mergeData
    dsimp only
    rw [← foldl_applyRecord_perm h hperm, ← foldl_earlier_perm hperm]
    have hstart : ((first :: rest).foldl (fun earliest r => earlier r earliest) none).isSome =
        true := foldl_earlier_isSome (.inr h.someSpan)
    obtain ⟨t, ht⟩ := Option.isSome_iff_exists.mp hstart
    rw [ht]
    simp only [Option.getD_some, Option.some.injEq, SpanData.mk.injEq]
    exact ⟨hmessage, hduration, hagree.flags.1, hagree.flags.2.1, hagree.flags.2.2, trivial,
      hagree.level⟩

/-- 書く record の無い欄は、最初の record の値である。 -/
theorem mergeData_cons (rest : List TaskEventRecord)
    (hknown : ∀ x ∈ r :: rest, x.Known) :
    ∃ data, mergeData (r :: rest) = some data ∧
      ((∀ x ∈ r :: rest, x.isPartialSpan = false) → data.message = r.message) ∧
      ((∀ x ∈ r :: rest, x.isFinalSpan = false) → data.duration = r.duration.value) :=
  ⟨_, rfl, fun hnone => foldl_field_of_none SpanData.message
      (fun x hx => (message_field (hknown x hx)).1) hnone (.seed r),
    fun hnone => foldl_field_of_none SpanData.duration
      (fun x hx => (duration_field (hknown x hx)).1) hnone (.seed r)⟩

/-- どの順でも七つの値が等しければ、`Settled` である。 -/
theorem settled_of_mergeData (h : SpanRecords records)
    (hsame : ∀ records', records'.Perm records → mergeData records' = mergeData records) :
    Settled records := by
  -- どの record も、最初に来る順がある
  have hhead : ∀ r ∈ records, ∃ data, mergeData records = some data ∧
      ((∀ x ∈ records, x.isPartialSpan = false) → data.message = r.message) ∧
      ((∀ x ∈ records, x.isFinalSpan = false) → data.duration = r.duration.value) := by
    intro r hr
    obtain ⟨a, b, rfl⟩ := List.append_of_mem hr
    have hperm : (r :: (a ++ b)).Perm (a ++ r :: b) := List.perm_middle.symm
    obtain ⟨data, hdata, hmessage, hduration⟩ := mergeData_cons (r := r) (a ++ b)
      fun x hx => h.known x (hperm.mem_iff.mp hx)
    refine ⟨data, (hsame _ hperm).symm.trans hdata, fun hnone => hmessage fun x hx => ?_,
      fun hnone => hduration fun x hx => ?_⟩
    · exact hnone x (hperm.mem_iff.mp hx)
    · exact hnone x (hperm.mem_iff.mp hx)
  refine ⟨or_iff_not_imp_left.mpr fun hnone r hr r' hr' => ?_,
    or_iff_not_imp_left.mpr fun hnone r hr r' hr' => ?_⟩
  · have hnone : ∀ x ∈ records, x.isPartialSpan = false :=
      fun x hx => Bool.eq_false_iff.mpr fun hp => hnone ⟨x, hx, hp⟩
    obtain ⟨data, hdata, hmessage, -⟩ := hhead r hr
    obtain ⟨data', hdata', hmessage', -⟩ := hhead r' hr'
    rw [hdata] at hdata'
    rw [← hmessage hnone, ← hmessage' hnone, Option.some.inj hdata']
  · have hnone : ∀ x ∈ records, x.isFinalSpan = false :=
      fun x hx => Bool.eq_false_iff.mpr fun hp => hnone ⟨x, hx, hp⟩
    obtain ⟨data, hdata, -, hduration⟩ := hhead r hr
    obtain ⟨data', hdata', -, hduration'⟩ := hhead r' hr'
    rw [hdata] at hdata'
    rw [← hduration hnone, ← hduration' hnone, Option.some.inj hdata']

end Spec

/--
**一つの span の record を三つの形に統合した七つの値が、互いに等しく、どの順でも同じなのは、`message` と
`duration` を上書きする record があるか、どの record もその値が等しいときに限る。**
-/
theorem merge_orderIndependent_iff (parse : String → Json) (records : List TaskEventRecord)
    (h : SpanRecords records) :
    (∀ records', records'.Perm records →
      (mergeRecordsIntoSpanSummary parse records').map Prod.fst =
          (mergeRecordsIntoSpanSummary parse records).map Prod.fst ∧
        (mergeRecordsIntoSpanDetail parse records').map Prod.fst =
          (mergeRecordsIntoSpanSummary parse records').map Prod.fst ∧
        (mergeRecordsIntoSpanDetailedSummary parse records').map Prod.fst =
          (mergeRecordsIntoSpanSummary parse records').map Prod.fst) ↔ Settled records := by
  have hsummary : ∀ l, (mergeRecordsIntoSpanSummary parse l).map Prod.fst = mergeData l :=
    mergeRecords_data
  have hdetail : ∀ l, (mergeRecordsIntoSpanDetail parse l).map Prod.fst = mergeData l :=
    mergeRecords_data
  have hdetailed : ∀ l, (mergeRecordsIntoSpanDetailedSummary parse l).map Prod.fst = mergeData l :=
    mergeRecords_data
  simp only [hsummary, hdetail, hdetailed, and_true]
  exact ⟨settled_of_mergeData h, fun hsettled records' hperm =>
    (mergeData_perm h hsettled hperm.symm).symm⟩

/-- 種類・状態・message・長さのほかは同じ record。 -/
def sampleRecord (kind status message : String) (duration : ℤ) : TaskEventRecord where
  parent_span_id := ""
  run_id := "run_1"
  start_time := "2025-09-23 12:32:46.130262875".toList
  recordStartTime := 1758630766130
  start_time_reads := by decide +kernel
  duration := .number duration
  status := status
  kind := kind
  metadata := ""
  message := message
  attributes_text := ""

/-- 始まりと終わりの record が揃っていれば、順によらない。 -/
theorem merge_orderIndependent_complete :
    (∀ records', records'.Perm [sampleRecord "SPAN" "PARTIAL" "my-task" 0,
        sampleRecord "SPAN" "OK" "my-task" 5] →
      (mergeRecordsIntoSpanSummary (fun _ => .null) records').map Prod.fst =
          (mergeRecordsIntoSpanSummary (fun _ => .null) [sampleRecord "SPAN" "PARTIAL" "my-task" 0,
            sampleRecord "SPAN" "OK" "my-task" 5]).map Prod.fst ∧
        (mergeRecordsIntoSpanDetail (fun _ => .null) records').map Prod.fst =
          (mergeRecordsIntoSpanSummary (fun _ => .null) records').map Prod.fst ∧
        (mergeRecordsIntoSpanDetailedSummary (fun _ => .null) records').map Prod.fst =
          (mergeRecordsIntoSpanSummary (fun _ => .null) records').map Prod.fst) ↔
      Settled [sampleRecord "SPAN" "PARTIAL" "my-task" 0, sampleRecord "SPAN" "OK" "my-task" 5] :=
  merge_orderIndependent_iff (fun _ => .null)
    [sampleRecord "SPAN" "PARTIAL" "my-task" 0, sampleRecord "SPAN" "OK" "my-task" 5]
    { known := by
        intro r hr
        rcases List.mem_cons.mp hr with rfl | hr
        · exact .inl (by decide)
        · rw [List.mem_singleton.mp hr]
          exact .inr (.inl (by decide))
      onePartial := by decide
      oneFinal := by decide
      someSpan := ⟨_, List.mem_cons_self, rfl⟩
      sameParent := by decide
      sameRun := by decide }

/-- PARTIAL の record が無いと、先に来た event の名前が span の message になる。 -/
theorem merge_orderDependent :
    (mergeRecordsIntoSpanSummary (fun _ => .null)
        [sampleRecord "SPAN_EVENT" "OK" "attempt_failed" 0,
          sampleRecord "SPAN" "ERROR" "my-task" 5]).map Prod.fst ≠
      (mergeRecordsIntoSpanSummary (fun _ => .null) [sampleRecord "SPAN" "ERROR" "my-task" 5,
        sampleRecord "SPAN_EVENT" "OK" "attempt_failed" 0]).map Prod.fst := by
  decide +kernel

end EventRepository
