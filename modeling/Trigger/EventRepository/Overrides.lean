import Trigger.EventRepository.Merge
import Trigger.Infra.Orbit
import Trigger.Infra.Record
import Trigger.Tsql.Functions

/-!
# 祖先による上書き

`clickhouseEventRepository.server.ts` の `#applyAncestorOverrides`・`#applyAncestorToSpan`。

開いたままの TRACE span は、最初の閉じた TRACE の祖先に合わせて閉じられる。祖先を辿るループには訪れた印が
無く、閉路に入ると止まらない（`terminates_iff`）。
-/

namespace EventRepository

open Infra (JsMap)
open Infra.Orbit
open RunMetadata (Json)
open Tsql (objectPrototype)

/-! ## span -/

/-- `SpanSummaryCommon`。 -/
structure SpanSummaryCommon where
  id : String
  parentId : Option String
  runId : String
  data : SpanData
  events : List SpanEvent
  attemptNumber : Option ℚ

namespace SpanSummaryCommon

/-- `mergeRecordsIntoSpanSummary` の結果から。 -/
def ofMerged (id : String) (merged : SpanData × SummaryFields) : SpanSummaryCommon where
  id := id
  parentId := merged.2.parentId
  runId := merged.2.runId
  data := merged.1
  events := merged.2.events
  attemptNumber := merged.2.attemptNumber

/-- 閉じた TRACE span。 -/
def isClosed (span : SpanSummaryCommon) : Bool :=
  decide (span.data.level = .trace) && !span.data.isPartial

/-- 空でない親の id。 -/
def parent (span : SpanSummaryCommon) : Option String := span.parentId.filter (· ≠ "")

/-- `calculateEndTimeFromStartTime`。`Date` は端数を捨てる。 -/
def endTime (span : SpanSummaryCommon) : Option ℤ :=
  span.data.duration.map fun d => (span.data.startTime * 1000000 + d).tdiv 1000000

/-- `calculateDurationFromStartJsDate`。 -/
def durationUntil (span : SpanSummaryCommon) (endTime : Option ℤ) : Option ℤ :=
  endTime.map fun e => (e - span.data.startTime) * 1000000

end SpanSummaryCommon

/-- `SpanOverride`。 -/
structure SpanOverride where
  isCancelled : Bool := false
  isError : Bool := false
  duration : Option ℤ
  events : List SpanEvent := []

/-- その実行のその試行の `attempt_failed`。 -/
def isAttemptFailed (attemptNumber : ℚ) (runId : String) (event : SpanEvent) : Bool :=
  decide (event.name = "attempt_failed") &&
    decide (property "attemptNumber" event.properties = some (.num attemptNumber)) &&
    decide (property "runId" event.properties = some (.str runId))

/-- 試行の失敗から作る例外の event。 -/
def exceptionEvent (attemptFailed : SpanEvent) : SpanEvent where
  name := "exception"
  time := attemptFailed.time
  properties := .obj (((property "exception" attemptFailed.properties).map fun e =>
    ("exception", e)).toList)

section Apply

variable (span overrideSpan : SpanSummaryCommon)

/-- 取り消しの上書き。 -/
def cancelBy : SpanSummaryCommon × SpanOverride :=
  let duration := span.durationUntil overrideSpan.endTime
  let events := (overrideSpan.events.find? fun e => e.name = "cancellation").toList
  ({ span with
      data := { span.data with
        isCancelled := true
        isPartial := false
        isError := false
        duration := duration }
      events := span.events ++ events },
    { isCancelled := true, duration := duration, events := events })

/-- 失敗の上書き。 -/
def failBy (attemptFailed : SpanEvent) : SpanSummaryCommon × SpanOverride :=
  let duration := span.durationUntil overrideSpan.endTime
  ({ span with
      data := { span.data with
        isError := true
        isPartial := false
        isCancelled := false
        duration := duration }
      events := span.events ++ [exceptionEvent attemptFailed, attemptFailed] },
    { isError := true, duration := duration, events := [exceptionEvent attemptFailed] })

/-- 失敗の上書きに使う event。 -/
def attemptFailedEvent : Option SpanEvent :=
  match span.attemptNumber with
  | some n =>
    if n ≠ 0 then overrideSpan.events.find? (isAttemptFailed n span.runId) else none
  | none => none

/-- 上書きした span と、上書きの記録。 -/
def overriddenBy : SpanSummaryCommon × Option SpanOverride :=
  let (span, override) :=
    if overrideSpan.data.isCancelled then
      let (span, override) := cancelBy span overrideSpan
      (span, some override)
    else (span, none)
  match overrideSpan.data.isError, attemptFailedEvent span overrideSpan with
  | true, some event =>
    let (span, override) := failBy span overrideSpan event
    (span, some override)
  | _, _ => (span, override)

end Apply

/-! ## 写像の途中の状態 -/

/-- `spansById` と `overridesBySpanId`。span は共有され、その場で書き換えられる。 -/
structure Overriding where
  spans : JsMap SpanSummaryCommon
  overridesBySpanId : JsMap SpanOverride

/-- `overridesBySpanId[id]` が真である。継承した property も真になる。 -/
def Overriding.has (st : Overriding) (id : String) : Bool :=
  (st.overridesBySpanId.get id).isSome || decide (id ∈ objectPrototype)

/-- `#applyAncestorToSpan`。 -/
def applyAncestorToSpan (span overrideSpan : SpanSummaryCommon) (st : Overriding) : Overriding :=
  if st.has span.id then st
  else
    match overriddenBy span overrideSpan with
    | (span', some override) =>
      { spans := st.spans.set span.id span'
        overridesBySpanId := st.overridesBySpanId.set span.id override }
    | (_, none) => st

/-- 最初の閉じた TRACE の祖先を探すループ。`none` は、`fuel` 回では終わらないことを表す。 -/
def closedAncestor (spans : JsMap SpanSummaryCommon) :
    ℕ → String → Option (Option SpanSummaryCommon)
  | 0, _ => none
  | fuel + 1, parentSpanId =>
    match spans.get parentSpanId with
    | none => some none
    | some parentSpan =>
      if parentSpan.isClosed then some (some parentSpan)
      else
        match parentSpan.parent with
        | none => some none
        | some id => closedAncestor spans fuel id

/-- `#applyAncestorOverrides`。 -/
def applyAncestorOverrides (fuel : ℕ) (span : SpanSummaryCommon) (st : Overriding) :
    Option Overriding :=
  if span.data.level ≠ .trace then some st
  else if !span.data.isPartial then some st
  else
    match span.parent with
    | none => some st
    | some id =>
      (closedAncestor st.spans fuel id).map fun
        | some overrideSpan => applyAncestorToSpan span overrideSpan st
        | none => st

/-- span を `order` の順に写す。 -/
def mapSpans (fuel : ℕ) : List String → Overriding → Option Overriding
  | [], st => some st
  | id :: rest, st =>
    match st.spans.get id with
    | none => mapSpans fuel rest st
    | some span => (applyAncestorOverrides fuel span st).bind (mapSpans fuel rest)

/-! ## 統合の結果 -/

/-- 失敗と取り消しが同時に立たない。 -/
def SpanData.Exclusive (data : SpanData) : Prop := ¬(data.isError = true ∧ data.isCancelled = true)

theorem applyRecord_exclusive {data : SpanData} (h : data.Exclusive) (r : TaskEventRecord) :
    (applyRecord data r).Exclusive := by
  have hlog : (data.applyLog r).Exclusive := by
    unfold SpanData.applyLog
    split
    · simp [SpanData.Exclusive]
    · exact h
  have hstatus : ∀ data : SpanData, data.Exclusive → (data.applyStatus r).Exclusive := by
    intro data h
    unfold SpanData.applyStatus
    split
    · simp [SpanData.Exclusive]
    · split
      · simp [SpanData.Exclusive]
      · split
        · exact h
        · exact h
  unfold applyRecord SpanData.applySpan
  split
  · split
    · exact hstatus _ hlog
    · exact hstatus _ hlog
  · exact hlog

/-- 統合した span では、失敗と取り消しが同時に立たない。 -/
theorem mergeData_exclusive {records : List TaskEventRecord} {data : SpanData}
    (h : mergeData records = some data) : data.Exclusive := by
  cases records with
  | nil => cases h
  | cons first rest =>
    have hfold : ∀ (l : List TaskEventRecord) (data : SpanData), data.Exclusive →
        (l.foldl applyRecord data).Exclusive := by
      intro l
      induction l with
      | nil => exact fun _ h => h
      | cons r l ih => exact fun data h => ih _ (applyRecord_exclusive h r)
    cases h
    exact hfold (first :: rest) (SpanData.seed first) (by simp [SpanData.Exclusive, SpanData.seed])

/-- 一つの trace の span。 -/
structure Trace where
  spans : JsMap SpanSummaryCommon
  nodup : (spans.map Prod.fst).Nodup
  ids : ∀ id span, spans.get id = some span → span.id = id
  exclusive : ∀ id span, spans.get id = some span → span.data.Exclusive

namespace Trace

def spanIds (t : Trace) : List String := t.spans.map Prod.fst

/-- 写像を始める状態。 -/
def initial (t : Trace) : Overriding := ⟨t.spans, []⟩

end Trace

theorem summary_exclusive {parse : String → Json} {records : List TaskEventRecord}
    {merged : SpanData × SummaryFields}
    (h : mergeRecordsIntoSpanSummary parse records = some merged) (id : String) :
    (SpanSummaryCommon.ofMerged id merged).data.Exclusive := by
  have hdata := @mergeRecords_data SummaryFields SummaryFields.seed (SummaryFields.extend parse)
    records
  unfold mergeRecordsIntoSpanSummary at h
  rw [h] at hdata
  exact mergeData_exclusive hdata.symm

/-! ## 停止 -/

/-- 親を辿る一歩。閉じた TRACE span で止まる。 -/
def walk (spans : JsMap SpanSummaryCommon) (id : String) : Option String :=
  match spans.get id with
  | none => none
  | some span => if span.isClosed then none else span.parent

theorem closedAncestor_eq_none {spans : JsMap SpanSummaryCommon} (n : ℕ) (id : String) :
    closedAncestor spans n id = none ↔ iter (walk spans) n id ≠ none := by
  induction n generalizing id with
  | zero => simp [closedAncestor, iter]
  | succ n ih =>
    rw [closedAncestor, iter, walk]
    cases spans.get id with
    | none => simp
    | some span =>
      by_cases hc : span.isClosed = true
      · simp [hc]
      · cases hp : span.parent with
        | none => simp [hc, hp]
        | some q => simpa [hc, hp] using ih q

theorem mem_spanIds_of_walk {spans : JsMap SpanSummaryCommon} {id : String}
    (h : walk spans id ≠ none) : id ∈ spans.map Prod.fst := by
  unfold walk at h
  split at h
  · exact absurd rfl h
  · next span hspan => exact List.mem_map_of_mem (f := Prod.fst) (JsMap.mem_of_get hspan)

/-- 開いたままの TRACE span で、空でない親の id を持つ。 -/
def SpanSummaryCommon.Open (span : SpanSummaryCommon) (p : String) : Prop :=
  span.data.level = .trace ∧ span.data.isPartial = true ∧ span.parent = some p

/-- 呼び出しが終わる。 -/
def Terminates (span : SpanSummaryCommon) (st : Overriding) : Prop :=
  ∃ fuel, (applyAncestorOverrides fuel span st).isSome = true

/-- 開いた span の呼び出し。 -/
theorem applyAncestorOverrides_open {span : SpanSummaryCommon} {p : String} (h : span.Open p)
    (fuel : ℕ) (st : Overriding) :
    applyAncestorOverrides fuel span st = (closedAncestor st.spans fuel p).map fun
      | some overrideSpan => applyAncestorToSpan span overrideSpan st
      | none => st := by
  obtain ⟨hlevel, hincomplete, hparent⟩ := h
  unfold applyAncestorOverrides
  rw [if_neg (by simp [hlevel]), if_neg (by simp [hincomplete])]
  simp only [hparent]

/-- 開いていない span の呼び出しは何もしない。 -/
theorem applyAncestorOverrides_of_not_open {span : SpanSummaryCommon} (h : ∀ p, ¬span.Open p)
    (fuel : ℕ) (st : Overriding) : applyAncestorOverrides fuel span st = some st := by
  unfold applyAncestorOverrides
  split
  · rfl
  · next hlevel =>
    split
    · rfl
    · next hincomplete =>
      split
      · rfl
      · next p hp =>
        exact absurd ⟨not_not.mp hlevel, by simpa using hincomplete, hp⟩ (h p)

/-- **呼び出しが終わるのは、親を辿る道が、閉じた TRACE span を含まない閉路に入らないときに限る。** -/
theorem terminates_iff (span : SpanSummaryCommon) (st : Overriding) :
    Terminates span st ↔
      ∀ p, span.Open p → ∀ q, Reaches (walk st.spans) p q → ¬OnCycle (walk st.spans) q := by
  by_cases hopen : ∃ p, span.Open p
  · obtain ⟨p, hp⟩ := hopen
    have hunique : ∀ p', span.Open p' → p' = p := fun p' h =>
      Option.some.inj (h.2.2.symm.trans hp.2.2)
    have hhalts := halts_iff (f := walk st.spans) (a := p) fun _ => mem_spanIds_of_walk
    constructor
    · rintro ⟨fuel, h⟩ p' hp'
      rw [hunique p' hp']
      refine hhalts.mp ⟨fuel, ?_⟩
      rw [applyAncestorOverrides_open hp, Option.isSome_map] at h
      by_contra hne
      rw [(closedAncestor_eq_none fuel p).mpr hne] at h
      cases h
    · intro h
      obtain ⟨fuel, hnone⟩ := hhalts.mpr (h p hp)
      refine ⟨fuel, ?_⟩
      rw [applyAncestorOverrides_open hp, Option.isSome_map, Option.isSome_iff_ne_none]
      exact fun heq => (closedAncestor_eq_none fuel p).mp heq hnone
  · have hno : ∀ p, ¬span.Open p := fun p h => hopen ⟨p, h⟩
    refine ⟨fun _ p hp => absurd hp (hno p), fun _ => ⟨0, ?_⟩⟩
    rw [applyAncestorOverrides_of_not_open hno]
    rfl

end EventRepository
