import Mathlib.Tactic.Ring
import Trigger.EventRepository.Overrides

/-!
# 上書きの順序

span を写す順序が結果を変えるのは、失敗した祖先 `A` と、その下の開いた二つの span `b`・`s` について、`A` から
見た `s` の上書きと、先に上書きされた `b` から見た `s` の上書きが食い違うときに限る。

訪れた span がみな元の祖先 `A` に合わせて閉じている、という不変条件（`Progress`）を一歩ずつ保つ。
-/

namespace EventRepository

open Infra (JsMap)
open Infra.Orbit
open Tsql (objectPrototype)

/-! ## 上書きの有無 -/

/-- その実行のその試行の失敗が、event の列にある。 -/
def Failed (events : List SpanEvent) (attemptNumber : Option ℚ) (runId : String) : Prop :=
  ∃ n, attemptNumber = some n ∧ n ≠ 0 ∧ ∃ e ∈ events, isAttemptFailed n runId e = true

/-- 祖先 `A` が span を上書きする。 -/
def Applies (A span : SpanSummaryCommon) : Prop :=
  A.data.isCancelled = true ∨
    A.data.isError = true ∧ Failed A.events span.attemptNumber span.runId

/-- 元の祖先 `A` に合わせて閉じた span。 -/
structure Marked (A span span' : SpanSummaryCommon) : Prop where
  parentId : span'.parentId = span.parentId
  level : span'.data.level = span.data.level
  isPartial : span'.data.isPartial = false
  isError : span'.data.isError = A.data.isError
  isCancelled : span'.data.isCancelled = A.data.isCancelled
  startTime : span'.data.startTime = span.data.startTime
  duration : span'.data.duration = span.durationUntil A.endTime
  failed : A.data.isError = true → ∀ attemptNumber runId, Failed span'.events attemptNumber runId ↔
    Failed span.events attemptNumber runId ∨ attemptNumber = span.attemptNumber ∧ runId = span.runId

theorem attemptFailedEvent_isSome {span A : SpanSummaryCommon} :
    (attemptFailedEvent span A).isSome = true ↔
      Failed A.events span.attemptNumber span.runId := by
  unfold attemptFailedEvent Failed
  cases span.attemptNumber with
  | none => simp
  | some n =>
    by_cases hn : n = 0
    · simp [hn]
    · simp [hn]

theorem attemptFailedEvent_spec {span A : SpanSummaryCommon} {event : SpanEvent}
    (h : attemptFailedEvent span A = some event) :
    ∃ n, span.attemptNumber = some n ∧ n ≠ 0 ∧ isAttemptFailed n span.runId event = true := by
  unfold attemptFailedEvent at h
  split at h
  · next n hn =>
    split at h
    · next hne => exact ⟨n, hn, hne, List.find?_some h⟩
    · cases h
  · cases h

/-- `attempt_failed` は、一つの試行と一つの実行のものである。 -/
theorem isAttemptFailed_unique {n n' : ℚ} {r r' : String} {e : SpanEvent}
    (h : isAttemptFailed n r e = true) (h' : isAttemptFailed n' r' e = true) :
    n' = n ∧ r' = r := by
  simp only [isAttemptFailed, Bool.and_eq_true, decide_eq_true_eq] at h h'
  obtain ⟨⟨-, hn⟩, hr⟩ := h
  obtain ⟨⟨-, hn'⟩, hr'⟩ := h'
  rw [hn] at hn'
  rw [hr] at hr'
  injection hn' with hn'
  injection hn' with hn'
  injection hr' with hr'
  injection hr' with hr'
  exact ⟨hn'.symm, hr'.symm⟩

theorem not_isAttemptFailed_exception (n : ℚ) (r : String) (e : SpanEvent) :
    isAttemptFailed n r (exceptionEvent e) = false := by
  simp [isAttemptFailed, exceptionEvent]

/-- 失敗の上書きは、その試行の失敗だけを足す。 -/
theorem failed_append {events : List SpanEvent} {event : SpanEvent} {n : ℚ} {r : String}
    (hn : n ≠ 0) (he : isAttemptFailed n r event = true) (attemptNumber : Option ℚ)
    (runId : String) :
    Failed (events ++ [exceptionEvent event, event]) attemptNumber runId ↔
      Failed events attemptNumber runId ∨ attemptNumber = some n ∧ runId = r := by
  constructor
  · rintro ⟨m, rfl, hm, e, hmem, hfailed⟩
    simp only [List.mem_append, List.mem_cons, List.not_mem_nil, or_false] at hmem
    rcases hmem with hmem | rfl | rfl
    · exact .inl ⟨m, rfl, hm, e, hmem, hfailed⟩
    · rw [not_isAttemptFailed_exception] at hfailed
      cases hfailed
    · obtain ⟨rfl, rfl⟩ := isAttemptFailed_unique he hfailed
      exact .inr ⟨rfl, rfl⟩
  · rintro (⟨m, rfl, hm, e, hmem, hfailed⟩ | ⟨rfl, rfl⟩)
    · exact ⟨m, rfl, hm, e, List.mem_append_left _ hmem, hfailed⟩
    · exact ⟨n, rfl, hn, event, by simp, he⟩

/-! ## 一つの上書き -/

/-- 上書きに使う span `c` が、元の祖先 `A` と同じ向き・同じ時刻で閉じている。 -/
structure StandsFor (c A : SpanSummaryCommon) : Prop where
  isError : c.data.isError = A.data.isError
  isCancelled : c.data.isCancelled = A.data.isCancelled
  endTime : c.endTime = A.endTime

theorem StandsFor.refl (A : SpanSummaryCommon) : StandsFor A A := ⟨rfl, rfl, rfl⟩

/-- 上書きされた span は、元の祖先と同じ時刻に終わる。 -/
theorem Marked.standsFor {A span span' : SpanSummaryCommon} (h : Marked A span span') :
    StandsFor span' A := by
  refine ⟨h.isError, h.isCancelled, ?_⟩
  unfold SpanSummaryCommon.endTime
  rw [h.duration, SpanSummaryCommon.durationUntil, Option.map_map, h.startTime]
  have hround : ((fun d => (span.data.startTime * 1000000 + d).tdiv 1000000) ∘
      fun e => (e - span.data.startTime) * 1000000) = id := by
    funext e
    have hsum : span.data.startTime * 1000000 + (e - span.data.startTime) * 1000000 =
        e * 1000000 := by ring
    show (span.data.startTime * 1000000 + (e - span.data.startTime) * 1000000).tdiv 1000000 = e
    rw [hsum, Int.mul_tdiv_cancel e (by decide)]
  rw [hround, Option.map_id]
  rfl

/-- 上書きの有無と、上書きされた span。 -/
theorem overriddenBy_spec {A c span : SpanSummaryCommon} (hx : A.data.Exclusive)
    (hc : StandsFor c A) (hfailed : A.data.isError = true →
      (Failed c.events span.attemptNumber span.runId ↔
        Failed A.events span.attemptNumber span.runId)) :
    (Applies A span ∧ ∃ span' o, overriddenBy span c = (span', some o) ∧ Marked A span span') ∨
      (¬Applies A span ∧ (overriddenBy span c).2 = none) := by
  unfold overriddenBy Applies
  cases hcancel : A.data.isCancelled with
  | true =>
    have herror : A.data.isError = false := by
      cases h : A.data.isError with
      | false => rfl
      | true => exact absurd ⟨h, hcancel⟩ hx
    refine .inl ⟨.inl rfl, (cancelBy span c).1, (cancelBy span c).2, ?_, ?_⟩
    · rw [hc.isCancelled, hcancel, hc.isError, herror]
      rfl
    · exact ⟨rfl, rfl, rfl, by rw [herror]; rfl, by rw [hcancel]; rfl, rfl,
        by rw [← hc.endTime]; rfl, fun h => by rw [herror] at h; cases h⟩
  | false =>
    cases herror : A.data.isError with
    | false =>
      refine .inr ⟨by simp, ?_⟩
      rw [hc.isCancelled, hcancel, hc.isError, herror]
      rfl
    | true =>
      cases hevent : attemptFailedEvent span c with
      | none =>
        have hno : ¬Failed c.events span.attemptNumber span.runId := by
          rw [← attemptFailedEvent_isSome, hevent]
          simp
        refine .inr ⟨by simpa [← hfailed herror] using hno, ?_⟩
        rw [hc.isCancelled, hcancel, hc.isError, herror]
        simp only [hevent, Bool.false_eq_true, if_false]
      | some event =>
        have hyes : Failed c.events span.attemptNumber span.runId := by
          rw [← attemptFailedEvent_isSome, hevent]
          rfl
        obtain ⟨n, hn, hne, he⟩ := attemptFailedEvent_spec hevent
        refine .inl ⟨.inr ⟨rfl, (hfailed herror).mp hyes⟩, (failBy span c event).1,
          (failBy span c event).2, ?_, ?_⟩
        · rw [hc.isCancelled, hcancel, hc.isError, herror]
          simp only [hevent, Bool.false_eq_true, if_false]
        · refine ⟨rfl, rfl, rfl, by rw [herror]; rfl, by rw [hcancel]; rfl, rfl,
            by rw [← hc.endTime]; rfl, fun _ attemptNumber runId => ?_⟩
          rw [hn]
          exact failed_append hne he attemptNumber runId

/-! ## 途中の状態 -/

/-- 元の最初の閉じた祖先が `A` である。 -/
def Closes (spans : JsMap SpanSummaryCommon) (span A : SpanSummaryCommon) : Prop :=
  ∃ p n, span.Open p ∧ closedAncestor spans n p = some (some A)

/-- 元の祖先 `A` が上書きする span。 -/
structure Overridden (t : Trace) (span A : SpanSummaryCommon) : Prop where
  own : span.id ∉ objectPrototype
  closes : Closes t.spans span A
  applies : Applies A span

theorem closedAncestor_unique {spans : JsMap SpanSummaryCommon} :
    ∀ {n m : ℕ} {p : String} {r r' : Option SpanSummaryCommon},
      closedAncestor spans n p = some r → closedAncestor spans m p = some r' → r = r'
  | 0, _, _, _, _, h, _ => by cases h
  | _ + 1, 0, _, _, _, _, h => by cases h
  | n + 1, m + 1, p, r, r', h, h' => by
    rw [closedAncestor] at h h'
    cases hget : spans.get p with
    | none =>
      rw [hget] at h h'
      exact Option.some.inj (h.symm.trans h')
    | some parentSpan =>
      simp only [hget] at h h'
      by_cases hc : parentSpan.isClosed = true
      · rw [if_pos hc] at h h'
        exact Option.some.inj (h.symm.trans h')
      · rw [if_neg hc] at h h'
        cases hp : parentSpan.parent with
        | none =>
          rw [hp] at h h'
          exact Option.some.inj (h.symm.trans h')
        | some q =>
          simp only [hp] at h h'
          exact closedAncestor_unique h h'

theorem Closes.unique {spans : JsMap SpanSummaryCommon} {span A A' : SpanSummaryCommon}
    (h : Closes spans span A) (h' : Closes spans span A') : A = A' := by
  obtain ⟨p, n, hp, hn⟩ := h
  obtain ⟨p', n', hp', hn'⟩ := h'
  obtain rfl : p = p' := Option.some.inj (hp.2.2.symm.trans hp'.2.2)
  exact Option.some.inj (closedAncestor_unique hn hn')

/-- 見つかる祖先は元の span である。 -/
theorem closedAncestor_exclusive (t : Trace) :
    ∀ {n : ℕ} {p : String} {A : SpanSummaryCommon},
      closedAncestor t.spans n p = some (some A) → A.data.Exclusive
  | 0, _, _, h => by cases h
  | n + 1, p, A, h => by
    rw [closedAncestor] at h
    split at h
    · cases h
    · next parentSpan hget =>
      split at h
      · cases h
        exact t.exclusive p _ hget
      · split at h
        · cases h
        · exact closedAncestor_exclusive t h

/-- 写像の途中の状態。訪れた span だけが、元の祖先に合わせて閉じている。 -/
structure Progress (t : Trace) (visited : List String) (st : Overriding) : Prop where
  missing : ∀ id, t.spans.get id = none → st.spans.get id = none
  fate : ∀ id span, t.spans.get id = some span → ∃ span', st.spans.get id = some span' ∧
    ((id ∈ visited ∧ ∃ A, Overridden t span A ∧ Marked A span span') ∨
      (span' = span ∧ ¬(id ∈ visited ∧ ∃ A, Overridden t span A)))
  keys : ∀ id, (st.overridesBySpanId.get id).isSome = true ↔
    id ∈ visited ∧ ∃ span A, t.spans.get id = some span ∧ Overridden t span A

variable {t : Trace} {visited : List String} {st : Overriding} {span A : SpanSummaryCommon}
  {id p : String}

theorem Progress.initial (t : Trace) : Progress t [] t.initial where
  missing _ h := h
  fate _ span h := ⟨span, h, .inr ⟨rfl, fun h => absurd h.1 List.not_mem_nil⟩⟩
  keys _ := ⟨fun h => (by cases h), fun h => absurd h.1 List.not_mem_nil⟩

/-- 上書きされない span を訪れる。 -/
theorem Progress.skip (h : Progress t visited st) (hspan : t.spans.get id = some span)
    (hno : ¬∃ A, Overridden t span A) : Progress t (id :: visited) st where
  missing := h.missing
  fate id' span' hspan' := by
    obtain ⟨current, hcurrent, hfate⟩ := h.fate id' span' hspan'
    refine ⟨current, hcurrent, ?_⟩
    rcases hfate with ⟨hmem, hmarked⟩ | ⟨rfl, hnot⟩
    · exact .inl ⟨List.mem_cons_of_mem _ hmem, hmarked⟩
    · refine .inr ⟨rfl, fun ⟨hmem, hover⟩ => ?_⟩
      rcases List.mem_cons.mp hmem with rfl | hmem
      · obtain rfl : span = current := Option.some.inj (hspan.symm.trans hspan')
        exact hno hover
      · exact hnot ⟨hmem, hover⟩
  keys id' := by
    rw [h.keys]
    refine ⟨fun ⟨hmem, hover⟩ => ⟨List.mem_cons_of_mem _ hmem, hover⟩, ?_⟩
    rintro ⟨hmem, span', A, hspan', hover⟩
    rcases List.mem_cons.mp hmem with rfl | hmem
    · obtain rfl : span = span' := Option.some.inj (hspan.symm.trans hspan')
      exact absurd ⟨A, hover⟩ hno
    · exact ⟨hmem, span', A, hspan', hover⟩

/-- 上書きされる span を訪れる。 -/
theorem Progress.mark (h : Progress t visited st) (hspan : t.spans.get id = some span)
    (hover : Overridden t span A) {span' : SpanSummaryCommon} (hmarked : Marked A span span')
    (o : SpanOverride) :
    Progress t (id :: visited) ⟨st.spans.set id span', st.overridesBySpanId.set id o⟩ where
  missing id' hid' := by
    have hne : id' ≠ id := by
      rintro rfl
      rw [hspan] at hid'
      cases hid'
    rw [JsMap.get_set_of_ne _ hne]
    exact h.missing id' hid'
  fate id' other hother := by
    by_cases hid : id' = id
    · subst hid
      obtain rfl : span = other := Option.some.inj (hspan.symm.trans hother)
      exact ⟨span', JsMap.get_set_self _ _ _, .inl ⟨List.mem_cons_self, A, hover, hmarked⟩⟩
    · obtain ⟨current, hcurrent, hfate⟩ := h.fate id' other hother
      refine ⟨current, by rw [JsMap.get_set_of_ne _ hid]; exact hcurrent, ?_⟩
      rcases hfate with ⟨hmem, hm⟩ | ⟨rfl, hnot⟩
      · exact .inl ⟨List.mem_cons_of_mem _ hmem, hm⟩
      · refine .inr ⟨rfl, fun ⟨hmem, hov⟩ => hnot ⟨?_, hov⟩⟩
        exact (List.mem_cons.mp hmem).resolve_left hid
  keys id' := by
    by_cases hid : id' = id
    · subst hid
      rw [JsMap.get_set_self]
      exact ⟨fun _ => ⟨List.mem_cons_self, span, A, hspan, hover⟩, fun _ => rfl⟩
    · rw [JsMap.get_set_of_ne _ hid, h.keys]
      simp only [List.mem_cons, hid, false_or]

/-- 途中の状態で見つかる祖先は、元の祖先か、それに合わせて先に閉じた span である。 -/
theorem Progress.closedAncestor (h : Progress t visited st) :
    ∀ (n : ℕ) (q : String) (r : Option SpanSummaryCommon),
      closedAncestor t.spans n q = some r → closedAncestor st.spans n q = some r ∨
        ∃ A b b', r = some A ∧ t.spans.get b.id = some b ∧ Reaches (walk t.spans) q b.id ∧
          Overridden t b A ∧ Marked A b b' ∧ closedAncestor st.spans n q = some (some b')
  | 0, _, _, hr => by cases hr
  | n + 1, q, r, hr => by
    rw [EventRepository.closedAncestor] at hr
    cases hget : t.spans.get q with
    | none =>
      rw [hget] at hr
      refine .inl ?_
      rw [EventRepository.closedAncestor, h.missing q hget]
      exact hr
    | some b =>
      simp only [hget] at hr
      have hid : b.id = q := t.ids q b hget
      obtain ⟨b', hb', ⟨-, A, hover, hmarked⟩ | ⟨rfl, -⟩⟩ := h.fate q b hget
      · -- 先に閉じた span で止まる
        obtain ⟨p, m, hopen, hm⟩ := hover.closes
        have hclosed : b'.isClosed = true := by
          simp [SpanSummaryCommon.isClosed, hmarked.level, hmarked.isPartial, hopen.1]
        have hnot : ¬b.isClosed = true := by
          simp [SpanSummaryCommon.isClosed, hopen.2.1]
        rw [if_neg hnot, hopen.2.2] at hr
        refine .inr ⟨A, b, b', closedAncestor_unique hr hm, hid.symm ▸ hget,
          by rw [hid]; exact Reaches.refl q, hover, hmarked, ?_⟩
        rw [EventRepository.closedAncestor, hb']
        simp only [hclosed, if_true]
      · rw [EventRepository.closedAncestor, hb']
        by_cases hclosed : b'.isClosed = true
        · rw [if_pos hclosed] at hr
          exact .inl (by simp only [hclosed, if_true]; exact hr)
        · rw [if_neg hclosed] at hr
          simp only [if_neg hclosed]
          cases hp : b'.parent with
          | none =>
            rw [hp] at hr
            exact .inl hr
          | some p =>
            rw [hp] at hr
            have hwalk : walk t.spans q = some p := by
              unfold walk
              simp only [hget, if_neg hclosed, hp]
            rcases h.closedAncestor n p r hr with hsame | ⟨A, c, c', hA, hc, hreach, hrest⟩
            · exact .inl hsame
            · exact .inr ⟨A, c, c', hA, hc, hreach.head hwalk, hrest⟩

/-! ## 一歩と全体 -/

/-- 失敗した祖先 `A` の下で、先に上書きされた `b` から見ても、span の上書きは同じである。 -/
def Confluent (t : Trace) : Prop :=
  ∀ span A b p, t.spans.get span.id = some span → t.spans.get b.id = some b →
    span.id ∉ objectPrototype → span.Open p → Closes t.spans span A → A.data.isError = true →
    Reaches (walk t.spans) p b.id → Overridden t b A →
    (Failed A.events span.attemptNumber span.runId ↔
      Failed b.events span.attemptNumber span.runId ∨
        span.attemptNumber = b.attemptNumber ∧ span.runId = b.runId)

/-- 親の辺が森をなす。 -/
def Forest (t : Trace) : Prop :=
  ∀ id, ¬OnCycle (fun id => (t.spans.get id).bind SpanSummaryCommon.parent) id

/-- 親を辿る道は、親の辺に沿う。 -/
theorem not_onCycle_walk (h : Forest t) (id : String) : ¬OnCycle (walk t.spans) id := by
  have hstep : ∀ a b, walk t.spans a = some b →
      (t.spans.get a).bind SpanSummaryCommon.parent = some b := by
    intro a b hab
    unfold walk at hab
    split at hab
    · cases hab
    · next span hspan =>
      split at hab
      · cases hab
      · rw [hspan]
        exact hab
  rintro ⟨n, hn⟩
  exact h id ⟨n, iter_mono hstep (n + 1) hn⟩

/-- 森では、span の個数より一つ多い回数で祖先が決まる。 -/
theorem closedAncestor_of_forest (h : Forest t) (p : String) :
    ∃ r, closedAncestor t.spans (t.spans.length + 1) p = some r := by
  have hnone := iter_eq_none (f := walk t.spans) (a := p) (l := t.spanIds)
    (fun _ => mem_spanIds_of_walk) fun b _ => not_onCycle_walk h b
  rw [Trace.spanIds, List.length_map] at hnone
  exact Option.ne_none_iff_exists'.mp fun heq => (closedAncestor_eq_none _ _).mp heq hnone

/-- **一歩は不変条件を保つ。** -/
theorem Progress.visit (h : Progress t visited st) (hforest : Forest t) (hconfluent : Confluent t)
    (hnew : id ∉ visited) (hspan : t.spans.get id = some span) :
    st.spans.get id = some span ∧ ∃ st',
      applyAncestorOverrides (t.spans.length + 1) span st = some st' ∧
        Progress t (id :: visited) st' := by
  have hid := t.ids id span hspan
  have hcurrent : st.spans.get id = some span := by
    obtain ⟨span', hspan', ⟨hmem, -⟩ | ⟨rfl, -⟩⟩ := h.fate id span hspan
    · exact absurd hmem hnew
    · exact hspan'
  refine ⟨hcurrent, ?_⟩
  by_cases hopen : ∃ p, span.Open p
  · obtain ⟨p, hp⟩ := hopen
    rw [applyAncestorOverrides_open hp]
    obtain ⟨r, hr⟩ := closedAncestor_of_forest hforest p
    -- `c` が `A` の代わりに使われる場合をまとめる
    have happly : ∀ A c, Closes t.spans span A → StandsFor c A →
        (span.id ∉ objectPrototype → A.data.isError = true →
          (Failed c.events span.attemptNumber span.runId ↔
            Failed A.events span.attemptNumber span.runId)) →
        Progress t (id :: visited) (applyAncestorToSpan span c st) := by
      intro A c hcloses hc hfailed
      have hno : ∀ hnot : ¬Overridden t span A, ¬∃ A', Overridden t span A' := by
        rintro hnot ⟨A', hA'⟩
        rw [hA'.closes.unique hcloses] at hA'
        exact hnot hA'
      have hhas : st.has span.id = decide (span.id ∈ objectPrototype) := by
        unfold Overriding.has
        have hkey : (st.overridesBySpanId.get span.id).isSome = false := by
          rw [Bool.eq_false_iff, Ne, h.keys, hid]
          exact fun hk => hnew hk.1
        rw [hkey, Bool.false_or]
      unfold applyAncestorToSpan
      rw [hhas]
      by_cases hown : span.id ∈ objectPrototype
      · rw [if_pos (decide_eq_true hown)]
        exact h.skip hspan (hno fun hover => hover.own hown)
      · rw [if_neg (by simpa using hown)]
        have hAx : A.data.Exclusive := by
          obtain ⟨q, n, -, hn⟩ := hcloses
          exact closedAncestor_exclusive t hn
        rcases overriddenBy_spec hAx hc (hfailed hown) with
          ⟨happly, span', o, heq, hmarked⟩ | ⟨hnot, heq⟩
        · rw [heq, hid]
          exact h.mark hspan ⟨hown, hcloses, happly⟩ hmarked o
        · have hst : overriddenBy span c = ((overriddenBy span c).1, none) := by rw [← heq]
          rw [hst]
          exact h.skip hspan (hno fun hover => hnot hover.applies)
    rcases h.closedAncestor _ p r hr with
      hsame | ⟨A, b, b', rfl, hb, hreach, hover, hmarked, hfound⟩
    · rw [hsame]
      refine ⟨_, rfl, ?_⟩
      cases r with
      | none =>
        refine h.skip hspan ?_
        rintro ⟨A, hover⟩
        obtain ⟨q, n, hq, hn⟩ := hover.closes
        obtain rfl : p = q := Option.some.inj (hp.2.2.symm.trans hq.2.2)
        cases closedAncestor_unique hr hn
      | some A =>
        exact happly A A ⟨p, _, hp, hr⟩ (.refl A) fun _ _ => Iff.rfl
    · rw [hfound]
      refine ⟨_, rfl, happly A b' ⟨p, _, hp, hr⟩ hmarked.standsFor fun hown herror => ?_⟩
      rw [hmarked.failed herror]
      exact (hconfluent span A b p (hid.symm ▸ hspan) hb hown hp ⟨p, _, hp, hr⟩ herror hreach
        hover).symm
  · have hno : ∀ p, ¬span.Open p := fun p hp => hopen ⟨p, hp⟩
    refine ⟨st, applyAncestorOverrides_of_not_open hno _ _, h.skip hspan ?_⟩
    rintro ⟨A, hover⟩
    obtain ⟨p, n, hp, -⟩ := hover.closes
    exact hno p hp

/-- どの順に訪れても写像は終わり、不変条件が成り立つ。 -/
theorem Progress.mapSpans (hforest : Forest t) (hconfluent : Confluent t) :
    ∀ {order visited : List String} {st : Overriding}, Progress t visited st → order.Nodup →
      (∀ id ∈ order, id ∉ visited) → (∀ id ∈ order, id ∈ t.spanIds) →
      ∃ st' visited', mapSpans (t.spans.length + 1) order st = some st' ∧
        Progress t visited' st' ∧ ∀ id, id ∈ visited' ↔ id ∈ order ∨ id ∈ visited
  | [], visited, st, h, _, _, _ => ⟨st, visited, rfl, h, by simp⟩
  | id :: rest, visited, st, h, hnodup, hnew, hknown => by
    obtain ⟨span, hspan⟩ : ∃ span, t.spans.get id = some span := by
      obtain ⟨⟨k, span⟩, hmem, rfl⟩ := List.mem_map.mp (hknown id List.mem_cons_self)
      exact ⟨span, Infra.Record.lookup_of_mem t.nodup hmem⟩
    obtain ⟨hcurrent, st₁, hst₁, h₁⟩ :=
      h.visit hforest hconfluent (hnew id List.mem_cons_self) hspan
    have hfresh : ∀ id' ∈ rest, id' ∉ id :: visited := by
      intro id' hid' hmem
      rcases List.mem_cons.mp hmem with rfl | hmem
      · exact (List.nodup_cons.mp hnodup).1 hid'
      · exact hnew id' (List.mem_cons_of_mem _ hid') hmem
    obtain ⟨st', visited', hst', h', hvisited⟩ := h₁.mapSpans hforest hconfluent
      (List.nodup_cons.mp hnodup).2 hfresh fun id' hid' => hknown id' (List.mem_cons_of_mem _ hid')
    refine ⟨st', visited', ?_, h', fun id' => ?_⟩
    · rw [EventRepository.mapSpans, hcurrent]
      simp only [hst₁, Option.bind_some, hst']
    · rw [hvisited, List.mem_cons, List.mem_cons]
      exact or_left_comm.trans or_assoc.symm

/-- 比べる四つの値。 -/
def SpanSummaryCommon.outcome (span : SpanSummaryCommon) : Bool × Bool × Bool × Option ℤ :=
  (span.data.isPartial, span.data.isError, span.data.isCancelled, span.data.duration)

/-- 二つの結果が、span の四つの値と上書きの key で一致する。 -/
structure Agree (st st' : Overriding) : Prop where
  spans : ∀ id, (st.spans.get id).map SpanSummaryCommon.outcome =
    (st'.spans.get id).map SpanSummaryCommon.outcome
  keys : ∀ id, (st.overridesBySpanId.get id).isSome = (st'.overridesBySpanId.get id).isSome

/-- どの二つの順序でも写像が終わり、結果が一致する。 -/
def OrderIndependent (t : Trace) : Prop :=
  ∀ order order' : List String, order.Perm t.spanIds → order'.Perm t.spanIds →
    ∃ fuel st st', mapSpans fuel order t.initial = some st ∧
      mapSpans fuel order' t.initial = some st' ∧ Agree st st'

/-- 全部を訪れた後の状態は、四つの値と key を決める。 -/
theorem Progress.agree {visited' : List String} {st' : Overriding} (h : Progress t visited st)
    (h' : Progress t visited' st') (hv : ∀ id, id ∈ visited ↔ id ∈ visited') : Agree st st' where
  spans id := by
    cases hspan : t.spans.get id with
    | none => rw [h.missing id hspan, h'.missing id hspan]
    | some span =>
      obtain ⟨x, hx, hfate⟩ := h.fate id span hspan
      obtain ⟨y, hy, hfate'⟩ := h'.fate id span hspan
      rw [hx, hy]
      rcases hfate with ⟨hmem, A, hover, hm⟩ | ⟨rfl, hnot⟩
      · rcases hfate' with ⟨-, A', hover', hm'⟩ | ⟨-, hnot'⟩
        · obtain rfl := hover.closes.unique hover'.closes
          simp only [Option.map_some, SpanSummaryCommon.outcome, hm.isPartial, hm'.isPartial,
            hm.isError, hm'.isError, hm.isCancelled, hm'.isCancelled, hm.duration, hm'.duration]
        · exact absurd ⟨(hv id).mp hmem, A, hover⟩ hnot'
      · rcases hfate' with ⟨hmem', hover'⟩ | ⟨rfl, -⟩
        · obtain ⟨A', hover', -⟩ := hover'
          exact absurd ⟨(hv id).mpr hmem', A', hover'⟩ hnot
        · rfl
  keys id := by rw [Bool.eq_iff_iff, h.keys, h'.keys, hv]

theorem orderIndependent_of_confluent (hforest : Forest t) (h : Confluent t) :
    OrderIndependent t := by
  intro order order' hperm hperm'
  have hrun : ∀ order : List String, order.Perm t.spanIds → ∃ st visited,
      mapSpans (t.spans.length + 1) order t.initial = some st ∧ Progress t visited st ∧
        ∀ id, id ∈ visited ↔ id ∈ t.spanIds := by
    intro order hperm
    obtain ⟨st, visited, hst, hp, hv⟩ := (Progress.initial t).mapSpans hforest h
      (hperm.nodup_iff.mpr t.nodup) (fun _ _ => List.not_mem_nil) fun _ => hperm.mem_iff.mp
    refine ⟨st, visited, hst, hp, fun id => ?_⟩
    rw [hv, hperm.mem_iff]
    simp
  obtain ⟨st, visited, hst, hp, hv⟩ := hrun order hperm
  obtain ⟨st', visited', hst', hp', hv'⟩ := hrun order' hperm'
  exact ⟨_, st, st', hst, hst', hp.agree hp' fun id => (hv id).trans (hv' id).symm⟩

/-! ## 食い違う二つの順序 -/

theorem overriddenBy_id (span c : SpanSummaryCommon) : (overriddenBy span c).1.id = span.id := by
  unfold overriddenBy
  cases c.data.isCancelled with
  | false => dsimp only; split <;> rfl
  | true => dsimp only; split <;> rfl

theorem applyAncestorToSpan_spans (span c : SpanSummaryCommon) (st : Overriding) :
    (applyAncestorToSpan span c st).spans = st.spans ∨
      ∃ span', span'.id = span.id ∧
        (applyAncestorToSpan span c st).spans = st.spans.set span.id span' := by
  unfold applyAncestorToSpan
  split
  · exact .inl rfl
  · split
    · next span' o heq =>
      refine .inr ⟨span', ?_, rfl⟩
      rw [← overriddenBy_id span c, heq]
    · exact .inl rfl

/-- 一歩が変えるのは、訪れた span だけである。 -/
theorem applyAncestorOverrides_spans {fuel : ℕ} {st' : Overriding}
    (h : applyAncestorOverrides fuel span st = some st') :
    st'.spans = st.spans ∨
      ∃ span', span'.id = span.id ∧ st'.spans = st.spans.set span.id span' := by
  by_cases hopen : ∃ p, span.Open p
  · obtain ⟨p, hp⟩ := hopen
    rw [applyAncestorOverrides_open hp] at h
    obtain ⟨r, -, rfl⟩ := Option.map_eq_some_iff.mp h
    cases r with
    | none => exact .inl rfl
    | some c => exact applyAncestorToSpan_spans span c st
  · rw [applyAncestorOverrides_of_not_open fun p hp => hopen ⟨p, hp⟩] at h
    cases h
    exact .inl rfl

/-- 各 span は自分の id を key に持つ。 -/
def Keyed (st : Overriding) : Prop := ∀ id span, st.spans.get id = some span → span.id = id

theorem Keyed.step {fuel : ℕ} {st' : Overriding} (hk : Keyed st)
    (h : applyAncestorOverrides fuel span st = some st') : Keyed st' := by
  intro id other hother
  rcases applyAncestorOverrides_spans h with heq | ⟨span', hid, heq⟩
  · rw [heq] at hother
    exact hk id other hother
  · rw [heq, JsMap.get_set] at hother
    split at hother
    · next heq' =>
      cases hother
      rw [hid, heq']
    · exact hk id other hother

/-- これから訪れない span は変わらない。 -/
theorem mapSpans_frame {fuel : ℕ} : ∀ {order : List String} {st st' : Overriding}, Keyed st →
    mapSpans fuel order st = some st' → ∀ id ∉ order, st'.spans.get id = st.spans.get id
  | [], _, _, _, h, _, _ => by cases h; rfl
  | k :: rest, st, st', hk, h, id, hid => by
    rw [mapSpans] at h
    have hrest : id ∉ rest := fun hmem => hid (List.mem_cons_of_mem _ hmem)
    cases hget : st.spans.get k with
    | none =>
      rw [hget] at h
      exact mapSpans_frame hk h id hrest
    | some span =>
      simp only [hget] at h
      obtain ⟨st₁, hst₁, hst'⟩ := Option.bind_eq_some_iff.mp h
      rw [mapSpans_frame (hk.step hst₁) hst' id hrest]
      rcases applyAncestorOverrides_spans hst₁ with heq | ⟨span', -, heq⟩
      · rw [heq]
      · rw [heq, JsMap.get_set_of_ne]
        intro hsame
        rw [hsame, hk k span hget] at hid
        exact hid List.mem_cons_self

/-- 祖先 `c` が見つかる span を訪れる。 -/
theorem applyAncestorOverrides_found {fuel n : ℕ} {c : SpanSummaryCommon} {st' : Overriding}
    (hopen : span.Open p) (hhas : st.has span.id = false) (hx : c.data.Exclusive)
    (hfound : closedAncestor st.spans n p = some (some c))
    (h : applyAncestorOverrides fuel span st = some st') :
    (Applies c span ∧ ∃ span' o, Marked c span span' ∧
        st' = ⟨st.spans.set span.id span', st.overridesBySpanId.set span.id o⟩) ∨
      (¬Applies c span ∧ st' = st) := by
  rw [applyAncestorOverrides_open hopen] at h
  obtain ⟨r, hr, hst'⟩ := Option.map_eq_some_iff.mp h
  obtain rfl := closedAncestor_unique hr hfound
  replace hst' : applyAncestorToSpan span c st = st' := hst'
  unfold applyAncestorToSpan at hst'
  rw [hhas, if_neg (by simp)] at hst'
  rcases overriddenBy_spec hx (.refl c) (fun _ => Iff.rfl) with
    ⟨happly, span', o, heq, hmarked⟩ | ⟨hnot, heq⟩
  · rw [heq] at hst'
    exact .inl ⟨happly, span', o, hmarked, hst'.symm⟩
  · rw [show overriddenBy span c = ((overriddenBy span c).1, none) by rw [← heq]] at hst'
    exact .inr ⟨hnot, hst'.symm⟩

/-- 訪れた後の span が開いたままなのは、祖先が上書きしないときに限る。 -/
theorem isPartial_of_found {fuel n : ℕ} {c : SpanSummaryCommon} {st' : Overriding}
    (hspan : st.spans.get span.id = some span) (hopen : span.Open p)
    (hhas : st.has span.id = false) (hx : c.data.Exclusive)
    (hfound : closedAncestor st.spans n p = some (some c))
    (h : applyAncestorOverrides fuel span st = some st') :
    ∃ span', st'.spans.get span.id = some span' ∧
      (span'.data.isPartial = true ↔ ¬Applies c span) := by
  rcases applyAncestorOverrides_found hopen hhas hx hfound h with
    ⟨happly, span', o, hmarked, rfl⟩ | ⟨hnot, rfl⟩
  · refine ⟨span', JsMap.get_set_self _ _ _, ?_⟩
    rw [hmarked.isPartial]
    exact ⟨fun h => (by cases h), fun h => absurd happly h⟩
  · exact ⟨span, hspan, fun _ => hnot, fun _ => hopen.2.1⟩

/-- 道の途中の span が閉じれば、そこで止まる。 -/
theorem closedAncestor_set {spans : JsMap SpanSummaryCommon} {b b' : SpanSummaryCommon}
    (hb : spans.get b.id = some b) (hnot : b.isClosed = false) (hclosed : b'.isClosed = true) :
    ∀ (n : ℕ) (q : String), iter (walk spans) n q = some b.id →
      ∃ m, closedAncestor (spans.set b.id b') m q = some (some b')
  | 0, q, h => by
    obtain rfl : q = b.id := Option.some.inj h
    refine ⟨1, ?_⟩
    rw [closedAncestor, JsMap.get_set_self]
    simp only [hclosed, if_true]
  | n + 1, q, h => by
    obtain ⟨r, hr, hn⟩ := Option.bind_eq_some_iff.mp h
    obtain ⟨m, hm⟩ := closedAncestor_set hb hnot hclosed n r hn
    by_cases hq : q = b.id
    · subst hq
      refine ⟨1, ?_⟩
      rw [closedAncestor, JsMap.get_set_self]
      simp only [hclosed, if_true]
    · refine ⟨m + 1, ?_⟩
      rw [closedAncestor, JsMap.get_set_of_ne _ hq]
      unfold walk at hr
      cases hget : spans.get q with
      | none =>
        rw [hget] at hr
        cases hr
      | some span =>
        simp only [hget] at hr
        by_cases hc : span.isClosed = true
        · rw [if_pos hc] at hr
          cases hr
        · rw [if_neg hc] at hr
          simp only [if_neg hc, hr]
          exact hm

theorem confluent_of_orderIndependent (hforest : Forest t) (h : OrderIndependent t) :
    Confluent t := by
  intro span A b p hspan hb hown hopen hcloses herror hreach hover
  have hAx : A.data.Exclusive := by
    obtain ⟨q, n, -, hn⟩ := hcloses
    exact closedAncestor_exclusive t hn
  have hcancel : A.data.isCancelled = false := by
    rw [Bool.eq_false_iff]
    exact fun hc => hAx ⟨herror, hc⟩
  have hkeyed : Keyed t.initial := t.ids
  have hclosed : span.isClosed = false := by
    simp [SpanSummaryCommon.isClosed, hopen.2.1]
  -- `b` は span の真の祖先である
  have hne : span.id ≠ b.id := by
    intro heq
    obtain ⟨n, hn⟩ := hreach
    refine not_onCycle_walk hforest span.id ⟨n, ?_⟩
    show (walk t.spans span.id).bind (iter (walk t.spans) n) = some span.id
    have hwalk : walk t.spans span.id = some p := by
      unfold walk
      simp only [hspan, hclosed, Bool.false_eq_true, if_false, hopen.2.2]
    rw [hwalk, heq]
    exact hn
  have hmem : ∀ {k : String} {s : SpanSummaryCommon}, t.spans.get k = some s → k ∈ t.spanIds :=
    fun hk => List.mem_map_of_mem (f := Prod.fst) (JsMap.mem_of_get hk)
  have hmemSpan : span.id ∈ t.spanIds.erase b.id :=
    (List.mem_erase_of_ne hne).mpr (hmem hspan)
  obtain ⟨fuel, st, st', hst, hst', hagree⟩ := h (span.id :: t.spanIds.erase span.id)
    (b.id :: span.id :: (t.spanIds.erase b.id).erase span.id)
    (List.perm_cons_erase (hmem hspan)).symm
    (((List.perm_cons_erase hmemSpan).symm.cons b.id).trans
      (List.perm_cons_erase (hmem hb)).symm)
  have hnodup : t.spanIds.Nodup := t.nodup
  have hhas : ∀ id ∉ objectPrototype, t.initial.has id = false := by
    intro id hid
    simp [Overriding.has, Trace.initial, JsMap.get, hid]
  -- span を先に訪れる
  have hfirst : ∃ span', st.spans.get span.id = some span' ∧
      (span'.data.isPartial = true ↔ ¬Applies A span) := by
    rw [mapSpans, show t.initial.spans.get span.id = some span from hspan] at hst
    obtain ⟨st₁, hst₁, hrest⟩ := Option.bind_eq_some_iff.mp hst
    obtain ⟨q, n, hq, hn⟩ := hcloses
    obtain rfl : p = q := Option.some.inj (hopen.2.2.symm.trans hq.2.2)
    obtain ⟨span', hspan', hiff⟩ :=
      isPartial_of_found hspan hopen (hhas _ hown) hAx hn hst₁
    refine ⟨span', ?_, hiff⟩
    rw [mapSpans_frame (hkeyed.step hst₁) hrest span.id hnodup.not_mem_erase]
    exact hspan'
  -- `b` を先に訪れる
  have hsecond : ∃ span', st'.spans.get span.id = some span' ∧
      (span'.data.isPartial = true ↔ ¬(Failed b.events span.attemptNumber span.runId ∨
        span.attemptNumber = b.attemptNumber ∧ span.runId = b.runId)) := by
    rw [mapSpans, show t.initial.spans.get b.id = some b from hb] at hst'
    obtain ⟨st₁, hst₁, hrest⟩ := Option.bind_eq_some_iff.mp hst'
    obtain ⟨q, n, hq, hn⟩ := hover.closes
    rcases applyAncestorOverrides_found hq (hhas _ hover.own) hAx hn hst₁ with
      ⟨-, b', o, hmarked, rfl⟩ | ⟨hnot, -⟩
    · have hbclosed : b'.isClosed = true := by
        simp [SpanSummaryCommon.isClosed, hmarked.level, hmarked.isPartial, hq.1]
      have hbnot : b.isClosed = false := by
        simp [SpanSummaryCommon.isClosed, hq.2.1]
      obtain ⟨k, hk⟩ := hreach
      obtain ⟨m, hm⟩ := closedAncestor_set hb hbnot hbclosed k p hk
      have hget : (t.initial.spans.set b.id b').get span.id = some span := by
        rw [JsMap.get_set_of_ne _ hne]
        exact hspan
      rw [mapSpans] at hrest
      simp only [hget] at hrest
      obtain ⟨st₂, hst₂, hrest⟩ := Option.bind_eq_some_iff.mp hrest
      have hhas' : (⟨t.initial.spans.set b.id b', t.initial.overridesBySpanId.set b.id o⟩ :
          Overriding).has span.id = false := by
        unfold Overriding.has
        simp only [JsMap.get_set_of_ne o hne]
        exact hhas _ hown
      have hbx : b'.data.Exclusive := by
        unfold SpanData.Exclusive
        rw [hmarked.isError, hmarked.isCancelled]
        exact hAx
      obtain ⟨span', hspan', hiff⟩ := isPartial_of_found hget hopen hhas' hbx hm hst₂
      refine ⟨span', ?_, ?_⟩
      · rw [mapSpans_frame ((hkeyed.step hst₁).step hst₂) hrest span.id
          (hnodup.erase b.id).not_mem_erase]
        exact hspan'
      · rw [hiff, Applies, hmarked.isCancelled, hmarked.isError, hcancel, herror,
          hmarked.failed herror]
        simp
    · exact absurd hover.applies hnot
  obtain ⟨x, hx, hxiff⟩ := hfirst
  obtain ⟨y, hy, hyiff⟩ := hsecond
  have hsame := hagree.spans span.id
  rw [hx, hy] at hsame
  have hincomplete : x.data.isPartial = y.data.isPartial :=
    congrArg Prod.fst (Option.some.inj hsame)
  have hiff : ¬Applies A span ↔ ¬(Failed b.events span.attemptNumber span.runId ∨
      span.attemptNumber = b.attemptNumber ∧ span.runId = b.runId) := by
    rw [← hxiff, ← hyiff, hincomplete]
  rw [← not_iff_not.mp hiff, Applies, hcancel, herror]
  simp

/-- **祖先による上書きが止まり順序によらないのは、開いた span の道が閉じた TRACE を含まない閉路に入らず、
森では先に上書きされた span が食い違いを生まないときに限る。** -/
theorem ancestorOverrides_iff (t : Trace) :
    ((∀ id span, t.spans.get id = some span → Terminates span t.initial) ∧
        (Forest t → OrderIndependent t)) ↔
      (∀ id span p, t.spans.get id = some span → span.Open p →
        ∀ q, Reaches (walk t.spans) p q → ¬OnCycle (walk t.spans) q) ∧
      (Forest t → Confluent t) := by
  constructor
  · rintro ⟨hterm, horder⟩
    refine ⟨fun id span p hspan hp => (terminates_iff span t.initial).mp (hterm id span hspan) p hp,
      fun hforest => confluent_of_orderIndependent hforest (horder hforest)⟩
  · rintro ⟨htrap, hconfluent⟩
    refine ⟨fun id span hspan => (terminates_iff span t.initial).mpr fun p hp =>
      htrap id span p hspan hp, fun hforest =>
        orderIndependent_of_confluent hforest (hconfluent hforest)⟩

/-! ## 例 -/

/-- 試行の失敗の event。 -/
def failedAttempt (n : ℚ) : SpanEvent :=
  ⟨"attempt_failed", 0, .obj [("attemptNumber", .num n), ("runId", .str "run")]⟩

def sampleSpan (id : String) (parentId : Option String) (isPartial isError : Bool)
    (events : List SpanEvent) (attemptNumber : Option ℚ) : SpanSummaryCommon where
  id := id
  parentId := parentId
  runId := "run"
  data := ⟨"", some 0, isError, isPartial, false, 0, .trace⟩
  events := events
  attemptNumber := attemptNumber

/-- 自分を親に持つ開いた span。 -/
def selfParent : Trace where
  spans := [("a", sampleSpan "a" (some "a") true false [] none)]
  nodup := by decide
  ids id span h := by
    obtain ⟨rfl, rfl⟩ := Prod.mk.inj (List.mem_singleton.mp (JsMap.mem_of_get h))
    rfl
  exclusive id span h := by
    obtain ⟨rfl, rfl⟩ := Prod.mk.inj (List.mem_singleton.mp (JsMap.mem_of_get h))
    exact fun h => by cases h.1

/-- 二つの試行が失敗した祖先の下の、二つの開いた span。 -/
def twoAttempts : Trace where
  spans := [("a", sampleSpan "a" none false true [failedAttempt 1, failedAttempt 2] none),
    ("b", sampleSpan "b" (some "a") true false [] (some 1)),
    ("s", sampleSpan "s" (some "b") true false [] (some 2))]
  nodup := by decide
  ids id span h := by
    have hmem := JsMap.mem_of_get h
    simp only [List.mem_cons, List.not_mem_nil, or_false, Prod.mk.injEq] at hmem
    rcases hmem with ⟨rfl, rfl⟩ | ⟨rfl, rfl⟩ | ⟨rfl, rfl⟩ <;> rfl
  exclusive id span h := by
    have hmem := JsMap.mem_of_get h
    simp only [List.mem_cons, List.not_mem_nil, or_false, Prod.mk.injEq] at hmem
    rcases hmem with ⟨rfl, rfl⟩ | ⟨rfl, rfl⟩ | ⟨rfl, rfl⟩ <;> simp [SpanData.Exclusive, sampleSpan]

/-- 自分を親に持つ span では終わらず、二つの試行では順序が結果を変える。 -/
theorem ancestorOverrides_fail :
    (∃ span, selfParent.spans.get "a" = some span ∧ ¬Terminates span selfParent.initial) ∧
    Forest twoAttempts ∧
      ((mapSpans 4 ["a", "b", "s"] twoAttempts.initial).bind fun st => st.spans.get "s").map
        (·.data.isPartial) = some true ∧
      ((mapSpans 4 ["a", "s", "b"] twoAttempts.initial).bind fun st => st.spans.get "s").map
        (·.data.isPartial) = some false ∧
      ¬OrderIndependent twoAttempts := by
  have hforest : Forest twoAttempts := by
    intro id hc
    refine not_halts (.refl id) hc ⟨3, ?_⟩
    simp only [iter, twoAttempts, JsMap.get, List.lookup_cons, List.lookup_nil]
    by_cases hs : id = "s"
    · subst hs; decide
    · by_cases hb : id = "b"
      · subst hb; decide
      · by_cases ha : id = "a"
        · subst ha; decide
        · simp [beq_false_of_ne hs, beq_false_of_ne hb, beq_false_of_ne ha]
  refine ⟨⟨_, rfl, ?_⟩, hforest, by decide +kernel, by decide +kernel, fun h => ?_⟩
  · rw [terminates_iff]
    intro h
    exact h "a" ⟨rfl, rfl, rfl⟩ "a" (.refl "a") ⟨0, rfl⟩
  · have hA : (Failed [failedAttempt 1, failedAttempt 2] (some 2) "run") :=
      ⟨2, rfl, by decide, failedAttempt 2, by simp, by decide +kernel⟩
    have hA' : (Failed [failedAttempt 1, failedAttempt 2] (some 1) "run") :=
      ⟨1, rfl, by decide, failedAttempt 1, by simp, by decide +kernel⟩
    have hiff := confluent_of_orderIndependent hforest h
      (sampleSpan "s" (some "b") true false [] (some 2)) _
      (sampleSpan "b" (some "a") true false [] (some 1)) "b" rfl rfl (by decide) ⟨rfl, rfl, rfl⟩
      ⟨"b", 2, ⟨rfl, rfl, rfl⟩, rfl⟩ rfl ⟨0, rfl⟩
      ⟨by decide, ⟨"a", 1, ⟨rfl, rfl, rfl⟩, rfl⟩, .inr ⟨rfl, hA'⟩⟩
    rcases hiff.mp hA with ⟨n, -, -, e, hmem, -⟩ | ⟨hne, -⟩
    · cases hmem
    · exact absurd hne (by decide)

end EventRepository
