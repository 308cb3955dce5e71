import Trigger.Realtime.StreamReader

/-!
# v1 の stream の読み直し

読み手が、entry の完成させた最後の行の後で、buffer が空のときにだけ切断するなら、切断を何度繰り返しても、
書かれた行がちょうど一度ずつ届く（`reader_sees_every_line`）。
-/

namespace Realtime

open Infra.Machine

/-! ## event の列 -/

/-- parser が一意に読める event。 -/
def CleanEvent (event : Text × Text) : Prop :=
  event.1 ≠ [] ∧ '\n' ∉ event.1 ∧ '\r' ∉ event.1 ∧ event.2 ≠ [] ∧ '\n' ∉ event.2 ∧ '\r' ∉ event.2

/-- event stream の parser の仕様。 -/
def Parses (parse : Text → List (Text × Text)) : Prop :=
  ∀ evs : List (Text × Text), (∀ ev ∈ evs, CleanEvent ev) → parse (evs.flatMap sse) = evs

theorem receive_received (evs : List (Text × Text)) (r : Reader) :
    (evs.foldl Reader.receive r).received = r.received ++ evs.map Prod.snd := by
  induction evs generalizing r with
  | nil => simp
  | cons ev evs ih => rw [List.foldl_cons, ih]; simp [Reader.receive]

theorem receive_lastEventId {evs : List (Text × Text)} {ev : Text × Text} (h : ev.1 ≠ [])
    (r : Reader) : ((evs ++ [ev]).foldl Reader.receive r).lastEventId = some ev.1 := by
  rw [List.foldl_append]
  simp [Reader.receive, h]

/-- 送られる行の event。 -/
def lineEvents (l : List (StreamEntry × Text)) : List (Text × Text) := l.map fun p => (p.1.id, p.2)

theorem lineEvents_snd (l : List (StreamEntry × Text)) :
    (lineEvents l).map Prod.snd = l.map Prod.snd := by
  unfold lineEvents
  rw [List.map_map]
  rfl

/-- entry の列の初めの部分が完成させた行は、event の列の初めの部分である。 -/
theorem take_events {pre post : List StreamEntry} :
    (events (pre ++ post)).take (emitted [] pre).1.length = lineEvents (emitted [] pre).1 := by
  unfold events
  simp only [emitted_append, List.map_append, List.append_assoc]
  rw [List.take_append_of_le_length (by rw [List.length_map]), List.take_of_length_le
    (by rw [List.length_map])]
  rfl

section Run

variable {ι : Type} [LinearOrder ι] {rank : Text → ι} {stream : RedisStream rank}
  {lines : Option Text → List Line} {parse : Text → List (Text × Text)}

/-- 切断してよい。何も受け取っていないか、最後に受け取った行が、その entry の完成させた最後の行で、その entry
が行の途中で終わらない。 -/
def SafeCut (stream : RedisStream rank) (r : Reader) (k : Nat) : Prop :=
  k = 0 ∨ ∃ pre e post, chunks stream r.lastEventId = pre ++ e :: post ∧
    (emitted [] pre).1.length < k ∧ (emitted [] (pre ++ [e])).1.length = k ∧
    (emitted [] (pre ++ [e])).2 = []

/-- 途中の読み手。受け取った行は、ある entry までの行のすべてで、次はその後ろから読む。 -/
def CaughtUp (stream : RedisStream rank) (r : Reader) : Prop :=
  ∃ pre post, chunks stream none = pre ++ post ∧ (emitted [] pre).2 = [] ∧
    r.received = (emitted [] pre).1.map Prod.snd ∧ chunks stream r.lastEventId = post

theorem CaughtUp.initial (stream : RedisStream rank) : CaughtUp stream {} :=
  ⟨[], chunks stream none, rfl, rfl, rfl, rfl⟩

theorem mem_chunks {e : StreamEntry} (h : e ∈ chunks stream none) : e ∈ stream.entries := by
  rw [chunks_none] at h
  exact List.mem_of_mem_filter h

/-- 書かれた行の event は、parser に読める。 -/
theorem cleanEvent_of_mem (hw : Written stream lines) (hr : Readable stream lines)
    {l : StreamEntry × Text} (hl : l ∈ (emitted [] (chunks stream none)).1) :
    CleanEvent (l.1.id, l.2) := by
  obtain ⟨hid, hnl, hcr⟩ := stream.ids l.1 (mem_chunks (emitted_mem hl))
  obtain ⟨hne, hn, hc⟩ := emitted_clean hw hr hl
  exact ⟨hid, hnl, hcr, hne, hn, hc⟩

/-- buffer が空になる所で分けた、全体の行。 -/
theorem emitted_split {pre post : List StreamEntry}
    (hsplit : chunks stream none = pre ++ post) (hbuffer : (emitted [] pre).2 = []) :
    emitted [] (chunks stream none) =
      ((emitted [] pre).1 ++ (emitted [] post).1, (emitted [] post).2) := by
  rw [hsplit, emitted_append, hbuffer]

theorem CaughtUp.step (hw : Written stream lines) (hr : Readable stream lines)
    (hparse : Parses parse) {r : Reader} {k : Nat} (h : CaughtUp stream r)
    (hk : SafeCut stream r k) : CaughtUp stream (disconnectAfter parse stream r k) := by
  obtain ⟨pre, post, hsplit, hbuffer, hreceived, hrest⟩ := h
  rcases hk with rfl | ⟨pre', e, post', hpost, hlt, hlen, hempty⟩
  · have hsame : disconnectAfter parse stream r 0 = r := by
      unfold disconnectAfter
      rw [List.take_zero]
      exact congrArg (·.foldl Reader.receive r) (hparse [] fun _ h => (by cases h))
    rw [hsame]
    exact ⟨pre, post, hsplit, hbuffer, hreceived, hrest⟩
  · have hall : post = (pre' ++ [e]) ++ post' := by
      rw [← hrest, hpost]
      simp
    have hwhole : chunks stream none = (pre ++ pre') ++ e :: post' := by
      rw [hsplit, hall]
      simp
    have htaken : (events (chunks stream r.lastEventId)).take k =
        lineEvents (emitted [] (pre' ++ [e])).1 := by
      rw [hrest, hall, ← hlen, take_events]
    have hclean : ∀ ev ∈ lineEvents (emitted [] (pre' ++ [e])).1, CleanEvent ev := by
      intro ev hev
      obtain ⟨l, hl, rfl⟩ := List.mem_map.mp hev
      refine cleanEvent_of_mem hw hr ?_
      rw [emitted_split hsplit hbuffer, hall, emitted_append]
      exact List.mem_append_right _ (List.mem_append_left _ hl)
    have hcut : disconnectAfter parse stream r k =
        (lineEvents (emitted [] (pre' ++ [e])).1).foldl Reader.receive r := by
      unfold disconnectAfter
      rw [htaken, hparse _ hclean]
    -- 最後の event は entry `e` のものである
    have hlast : ∃ front line, (emitted [] (pre' ++ [e])).1 = front ++ [(e, line)] := by
      rw [emitted_append] at hlen ⊢
      obtain ⟨ls, b, hls⟩ : ∃ ls b, splitBuffer ((emitted [] pre').2 ++ e.text) = (ls, b) :=
        ⟨_, _, rfl⟩
      have hone : (emitted (emitted [] pre').2 [e]).1 =
          (ls.filter nonBlank).map fun line => (e, line) := by
        simp [emitted, hls]
      rw [hone] at hlen ⊢
      rcases List.eq_nil_or_concat' (ls.filter nonBlank) with hnil | ⟨front, line, hfront⟩
      · rw [hnil, List.length_append] at hlen
        simp only [List.map_nil, List.length_nil] at hlen
        omega
      · rw [hfront]
        exact ⟨(emitted [] pre').1 ++ front.map (fun line => (e, line)), line, by simp⟩
    obtain ⟨front, line, hfront⟩ := hlast
    have hid : e.id ≠ [] := (stream.ids e (mem_chunks (by rw [hwhole]; simp))).1
    have hlastId : (disconnectAfter parse stream r k).lastEventId = some e.id := by
      rw [hcut, hfront]
      unfold lineEvents
      rw [List.map_append]
      exact receive_lastEventId hid r
    refine ⟨pre ++ (pre' ++ [e]), post', by rw [hwhole]; simp, ?_, ?_, ?_⟩
    · rw [emitted_append, hbuffer]
      exact hempty
    · rw [hcut, receive_received, lineEvents_snd, hreceived,
        emitted_append [] pre, hbuffer, List.map_append]
    · rw [hlastId]
      exact chunks_some hwhole

theorem CaughtUp.run (hw : Written stream lines) (hr : Readable stream lines)
    (hparse : Parses parse) {cuts : List Nat} {r : Reader} (h : CaughtUp stream r)
    (hcuts : Along (disconnectAfter parse stream) (SafeCut stream) r cuts) :
    CaughtUp stream (exec (disconnectAfter parse stream) r cuts) := by
  induction cuts generalizing r with
  | nil => exact h
  | cons k cuts ih => exact ih (h.step hw hr hparse hcuts.1) hcuts.2

/-- 終わりまで読めば、全体の行が届いている。 -/
theorem CaughtUp.readToEnd (hw : Written stream lines) (hr : Readable stream lines)
    (hparse : Parses parse) {r : Reader} (h : CaughtUp stream r) :
    (readToEnd parse stream r).received =
      (emitted [] (chunks stream none)).1.map Prod.snd := by
  obtain ⟨pre, post, hsplit, hbuffer, hreceived, hrest⟩ := h
  have hwhole := emitted_split hsplit hbuffer
  have hend : (emitted [] post).2 = [] := by
    have hempty := (emitted_whole hw hr).1
    rw [hwhole] at hempty
    exact hempty
  have hevents : events post = lineEvents (emitted [] post).1 := by
    unfold events
    simp only [hend]
    rw [show flushed post [] = [] from rfl, List.append_nil]
    rfl
  have hclean : ∀ ev ∈ lineEvents (emitted [] post).1, CleanEvent ev := by
    intro ev hev
    obtain ⟨l, hl, rfl⟩ := List.mem_map.mp hev
    refine cleanEvent_of_mem hw hr ?_
    rw [hwhole]
    exact List.mem_append_right _ hl
  unfold Realtime.readToEnd
  rw [hrest, hevents, hparse _ hclean, receive_received, lineEvents_snd, hreceived, hwhole,
    List.map_append]

/-- **entry の境目で、行の途中でないときにだけ切断する読み手には、書かれた行が、それぞれ一度、欠けずに、client
ごとの順で届く。** -/
theorem reader_sees_every_line (hw : Written stream lines) (hparse : Parses parse)
    (hr : Readable stream lines) (cuts : List Nat)
    (hcuts : Along (disconnectAfter parse stream) (SafeCut stream) {} cuts) :
    ∃ labelled : List (Option Text × Text),
      labelled.map Prod.snd = (readAll parse stream cuts).received ∧
      ∀ client, (labelled.filter fun l => l.1 = client).map Prod.snd =
        (lines client).map Subtype.val := by
  refine ⟨(emitted [] (chunks stream none)).1.map fun l => (l.1.client, l.2), ?_, fun client => ?_⟩
  · rw [readAll, ((CaughtUp.initial stream).run hw hr hparse hcuts).readToEnd hw hr hparse,
      List.map_map]
    rfl
  · rw [← (emitted_whole hw hr).2 client, List.filter_map, List.map_map]
    rfl

end Run

/-! ## 例 -/

/-- `id:` と `data:` を読む parser の一行。 -/
def parseLine (st : Text × Option Text × List (Text × Text)) (line : Text) :
    Text × Option Text × List (Text × Text) :=
  if "id: ".toList.isPrefixOf line then (line.drop 4, st.2.1, st.2.2)
  else if "data: ".toList.isPrefixOf line then (st.1, some (line.drop 6), st.2.2)
  else
    match st.2.1 with
    | some data => (st.1, none, st.2.2 ++ [(st.1, data)])
    | none => st

def parseEvents (text : Text) : List (Text × Text) :=
  ((text.splitOn '\n').foldl parseLine ([], none, [])).2.2

/-- 一つの event の三行を読む。 -/
theorem foldl_parseLine (id : Text) (out : List (Text × Text)) (ev : Text × Text) :
    ["id: ".toList ++ ev.1, "data: ".toList ++ ev.2, []].foldl parseLine (id, none, out) =
      (ev.1, none, out ++ [ev]) := rfl

theorem parses_parseEvents : Parses parseEvents := by
  intro evs hclean
  have htext : evs.flatMap sse = (evs.flatMap fun ev =>
      ["id: ".toList ++ ev.1, "data: ".toList ++ ev.2, []]).flatMap (· ++ ['\n']) ++ [] := by
    rw [List.append_nil, List.flatMap_assoc]
    congr 1
    funext ev
    have hdata : "\ndata: ".toList = '\n' :: "data: ".toList := rfl
    have hend : "\n\n".toList = ['\n', '\n'] := rfl
    show "id: ".toList ++ ev.1 ++ "\ndata: ".toList ++ ev.2 ++ "\n\n".toList = _
    simp only [hdata, hend, List.flatMap_cons, List.flatMap_nil, List.append_assoc,
      List.append_nil, List.nil_append, List.cons_append]
  have hlines : ∀ l ∈ evs.flatMap fun ev =>
      ["id: ".toList ++ ev.1, "data: ".toList ++ ev.2, []], '\n' ∉ l := by
    intro l hl
    obtain ⟨ev, hev, hl⟩ := List.mem_flatMap.mp hl
    obtain ⟨-, hid, -, -, hdata, -⟩ := hclean ev hev
    simp only [List.mem_cons, List.not_mem_nil, or_false] at hl
    rcases hl with rfl | rfl | rfl
    · exact fun h => (List.mem_append.mp h).elim (by decide) hid
    · exact fun h => (List.mem_append.mp h).elim (by decide) hdata
    · exact List.not_mem_nil
  have hfold : ∀ (evs out : List (Text × Text)) (id : Text), ∃ id',
      (evs.flatMap fun ev => ["id: ".toList ++ ev.1, "data: ".toList ++ ev.2, []]).foldl parseLine
        (id, none, out) = (id', none, out ++ evs) := by
    intro evs
    induction evs with
    | nil => exact fun out id => ⟨id, by simp⟩
    | cons ev evs ih =>
      intro out id
      obtain ⟨id', hid'⟩ := ih (out ++ [ev]) ev.1
      refine ⟨id', ?_⟩
      rw [List.flatMap_cons, List.foldl_append, foldl_parseLine, hid', List.append_assoc]
      rfl
  obtain ⟨id', hid'⟩ := hfold evs [] []
  unfold parseEvents
  rw [htext, splitOn_lines hlines List.not_mem_nil, List.foldl_append, hid']
  rfl

/-- 一つの entry が二つの行を完成させる stream。 -/
def twoLines : RedisStream EventRepository.ofDigits where
  entries := [⟨['1'], [("clientId".toList, ['a']), ("data".toList, "x\ny\n".toList)]⟩]
  sorted := List.pairwise_singleton _ _
  positive := by decide
  ids := by decide

def twoLinesOf (client : Option Text) : List Line :=
  if client = some ['a'] then [⟨['x'], by decide⟩, ⟨['y'], by decide⟩] else []

theorem written_twoLines : Written twoLines twoLinesOf where
  text client := by
    by_cases hc : client = some ['a']
    · subst hc; decide
    · have hnone : twoLines.entries.filter (fun e => e.client = client) = [] := by
        refine List.filter_eq_nil_iff.mpr fun e he => ?_
        obtain rfl := List.mem_singleton.mp he
        exact fun h => hc (of_decide_eq_true h).symm
      unfold clientText twoLinesOf
      rw [hnone, if_neg hc]
      rfl
  nonBlank client l hl := by
    unfold twoLinesOf at hl
    split at hl
    · simp only [List.mem_cons, List.not_mem_nil, or_false] at hl
      rcases hl with rfl | rfl <;> decide
    · cases hl

theorem reader_sees_twoLines :
    ∃ labelled : List (Option Text × Text),
      labelled.map Prod.snd = (readAll parseEvents twoLines [0, 2]).received ∧
      ∀ client, (labelled.filter fun l => l.1 = client).map Prod.snd =
        (twoLinesOf client).map Subtype.val := by
  refine reader_sees_every_line written_twoLines parses_parseEvents ⟨by decide, ?_, ?_⟩ [0, 2]
    ⟨.inl rfl, .inr ⟨[], _, [], rfl, by decide, by decide, by decide⟩, trivial⟩
  · exact ⟨.inl rfl, trivial⟩
  · intro client l hl
    unfold twoLinesOf at hl
    split at hl
    · simp only [List.mem_cons, List.not_mem_nil, or_false] at hl
      rcases hl with rfl | rfl <;> decide
    · cases hl

/-- 一行目の後で切断すると、同じ entry の二行目が失われる。 -/
theorem reader_loses_line :
    Written twoLines twoLinesOf ∧ (readAll parseEvents twoLines [1]).received = [['x']] ∧
      ¬∃ labelled : List (Option Text × Text),
        labelled.map Prod.snd = (readAll parseEvents twoLines [1]).received ∧
        ∀ client, (labelled.filter fun l => l.1 = client).map Prod.snd =
          (twoLinesOf client).map Subtype.val := by
  have hreceived : (readAll parseEvents twoLines [1]).received = [['x']] := by decide
  refine ⟨written_twoLines, hreceived, ?_⟩
  rintro ⟨labelled, hmap, hclient⟩
  rw [hreceived] at hmap
  have hlen := congrArg List.length hmap
  have htwo := congrArg List.length (hclient (some ['a']))
  have hle := List.length_filter_le (fun l : Option Text × Text => decide (l.1 = some ['a']))
    labelled
  simp only [List.length_map, List.length_singleton] at hlen htwo
  have hlines : (twoLinesOf (some ['a'])).length = 2 := rfl
  omega

end Realtime
