import Mathlib.Data.List.Basic
import Trigger.Infra.Machine

/-!
# v1 の stream の upload

`StreamsWriterV1` と `RedisRealtimeStreams` の `ingestData`・`getLastChunkIndex`。

writer は chunk に、server は読み出し（`reader.read()` の値）に番号を付ける。接続が切れると、writer は server の最後の
番号の次の chunk から送り直す。transport は送られた文字の列を任意に区切る。

`timeout` の handler は request を destroy する。応答の前の destroy は `ECONNRESET` の `error` も起こすので、二つの
handler がそれぞれ送り直し、二つの request が並んで送る。
-/

namespace Realtime

open Infra.Machine

/-! ## 行 -/

/-- `JSON.stringify` した chunk。改行を含まない。 -/
abbrev Line := { text : List Char // '\n' ∉ text }

/-- 送られる一行。 -/
def lineText (line : Line) : List Char := line.val ++ ['\n']

def linesText (lines : List Line) : List Char := lines.flatMap lineText

/-- 改行で分ける。 -/
def splitLines : List Char → List (List Char)
  | [] => []
  | c :: rest =>
    if c = '\n' then [] :: splitLines rest
    else
      match splitLines rest with
      | [] => [[c]]
      | line :: lines => (c :: line) :: lines

theorem splitLines_line {text : List Char} (htext : '\n' ∉ text) (rest : List Char) :
    splitLines (text ++ '\n' :: rest) = text :: splitLines rest := by
  induction text with
  | nil => simp [splitLines]
  | cons c text ih =>
    obtain ⟨hc, htext⟩ := not_or.mp (mt List.mem_cons.mpr htext)
    rw [List.cons_append, splitLines, if_neg (Ne.symm hc), ih htext]

theorem splitLines_linesText (lines : List Line) :
    splitLines (linesText lines) = lines.map Subtype.val := by
  induction lines with
  | nil => rfl
  | cons line lines ih =>
    have hcons : linesText (line :: lines) = line.val ++ '\n' :: linesText lines := by
      simp [linesText, lineText]
    rw [hcons, splitLines_line line.property, ih, List.map_cons]

theorem linesText_append (lines lines' : List Line) :
    linesText (lines ++ lines') = linesText lines ++ linesText lines' := List.flatMap_append

/-! ## ring buffer -/

/-- `BufferedChunk`。 -/
structure BufferedChunk where
  index : Nat
  data : Line
deriving DecidableEq

/-- `addToRingBuffer`。 -/
def addToRingBuffer (maxBufferSize : Nat) (ringBuffer : List BufferedChunk) (index : Nat) (data : Line) :
    List BufferedChunk :=
  if ringBuffer.length < maxBufferSize then ringBuffer ++ [⟨index, data⟩]
  else ringBuffer.set (index % maxBufferSize) ⟨index, data⟩

/-- `startBuffering`。 -/
def startBuffering (maxBufferSize : Nat) (chunks : List Line) : List BufferedChunk :=
  chunks.zipIdx.foldl (fun ring c => addToRingBuffer maxBufferSize ring c.2 c.1) []

/-- `makeRequest` が送る文字の列。 -/
def requestText (ringBuffer : List BufferedChunk) (startFromChunk count : Nat) : List Char :=
  (List.range' startFromChunk (count - startFromChunk)).flatMap fun index =>
    match ringBuffer.find? (·.index = index) with
    | some chunk => lineText chunk.data
    | none => []

/-- 収まる間は、buffer は chunk の列そのものである。 -/
theorem startBuffering_eq {maxBufferSize : Nat} {chunks : List Line}
    (h : chunks.length ≤ maxBufferSize) :
    startBuffering maxBufferSize chunks = chunks.zipIdx.map fun c => ⟨c.2, c.1⟩ := by
  -- ring についての帰納。収まる間は `addToRingBuffer` の上書きの枝に入らない。
  have key : ∀ (rest : List (Line × Nat)) (ring : List BufferedChunk),
      ring.length + rest.length ≤ maxBufferSize →
        rest.foldl (fun ring c => addToRingBuffer maxBufferSize ring c.2 c.1) ring =
          ring ++ rest.map fun c => ⟨c.2, c.1⟩ := by
    intro rest
    induction rest with
    | nil => intro ring _; exact (List.append_nil ring).symm
    | cons c rest ih =>
      intro ring hle
      rw [List.length_cons] at hle
      have hadd : addToRingBuffer maxBufferSize ring c.2 c.1 = ring ++ [⟨c.2, c.1⟩] :=
        if_pos (by omega)
      rw [List.foldl_cons, hadd, ih _ (by rw [List.length_append, List.length_singleton]; omega),
        List.map_cons, List.append_assoc, List.singleton_append]
  have := key chunks.zipIdx [] (by simpa using h)
  simpa [startBuffering] using this

theorem find?_zipIdx {chunks : List Line} {index : Nat} (h : index < chunks.length) :
    (chunks.zipIdx.map fun c => (⟨c.2, c.1⟩ : BufferedChunk)).find? (·.index = index) =
      some ⟨index, chunks[index]⟩ := by
  rw [List.find?_eq_some_iff_getElem]
  refine ⟨decide_eq_true rfl, index, by simpa using h, by simp, fun j hj => ?_⟩
  simp only [List.getElem_map, List.getElem_zipIdx, Bool.not_eq_true', decide_eq_false_iff_not]
  omega

/-- 送られるのは、残りの行である。 -/
theorem requestText_eq {maxBufferSize : Nat} {chunks : List Line}
    (h : chunks.length ≤ maxBufferSize) (start : Nat) :
    requestText (startBuffering maxBufferSize chunks) start chunks.length =
      linesText (chunks.drop start) := by
  -- 送る番号の列と残りの chunk の列を、番号ごとに比べる。
  have hmap : chunks.drop start =
      (List.range' start (chunks.length - start)).pmap (fun i hi => chunks[i])
        (fun i hi => by
          have := List.mem_range'_1.mp hi
          omega) := by
    refine List.ext_getElem (by simp) fun i h₁ h₂ => ?_
    simp
  unfold requestText linesText
  rw [startBuffering_eq h, hmap, List.flatMap_def, List.flatMap_def, List.map_pmap]
  congr 1
  rw [← List.pmap_eq_map (p := fun i => i ∈ List.range' start (chunks.length - start))
    (H := fun i hi => hi)]
  refine List.pmap_congr_left _ fun i hi _ _ => ?_
  have hlt : i < chunks.length := by
    have := List.mem_range'_1.mp hi
    omega
  rw [find?_zipIdx hlt]

/-! ## Redis の stream -/

/-- stream の entry。 -/
structure Entry where
  clientId : String
  chunkIndex : Nat
  data : List Char
deriving DecidableEq

/-- `END_SENTINEL`。 -/
def endSentinel : List Char := "<<CLOSE_STREAM>>".toList

/-- `getLastChunkIndex`。新しい entry から探す。 -/
def getLastChunkIndex (clientId : String) (stream : List Entry) : Int :=
  match stream.reverse.find? fun e => e.data ≠ endSentinel ∧ e.clientId = clientId with
  | some e => e.chunkIndex
  | none => -1

/-- `XADD MAXLEN ~` で消える古い entry の数。server は `maxLength` を超えた分の一部（`trim`）だけを消してよい。 -/
def trimmed (maxLength trim : Nat) (stream : List Entry) : Nat :=
  min trim (stream.length + 1 - maxLength)

def xadd (maxLength trim : Nat) (entry : Entry) (stream : List Entry) : List Entry :=
  (stream ++ [entry]).drop (trimmed maxLength trim stream)

/-- この client の `data` を stream の順に繋いだもの。 -/
def clientData (clientId : String) (stream : List Entry) : List Char :=
  (stream.filter (·.clientId = clientId)).flatMap Entry.data

section Stream

variable {clientId : String} {stream : List Entry} {e : Entry}

theorem getLastChunkIndex_append_other (h : e.clientId ≠ clientId) :
    getLastChunkIndex clientId (stream ++ [e]) = getLastChunkIndex clientId stream := by
  unfold getLastChunkIndex
  rw [List.reverse_append, List.reverse_singleton, List.singleton_append, List.find?_cons_of_neg]
  exact fun he => h (of_decide_eq_true he).2

theorem getLastChunkIndex_append_own (h : e.clientId = clientId) (hdata : e.data ≠ endSentinel) :
    getLastChunkIndex clientId (stream ++ [e]) = e.chunkIndex := by
  unfold getLastChunkIndex
  rw [List.reverse_append, List.reverse_singleton, List.singleton_append, List.find?_cons_of_pos]
  exact decide_eq_true ⟨hdata, h⟩

theorem clientData_append_other (h : e.clientId ≠ clientId) :
    clientData clientId (stream ++ [e]) = clientData clientId stream := by
  unfold clientData
  rw [List.filter_append, List.filter_cons_of_neg (by simpa using h), List.filter_nil, List.append_nil]

theorem clientData_append_own (h : e.clientId = clientId) :
    clientData clientId (stream ++ [e]) = clientData clientId stream ++ e.data := by
  unfold clientData
  rw [List.filter_append, List.filter_cons_of_pos (by simpa using h), List.filter_nil,
    List.flatMap_append, List.flatMap_singleton]

/-- 他の client の古い entry を消しても、この client の data は変わらない。 -/
theorem clientData_drop {n : Nat} (h : ∀ e ∈ stream.take n, e.clientId ≠ clientId) :
    clientData clientId (stream.drop n) = clientData clientId stream := by
  -- 消える entry に、この client のものは無い。
  have hnone : (stream.take n).filter (·.clientId = clientId) = [] :=
    List.filter_eq_nil_iff.mpr fun e he => by simpa using h e he
  have happ : clientData clientId (stream.take n ++ stream.drop n) =
      clientData clientId (stream.drop n) := by
    unfold clientData
    rw [List.filter_append, hnone, List.nil_append]
  rw [← happ, List.take_append_drop]

/-- 番号も変わらない。 -/
theorem getLastChunkIndex_drop {n : Nat} (h : ∀ e ∈ stream.take n, e.clientId ≠ clientId) :
    getLastChunkIndex clientId (stream.drop n) = getLastChunkIndex clientId stream := by
  have hnone : (stream.take n).reverse.find?
      (fun e => decide (e.data ≠ endSentinel ∧ e.clientId = clientId)) = none :=
    List.find?_eq_none.mpr fun e he hmatch =>
      h e (List.mem_reverse.mp he) (of_decide_eq_true hmatch).2
  have happ : getLastChunkIndex clientId (stream.take n ++ stream.drop n) =
      getLastChunkIndex clientId (stream.drop n) := by
    unfold getLastChunkIndex
    rw [List.reverse_append, List.find?_append, hnone, Option.or_none]
  rw [← happ, List.take_append_drop]

end Stream

/-! ## upload -/

/-- 一つの upload の設定。`maxLength` は `REALTIME_STREAM_MAX_LENGTH` である。 -/
structure Upload where
  clientId : String
  chunks : List Line
  maxBufferSize : Nat := 10000
  maxRetries : Nat := 10
  maxLength : Nat := 1000

/-- `wait()` の promise。 -/
inductive Status
  | pending
  | resolved
  | rejected
deriving DecidableEq

/-- 一つの request。`reads` はその接続で server が読んだ値、`unread` はまだ読んでいない文字である。 -/
structure Request where
  startFromChunk : Nat
  reads : List (List Char) := []
  unread : List Char
  connected : Bool := true
deriving DecidableEq

/--
`current` は `wait()` の promise が従う request である。`resumes` は、待ってから送り直す handler の列で、その handler の
request を持つ。
-/
structure UploadState where
  stream : List Entry := []
  requests : List Request
  current : Nat := 0
  resumes : List Nat := []
  retryCount : Nat := 0
  status : Status := .pending
deriving DecidableEq

/--
`i` 番目の request の `unread.take (length + 1)` を一度に読む `read`、再試行できる `error`（再試行できる status の応答も同じ）、
`timeout`、待ち終えた `k` 番目の handler の `resume`、他の client の書き込み `other`。
-/
inductive Label
  | read (i length trim : Nat)
  | respond (i : Nat)
  | error (i : Nat)
  | timeout (i : Nat)
  | resume (k : Nat)
  | other (entry : Entry) (trim : Nat)

/-- 接続のある `i` 番目の request に `f` を行う。 -/
def withRequest (i : Nat) (f : Request → UploadState → UploadState) (s : UploadState) :
    UploadState :=
  match s.requests[i]? with
  | some r => if r.connected then f r s else s
  | none => s

def setRequest (i : Nat) (r : Request) (s : UploadState) : UploadState :=
  { s with requests := s.requests.set i r }

/-- `i` 番目の request の promise が決まる。 -/
def settle (i : Nat) (status : Status) (s : UploadState) : UploadState :=
  if s.status = .pending ∧ s.current = i then { s with status := status } else s

namespace Upload

variable (u : Upload)

/-- `makeRequest`。送る文字の列の chunk が buffer に入る時期は、`read` がいつ何文字読むかに含まれる。 -/
def makeRequest (startFromChunk : Nat) : Request where
  startFromChunk := startFromChunk
  unread := requestText (startBuffering u.maxBufferSize u.chunks) startFromChunk u.chunks.length

/-- `initializeServerStream` の直後。 -/
def initial : UploadState where
  requests := [u.makeRequest 0]

/-- `ingestData` が次に書く entry。 -/
def nextEntry (r : Request) (length : Nat) : Entry :=
  ⟨u.clientId, r.startFromChunk + r.reads.length, r.unread.take (length + 1)⟩

/-- `ingestData` の一回の `reader.read()`。 -/
def read (i length trim : Nat) : UploadState → UploadState :=
  withRequest i fun r s =>
    if r.unread = [] then s
    else
      setRequest i
        { r with
          reads := r.reads ++ [r.unread.take (length + 1)]
          unread := r.unread.drop (length + 1) }
        { s with stream := xadd u.maxLength trim (u.nextEntry r length) s.stream }

/-- 全部を読んだ server の応答が届く。 -/
def respond (i : Nat) : UploadState → UploadState :=
  withRequest i fun r s =>
    if r.unread = [] then
      settle i .resolved { setRequest i { r with connected := false } s with retryCount := 0 }
    else s

/-- `i` 番目の request の handler。再試行が残っていれば、待ってから送り直す。 -/
def retry (i : Nat) (s : UploadState) : UploadState :=
  if s.retryCount < u.maxRetries then
    { s with retryCount := s.retryCount + 1, resumes := s.resumes ++ [i] }
  else settle i .rejected s

/-- `error` の handler。 -/
def error (i : Nat) : UploadState → UploadState :=
  withRequest i fun r s => u.retry i (setRequest i { r with connected := false } s)

/-- `timeout` の handler と、その `req.destroy()` が起こす `error` の handler。 -/
def timeout (i : Nat) : UploadState → UploadState :=
  withRequest i fun r s => u.retry i (u.retry i (setRequest i { r with connected := false } s))

/-- 待ち終えた handler が server に番号を聞き、次の chunk から送り直す。promise の `resolve` は最初の一度だけ効く。 -/
def resume (k : Nat) (s : UploadState) : UploadState :=
  match s.resumes[k]? with
  | some i =>
    let resumeFromChunk := (getLastChunkIndex u.clientId s.stream + 1).toNat
    { s with
      requests := s.requests ++ [u.makeRequest resumeFromChunk]
      current := if s.current = i then s.requests.length else s.current
      resumes := s.resumes.eraseIdx k }
  | none => s

def step (s : UploadState) : Label → UploadState
  | .read i length trim => u.read i length trim s
  | .respond i => respond i s
  | .error i => u.error i s
  | .timeout i => u.timeout i s
  | .resume k => u.resume k s
  | .other entry trim =>
    if entry.clientId = u.clientId then s
    else { s with stream := xadd u.maxLength trim entry s.stream }

/-- 終わった upload では、stream にあるこの client の行が chunk の列と一致する。 -/
def Intact (s : UploadState) : Prop :=
  s.status = .resolved →
    splitLines (clientData u.clientId s.stream) = u.chunks.map Subtype.val

instance : DecidablePred u.Intact := fun s =>
  inferInstanceAs (Decidable (s.status = .resolved →
    splitLines (clientData u.clientId s.stream) = u.chunks.map Subtype.val))

/--
一歩の条件。再試行する `error` は、その接続で server が読んだ値が、読んだ回数と同じ数の行であるときに起きる。`timeout` は、
再試行が二つ残っているうちは起きない。消える entry はこの client のものでない。
-/
def Aligned (s : UploadState) : Label → Prop
  | .read i length trim => ∀ r ∈ s.requests[i]?, r.connected = true → r.unread ≠ [] →
    ∀ e ∈ (s.stream ++ [u.nextEntry r length]).take (trimmed u.maxLength trim s.stream),
      e.clientId ≠ u.clientId
  | .error i => ∀ r ∈ s.requests[i]?, r.connected = true → s.retryCount < u.maxRetries →
    r.reads.flatten = linesText ((u.chunks.drop r.startFromChunk).take r.reads.length)
  | .timeout i => ∀ r ∈ s.requests[i]?, r.connected = true → u.maxRetries ≤ s.retryCount + 1
  | .other entry trim => entry.clientId ≠ u.clientId →
    ∀ e ∈ (s.stream ++ [entry]).take (trimmed u.maxLength trim s.stream), e.clientId ≠ u.clientId
  | .respond _ | .resume _ => True

instance (s : UploadState) : ∀ l, Decidable (u.Aligned s l)
  | .read _ _ _ | .respond _ | .error _ | .timeout _ | .resume _ | .other _ _ => by
    unfold Aligned
    infer_instance

/-! ## 不変条件 -/

/-- stream にあるのは、request `r` より前の行と、`r` の接続で読んだ値である。番号は読んだ回数だけ進む。 -/
structure Sending (stream : List Entry) (r : Request) : Prop where
  stored : clientData u.clientId stream =
    linesText (u.chunks.take r.startFromChunk) ++ r.reads.flatten
  sent : linesText (u.chunks.drop r.startFromChunk) = r.reads.flatten ++ r.unread
  numbered : r.reads.getLast? ≠ some endSentinel →
    getLastChunkIndex u.clientId stream + 1 = r.startFromChunk + r.reads.length

/-- 最初の `n` 個の chunk の行だけが stream にあり、次に送る番号は `n` である。 -/
structure Stored (stream : List Entry) (n : Nat) : Prop where
  stored : clientData u.clientId stream = linesText (u.chunks.take n)
  numbered : getLastChunkIndex u.clientId stream + 1 = n

/-- どの request も接続が無い。 -/
def Closed (requests : List Request) : Prop := ∀ r ∈ requests, r.connected = false

/-- 一つの request だけが送っているか、一つの handler だけが待っているか、終わっている。 -/
inductive Collected (s : UploadState) : Prop
  | sending (before : List Request) (r : Request) (requests : s.requests = before ++ [r])
    (closed : Closed before) (connected : r.connected = true) (current : s.current = before.length)
    (resumes : s.resumes = []) (status : s.status = .pending) (sending : u.Sending s.stream r)
  | resuming (n : Nat) (closed : Closed s.requests) (resumes : s.resumes = [s.current])
    (status : s.status = .pending) (stored : u.Stored s.stream n)
  | resolved (closed : Closed s.requests) (resumes : s.resumes = []) (status : s.status = .resolved)
    (stored : clientData u.clientId s.stream = linesText u.chunks)
  | rejected (status : s.status = .rejected)

variable {u} {s : UploadState}

theorem withRequest_of_closed (h : Closed s.requests) (i : Nat)
    (f : Request → UploadState → UploadState) : withRequest i f s = s := by
  unfold withRequest
  split
  · next r hr => rw [if_neg (by rw [h r (List.mem_of_getElem? hr)]; exact Bool.false_ne_true)]
  · rfl

/-- 送っている request だけが動く。 -/
theorem withRequest_of_last {before : List Request} {r : Request}
    (hrequests : s.requests = before ++ [r]) (hclosed : Closed before) (hr : r.connected = true)
    (i : Nat) (f : Request → UploadState → UploadState) :
    withRequest i f s = if i = before.length then f r s else s := by
  unfold withRequest
  rw [hrequests]
  -- 前の request は閉じているので、最後の番号のときだけ `f` が動く。
  rcases Nat.lt_trichotomy i before.length with hi | rfl | hi
  · rw [List.getElem?_append_left hi, List.getElem?_eq_getElem hi, if_neg (Nat.ne_of_lt hi)]
    dsimp only
    rw [if_neg (by rw [hclosed _ (List.getElem_mem hi)]; exact Bool.false_ne_true)]
  · rw [List.getElem?_append_right (Nat.le_refl _), Nat.sub_self, if_pos rfl]
    exact if_pos hr
  · rw [List.getElem?_eq_none (by rw [List.length_append, List.length_singleton]; omega),
      if_neg (Nat.ne_of_gt hi)]

theorem getElem?_last {before : List Request} {r : Request} (h : s.requests = before ++ [r]) :
    s.requests[before.length]? = some r := by
  rw [h, List.getElem?_append_right (Nat.le_refl _), Nat.sub_self]
  rfl

theorem setRequest_last {before : List Request} {r : Request} (h : s.requests = before ++ [r])
    (r' : Request) : (setRequest before.length r' s).requests = before ++ [r'] := by
  unfold setRequest
  rw [h]
  exact List.set_append_right _ _ (Nat.le_refl _) |>.trans (by simp)

theorem closed_append {before : List Request} (h : Closed before) {r : Request}
    (hr : r.connected = false) : Closed (before ++ [r]) := by
  intro q hq
  rcases List.mem_append.mp hq with hq | hq
  · exact h q hq
  · rw [List.mem_singleton.mp hq]
    exact hr

theorem sending_makeRequest (hsize : u.chunks.length ≤ u.maxBufferSize) {stream : List Entry}
    {n : Nat} (h : u.Stored stream n) : u.Sending stream (u.makeRequest n) where
  stored := h.stored.trans (List.append_nil _).symm
  sent := (requestText_eq hsize n).symm
  numbered := fun _ => h.numbered

theorem collected_initial (hsize : u.chunks.length ≤ u.maxBufferSize) : u.Collected u.initial :=
  .sending [] (u.makeRequest 0) rfl (fun _ h => absurd h List.not_mem_nil) rfl rfl rfl rfl
    (sending_makeRequest hsize ⟨rfl, rfl⟩)

/-! ## 一歩 -/

/-- 行の列は改行で終わる。 -/
theorem linesText_getLast? {lines : List Line} {c : Char} (h : (linesText lines).getLast? = some c) :
    c = '\n' := by
  rcases List.eq_nil_or_concat lines with rfl | ⟨init, line, rfl⟩
  · exact absurd h (by simp [linesText])
  · rw [List.concat_eq_append, linesText_append] at h
    simpa [linesText, lineText] using h.symm

/-- 行の列を読み終えたとき、最後の値は `END_SENTINEL` でない。 -/
theorem getLast?_ne_endSentinel {reads : List (List Char)} {lines : List Line}
    (h : reads.flatten = linesText lines) : reads.getLast? ≠ some endSentinel := by
  intro hlast
  obtain ⟨init, hinit⟩ := List.getLast?_eq_some_iff.mp hlast
  -- `END_SENTINEL` は改行でなく `>` で終わる。
  have hc : (linesText lines).getLast? = some '>' := by
    rw [← h, hinit, List.flatten_append, List.flatten_singleton, List.getLast?_append]
    rfl
  exact absurd (linesText_getLast? hc) (by decide)

theorem sending_read {length trim : Nat} {stream : List Entry} {r : Request}
    (h : u.Sending stream r) (hdrop : ∀ e ∈ (stream ++ [u.nextEntry r length]).take
      (trimmed u.maxLength trim stream), e.clientId ≠ u.clientId) :
    u.Sending (xadd u.maxLength trim (u.nextEntry r length) stream)
      { r with
        reads := r.reads ++ [r.unread.take (length + 1)]
        unread := r.unread.drop (length + 1) } := by
  have hown : (u.nextEntry r length).clientId = u.clientId := rfl
  refine ⟨?_, ?_, fun hlast => ?_⟩
  · rw [xadd, clientData_drop hdrop, clientData_append_own hown, h.stored, List.flatten_append,
      List.flatten_singleton, List.append_assoc]
    rfl
  · show linesText (u.chunks.drop r.startFromChunk) = _
    rw [h.sent, List.flatten_append, List.flatten_singleton, List.append_assoc,
      List.take_append_drop]
  · -- 書いた entry が、番号の付いた最後の entry になる。
    dsimp only at hlast
    rw [List.getLast?_concat] at hlast
    have hdata : (u.nextEntry r length).data ≠ endSentinel := fun h => hlast (congrArg some h)
    rw [xadd, getLastChunkIndex_drop hdrop, getLastChunkIndex_append_own hown hdata,
      List.length_append, List.length_singleton]
    change ((r.startFromChunk + r.reads.length : Nat) : Int) + 1 =
      r.startFromChunk + ((r.reads.length + 1 : Nat) : Int)
    omega

/-- 揃った所で切れれば、読み終えた行の次から送り直せる。 -/
theorem Sending.stored_of_lines {stream : List Entry} {r : Request} (h : u.Sending stream r)
    (hlines : r.reads.flatten = linesText ((u.chunks.drop r.startFromChunk).take r.reads.length)) :
    u.Stored stream (r.startFromChunk + r.reads.length) where
  stored := by rw [h.stored, hlines, List.take_add, linesText_append]
  numbered := h.numbered (getLast?_ne_endSentinel hlines)

/-- `wait()` の promise が拒まれた後は、何が起きても変わらない。 -/
theorem settle_status {i : Nat} {status : Status} (h : s.status = .rejected) :
    (settle i status s).status = .rejected := by
  unfold settle
  rw [if_neg (by rw [h]; exact fun hp => Status.noConfusion hp.1)]
  exact h

theorem retry_status {i : Nat} (h : s.status = .rejected) : (u.retry i s).status = .rejected := by
  unfold retry
  split
  · exact h
  · exact settle_status h

theorem withRequest_status {i : Nat} {f : Request → UploadState → UploadState}
    (hf : ∀ r, (f r s).status = .rejected) (h : s.status = .rejected) :
    (withRequest i f s).status = .rejected := by
  unfold withRequest
  split
  · split
    · exact hf _
    · exact h
  · exact h

theorem rejected_step (h : s.status = .rejected) (l : Label) :
    (u.step s l).status = .rejected := by
  cases l with
  | read i length trim =>
    refine withRequest_status (fun r => ?_) h
    split <;> exact h
  | respond i =>
    refine withRequest_status (fun r => ?_) h
    split
    · exact settle_status h
    · exact h
  | error i => exact withRequest_status (fun r => retry_status h) h
  | timeout i => exact withRequest_status (fun r => retry_status (retry_status h)) h
  | resume k =>
    show (u.resume k s).status = _
    unfold resume
    split <;> exact h
  | other entry trim =>
    show (if entry.clientId = u.clientId then s else _).status = _
    split <;> exact h

/-- 再試行が残っていない handler は、`wait()` の promise を拒む。 -/
theorem retry_exhausted {i : Nat} (hcurrent : s.current = i) (hstatus : s.status = .pending)
    (h : u.maxRetries ≤ s.retryCount) : (u.retry i s).status = .rejected := by
  unfold retry settle
  rw [if_neg (Nat.not_lt.mpr h), if_pos ⟨hstatus, hcurrent⟩]

/-- 他の client の書き込みは、この client の行も番号も変えない。 -/
theorem collected_other (hs : u.Collected s) {entry : Entry} {trim : Nat}
    (hother : entry.clientId ≠ u.clientId)
    (htrim : ∀ e ∈ (s.stream ++ [entry]).take (trimmed u.maxLength trim s.stream),
      e.clientId ≠ u.clientId) :
    u.Collected { s with stream := xadd u.maxLength trim entry s.stream } := by
  have hdata : clientData u.clientId (xadd u.maxLength trim entry s.stream) =
      clientData u.clientId s.stream := by
    rw [xadd, clientData_drop htrim, clientData_append_other hother]
  have hindex : getLastChunkIndex u.clientId (xadd u.maxLength trim entry s.stream) =
      getLastChunkIndex u.clientId s.stream := by
    rw [xadd, getLastChunkIndex_drop htrim, getLastChunkIndex_append_other hother]
  cases hs with
  | sending before r requests closed connected current resumes status sending =>
    exact .sending before r requests closed connected current resumes status
      ⟨hdata.trans sending.stored, sending.sent, fun hlast =>
        hindex.symm ▸ sending.numbered hlast⟩
  | resuming n closed resumes status stored =>
    exact .resuming n closed resumes status
      ⟨hdata.trans stored.stored, hindex.symm ▸ stored.numbered⟩
  | resolved closed resumes status stored =>
    exact .resolved closed resumes status (hdata.trans stored)
  | rejected status => exact .rejected status

section Sending

variable {before : List Request} {r : Request} (hrequests : s.requests = before ++ [r])
  (hclosed : Closed before) (hconnected : r.connected = true) (hcurrent : s.current = before.length)
  (hresumes : s.resumes = []) (hstatus : s.status = .pending) (hsending : u.Sending s.stream r)

include hrequests hclosed hconnected hcurrent hresumes hstatus hsending

theorem collected_read {i length trim : Nat} (haligned : u.Aligned s (.read i length trim)) :
    u.Collected (u.read i length trim s) := by
  have hs : u.Collected s :=
    .sending before r hrequests hclosed hconnected hcurrent hresumes hstatus hsending
  rw [read, withRequest_of_last hrequests hclosed hconnected]
  split
  · next hi =>
    subst hi
    split
    · exact hs
    · next hunread =>
      have hdrop := haligned r (getElem?_last hrequests) hconnected hunread
      exact .sending before _ (setRequest_last (s := { s with stream := _ }) hrequests _) hclosed
        hconnected hcurrent hresumes hstatus (sending_read hsending hdrop)
  · exact hs

theorem collected_respond (i : Nat) : u.Collected (respond i s) := by
  have hs : u.Collected s :=
    .sending before r hrequests hclosed hconnected hcurrent hresumes hstatus hsending
  rw [respond, withRequest_of_last hrequests hclosed hconnected]
  split
  · next hi =>
    subst hi
    split
    · next hunread =>
      have hreads : r.reads.flatten = linesText (u.chunks.drop r.startFromChunk) := by
        rw [hsending.sent, hunread, List.append_nil]
      unfold settle
      rw [if_pos ⟨hstatus, hcurrent⟩]
      refine .resolved ?_ hresumes rfl ?_
      · exact (setRequest_last hrequests _).symm ▸ closed_append hclosed rfl
      · show clientData u.clientId s.stream = _
        rw [hsending.stored, hreads, ← linesText_append, List.take_append_drop]
    · exact hs
  · exact hs

theorem collected_error {i : Nat} (haligned : u.Aligned s (.error i)) :
    u.Collected (u.error i s) := by
  have hs : u.Collected s :=
    .sending before r hrequests hclosed hconnected hcurrent hresumes hstatus hsending
  rw [error, withRequest_of_last hrequests hclosed hconnected]
  split
  · next hi =>
    subst hi
    by_cases hretry : s.retryCount < u.maxRetries
    · have hlines := haligned r (getElem?_last hrequests) hconnected hretry
      unfold retry
      rw [if_pos (show (setRequest _ _ s).retryCount < _ from hretry)]
      refine .resuming _ ?_ ?_ hstatus (hsending.stored_of_lines hlines)
      · exact (setRequest_last hrequests _).symm ▸ closed_append hclosed rfl
      · show s.resumes ++ [before.length] = [s.current]
        rw [hresumes, hcurrent]
        rfl
    · exact .rejected (retry_exhausted hcurrent hstatus (Nat.not_lt.mp hretry))
  · exact hs

/-- 再試行が一つしか残っていなければ、二つ目の handler が `wait()` の promise を拒む。 -/
theorem collected_timeout {i : Nat} (haligned : u.Aligned s (.timeout i)) :
    u.Collected (u.timeout i s) := by
  have hs : u.Collected s :=
    .sending before r hrequests hclosed hconnected hcurrent hresumes hstatus hsending
  rw [timeout, withRequest_of_last hrequests hclosed hconnected]
  split
  · next hi =>
    subst hi
    have hlast := haligned r (getElem?_last hrequests) hconnected
    refine .rejected ?_
    -- 残りの一回は一つ目の handler が使い、二つ目には残らない。
    by_cases hretry : s.retryCount < u.maxRetries
    · have hfirst : u.retry before.length (setRequest before.length
          { r with connected := false } s) =
          { setRequest before.length { r with connected := false } s with
            retryCount := s.retryCount + 1, resumes := s.resumes ++ [before.length] } :=
        if_pos hretry
      rw [hfirst]
      exact retry_exhausted hcurrent hstatus hlast
    · exact retry_status (retry_exhausted hcurrent hstatus (Nat.not_lt.mp hretry))
  · exact hs

end Sending

/-- 待っていた一つの handler が送り直す。 -/
theorem collected_resume (hsize : u.chunks.length ≤ u.maxBufferSize) (hs : u.Collected s)
    (k : Nat) : u.Collected (u.resume k s) := by
  unfold resume
  split
  · next i hi =>
    cases hs with
    | sending before r requests closed connected current resumes status sending =>
      rw [resumes] at hi
      cases hi
    | resolved closed resumes status stored =>
      rw [resumes] at hi
      cases hi
    | rejected status => exact .rejected status
    | resuming n closed resumes status stored =>
      -- 待っている handler は一つだけである。
      obtain ⟨hk, hcurrent⟩ : k = 0 ∧ s.current = i := by
        rw [resumes] at hi
        obtain ⟨hlt, heq⟩ := List.getElem?_eq_some_iff.mp hi
        rw [List.length_singleton] at hlt
        have hzero : k = 0 := by omega
        subst hzero
        exact ⟨rfl, heq⟩
      -- server の最後の番号の次は、まだ stream に無い最初の chunk である。
      have hnext : (getLastChunkIndex u.clientId s.stream + 1).toNat = n := by
        rw [stored.numbered]
        rfl
      refine .sending s.requests (u.makeRequest n) (by rw [hnext]) closed rfl (if_pos hcurrent) ?_
        status (sending_makeRequest hsize stored)
      rw [resumes, hk]
      rfl
  · exact hs

theorem collected_step_other (hs : u.Collected s) {entry : Entry} {trim : Nat}
    (haligned : u.Aligned s (.other entry trim)) : u.Collected (u.step s (.other entry trim)) := by
  change u.Collected (if entry.clientId = u.clientId then s else _)
  split
  · exact hs
  · next hother => exact collected_other hs hother (haligned hother)

/-- 接続が無い間は、送り直しと他の client の書き込みのほかには何も起きない。 -/
theorem collected_step_closed (hsize : u.chunks.length ≤ u.maxBufferSize) (hs : u.Collected s)
    (hclosed : Closed s.requests) (l : Label) (haligned : u.Aligned s l) :
    u.Collected (u.step s l) := by
  cases l with
  | read i length trim =>
    rw [step, read, withRequest_of_closed hclosed]
    exact hs
  | respond i =>
    rw [step, respond, withRequest_of_closed hclosed]
    exact hs
  | error i =>
    rw [step, error, withRequest_of_closed hclosed]
    exact hs
  | timeout i =>
    rw [step, timeout, withRequest_of_closed hclosed]
    exact hs
  | resume k => exact collected_resume hsize hs k
  | other entry trim => exact collected_step_other hs haligned

theorem collected_step (hsize : u.chunks.length ≤ u.maxBufferSize) (s : UploadState) (l : Label)
    (hs : u.Collected s) (haligned : u.Aligned s l) : u.Collected (u.step s l) := by
  cases hs with
  | rejected status => exact .rejected (rejected_step status l)
  | resuming n closed resumes status stored =>
    exact collected_step_closed hsize (.resuming n closed resumes status stored) closed l haligned
  | resolved closed resumes status stored =>
    exact collected_step_closed hsize (.resolved closed resumes status stored) closed l haligned
  | sending before r requests closed connected current resumes status sending =>
    have hs : u.Collected s :=
      .sending before r requests closed connected current resumes status sending
    cases l with
    | read i length trim =>
      exact collected_read requests closed connected current resumes status sending haligned
    | respond i =>
      exact collected_respond requests closed connected current resumes status sending i
    | error i =>
      exact collected_error requests closed connected current resumes status sending haligned
    | timeout i =>
      exact collected_timeout requests closed connected current resumes status sending haligned
    | resume k => exact collected_resume hsize hs k
    | other entry trim => exact collected_step_other hs haligned

theorem Collected.intact (hs : u.Collected s) : u.Intact s := by
  intro hresolved
  cases hs with
  | sending before r requests closed connected current resumes status =>
    exact Status.noConfusion (status.symm.trans hresolved)
  | resuming n closed resumes status => exact Status.noConfusion (status.symm.trans hresolved)
  | resolved closed resumes status stored => rw [stored, splitLines_linesText]
  | rejected status => exact Status.noConfusion (status.symm.trans hresolved)

end Upload

/-! ## 主定理 -/

/-- **揃った所で切れ、timeout が送り直しを二つ始めない限り、終わった upload は chunk を一度ずつ順に届けている。** -/
theorem upload_intact (u : Upload) (ls : List Label) (hsize : u.chunks.length ≤ u.maxBufferSize)
    (h : Along u.step u.Aligned u.initial ls) : Throughout u.step u.Intact u.initial ls :=
  Throughout.mono (fun _ => Upload.Collected.intact)
    (throughout_of_along (Upload.collected_step hsize) (Upload.collected_initial hsize) h)

/-- 三つの chunk。 -/
def threeChunks : Upload where
  clientId := "c"
  chunks := [⟨['1'], by decide⟩, ⟨['2'], by decide⟩, ⟨['3'], by decide⟩]

/-- 一行ずつ読まれた所で二度切れ、その度に送り直す。 -/
def resumedTwice : List Label :=
  [.read 0 1 0, .other ⟨"d", 0, ['x']⟩ 0, .read 0 1 0, .error 0, .resume 0, .read 1 1 0, .error 1,
    .resume 0, .respond 2]

theorem resumed_intact : threeChunks.chunks.length ≤ threeChunks.maxBufferSize ∧
    Along threeChunks.step threeChunks.Aligned threeChunks.initial resumedTwice ∧
    Throughout threeChunks.step threeChunks.Intact threeChunks.initial resumedTwice ∧
    (exec threeChunks.step threeChunks.initial resumedTwice).status = .resolved :=
  ⟨by decide, by decide +kernel, upload_intact threeChunks _ (by decide) (by decide +kernel),
    by decide +kernel⟩

/--
二行を一度に読んでから切れると二行目が重複し、一行を二度に分けて読んでから切れると続きが失われる。一行ずつ読まれていても、timeout
の後は二つの request が同じ行を送り、三行目が重複する。
-/
theorem resumed_not_intact :
    ¬ Throughout threeChunks.step threeChunks.Intact threeChunks.initial
        [.read 0 3 0, .error 0, .resume 0, .read 1 3 0, .respond 1] ∧
      ¬ Throughout threeChunks.step threeChunks.Intact threeChunks.initial
        [.read 0 0 0, .read 0 0 0, .error 0, .resume 0, .read 1 1 0, .respond 1] ∧
      ¬ Throughout threeChunks.step threeChunks.Intact threeChunks.initial
        [.read 0 1 0, .read 0 1 0, .timeout 0, .resume 0, .resume 0, .read 1 1 0, .read 2 1 0,
          .respond 1] := by
  decide +kernel

end Realtime
