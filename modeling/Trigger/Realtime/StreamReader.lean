import Mathlib.Order.Lattice
import Trigger.EventRepository.DateTime
import Trigger.Realtime.Upload

/-!
# v1 の stream の読み手

`RedisRealtimeStreams.streamResponse` と `SSEStreamSubscription.connectStream`（v1）。

server は entry の data を一つの buffer につなぎ、改行で切った行を、その行を完成させた entry の id を付けて送る。
読み手は切断すると、最後に受け取った id の次の entry から読み直す。一つの entry が複数の行を完成させるか、行の
途中で終わると、切断した場所によって行が失われる。
-/

namespace Realtime

open Infra.Machine
open EventRepository (trim)

abbrev Text := List Char

/-! ## Redis の stream -/

/-- stream の entry。 -/
structure StreamEntry where
  id : Text
  fields : List (Text × Text)

namespace StreamEntry

/-- `data` の field。無ければ最初の field の値を使う。 -/
def data (e : StreamEntry) : Option Text :=
  ((e.fields.find? fun f => f.1 = "data".toList).or e.fields.head?).map Prod.snd

/-- 書いた client。 -/
def client (e : StreamEntry) : Option Text :=
  (e.fields.find? fun f => f.1 = "clientId".toList).map Prod.snd

/-- entry の文字の列。 -/
def text (e : StreamEntry) : Text := e.data.getD []

end StreamEntry

/-- 行の buffer に渡される entry。 -/
def isChunk (e : StreamEntry) : Bool := e.text ≠ [] ∧ e.text ≠ endSentinel

/-- id の順に並んだ stream。`rank` は Redis が id を比べる順である。 -/
structure RedisStream {ι : Type} [LinearOrder ι] (rank : Text → ι) where
  entries : List StreamEntry
  sorted : entries.Pairwise fun a b => rank a.id < rank b.id
  positive : ∀ e ∈ entries, rank ['0'] < rank e.id
  ids : ∀ e ∈ entries, e.id ≠ [] ∧ '\n' ∉ e.id ∧ '\r' ∉ e.id

section Server

variable {ι : Type} [LinearOrder ι] {rank : Text → ι} (stream : RedisStream rank)

/-- `XREAD COUNT 100`。 -/
def xread (lastId : Text) : List StreamEntry :=
  (stream.entries.filter fun e => rank lastId < rank e.id).take 100

/-- 読み出しのループ。読むものが無くなるまで続ける。 -/
def readLoop : Nat → Text → List StreamEntry
  | 0, _ => []
  | fuel + 1, lastId =>
    match (xread stream lastId).getLast? with
    | none => []
    | some last => xread stream lastId ++ readLoop fuel last.id

/-- 接続が buffer に渡す entry。一回の読み出しで一つ以上進む。 -/
def chunks (lastEventId : Option Text) : List StreamEntry :=
  (readLoop stream (stream.entries.length + 1) (lastEventId.getD ['0'])).filter isChunk

end Server

/-! ## 行の buffer -/

/-- 改行で切り、最後の一片を buffer に残す。 -/
def splitBuffer (text : Text) : List Text × Text :=
  ((text.splitOn '\n').dropLast, (text.splitOn '\n').getLastD [])

/-- 空白だけでない。 -/
def nonBlank (line : Text) : Bool := decide (0 < (trim line).length)

/-- buffer を通した、行を完成させた entry と行、および残った buffer。 -/
def emitted (buffer : Text) : List StreamEntry → List (StreamEntry × Text) × Text
  | [] => ([], buffer)
  | e :: rest =>
    let (lines, buffer) := splitBuffer (buffer ++ e.text)
    let (events, buffer) := emitted buffer rest
    ((lines.filter nonBlank).map (fun line => (e, line)) ++ events, buffer)

/-- 終わりに残った文字。 -/
def flushed (entries : List StreamEntry) (buffer : Text) : List (Text × Text) :=
  if nonBlank buffer then [((entries.getLast?.map StreamEntry.id).getD ['0'], trim buffer)] else []

/-- 接続が送る event の id と行。 -/
def events (entries : List StreamEntry) : List (Text × Text) :=
  let (lines, buffer) := emitted [] entries
  lines.map (fun l => (l.1.id, l.2)) ++ flushed entries buffer

/-- SSE の一つの event。 -/
def sse (event : Text × Text) : Text :=
  "id: ".toList ++ event.1 ++ "\ndata: ".toList ++ event.2 ++ "\n\n".toList

/-! ## 読み手 -/

structure Reader where
  lastEventId : Option Text := none
  received : List Text := []

section Client

variable {ι : Type} [LinearOrder ι] {rank : Text → ι} (parse : Text → List (Text × Text))
  (stream : RedisStream rank)

/-- 受け取った event を覚える。 -/
def Reader.receive (r : Reader) (event : Text × Text) : Reader where
  lastEventId := if event.1 ≠ [] then some event.1 else r.lastEventId
  received := r.received ++ [event.2]

/-- 接続し、最初の `k` 個の event を受け取って切れる。 -/
def disconnectAfter (r : Reader) (k : Nat) : Reader :=
  (parse (((events (chunks stream r.lastEventId)).take k).flatMap sse)).foldl Reader.receive r

/-- 接続し、終わりまで受け取る。 -/
def readToEnd (r : Reader) : Reader :=
  (parse ((events (chunks stream r.lastEventId)).flatMap sse)).foldl Reader.receive r

/-- `cuts` の通りに切断した後、終わりまで読む。 -/
def readAll (cuts : List Nat) : Reader :=
  readToEnd parse stream (exec (disconnectAfter parse stream) {} cuts)

end Client

/-! ## 改行での切断 -/

theorem splitOn_lines {lines : List Text} {tail : Text} (hl : ∀ l ∈ lines, '\n' ∉ l)
    (ht : '\n' ∉ tail) :
    (lines.flatMap (· ++ ['\n']) ++ tail).splitOn '\n' = lines ++ [tail] := by
  induction lines with
  | nil => exact List.splitOn_eq_singleton ht
  | cons l rest ih =>
    have hcons : (l :: rest).flatMap (· ++ ['\n']) ++ tail =
        l ++ '\n' :: (rest.flatMap (· ++ ['\n']) ++ tail) := by simp
    rw [hcons, List.splitOn_append_cons_self,
      List.splitOn_eq_singleton (hl l List.mem_cons_self),
      ih fun l hl' => hl l (List.mem_cons_of_mem _ hl')]
    rfl

/-- どの文字の列も、行と残りに分かれる。 -/
theorem exists_lines (text : Text) : ∃ (lines : List Text) (tail : Text),
    text = lines.flatMap (· ++ ['\n']) ++ tail ∧ (∀ l ∈ lines, '\n' ∉ l) ∧ '\n' ∉ tail := by
  induction text with
  | nil => exact ⟨[], [], rfl, fun _ h => (by cases h), List.not_mem_nil⟩
  | cons c text ih =>
    obtain ⟨lines, tail, rfl, hl, ht⟩ := ih
    by_cases hc : c = '\n'
    · subst hc
      refine ⟨[] :: lines, tail, rfl, fun l hl' => ?_, ht⟩
      rcases List.mem_cons.mp hl' with rfl | hl'
      · exact List.not_mem_nil
      · exact hl l hl'
    · cases lines with
      | nil =>
        refine ⟨[], c :: tail, rfl, fun _ h => (by cases h), ?_⟩
        simp [Ne.symm hc, ht]
      | cons l rest =>
        refine ⟨(c :: l) :: rest, tail, rfl, fun l' hl' => ?_, ht⟩
        rcases List.mem_cons.mp hl' with rfl | hl'
        · simp [Ne.symm hc, hl l List.mem_cons_self]
        · exact hl l' (List.mem_cons_of_mem _ hl')

theorem splitBuffer_lines {lines : List Text} {tail : Text} (hl : ∀ l ∈ lines, '\n' ∉ l)
    (ht : '\n' ∉ tail) : splitBuffer (lines.flatMap (· ++ ['\n']) ++ tail) = (lines, tail) := by
  unfold splitBuffer
  rw [splitOn_lines hl ht, List.dropLast_concat, List.getLastD_concat]

/-- 行と残りは、文字の列から一通りに決まる。 -/
theorem lines_unique {lines lines' : List Text} {tail tail' : Text}
    (hl : ∀ l ∈ lines, '\n' ∉ l) (ht : '\n' ∉ tail) (hl' : ∀ l ∈ lines', '\n' ∉ l)
    (ht' : '\n' ∉ tail')
    (h : lines.flatMap (· ++ ['\n']) ++ tail = lines'.flatMap (· ++ ['\n']) ++ tail') :
    lines = lines' ∧ tail = tail' := by
  have hsplit := congrArg splitBuffer h
  rw [splitBuffer_lines hl ht, splitBuffer_lines hl' ht'] at hsplit
  exact Prod.mk.inj hsplit

/-! ## 読み出し -/

section Reading

variable {ι : Type} [LinearOrder ι] {rank : Text → ι} {stream : RedisStream rank}

/-- 順に並んだ列から、ある entry より後ろを選ぶ。 -/
theorem filter_after {l pre post : List StreamEntry} {e : StreamEntry}
    (hl : l.Pairwise fun a b => rank a.id < rank b.id) (h : l = pre ++ e :: post) :
    l.filter (fun e' => rank e.id < rank e'.id) = post := by
  subst h
  obtain ⟨-, htail, hcross⟩ := List.pairwise_append.mp hl
  obtain ⟨hafter, -⟩ := List.pairwise_cons.mp htail
  have hpre : pre.filter (fun e' => decide (rank e.id < rank e'.id)) = [] := by
    refine List.filter_eq_nil_iff.mpr fun a ha => ?_
    simpa using le_of_lt (hcross a ha e List.mem_cons_self)
  have hpost : post.filter (fun e' => decide (rank e.id < rank e'.id)) = post :=
    List.filter_eq_self.mpr fun a ha => decide_eq_true (hafter a ha)
  rw [List.filter_append, hpre, List.filter_cons_of_neg (by simp), hpost, List.nil_append]

/-- ループは、`lastId` より後ろの entry をすべて読む。 -/
theorem readLoop_eq : ∀ (fuel : Nat) (lastId : Text),
    (stream.entries.filter fun e => rank lastId < rank e.id).length < fuel →
      readLoop stream fuel lastId = stream.entries.filter fun e => rank lastId < rank e.id
  | 0, _, h => absurd h (Nat.not_lt_zero _)
  | fuel + 1, lastId, h => by
    obtain ⟨l, hl⟩ : ∃ l, stream.entries.filter (fun e => rank lastId < rank e.id) = l := ⟨_, rfl⟩
    have hread : xread stream lastId = l.take 100 := by rw [xread, hl]
    rw [readLoop, hread]
    rw [hl] at h ⊢
    cases hlast : (l.take 100).getLast? with
    | none =>
      have hnil : l = [] := by
        have htake := List.getLast?_eq_none_iff.mp hlast
        simpa using htake
      rw [hnil]
    | some last =>
      obtain ⟨front, hfront⟩ := List.getLast?_eq_some_iff.mp hlast
      have hsplit : l = front ++ last :: l.drop 100 := by
        rw [← List.singleton_append, ← List.append_assoc, ← hfront, List.take_append_drop]
      have hsorted : l.Pairwise fun a b => rank a.id < rank b.id := hl ▸ stream.sorted.filter _
      have hmem : last ∈ l := by rw [hsplit]; simp
      have hlater : rank lastId < rank last.id := by
        rw [← hl] at hmem
        exact of_decide_eq_true (List.mem_filter.mp hmem).2
      have hrest : stream.entries.filter (fun e => rank last.id < rank e.id) = l.drop 100 := by
        rw [← filter_after hsorted hsplit, ← hl, List.filter_filter]
        refine List.filter_congr fun e _ => ?_
        by_cases hlt : rank last.id < rank e.id
        · simp [hlt, hlater.trans hlt]
        · simp [hlt]
      have hlength : (l.drop 100).length < fuel := by
        have hlen := congrArg List.length hsplit
        rw [List.length_append, List.length_cons] at hlen
        omega
      dsimp only
      rw [readLoop_eq fuel last.id (by rw [hrest]; exact hlength), hrest]
      exact List.take_append_drop 100 l

/-- 一つの接続が渡す entry。 -/
theorem chunks_eq (lastEventId : Option Text) : chunks stream lastEventId =
    (stream.entries.filter fun e => rank (lastEventId.getD ['0']) < rank e.id).filter isChunk := by
  unfold chunks
  rw [readLoop_eq]
  have := List.length_filter_le
    (fun e : StreamEntry => decide (rank (lastEventId.getD ['0']) < rank e.id)) stream.entries
  omega

theorem chunks_none : chunks stream none = stream.entries.filter isChunk := by
  rw [chunks_eq, Option.getD_none,
    List.filter_eq_self.mpr fun e he => decide_eq_true (stream.positive e he)]

/-- ある entry の id から読み直すと、その後ろが届く。 -/
theorem chunks_some {pre post : List StreamEntry} {e : StreamEntry}
    (h : chunks stream none = pre ++ e :: post) : chunks stream (some e.id) = post := by
  rw [chunks_none] at h
  rw [chunks_eq, List.filter_filter, Option.getD_some]
  rw [← filter_after (stream.sorted.filter isChunk) h, List.filter_filter]
  exact List.filter_congr fun _ _ => Bool.and_comm _ _

end Reading

/-! ## buffer を通した行 -/

theorem emitted_append (buffer : Text) (xs ys : List StreamEntry) :
    emitted buffer (xs ++ ys) =
      ((emitted buffer xs).1 ++ (emitted (emitted buffer xs).2 ys).1,
        (emitted (emitted buffer xs).2 ys).2) := by
  induction xs generalizing buffer with
  | nil => rfl
  | cons e rest ih =>
    rw [List.cons_append]
    simp only [emitted, ih, List.append_assoc]

/-- 行の途中に、別の client の entry が来ない。 -/
def Unmixed (buffer : Text) (owner : Option Text) : List StreamEntry → Prop
  | [] => True
  | e :: rest => (buffer = [] ∨ e.client = owner) ∧
      Unmixed (splitBuffer (buffer ++ e.text)).2 e.client rest

/-- 列の終わりでの buffer の持ち主。 -/
def lastOwner (owner : Option Text) : List StreamEntry → Option Text
  | [] => owner
  | e :: rest => lastOwner e.client rest

/-- ある client の書いた文字の列。 -/
def clientText (client : Option Text) (entries : List StreamEntry) : Text :=
  (entries.filter fun e => e.client = client).flatMap StreamEntry.text

/-- ある client の行。 -/
def linesOf (client : Option Text) (emitted : List (StreamEntry × Text)) : List Text :=
  (emitted.filter fun l => l.1.client = client).map Prod.snd

/-- 完成した行のすべて。空白だけの行も含む。 -/
def completed (buffer : Text) : List StreamEntry → List (StreamEntry × Text) × Text
  | [] => ([], buffer)
  | e :: rest =>
    let (lines, buffer) := splitBuffer (buffer ++ e.text)
    let (events, buffer) := completed buffer rest
    (lines.map (fun line => (e, line)) ++ events, buffer)

theorem emitted_eq_filter (buffer : Text) (entries : List StreamEntry) :
    emitted buffer entries =
      ((completed buffer entries).1.filter fun l => nonBlank l.2,
        (completed buffer entries).2) := by
  induction entries generalizing buffer with
  | nil => rfl
  | cons e rest ih =>
    simp only [emitted, completed, ih, List.filter_append, List.filter_map]
    rfl

/-- 完成した行も、残りも、改行を含まない。 -/
theorem completed_clean : ∀ (entries : List StreamEntry) (buffer : Text), '\n' ∉ buffer →
    (∀ l ∈ (completed buffer entries).1, '\n' ∉ l.2) ∧ '\n' ∉ (completed buffer entries).2
  | [], _, hb => ⟨fun _ h => (by cases h), hb⟩
  | e :: rest, buffer, _ => by
    obtain ⟨lines, tail, htext, hl, ht⟩ := exists_lines (buffer ++ e.text)
    have hsplit : splitBuffer (buffer ++ e.text) = (lines, tail) := by
      rw [htext, splitBuffer_lines hl ht]
    obtain ⟨hrest, htail⟩ := completed_clean rest tail ht
    simp only [completed, hsplit]
    refine ⟨fun l hmem => ?_, htail⟩
    rcases List.mem_append.mp hmem with hmem | hmem
    · obtain ⟨line, hline, rfl⟩ := List.mem_map.mp hmem
      exact hl line hline
    · exact hrest l hmem

/-- **混ざらなければ、各 client の文字は、その client の行と残りに分かれる。** -/
theorem completed_client : ∀ (entries : List StreamEntry) (buffer : Text) (owner : Option Text),
    Unmixed buffer owner entries → ∀ client,
      (if owner = client then buffer else []) ++ clientText client entries =
        (linesOf client (completed buffer entries).1).flatMap (· ++ ['\n']) ++
          if lastOwner owner entries = client then (completed buffer entries).2 else []
  | [], buffer, owner, _, client => by
    show (if owner = client then buffer else []) ++ [] = if owner = client then buffer else []
    exact List.append_nil _
  | e :: rest, buffer, owner, ⟨hown, hrest⟩, client => by
    obtain ⟨lines, tail, htext, hl, ht⟩ := exists_lines (buffer ++ e.text)
    have hsplit : splitBuffer (buffer ++ e.text) = (lines, tail) := by
      rw [htext, splitBuffer_lines hl ht]
    rw [hsplit] at hrest
    have ih := completed_client rest tail e.client hrest client
    simp only [completed, hsplit, lastOwner]
    by_cases hclient : e.client = client
    · -- buffer が空でなければ、持ち主はこの entry の client である
      have hbuffer : (if owner = client then buffer else []) = buffer := by
        rcases hown with rfl | hown
        · exact ite_self _
        · rw [if_pos (hown ▸ hclient)]
      rw [if_pos hclient] at ih
      have hcons : clientText client (e :: rest) = e.text ++ clientText client rest := by
        simp [clientText, hclient]
      have hlines : linesOf client (lines.map (fun line => (e, line)) ++ (completed tail rest).1) =
          lines ++ linesOf client (completed tail rest).1 := by
        simp [linesOf, List.filter_map, Function.comp_def, hclient]
      rw [hbuffer, hcons, ← List.append_assoc, htext, hlines, List.flatMap_append,
        List.append_assoc, ih, List.append_assoc]
    · have hbuffer : (if owner = client then buffer else []) = [] := by
        rcases hown with rfl | hown
        · exact ite_self _
        · rw [if_neg (hown ▸ hclient)]
      rw [if_neg hclient, List.nil_append] at ih
      have hcons : clientText client (e :: rest) = clientText client rest := by
        simp [clientText, hclient]
      have hlines : linesOf client (lines.map (fun line => (e, line)) ++ (completed tail rest).1) =
          linesOf client (completed tail rest).1 := by
        simp [linesOf, List.filter_map, Function.comp_def, hclient]
      rw [hbuffer, hcons, hlines, List.nil_append, ih]

/-! ## 一つの stream の全体 -/

section Whole

variable {ι : Type} [LinearOrder ι] {rank : Text → ι} {stream : RedisStream rank}
  {lines : Option Text → List Line}

/-- 各 client の data が、改行で終わる空白だけでない行 `lines` をつないだものである。 -/
structure Written (stream : RedisStream rank) (lines : Option Text → List Line) : Prop where
  text : ∀ client, clientText client stream.entries = linesText (lines client)
  nonBlank : ∀ client, ∀ l ∈ lines client, nonBlank l.val = true

/-- stream が読み取れる。sentinel と同じ data が無く、行の途中に別の client の entry が来ず、行が `\r` を
含まない。 -/
structure Readable (stream : RedisStream rank) (lines : Option Text → List Line) : Prop where
  noSentinel : ∀ e ∈ stream.entries, e.text ≠ endSentinel
  unmixed : Unmixed [] none (chunks stream none)
  noReturn : ∀ client, ∀ l ∈ lines client, '\r' ∉ l.val

theorem linesText_eq (l : List Line) :
    linesText l = (l.map Subtype.val).flatMap (· ++ ['\n']) ++ [] := by
  rw [List.append_nil, List.flatMap_map]
  rfl

theorem clientText_chunks (hr : ∀ e ∈ stream.entries, e.text ≠ endSentinel)
    (client : Option Text) :
    clientText client (chunks stream none) = clientText client stream.entries := by
  rw [chunks_none]
  generalize stream.entries = l at hr
  induction l with
  | nil => rfl
  | cons e rest ih =>
    have ih := ih fun e he => hr e (List.mem_cons_of_mem _ he)
    have hcons : ∀ l : List StreamEntry, clientText client (e :: l) =
        (if e.client = client then e.text else []) ++ clientText client l := by
      intro l
      unfold clientText
      by_cases hc : e.client = client
      · rw [List.filter_cons_of_pos (by simpa using hc), List.flatMap_cons, if_pos hc]
      · rw [List.filter_cons_of_neg (by simpa using hc), if_neg hc, List.nil_append]
    by_cases hchunk : isChunk e = true
    · rw [List.filter_cons_of_pos hchunk, hcons, hcons, ih]
    · have hempty : e.text = [] := by
        by_contra hne
        exact hchunk (decide_eq_true ⟨hne, hr e List.mem_cons_self⟩)
      rw [List.filter_cons_of_neg hchunk, hcons, ih, hempty, ite_self, List.nil_append]

/-- **読み取れる stream を一度に読むと、buffer は空になり、各 client の行がそのまま現れる。** -/
theorem emitted_whole (hw : Written stream lines) (hr : Readable stream lines) :
    (emitted [] (chunks stream none)).2 = [] ∧
      ∀ client, linesOf client (emitted [] (chunks stream none)).1 =
        (lines client).map Subtype.val := by
  obtain ⟨hclean, htail⟩ := completed_clean (chunks stream none) [] List.not_mem_nil
  have hclient : ∀ client,
      (lines client).map Subtype.val = linesOf client (completed [] (chunks stream none)).1 ∧
        [] = if lastOwner none (chunks stream none) = client then
          (completed [] (chunks stream none)).2 else [] := by
    intro client
    have h := completed_client (chunks stream none) [] none hr.unmixed client
    rw [ite_self, List.nil_append, clientText_chunks hr.noSentinel, hw.text, linesText_eq] at h
    refine lines_unique ?_ List.not_mem_nil ?_ ?_ h
    · intro l hl
      obtain ⟨line, -, rfl⟩ := List.mem_map.mp hl
      exact line.property
    · intro l hl
      obtain ⟨p, hp, rfl⟩ := List.mem_map.mp hl
      exact hclean p (List.mem_of_mem_filter hp)
    · split
      · exact htail
      · exact List.not_mem_nil
  have hfilter : (completed [] (chunks stream none)).1.filter (fun l => nonBlank l.2) =
      (completed [] (chunks stream none)).1 := by
    refine List.filter_eq_self.mpr fun p hp => ?_
    have hmem : p.2 ∈ linesOf p.1.client (completed [] (chunks stream none)).1 :=
      List.mem_map_of_mem (List.mem_filter.mpr ⟨hp, by simp⟩)
    rw [← (hclient p.1.client).1] at hmem
    obtain ⟨line, hline, heq⟩ := List.mem_map.mp hmem
    rw [← heq]
    exact hw.nonBlank p.1.client line hline
  rw [emitted_eq_filter, hfilter]
  refine ⟨?_, fun client => (hclient client).1.symm⟩
  have hend := (hclient (lastOwner none (chunks stream none))).2
  rw [if_pos rfl] at hend
  exact hend.symm

/-- 送られる行は、どれも書かれた行である。 -/
theorem emitted_clean (hw : Written stream lines) (hr : Readable stream lines)
    {l : StreamEntry × Text} (hl : l ∈ (emitted [] (chunks stream none)).1) :
    l.2 ≠ [] ∧ '\n' ∉ l.2 ∧ '\r' ∉ l.2 := by
  have hmem : l.2 ∈ linesOf l.1.client (emitted [] (chunks stream none)).1 :=
    List.mem_map_of_mem (List.mem_filter.mpr ⟨hl, by simp⟩)
  rw [(emitted_whole hw hr).2] at hmem
  obtain ⟨line, hline, heq⟩ := List.mem_map.mp hmem
  rw [← heq]
  refine ⟨fun hnil => ?_, line.property, hr.noReturn _ line hline⟩
  have hblank := hw.nonBlank _ line hline
  rw [hnil] at hblank
  cases hblank

end Whole

theorem emitted_mem : ∀ {entries : List StreamEntry} {buffer : Text} {l : StreamEntry × Text},
    l ∈ (emitted buffer entries).1 → l.1 ∈ entries
  | e :: rest, buffer, l, h => by
    simp only [emitted] at h
    rcases List.mem_append.mp h with h | h
    · obtain ⟨line, -, rfl⟩ := List.mem_map.mp h
      exact List.mem_cons_self
    · exact List.mem_cons_of_mem _ (emitted_mem h)

end Realtime
