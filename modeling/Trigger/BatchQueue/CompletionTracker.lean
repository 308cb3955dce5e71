import Mathlib.Data.Nat.Cast.Order.Ring
import Mathlib.Data.List.Perm.Basic
import Mathlib.Data.Set.List
import Trigger.Infra.Redis
import Trigger.Infra.Text

/-!
# BatchCompletionTracker

`batch-queue/completionTracker.ts`。一つの batch は六つの key を持ち、`recordSuccess` と `recordFailure`
の Lua script が、処理済みの番号の集合・run の整列集合・失敗の list・counter を一度に書き換える。

run の整列集合の要素は run の id なので、同じ run が二つの item に対して返ると一つになる。集計が合うのは、
成功した item の run がすべて異なるとき、そのときに限る（`accounting_iff`）。
-/

namespace BatchQueue

open Infra Infra.Redis

/-! ## 保存されるもの -/

/-- `BatchItemFailure`。`options` は JSON の文字列で表す。 -/
structure BatchItemFailure where
  index : Nat
  taskIdentifier : String
  payload : Option String
  options : Option String
  error : String
  errorCode : Option String
  timestamp : ℚ
deriving DecidableEq

/-- `BatchMeta` のうち、件数。 -/
structure BatchMeta where
  runCount : Nat
deriving DecidableEq

/-- 一つの batch の六つの key の値。`processed` は、key が無ければ 0 と読まれる。 -/
structure BatchData where
  batchMeta : Option BatchMeta := none
  runs : ZSet := ∅
  failures : List BatchItemFailure := []
  processed : Nat := 0
  processedItems : Finset String := ∅
  enqueuedItems : Finset String := ∅

/-- `CompleteBatchResult`。 -/
structure CompleteBatchResult where
  runIds : List String
  successfulRunCount : Nat
  failedRunCount : Nat
  failures : List BatchItemFailure

/-! ## 操作 -/

/-- `storeMeta`。 -/
def storeMeta (b : BatchData) (batchMeta : BatchMeta) : BatchData :=
  { b with batchMeta := some batchMeta }

/-- Lua `recordSuccessIdempotent`。既に処理済みなら数えないが、現在の件数は返す。 -/
def recordSuccessIdempotent (itemKey runId : String) (itemScore : ℚ) (b : BatchData) :
    Nat × BatchData :=
  if itemKey ∈ b.processedItems then (b.processed, b)
  else
    (b.processed + 1, { b with
      processedItems := insert itemKey b.processedItems
      runs := b.runs.add runId itemScore
      processed := b.processed + 1 })

/-- Lua `recordFailureIdempotent`。 -/
def recordFailureIdempotent (itemKey : String) (failure : BatchItemFailure) (b : BatchData) :
    Nat × BatchData :=
  if itemKey ∈ b.processedItems then (b.processed, b)
  else
    (b.processed + 1, { b with
      processedItems := insert itemKey b.processedItems
      failures := b.failures ++ [failure]
      processed := b.processed + 1 })

/-- `recordSuccess`。番号が無ければ run の id を key にする。 -/
def recordSuccess (runId : String) (itemIndex : Option Nat) (b : BatchData) : Nat × BatchData :=
  recordSuccessIdempotent ((itemIndex.map toString).getD runId) runId (itemIndex.getD 0) b

/-- `recordFailure`。 -/
def recordFailure (failure : BatchItemFailure) (now : ℚ) (b : BatchData) : Nat × BatchData :=
  recordFailureIdempotent (toString failure.index) { failure with timestamp := now } b

/-- `getProcessedCount`。 -/
def getProcessedCount (b : BatchData) : Nat := b.processed

/-- `getSuccessfulRuns`。 -/
def getSuccessfulRuns (b : BatchData) : List String := b.runs.entries.map Prod.fst

/-- `getFailures`。 -/
def getFailures (b : BatchData) : List BatchItemFailure := b.failures

/-- `getCompletionResult`。 -/
def getCompletionResult (b : BatchData) : CompleteBatchResult where
  runIds := getSuccessfulRuns b
  successfulRunCount := (getSuccessfulRuns b).length
  failedRunCount := (getFailures b).length
  failures := getFailures b

/-- `cleanup`。六つの key をすべて消す。 -/
def cleanup (_ : BatchData) : BatchData := {}

/-- `markItemEnqueued`。新しく加えたかどうかを返す。 -/
def markItemEnqueued (itemIndex : Nat) (b : BatchData) : Bool × BatchData :=
  (toString itemIndex ∉ b.enqueuedItems,
    { b with enqueuedItems := insert (toString itemIndex) b.enqueuedItems })

/-! ## 記録の列 -/

/-- 一件の記録。 -/
inductive Outcome
  | success (runId : String) (itemIndex : Nat)
  | failure (failure : BatchItemFailure) (now : ℚ)
deriving DecidableEq

def Outcome.index : Outcome → Nat
  | .success _ i => i
  | .failure f _ => f.index

/-- 一件を記録し、件数を返す。 -/
def record (o : Outcome) (b : BatchData) : Nat × BatchData :=
  match o with
  | .success runId itemIndex => recordSuccess runId (some itemIndex) b
  | .failure failure now => recordFailure failure now b

def recordAll (os : List Outcome) (b : BatchData) : BatchData :=
  os.foldl (fun b o => (record o b).2) b

/-- 番号ごとの最初の記録。 -/
def firsts (os : List Outcome) : List Outcome :=
  os.foldl (fun acc o => if o.index ∈ acc.map Outcome.index then acc else acc ++ [o]) []

/-- 成功した item の run と番号。 -/
def Outcome.success? : Outcome → Option (String × Nat)
  | .success runId i => some (runId, i)
  | .failure .. => none

/-- 失敗した item の記録。 -/
def Outcome.failure? : Outcome → Option BatchItemFailure
  | .success .. => none
  | .failure f now => some { f with timestamp := now }

def successes (os : List Outcome) : List (String × Nat) := os.filterMap Outcome.success?

def failuresOf (os : List Outcome) : List BatchItemFailure := os.filterMap Outcome.failure?

/-- run の整列集合に、成功した item を順に加える。 -/
def addRuns (z : ZSet) (l : List (String × Nat)) : ZSet :=
  l.foldl (fun z p => z.add p.1 (p.2 : ℚ)) z

theorem successes_append (l l' : List Outcome) :
    successes (l ++ l') = successes l ++ successes l' := List.filterMap_append

theorem addRuns_append (z : ZSet) (l l' : List (String × Nat)) :
    addRuns z (l ++ l') = addRuns (addRuns z l) l' := List.foldl_append

/-! ## 記録の効果 -/

/-- batch の値が、番号ごとの最初の記録 `os` から決まる。 -/
structure Tracks (os : List Outcome) (b : BatchData) : Prop where
  items : ∀ i, toString i ∈ b.processedItems ↔ i ∈ os.map Outcome.index
  nodup : (os.map Outcome.index).Nodup
  processed : b.processed = os.length
  runs : b.runs = addRuns ∅ (successes os)
  failures : b.failures = failuresOf os

theorem record_of_mem {o : Outcome} {b : BatchData} (h : toString o.index ∈ b.processedItems) :
    record o b = (b.processed, b) := by
  cases o with
  | success runId i => exact if_pos h
  | failure f now => exact if_pos h

/-- 初めての番号の記録。 -/
theorem Tracks.push {os : List Outcome} {b : BatchData} (h : Tracks os b) {o : Outcome}
    (ho : o.index ∉ os.map Outcome.index) : Tracks (os ++ [o]) (record o b).2 := by
  have hnot : toString o.index ∉ b.processedItems := fun hm => ho ((h.items _).mp hm)
  have hitems : ∀ i, toString i ∈ insert (toString o.index) b.processedItems ↔
      i ∈ (os ++ [o]).map Outcome.index := by
    intro i
    rw [Finset.mem_insert, h.items, List.map_append, List.mem_append, List.map_singleton,
      List.mem_singleton, Text.toString_nat_injective.eq_iff, or_comm]
  have hnodup : ((os ++ [o]).map Outcome.index).Nodup := by
    rw [List.map_append, List.nodup_append]
    refine ⟨h.nodup, List.nodup_singleton _, fun a ha c hc => ?_⟩
    rw [List.map_singleton, List.mem_singleton] at hc
    rintro rfl
    exact ho (hc ▸ ha)
  cases o with
  | success runId i =>
    have heq : record (.success runId i) b = (b.processed + 1, { b with
        processedItems := insert (toString i) b.processedItems
        runs := b.runs.add runId i
        processed := b.processed + 1 }) := if_neg hnot
    rw [heq]
    refine ⟨hitems, hnodup, ?_, ?_, ?_⟩
    · simp [h.processed]
    · show b.runs.add runId i = _
      rw [h.runs, successes_append, addRuns_append]
      rfl
    · show b.failures = _
      rw [h.failures]
      simp [failuresOf, Outcome.failure?]
  | failure f now =>
    have heq : record (.failure f now) b = (b.processed + 1, { b with
        processedItems := insert (toString f.index) b.processedItems
        failures := b.failures ++ [{ f with timestamp := now }]
        processed := b.processed + 1 }) := if_neg hnot
    rw [heq]
    refine ⟨hitems, hnodup, ?_, ?_, ?_⟩
    · simp [h.processed]
    · show b.runs = _
      rw [h.runs, successes_append, addRuns_append]
      rfl
    · show b.failures ++ [{ f with timestamp := now }] = _
      rw [h.failures]
      simp [failuresOf, Outcome.failure?]

/-- 一件の記録は、初めての番号のときだけ記録を増やす。 -/
theorem Tracks.record {os : List Outcome} {b : BatchData} (h : Tracks os b) (o : Outcome) :
    Tracks (if o.index ∈ os.map Outcome.index then os else os ++ [o]) (record o b).2 := by
  split
  · next ho =>
    rw [record_of_mem ((h.items _).mpr ho)]
    exact h
  · next ho => exact h.push ho

theorem tracks_recordAll (os : List Outcome) {acc : List Outcome} {b : BatchData}
    (h : Tracks acc b) :
    Tracks (os.foldl (fun acc o => if o.index ∈ acc.map Outcome.index then acc else acc ++ [o]) acc)
      (recordAll os b) := by
  induction os generalizing acc b with
  | nil => exact h
  | cons o os ih => exact ih (h.record o)

/-- 新しい batch。 -/
def newBatch (runCount : Nat) : BatchData := storeMeta {} ⟨runCount⟩

theorem tracks_newBatch (runCount : Nat) : Tracks [] (newBatch runCount) :=
  ⟨by simp [newBatch, storeMeta], List.nodup_nil, rfl, rfl, rfl⟩

/-- 記録の列の後の値は、番号ごとの最初の記録で決まる。 -/
theorem tracks_firsts (runCount : Nat) (os : List Outcome) :
    Tracks (firsts os) (recordAll os (newBatch runCount)) :=
  tracks_recordAll os (tracks_newBatch runCount)

/-- 最初の記録の番号は、記録された番号を一度ずつ並べたものである。 -/
theorem mem_firsts_index {os : List Outcome} {i : Nat} :
    i ∈ (firsts os).map Outcome.index ↔ i ∈ os.map Outcome.index := by
  have hgen : ∀ (os acc : List Outcome), i ∈ (os.foldl (fun acc o =>
      if o.index ∈ acc.map Outcome.index then acc else acc ++ [o]) acc).map Outcome.index ↔
      i ∈ acc.map Outcome.index ∨ i ∈ os.map Outcome.index := by
    intro os
    induction os with
    | nil => simp
    | cons o os ih =>
      intro acc
      rw [List.foldl_cons, ih, List.map_cons, List.mem_cons]
      split
      · next ho =>
        constructor
        · rintro (h | h)
          · exact .inl h
          · exact .inr (.inr h)
        · rintro (h | rfl | h)
          · exact .inl h
          · exact .inl ho
          · exact .inr h
      · rw [List.map_append, List.mem_append, List.map_singleton, List.mem_singleton, or_assoc]
  rw [firsts, hgen]
  simp

theorem length_firsts (os : List Outcome) :
    (firsts os).length = (os.map Outcome.index).dedup.length := by
  have hperm : ((firsts os).map Outcome.index).Perm (os.map Outcome.index).dedup := by
    refine (List.perm_ext_iff_of_nodup (tracks_firsts 0 os).nodup (List.nodup_dedup _)).mpr ?_
    intro i
    rw [mem_firsts_index, List.mem_dedup]
  simpa using hperm.length_eq

/-! ## 集計 -/

/-- run がすべて異なれば、整列集合は成功した item をそのまま持つ。 -/
theorem score?_addRuns {runId : String} {x : ℚ} : ∀ {l : List (String × Nat)} {z : ZSet},
    (l.map Prod.fst).Nodup → (∀ p ∈ l, z.score? p.1 = none) →
    ((addRuns z l).score? runId = some x ↔
      z.score? runId = some x ∨ ∃ i, (runId, i) ∈ l ∧ x = i)
  | [], z, _, _ => by simp [addRuns]
  | p :: l, z, hnd, hz => by
    rw [List.map_cons, List.nodup_cons] at hnd
    have hz' : ∀ q ∈ l, (z.add p.1 (p.2 : ℚ)).score? q.1 = none := by
      intro q hq
      rw [SortedSet.score?_add, if_neg, hz q (List.mem_cons_of_mem _ hq)]
      rintro heq
      exact hnd.1 (heq ▸ List.mem_map_of_mem hq)
    show (addRuns (z.add p.1 p.2) l).score? runId = some x ↔ _
    rw [score?_addRuns hnd.2 hz', SortedSet.score?_add]
    by_cases hp : runId = p.1
    · subst hp
      rw [if_pos rfl, hz p List.mem_cons_self]
      constructor
      · rintro (h | ⟨i, hi, rfl⟩)
        · exact .inr ⟨p.2, List.mem_cons_self, (Option.some.inj h).symm⟩
        · exact .inr ⟨i, List.mem_cons_of_mem _ hi, rfl⟩
      · rintro (h | ⟨i, hi, rfl⟩)
        · exact absurd h (by simp)
        · rcases List.mem_cons.mp hi with heq | hi
          · exact .inl (by rw [← heq])
          · exact .inr ⟨i, hi, rfl⟩
    · rw [if_neg hp]
      refine or_congr_right (exists_congr fun i => and_congr_left fun _ => ?_)
      rw [List.mem_cons, or_iff_right]
      rintro rfl
      exact hp rfl

/-- 整列集合の中身は、成功した item を番号の順に並べたものである。 -/
theorem exists_items_addRuns {l : List (String × Nat)} (hrun : (l.map Prod.fst).Nodup)
    (hidx : (l.map Prod.snd).Nodup) :
    ∃ items : List (String × Nat), items.Perm l ∧ items.Pairwise (fun a b => a.2 < b.2) ∧
      (addRuns ∅ l).entries = items.map fun p => (p.1, (p.2 : ℚ)) := by
  have hmem : ∀ e, e ∈ (addRuns ∅ l).entries ↔ ∃ p ∈ l, (p.1, (p.2 : ℚ)) = e := by
    rintro ⟨runId, x⟩
    rw [← SortedSet.score?_eq_some, score?_addRuns hrun (fun _ _ => rfl)]
    constructor
    · rintro (h | ⟨i, hi, rfl⟩)
      · exact absurd h (by simp)
      · exact ⟨_, hi, rfl⟩
    · rintro ⟨p, hp, heq⟩
      obtain ⟨rfl, rfl⟩ := Prod.mk.inj heq
      exact .inr ⟨p.2, hp, rfl⟩
  have hcast : Function.Injective fun p : String × Nat => (p.1, (p.2 : ℚ)) := by
    rintro ⟨r, i⟩ ⟨r', i'⟩ h
    obtain ⟨h1, h2⟩ := Prod.mk.inj h
    exact Prod.ext h1 (Nat.cast_injective h2)
  have hrange : (addRuns ∅ l).entries ∈
      Set.range (List.map fun p : String × Nat => (p.1, (p.2 : ℚ))) := by
    rw [Set.range_list_map]
    intro e he
    obtain ⟨p, -, hp⟩ := (hmem e).mp he
    exact ⟨p, hp⟩
  obtain ⟨items, hitems⟩ := hrange
  have hmem' : ∀ p, p ∈ items ↔ p ∈ l := by
    intro p
    rw [← List.mem_map_of_injective hcast, hitems, hmem]
    exact ⟨fun ⟨q, hq, h⟩ => hcast h ▸ hq, fun hp => ⟨p, hp, rfl⟩⟩
  have hnd : items.Nodup := by
    refine List.Nodup.of_map (fun p : String × Nat => (p.1, (p.2 : ℚ))) ?_
    rw [hitems]
    exact List.Nodup.of_map Prod.fst (addRuns ∅ l).nodup
  have hperm : items.Perm l := (List.perm_ext_iff_of_nodup hnd hrun.of_map).mpr hmem'
  refine ⟨items, hperm, ?_, hitems.symm⟩
  -- 番号がすべて異なるので、score の同点は無い。
  have hne : items.Pairwise fun a b => a.2 ≠ b.2 :=
    List.pairwise_map.mp ((hperm.map Prod.snd).nodup_iff.mpr hidx)
  have hsorted := (addRuns ∅ l).sorted
  rw [← hitems, List.pairwise_map] at hsorted
  refine (hne.and hsorted).imp ?_
  rintro a b ⟨hab, hlt | ⟨heq, -⟩⟩
  · exact Nat.cast_lt.mp hlt
  · exact absurd (Nat.cast_injective heq) hab

theorem length_successes_add_failuresOf : ∀ os : List Outcome,
    (successes os).length + (failuresOf os).length = os.length
  | [] => rfl
  | .success r i :: os => by
    have ih := length_successes_add_failuresOf os
    simp only [successes, failuresOf, List.filterMap_cons, Outcome.success?, Outcome.failure?,
      List.length_cons] at ih ⊢
    omega
  | .failure f now :: os => by
    have ih := length_successes_add_failuresOf os
    simp only [successes, failuresOf, List.filterMap_cons, Outcome.success?, Outcome.failure?,
      List.length_cons] at ih ⊢
    omega

/-- 成功した item の番号は、記録の番号の部分列である。 -/
theorem successes_index_sublist : ∀ os : List Outcome,
    ((successes os).map Prod.snd).Sublist (os.map Outcome.index)
  | [] => List.Sublist.refl _
  | .success _ i :: os => (successes_index_sublist os).cons_cons i
  | .failure f _ :: os => (successes_index_sublist os).cons f.index

/-- **集計は、成功した item の run がすべて異なるとき、そのときに限って合う。** 処理済みの件数は
記録された番号の種類の数であり、それが成功と失敗の件数の和になり、run の列は成功した item を番号の順に
一つずつ並べたものになる。 -/
theorem accounting_iff (runCount : Nat) (os : List Outcome) :
    (let b := recordAll os (newBatch runCount)
      let r := getCompletionResult b
      getProcessedCount b = (os.map Outcome.index).dedup.length ∧
      r.successfulRunCount + r.failedRunCount = getProcessedCount b ∧
      ∃ items : List (String × Nat), items.Perm (successes (firsts os)) ∧
        items.Pairwise (fun a b => a.2 < b.2) ∧ r.runIds = items.map Prod.fst) ↔
    ((successes (firsts os)).map Prod.fst).Nodup := by
  have ht := tracks_firsts runCount os
  have hruns : getSuccessfulRuns (recordAll os (newBatch runCount)) =
      (addRuns ∅ (successes (firsts os))).entries.map Prod.fst := by
    rw [getSuccessfulRuns, ht.runs]
  constructor
  · rintro ⟨-, -, items, hperm, -, hids⟩
    have hnd : (getSuccessfulRuns (recordAll os (newBatch runCount))).Nodup :=
      SortedSet.nodup _
    rw [show getSuccessfulRuns _ = items.map Prod.fst from hids] at hnd
    exact (hperm.map Prod.fst).nodup_iff.mp hnd
  · intro hnd
    obtain ⟨items, hperm, hlt, hentries⟩ := exists_items_addRuns hnd
      (ht.nodup.sublist (successes_index_sublist _))
    have hids : getSuccessfulRuns (recordAll os (newBatch runCount)) = items.map Prod.fst := by
      rw [hruns, hentries, List.map_map]
      rfl
    refine ⟨ht.processed.trans (length_firsts os), ?_, items, hperm, hlt, hids⟩
    show (getSuccessfulRuns _).length + (recordAll os (newBatch runCount)).failures.length =
      (recordAll os (newBatch runCount)).processed
    rw [hids, List.length_map, hperm.length_eq, ht.failures, ht.processed,
      length_successes_add_failuresOf]

/-- 二つの item に同じ run が返ると、処理済みは 2 件なのに、run の列は一つしか持たず、和が合わない。 -/
theorem accounting_fails_on_shared_run :
    let os := [.success "run_1" 0, .success "run_1" 1]
    let b := recordAll os (newBatch 2)
    let r := getCompletionResult b
    getProcessedCount b = 2 ∧ r.runIds = ["run_1"] ∧
      r.successfulRunCount + r.failedRunCount ≠ getProcessedCount b := by
  decide +kernel

end BatchQueue
