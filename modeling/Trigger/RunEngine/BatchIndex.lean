import Mathlib.Data.List.Perm.Basic
import Mathlib.Data.List.Perm.Subperm
import Trigger.Infra.Record
import Trigger.Infra.Text
import Trigger.RunEngine.Database

/-!
# batch の index の往復

`createExecutionSnapshot` は index を保存せず、index で整列した id の列だけを残す。読み戻すときは列の中の位置を
index とする。この往復で組の集合が変わらないのは、index が 0 から隙間なく一度ずつ現れるときに限る
（`batch_index_iff`）。

後半は `SharedRuntimeManager` の `waitForBatch` を写し、読み戻した組が promise に届くまでを扱う。
-/

namespace RunEngine

open Infra

/-! ## 保存と読み戻し -/

/-- 保存した snapshot を読み戻した `completedWaitpoints`。次の snapshot はこれを引数に取る。 -/
def carry (fetch : Fetch) (l : List IndexedWaitpoint) : List IndexedWaitpoint :=
  enhanceWaitpoints (fetch.read (l.map Prod.fst)) (waitpointOrder l)

/-- `l` で作った snapshot を `fetch` で読み、さらに `fs` の数だけ引き継いだもの。 -/
def carried (fetch : Fetch) (fs : List Fetch) (l : List IndexedWaitpoint) : List IndexedWaitpoint :=
  fs.foldl (fun l f => carry f l) (carry fetch l)

/-- index は 0 から隙間なく一度ずつ現れ、index の付いた id は index 無しでは現れない。 -/
def Indexed (l : List IndexedWaitpoint) : Prop :=
  ((definedPairs l).map Prod.snd).Perm (List.range (definedPairs l).length) ∧
    ∀ w i, (w, some i) ∈ l → (w, none) ∉ l

/-- index で整列した組。 -/
def sortedPairs (l : List IndexedWaitpoint) : List (String × ℕ) :=
  (definedPairs l).insertionSort fun a b => a.2 ≤ b.2

variable {fetch : Fetch} {l : List IndexedWaitpoint} {w : String} {i : ℕ}

theorem mem_definedPairs : (w, i) ∈ definedPairs l ↔ (w, some i) ∈ l := by
  unfold definedPairs
  rw [List.mem_filterMap]
  constructor
  · rintro ⟨⟨w', o⟩, hmem, hpair⟩
    obtain ⟨j, hj, heq⟩ := Option.map_eq_some_iff.mp hpair
    cases heq
    cases hj
    exact hmem
  · intro hmem
    exact ⟨(w, some i), hmem, rfl⟩

theorem sortedPairs_perm (l : List IndexedWaitpoint) : (sortedPairs l).Perm (definedPairs l) :=
  List.perm_insertionSort _ _

theorem mem_sortedPairs : (w, i) ∈ sortedPairs l ↔ (w, some i) ∈ l :=
  (sortedPairs_perm l).mem_iff.trans mem_definedPairs

theorem waitpointOrder_eq (l : List IndexedWaitpoint) :
    waitpointOrder l = (sortedPairs l).map Prod.fst := rfl

theorem length_waitpointOrder (l : List IndexedWaitpoint) :
    (waitpointOrder l).length = (definedPairs l).length := by
  rw [waitpointOrder_eq, List.length_map, (sortedPairs_perm l).length_eq]

theorem mem_waitpointOrder : w ∈ waitpointOrder l ↔ ∃ i, (w, some i) ∈ l := by
  rw [waitpointOrder_eq, List.mem_map]
  constructor
  · rintro ⟨⟨w', i⟩, hmem, rfl⟩
    exact ⟨i, mem_sortedPairs.mp hmem⟩
  · rintro ⟨i, hmem⟩
    exact ⟨(w, i), mem_sortedPairs.mpr hmem, rfl⟩

theorem mem_indexesOf {order : List String} : i ∈ indexesOf order w ↔ order[i]? = some w := by
  unfold indexesOf
  rw [List.mem_filter, List.mem_range, decide_eq_true_eq]
  refine ⟨And.right, fun h => ⟨?_, h⟩⟩
  exact (List.getElem?_eq_some_iff.mp h).1

theorem mem_enhanceWaitpoints_some {waitpoints order : List String} :
    (w, some i) ∈ enhanceWaitpoints waitpoints order ↔ w ∈ waitpoints ∧ order[i]? = some w := by
  unfold enhanceWaitpoints
  rw [List.mem_flatMap]
  constructor
  · rintro ⟨w', hw', hmem⟩
    split at hmem
    · simp at hmem
    · rw [List.mem_map] at hmem
      obtain ⟨j, hj, heq⟩ := hmem
      cases heq
      exact ⟨hw', mem_indexesOf.mp hj⟩
  · rintro ⟨hw, hi⟩
    have hmem : i ∈ indexesOf order w := mem_indexesOf.mpr hi
    refine ⟨w, hw, ?_⟩
    split
    · next hnil =>
      rw [hnil] at hmem
      cases hmem
    · exact List.mem_map.mpr ⟨i, hmem, rfl⟩

theorem mem_enhanceWaitpoints_none {waitpoints order : List String} :
    (w, none) ∈ enhanceWaitpoints waitpoints order ↔ w ∈ waitpoints ∧ w ∉ order := by
  have hnil : indexesOf order w = [] ↔ w ∉ order := by
    rw [List.eq_nil_iff_forall_not_mem]
    constructor
    · intro h hmem
      obtain ⟨i, hi⟩ := List.mem_iff_getElem?.mp hmem
      exact h i (mem_indexesOf.mpr hi)
    · intro h i hi
      exact h (List.mem_of_getElem? (mem_indexesOf.mp hi))
  unfold enhanceWaitpoints
  rw [List.mem_flatMap]
  constructor
  · rintro ⟨w', hw', hmem⟩
    split at hmem
    · next hempty =>
      rw [List.mem_singleton] at hmem
      cases hmem
      exact ⟨hw', hnil.mp hempty⟩
    · rw [List.mem_map] at hmem
      obtain ⟨j, -, heq⟩ := hmem
      cases heq
  · rintro ⟨hw, hnot⟩
    refine ⟨w, hw, ?_⟩
    rw [hnil.mpr hnot]
    exact List.mem_singleton_self _

theorem mem_carry_some : (w, some i) ∈ carry fetch l ↔ (waitpointOrder l)[i]? = some w := by
  unfold carry
  rw [mem_enhanceWaitpoints_some]
  refine ⟨And.right, fun h => ⟨?_, h⟩⟩
  obtain ⟨j, hj⟩ := mem_waitpointOrder.mp (List.mem_of_getElem? h)
  rw [fetch.mem_iff]
  exact List.mem_map.mpr ⟨_, hj, rfl⟩

theorem mem_carry_none :
    (w, none) ∈ carry fetch l ↔ w ∈ l.map Prod.fst ∧ ∀ i, (w, some i) ∉ l := by
  unfold carry
  rw [mem_enhanceWaitpoints_none, fetch.mem_iff, mem_waitpointOrder]
  push Not
  rfl

/-! ## 往復 -/

theorem sortedPairs_snd (h : Indexed l) :
    (sortedPairs l).map Prod.snd = List.range (definedPairs l).length := by
  refine List.Perm.eq_of_pairwise (fun _ _ _ _ => le_antisymm) ?_ ?_
    (((sortedPairs_perm l).map Prod.snd).trans h.1)
  · exact List.pairwise_map.mpr (List.pairwise_insertionSort _ _)
  · exact List.pairwise_le_range

theorem getElem?_sortedPairs (h : Indexed l) {p : String × ℕ} {k : ℕ}
    (hk : (sortedPairs l)[k]? = some p) : p.2 = k := by
  have hsnd : ((sortedPairs l).map Prod.snd)[k]? = some p.2 := by
    rw [List.getElem?_map, hk]
    rfl
  rw [sortedPairs_snd h] at hsnd
  obtain ⟨hlt, heq⟩ := List.getElem?_eq_some_iff.mp hsnd
  rw [List.getElem_range] at heq
  exact heq.symm

/-- index が隙間なく並んでいれば、位置は index に等しい。 -/
theorem waitpointOrder_getElem? (h : Indexed l) :
    (waitpointOrder l)[i]? = some w ↔ (w, some i) ∈ l := by
  rw [waitpointOrder_eq, List.getElem?_map, Option.map_eq_some_iff, ← mem_sortedPairs]
  constructor
  · rintro ⟨p, hp, rfl⟩
    have hi : p.2 = i := getElem?_sortedPairs h hp
    subst hi
    exact List.mem_of_getElem? hp
  · intro hmem
    obtain ⟨k, hk⟩ := List.mem_iff_getElem?.mp hmem
    have hi : i = k := getElem?_sortedPairs h hk
    subst hi
    exact ⟨_, hk, rfl⟩

theorem mem_carry_of_indexed (h : Indexed l) (p : IndexedWaitpoint) : p ∈ carry fetch l ↔ p ∈ l := by
  obtain ⟨w, o⟩ := p
  cases o with
  | some i => rw [mem_carry_some, waitpointOrder_getElem? h]
  | none =>
    rw [mem_carry_none]
    constructor
    · rintro ⟨hmem, hnone⟩
      obtain ⟨⟨w', o⟩, hpair, rfl⟩ := List.mem_map.mp hmem
      cases o with
      | none => exact hpair
      | some i => exact absurd hpair (hnone i)
    · intro hmem
      exact ⟨List.mem_map.mpr ⟨_, hmem, rfl⟩, fun i hi => h.2 w i hi hmem⟩

/-- 往復で組が変わらなければ、index は隙間なく並んでいる。 -/
theorem indexed_of_mem_carry (h : ∀ p, p ∈ carry fetch l ↔ p ∈ l) : Indexed l := by
  constructor
  · have hsubset : List.range (definedPairs l).length ⊆ (definedPairs l).map Prod.snd := by
      intro k hk
      rw [List.mem_range, ← length_waitpointOrder] at hk
      have hcarry : ((waitpointOrder l)[k], some k) ∈ carry fetch l :=
        mem_carry_some.mpr (List.getElem?_eq_getElem hk)
      exact List.mem_map.mpr ⟨_, mem_definedPairs.mpr ((h _).mp hcarry), rfl⟩
    have hsub := List.subperm_of_subset List.nodup_range hsubset
    refine (hsub.perm_of_length_le ?_).symm
    rw [List.length_map, List.length_range]
  · intro w i hsome hnone
    exact (mem_carry_none.mp ((h _).mpr hnone)).2 i hsome

theorem definedPairs_append (l l' : List IndexedWaitpoint) :
    definedPairs (l ++ l') = definedPairs l ++ definedPairs l' := List.filterMap_append

theorem definedPairs_enhanceWaitpoints (waitpoints order : List String) :
    (definedPairs (enhanceWaitpoints waitpoints order)).map Prod.snd =
      waitpoints.flatMap (indexesOf order) := by
  induction waitpoints with
  | nil => rfl
  | cons w ws ih =>
    unfold enhanceWaitpoints at ih ⊢
    rw [List.flatMap_cons, definedPairs_append, List.map_append, ih, List.flatMap_cons]
    congr 1
    split
    · next hnil =>
      rw [hnil]
      rfl
    · unfold definedPairs
      rw [List.filterMap_map, List.map_filterMap]
      exact List.filterMap_some

theorem nodup_flatMap_indexesOf {waitpoints order : List String} (h : waitpoints.Nodup) :
    (waitpoints.flatMap (indexesOf order)).Nodup := by
  refine List.nodup_flatMap.mpr ⟨fun w _ => List.nodup_range.filter _, ?_⟩
  refine h.imp fun {a b} hne i ha hb => hne ?_
  have heq := (mem_indexesOf.mp ha).symm.trans (mem_indexesOf.mp hb)
  exact Option.some.inj heq

/-- 読み戻した組の index は、いつも隙間なく並ぶ。 -/
theorem indexed_carry (fetch : Fetch) (l : List IndexedWaitpoint) : Indexed (carry fetch l) := by
  have hperm : ((definedPairs (carry fetch l)).map Prod.snd).Perm
      (List.range (waitpointOrder l).length) := by
    refine (List.perm_ext_iff_of_nodup ?_ List.nodup_range).mpr fun k => ?_
    · unfold carry
      rw [definedPairs_enhanceWaitpoints]
      exact nodup_flatMap_indexesOf (fetch.nodup _)
    · rw [List.mem_map, List.mem_range]
      constructor
      · rintro ⟨⟨w, i⟩, hmem, rfl⟩
        exact (List.getElem?_eq_some_iff.mp (mem_carry_some.mp (mem_definedPairs.mp hmem))).1
      · intro hk
        refine ⟨((waitpointOrder l)[k], k), mem_definedPairs.mpr ?_, rfl⟩
        exact mem_carry_some.mpr (List.getElem?_eq_getElem hk)
  constructor
  · have hlength := hperm.length_eq
    rw [List.length_map, List.length_range] at hlength
    rw [hlength]
    exact hperm
  · intro w i hsome hnone
    rw [mem_carry_some] at hsome
    obtain ⟨j, hj⟩ := mem_waitpointOrder.mp (List.mem_of_getElem? hsome)
    exact (mem_carry_none.mp hnone).2 j hj

/-- 二度目からの引き継ぎでは組が変わらない。 -/
theorem mem_foldl_carry (fs : List Fetch) : ∀ {l : List IndexedWaitpoint}, Indexed l →
    ∀ p, p ∈ fs.foldl (fun l f => carry f l) l ↔ p ∈ l := by
  induction fs with
  | nil => exact fun _ _ => Iff.rfl
  | cons f fs ih =>
    intro l h p
    exact (ih (indexed_carry f l) p).trans (mem_carry_of_indexed h p)

theorem mem_carried_iff (fetch : Fetch) (fs : List Fetch) (l : List IndexedWaitpoint) :
    (∀ p, p ∈ carried fetch fs l ↔ p ∈ l) ↔ Indexed l := by
  have hcarried : ∀ p, p ∈ carried fetch fs l ↔ p ∈ carry fetch l :=
    mem_foldl_carry fs (indexed_carry fetch l)
  constructor
  · intro h
    exact indexed_of_mem_carry fun p => (hcarried p).symm.trans (h p)
  · intro h p
    exact (hcarried p).trans (mem_carry_of_indexed h p)

/-! ## CompletedWaitpoint -/

/-- `toFriendlyId`。空の名前と id を拒む検査は、ここでは起こらない。 -/
def toFriendlyId (entityName internalId : String) : String :=
  if startsWith internalId (entityName ++ "_") then internalId else entityName ++ "_" ++ internalId

/-- `WaitpointType`。 -/
inductive WaitpointType
  | run
  | datetime
  | manual
  | batch
deriving DecidableEq

/-- `Waitpoint` の行のうち、完了を待つ側が読むもの。 -/
structure Waitpoint where
  type : WaitpointType
  completedByTaskRunId : Option String
  completedByBatchId : Option String

/-- `completedByTaskRun`。 -/
structure CompletedByTaskRun where
  friendlyId : String
  batch : Option String
deriving DecidableEq

/-- `CompletedWaitpoint`。 -/
structure CompletedWaitpoint where
  id : String
  index : Option ℕ
  friendlyId : String
  type : WaitpointType
  completedByTaskRun : Option CompletedByTaskRun
  completedByBatch : Option String
deriving DecidableEq

/-- 読み戻した組を runner へ渡す形にする。`batchId` は snapshot の列である。 -/
def completedWaitpoint (waitpoint : String → Waitpoint) (batchId : Option String)
    (p : IndexedWaitpoint) : CompletedWaitpoint where
  id := p.1
  index := p.2
  friendlyId := toFriendlyId "waitpoint" p.1
  type := (waitpoint p.1).type
  completedByTaskRun := (waitpoint p.1).completedByTaskRunId.map fun run =>
    ⟨toFriendlyId "run" run, batchId.map (toFriendlyId "batch")⟩
  completedByBatch := (waitpoint p.1).completedByBatchId.map (toFriendlyId "batch")

/-! ## SharedRuntimeManager -/

/-- `waitForBatch` の promise と、先に届いた waitpoint。`resolved` は resolve された promise の番号と値である。 -/
structure RuntimeManager where
  resolversById : JsMap ℕ
  waitpointsByResolverId : JsMap CompletedWaitpoint
  resolved : List (ℕ × CompletedWaitpoint)

namespace RuntimeManager

/-- batch の中の run の resolver の id。 -/
def batchResolverId (batch : String) (index : Option ℕ) : String :=
  batch ++ "_" ++ index.elim "undefined" toString

/-- `resolverIdFromWaitpoint`。 -/
def resolverIdFromWaitpoint (waitpoint : CompletedWaitpoint) : Option String :=
  match waitpoint.type with
  | .run =>
    match waitpoint.completedByTaskRun with
    | none => none
    | some ⟨_, some batch⟩ => some (batchResolverId batch waitpoint.index)
    | some ⟨friendlyId, none⟩ => some friendlyId
  | .batch => waitpoint.completedByBatch
  | .manual | .datetime => some waitpoint.friendlyId

/-- resolver の id が決まった waitpoint を渡す。resolver がまだ無ければ取っておく。 -/
def deliver (m : RuntimeManager) (waitpoint : CompletedWaitpoint) (resolverId : String) :
    RuntimeManager :=
  match m.resolversById.get resolverId with
  | none => { m with waitpointsByResolverId := m.waitpointsByResolverId.set resolverId waitpoint }
  | some promise =>
    { resolversById := m.resolversById.delete resolverId
      waitpointsByResolverId := m.waitpointsByResolverId.delete resolverId
      resolved := m.resolved ++ [(promise, waitpoint)] }

/-- `resolveWaitpoint`。 -/
def resolveWaitpoint (m : RuntimeManager) (waitpoint : CompletedWaitpoint)
    (resolverId : Option String) : RuntimeManager :=
  if waitpoint.type = .batch then m
  else
    match (resolverId <|> resolverIdFromWaitpoint waitpoint).filter (· ≠ "") with
    | none => m
    | some resolverId => m.deliver waitpoint resolverId

/-- `resolveWaitpoints`。 -/
def resolveWaitpoints (m : RuntimeManager) (waitpoints : List CompletedWaitpoint) : RuntimeManager :=
  waitpoints.foldl (fun m waitpoint => m.resolveWaitpoint waitpoint none) m

/-- `resolvePendingWaitpoints`。 -/
def resolvePendingWaitpoints (m : RuntimeManager) : RuntimeManager :=
  m.waitpointsByResolverId.foldl (fun m entry => m.resolveWaitpoint entry.2 (some entry.1)) m

/-- `waitForBatch` が promise を作るまで。 -/
def waitForBatch (m : RuntimeManager) (id : String) (runCount : ℕ) : RuntimeManager :=
  if runCount = 0 then m
  else
    resolvePendingWaitpoints
      { m with
        resolversById := (List.range runCount).foldl
          (fun resolvers index => resolvers.set (batchResolverId id (some index)) index)
          m.resolversById }

/-! ## resolver の id -/

theorem batchResolverId_injective {batch : String} {a b : Option ℕ}
    (h : batchResolverId batch a = batchResolverId batch b) : a = b := by
  have hindex := Text.append_left_cancel h
  have hdigits : ∀ n : ℕ, "undefined" ≠ toString n := by
    intro n heq
    have hdigit : 'u'.isDigit = true := by
      refine Text.isDigit_of_mem_toString_nat (n := n) ?_
      rw [← heq]
      decide
    exact absurd hdigit (by decide)
  cases a with
  | none =>
    cases b with
    | none => rfl
    | some j => exact absurd hindex (hdigits j)
  | some i =>
    cases b with
    | none => exact absurd hindex.symm (hdigits i)
    | some j => exact congrArg some (Text.toString_nat_injective hindex)

theorem head_toFriendlyId (entityName internalId : String) :
    ∃ rest, (toFriendlyId entityName internalId).toList = entityName.toList ++ '_' :: rest := by
  unfold toFriendlyId
  split
  · next h =>
    obtain ⟨rest, hrest⟩ := List.isPrefixOf_iff_prefix.mp h
    refine ⟨rest, ?_⟩
    rw [← hrest, String.toList_append]
    simp
  · refine ⟨internalId.toList, ?_⟩
    rw [String.toList_append, String.toList_append]
    simp

theorem batchResolverId_ne_waitpoint (batchId w : String) (index : Option ℕ) :
    batchResolverId (toFriendlyId "batch" batchId) index ≠ toFriendlyId "waitpoint" w := by
  intro h
  obtain ⟨rest, hbatch⟩ := head_toFriendlyId "batch" batchId
  obtain ⟨rest', hwaitpoint⟩ := head_toFriendlyId "waitpoint" w
  have hlist := congrArg String.toList h
  unfold batchResolverId at hlist
  rw [String.toList_append, String.toList_append, hbatch, hwaitpoint] at hlist
  cases hlist

theorem batchResolverId_ne_empty (batch : String) (index : Option ℕ) :
    batchResolverId batch index ≠ "" := by
  intro h
  have hlist := congrArg String.toList h
  unfold batchResolverId at hlist
  rw [String.toList_append, String.toList_append] at hlist
  simp at hlist

section Delivery

variable {waitpoint : String → Waitpoint} {batchId : String} {p : IndexedWaitpoint}

/-- batch の resolver へ向かう waitpoint は、その index を持つ。 -/
theorem index_of_resolverId (htype : (waitpoint p.1).type ≠ .batch)
    (h : resolverIdFromWaitpoint (completedWaitpoint waitpoint (some batchId) p) =
      some (batchResolverId (toFriendlyId "batch" batchId) (some i))) : p.2 = some i := by
  unfold resolverIdFromWaitpoint completedWaitpoint at h
  dsimp only at h
  split at h
  · split at h
    · cases h
    · next hrun =>
      obtain ⟨run, -, heq⟩ := Option.map_eq_some_iff.mp hrun
      cases heq
      exact batchResolverId_injective (Option.some.inj h)
    · next hrun =>
      obtain ⟨run, -, heq⟩ := Option.map_eq_some_iff.mp hrun
      cases heq
  · next hbatch => exact absurd hbatch htype
  · exact absurd (Option.some.inj h).symm (batchResolverId_ne_waitpoint batchId p.1 _)
  · exact absurd (Option.some.inj h).symm (batchResolverId_ne_waitpoint batchId p.1 _)

theorem resolverId_of_run (htype : (waitpoint p.1).type = .run)
    (hrun : (waitpoint p.1).completedByTaskRunId ≠ none) :
    resolverIdFromWaitpoint (completedWaitpoint waitpoint (some batchId) p) =
      some (batchResolverId (toFriendlyId "batch" batchId) p.2) := by
  obtain ⟨run, hrun⟩ := Option.ne_none_iff_exists'.mp hrun
  unfold resolverIdFromWaitpoint completedWaitpoint
  simp only [htype, hrun, Option.map_some]

end Delivery

/-! ## promise と waitpoint の対応 -/

section Answer

variable {m : RuntimeManager} {batch : String} {l : List IndexedWaitpoint}

/-- resolver と、取っておいた waitpoint と、resolve された promise が index を守る。 -/
structure Matched (batch : String) (l : List IndexedWaitpoint) (m : RuntimeManager) : Prop where
  resolver : ∀ {key j}, m.resolversById.get key = some j → key = batchResolverId batch (some j)
  stored : ∀ {j cw}, (batchResolverId batch (some j), cw) ∈ m.waitpointsByResolverId →
    (cw.id, some j) ∈ l
  answered : ∀ {j cw}, (j, cw) ∈ m.resolved → (cw.id, some j) ∈ l

theorem Matched.deliver (h : Matched batch l m) {cw : CompletedWaitpoint} {key : String}
    (hkey : ∀ j, key = batchResolverId batch (some j) → (cw.id, some j) ∈ l) :
    Matched batch l (m.deliver cw key) := by
  unfold RuntimeManager.deliver
  split
  · refine ⟨h.resolver, fun {j cw'} hmem => ?_, h.answered⟩
    rcases JsMap.mem_set hmem with hmem | ⟨heq, rfl⟩
    · exact h.stored hmem
    · exact hkey j heq.symm
  · next promise hpromise =>
    refine ⟨fun {key' j} hget => ?_, fun {j cw'} hmem => ?_, fun {j cw'} hmem => ?_⟩
    · rw [JsMap.get_delete] at hget
      split at hget
      · cases hget
      · exact h.resolver hget
    · exact h.stored (List.mem_filter.mp hmem).1
    · rcases List.mem_append.mp hmem with hmem | hmem
      · exact h.answered hmem
      · rw [List.mem_singleton] at hmem
        cases hmem
        exact hkey promise (h.resolver hpromise)

theorem Matched.resolveWaitpoint (h : Matched batch l m) {cw : CompletedWaitpoint}
    {key : Option String} (hkey : ∀ j, cw.type ≠ .batch →
      (key <|> resolverIdFromWaitpoint cw) = some (batchResolverId batch (some j)) →
      (cw.id, some j) ∈ l) : Matched batch l (m.resolveWaitpoint cw key) := by
  unfold RuntimeManager.resolveWaitpoint
  split
  · exact h
  · next htype =>
    split
    · exact h
    · next resolverId hid =>
      refine h.deliver fun j heq => hkey j htype ?_
      rw [← heq]
      exact (Option.filter_eq_some_iff.mp hid).1

/-- promise `i` は resolve されたか、resolver が残っている。 -/
def Awaited (batch : String) (i : ℕ) (m : RuntimeManager) : Prop :=
  (∃ cw, (i, cw) ∈ m.resolved) ∨ m.resolversById.get (batchResolverId batch (some i)) = some i

theorem deliver_answers (h : Awaited batch i m) (cw : CompletedWaitpoint) :
    ∃ cw', (i, cw') ∈ (m.deliver cw (batchResolverId batch (some i))).resolved := by
  unfold deliver
  rcases h with ⟨cw', hmem⟩ | hget
  · refine ⟨cw', ?_⟩
    split
    · exact hmem
    · exact List.mem_append_left _ hmem
  · rw [hget]
    exact ⟨cw, List.mem_append_right _ (List.mem_singleton_self _)⟩

theorem Awaited.deliver (h : Awaited batch i m) (cw : CompletedWaitpoint) (key : String) :
    Awaited batch i (m.deliver cw key) := by
  by_cases hkey : key = batchResolverId batch (some i)
  · rw [hkey]
    exact .inl (deliver_answers h cw)
  · unfold RuntimeManager.deliver
    split
    · exact h
    · rcases h with ⟨cw', hmem⟩ | hget
      · exact .inl ⟨cw', List.mem_append_left _ hmem⟩
      · refine .inr ?_
        rw [JsMap.get_delete, if_neg (Ne.symm hkey)]
        exact hget

theorem Awaited.resolveWaitpoint (h : Awaited batch i m) (cw : CompletedWaitpoint)
    (key : Option String) : Awaited batch i (m.resolveWaitpoint cw key) := by
  unfold RuntimeManager.resolveWaitpoint
  split
  · exact h
  · split
    · exact h
    · exact h.deliver cw _

theorem resolveWaitpoint_answers (h : Awaited batch i m) {cw : CompletedWaitpoint}
    {key : Option String} (htype : cw.type ≠ .batch)
    (hkey : (key <|> resolverIdFromWaitpoint cw) = some (batchResolverId batch (some i))) :
    ∃ cw', (i, cw') ∈ (m.resolveWaitpoint cw key).resolved := by
  unfold RuntimeManager.resolveWaitpoint
  rw [if_neg htype, hkey, Option.filter_some_pos (by simpa using batchResolverId_ne_empty _ _)]
  exact deliver_answers h cw

theorem mem_resolved_mono {cw : CompletedWaitpoint} (h : (i, cw) ∈ m.resolved)
    (cw' : CompletedWaitpoint) (key : Option String) :
    (i, cw) ∈ (m.resolveWaitpoint cw' key).resolved := by
  unfold RuntimeManager.resolveWaitpoint
  split
  · exact h
  · split
    · exact h
    · unfold deliver
      split
      · exact h
      · exact List.mem_append_left _ h

/-- waitpoint の列を順に渡す。`resolveWaitpoints` と `resolvePendingWaitpoints` に共通の loop である。 -/
def resolveAll (m : RuntimeManager) (ws : List (CompletedWaitpoint × Option String)) : RuntimeManager :=
  ws.foldl (fun m w => m.resolveWaitpoint w.1 w.2) m

variable {ws : List (CompletedWaitpoint × Option String)}

theorem resolveWaitpoints_eq (m : RuntimeManager) (cws : List CompletedWaitpoint) :
    m.resolveWaitpoints cws = m.resolveAll (cws.map fun cw => (cw, none)) := by
  unfold resolveWaitpoints resolveAll
  rw [List.foldl_map]

theorem resolvePendingWaitpoints_eq (m : RuntimeManager) :
    m.resolvePendingWaitpoints =
      m.resolveAll (m.waitpointsByResolverId.map fun entry => (entry.2, some entry.1)) := by
  unfold resolvePendingWaitpoints resolveAll
  rw [List.foldl_map]

/-- `i` へ向かう waitpoint を含む列を渡し終えると、promise `i` は resolve されている。 -/
theorem resolveAll_answers : ∀ {m : RuntimeManager}, Awaited batch i m →
    (∃ w ∈ ws, w.1.type ≠ .batch ∧
      (w.2 <|> resolverIdFromWaitpoint w.1) = some (batchResolverId batch (some i))) →
    ∃ cw, (i, cw) ∈ (m.resolveAll ws).resolved := by
  have hmono : ∀ (ws : List (CompletedWaitpoint × Option String)) {m : RuntimeManager}
      {cw : CompletedWaitpoint}, (i, cw) ∈ m.resolved → (i, cw) ∈ (m.resolveAll ws).resolved := by
    intro ws
    induction ws with
    | nil => exact fun h => h
    | cons w ws ih => exact fun h => ih (mem_resolved_mono h w.1 w.2)
  induction ws with
  | nil =>
    rintro m h ⟨w, hw, -⟩
    cases hw
  | cons w ws ih =>
    rintro m h ⟨w', hmem, htype, hkey⟩
    rcases List.mem_cons.mp hmem with rfl | hmem
    · obtain ⟨cw, hcw⟩ := resolveWaitpoint_answers h htype hkey
      exact ⟨cw, hmono ws hcw⟩
    · exact ih (h.resolveWaitpoint w.1 w.2) ⟨w', hmem, htype, hkey⟩

theorem Awaited.resolveAll : ∀ {m : RuntimeManager}, Awaited batch i m →
    Awaited batch i (m.resolveAll ws) := by
  induction ws with
  | nil => exact fun h => h
  | cons w ws ih => exact fun h => ih (h.resolveWaitpoint w.1 w.2)

theorem Matched.resolveAll : ∀ {m : RuntimeManager}, Matched batch l m →
    (∀ w ∈ ws, ∀ j, w.1.type ≠ .batch →
      (w.2 <|> resolverIdFromWaitpoint w.1) = some (batchResolverId batch (some j)) →
      (w.1.id, some j) ∈ l) → Matched batch l (m.resolveAll ws) := by
  induction ws with
  | nil => exact fun h _ => h
  | cons w ws ih =>
    intro m h hws
    refine ih (h.resolveWaitpoint (hws w List.mem_cons_self)) fun w' hw' => ?_
    exact hws w' (List.mem_cons_of_mem _ hw')

/-- `waitForBatch` が作る resolver。 -/
def resolversFor (batch : String) (runCount : ℕ) (resolvers : JsMap ℕ) : JsMap ℕ :=
  (List.range runCount).foldl
    (fun resolvers index => resolvers.set (batchResolverId batch (some index)) index) resolvers

theorem get_resolversFor {runCount : ℕ} {key : String} {j : ℕ} :
    (resolversFor batch runCount []).get key = some j ↔
      j < runCount ∧ key = batchResolverId batch (some j) := by
  unfold resolversFor
  induction runCount with
  | zero => simp [JsMap.get]
  | succ n ih =>
    rw [List.range_succ, List.foldl_append, List.foldl_cons, List.foldl_nil, JsMap.get_set]
    split
    · next hkey =>
      subst hkey
      constructor
      · intro h
        cases h
        exact ⟨Nat.lt_succ_self _, rfl⟩
      · rintro ⟨-, h⟩
        exact batchResolverId_injective h
    · next hkey =>
      rw [ih]
      constructor
      · rintro ⟨hlt, h⟩
        exact ⟨Nat.lt_succ_of_lt hlt, h⟩
      · rintro ⟨hlt, rfl⟩
        refine ⟨lt_of_le_of_ne (Nat.le_of_lt_succ hlt) fun heq => hkey ?_, rfl⟩
        rw [heq]

/-- 他の wait は残っておらず、この batch の waitpoint はまだ届いていない。 -/
structure Idle (batch : String) (m : RuntimeManager) : Prop where
  resolvers : m.resolversById = []
  resolved : m.resolved = []
  waitpoints : ∀ i, batchResolverId batch (some i) ∉ m.waitpointsByResolverId.map Prod.fst

theorem Idle.matched (h : Idle batch m) : Matched batch l m where
  resolver hget := by
    rw [h.resolvers] at hget
    cases hget
  stored hmem := absurd (List.mem_map.mpr ⟨_, hmem, rfl⟩) (h.waitpoints _)
  answered hmem := by
    rw [h.resolved] at hmem
    cases hmem

theorem waitForBatch_eq (hm : m.resolversById = []) {runCount : ℕ} (hcount : runCount ≠ 0) :
    m.waitForBatch batch runCount =
      resolveAll { m with resolversById := resolversFor batch runCount [] }
        (m.waitpointsByResolverId.map fun entry => (entry.2, some entry.1)) := by
  unfold waitForBatch
  rw [if_neg hcount, resolvePendingWaitpoints_eq, hm]
  rfl

theorem Matched.waitForBatch (h : Matched batch l m) (hm : m.resolversById = []) (runCount : ℕ) :
    Matched batch l (m.waitForBatch batch runCount) := by
  by_cases hcount : runCount = 0
  · unfold RuntimeManager.waitForBatch
    rw [if_pos hcount]
    exact h
  · rw [waitForBatch_eq hm hcount]
    refine Matched.resolveAll ⟨fun hget => (get_resolversFor.mp hget).2, h.stored, h.answered⟩ ?_
    intro w hw j _ hkey
    obtain ⟨entry, hentry, rfl⟩ := List.mem_map.mp hw
    refine h.stored (j := j) ?_
    rw [← Option.some.inj hkey]
    exact hentry

theorem waitForBatch_awaited (hm : m.resolversById = []) {runCount : ℕ} (hi : i < runCount) :
    Awaited batch i (m.waitForBatch batch runCount) := by
  rw [waitForBatch_eq hm (Nat.ne_zero_of_lt hi)]
  exact Awaited.resolveAll (.inr (get_resolversFor.mpr ⟨hi, rfl⟩))

/-- 先に届いていた waitpoint は、promise が作られたときに渡される。 -/
theorem waitForBatch_answers (hm : m.resolversById = []) {runCount : ℕ} (hi : i < runCount)
    {cw : CompletedWaitpoint} (htype : cw.type ≠ .batch)
    (hstored : m.waitpointsByResolverId.get (batchResolverId batch (some i)) = some cw) :
    ∃ cw', (i, cw') ∈ (m.waitForBatch batch runCount).resolved := by
  rw [waitForBatch_eq hm (Nat.ne_zero_of_lt hi)]
  refine resolveAll_answers (.inr (get_resolversFor.mpr ⟨hi, rfl⟩))
    ⟨(cw, some (batchResolverId batch (some i))), ?_, htype, rfl⟩
  exact List.mem_map.mpr ⟨_, JsMap.mem_of_get hstored, rfl⟩

/-- 取っておいた waitpoint。 -/
def Stored (batch : String) (i : ℕ) (m : RuntimeManager) : Prop :=
  ∃ cw, m.waitpointsByResolverId.get (batchResolverId batch (some i)) = some cw ∧ cw.type ≠ .batch

theorem deliver_idle (hm : m.resolversById = []) (cw : CompletedWaitpoint) (key : String) :
    m.deliver cw key = { m with waitpointsByResolverId := m.waitpointsByResolverId.set key cw } := by
  unfold deliver
  rw [hm]
  rfl

theorem resolveWaitpoint_idle (hm : m.resolversById = []) (cw : CompletedWaitpoint)
    (key : Option String) : (m.resolveWaitpoint cw key).resolversById = [] := by
  unfold RuntimeManager.resolveWaitpoint
  split
  · exact hm
  · split
    · exact hm
    · rw [deliver_idle hm]
      exact hm

theorem Stored.resolveWaitpoint (h : Stored batch i m) (hm : m.resolversById = [])
    (cw : CompletedWaitpoint) (key : Option String) : Stored batch i (m.resolveWaitpoint cw key) := by
  unfold RuntimeManager.resolveWaitpoint
  split
  · exact h
  · next htype =>
    split
    · exact h
    · next resolverId _ =>
      rw [deliver_idle hm]
      unfold Stored
      rw [JsMap.get_set]
      split
      · exact ⟨cw, rfl, htype⟩
      · exact h

theorem resolveWaitpoint_stores (hm : m.resolversById = []) {cw : CompletedWaitpoint}
    {key : Option String} (htype : cw.type ≠ .batch)
    (hkey : (key <|> resolverIdFromWaitpoint cw) = some (batchResolverId batch (some i))) :
    Stored batch i (m.resolveWaitpoint cw key) := by
  unfold RuntimeManager.resolveWaitpoint
  rw [if_neg htype, hkey, Option.filter_some_pos (by simpa using batchResolverId_ne_empty _ _)]
  dsimp only
  rw [deliver_idle hm]
  exact ⟨cw, JsMap.get_set_self _ _ _, htype⟩

/-- resolver が無い間に渡した列は取っておかれる。 -/
theorem resolveAll_stores : ∀ {m : RuntimeManager}, m.resolversById = [] →
    (∃ w ∈ ws, w.1.type ≠ .batch ∧
      (w.2 <|> resolverIdFromWaitpoint w.1) = some (batchResolverId batch (some i))) →
    Stored batch i (m.resolveAll ws) := by
  have hkept : ∀ (ws : List (CompletedWaitpoint × Option String)) {m : RuntimeManager},
      m.resolversById = [] → Stored batch i m → Stored batch i (m.resolveAll ws) := by
    intro ws
    induction ws with
    | nil => exact fun _ h => h
    | cons w ws ih =>
      exact fun hm h => ih (resolveWaitpoint_idle hm w.1 w.2) (h.resolveWaitpoint hm w.1 w.2)
  induction ws with
  | nil =>
    rintro m hm ⟨w, hw, -⟩
    cases hw
  | cons w ws ih =>
    rintro m hm ⟨w', hmem, htype, hkey⟩
    rcases List.mem_cons.mp hmem with rfl | hmem
    · exact hkept ws (resolveWaitpoint_idle hm _ _) (resolveWaitpoint_stores hm htype hkey)
    · exact ih (resolveWaitpoint_idle hm w.1 w.2) ⟨w', hmem, htype, hkey⟩

theorem resolveAll_idle : ∀ {m : RuntimeManager}, m.resolversById = [] →
    (m.resolveAll ws).resolversById = [] := by
  induction ws with
  | nil => exact fun hm => hm
  | cons w ws ih => exact fun hm => ih (resolveWaitpoint_idle hm w.1 w.2)

end Answer

end RuntimeManager

/-! ## waitForBatch -/

/-- waitpoint は `waitForBatch` の前にも後にも届く。 -/
def deliveredTo (early : Bool) (batch : String) (runCount : ℕ) (cws : List CompletedWaitpoint)
    (m : RuntimeManager) : RuntimeManager :=
  if early then (m.resolveWaitpoints cws).waitForBatch batch runCount
  else (m.waitForBatch batch runCount).resolveWaitpoints cws

/-- promise `i` は、index `i` で block した waitpoint で resolve され、他のものでは resolve されない。 -/
def AnswersByIndex (l : List IndexedWaitpoint) (runCount : ℕ) (m : RuntimeManager) : Prop :=
  ∀ i < runCount, (∀ cw, (i, cw) ∈ m.resolved → (cw.id, some i) ∈ l) ∧
    ∀ w, (w, some i) ∈ l → ∃ cw, (i, cw) ∈ m.resolved ∧ cw.id = w

/-- index の付いた組は、run の完了を待つ waitpoint である。 -/
def RunWaitpoints (waitpoint : String → Waitpoint) (l : List IndexedWaitpoint) : Prop :=
  ∀ w i, (w, some i) ∈ l →
    (waitpoint w).type = .run ∧ (waitpoint w).completedByTaskRunId ≠ none

section WaitForBatch

open RuntimeManager

variable {waitpoint : String → Waitpoint} {batchId : String} {m : RuntimeManager}
  {pairs : List IndexedWaitpoint}

theorem deliveredTo_matched (waitpoint : String → Waitpoint)
    (hm : m.Idle (toFriendlyId "batch" batchId)) (hpairs : ∀ p ∈ pairs, p ∈ l) (early : Bool)
    (runCount : ℕ) :
    Matched (toFriendlyId "batch" batchId) l
      (deliveredTo early (toFriendlyId "batch" batchId) runCount
        (pairs.map (completedWaitpoint waitpoint (some batchId))) m) := by
  have hindex : ∀ w ∈ (pairs.map (completedWaitpoint waitpoint (some batchId))).map
      (fun cw => (cw, (none : Option String))), ∀ j, w.1.type ≠ .batch →
      (w.2 <|> resolverIdFromWaitpoint w.1) =
        some (batchResolverId (toFriendlyId "batch" batchId) (some j)) → (w.1.id, some j) ∈ l := by
    intro w hw j htype hkey
    obtain ⟨cw, hcw, rfl⟩ := List.mem_map.mp hw
    obtain ⟨p, hp, rfl⟩ := List.mem_map.mp hcw
    have hj : p.2 = some j := index_of_resolverId htype hkey
    rw [← hj]
    exact hpairs p hp
  cases early with
  | true =>
    show Matched _ l ((m.resolveWaitpoints _).waitForBatch _ runCount)
    rw [resolveWaitpoints_eq]
    exact (hm.matched.resolveAll hindex).waitForBatch (resolveAll_idle hm.resolvers) runCount
  | false =>
    show Matched _ l ((m.waitForBatch _ runCount).resolveWaitpoints _)
    rw [resolveWaitpoints_eq]
    exact (hm.matched.waitForBatch hm.resolvers runCount).resolveAll hindex

theorem deliveredTo_answers (hm : m.Idle (toFriendlyId "batch" batchId))
    (hrun : RunWaitpoints waitpoint pairs) {runCount : ℕ} (hi : i < runCount)
    (hpair : (w, some i) ∈ pairs) (early : Bool) :
    ∃ cw, (i, cw) ∈ (deliveredTo early (toFriendlyId "batch" batchId) runCount
      (pairs.map (completedWaitpoint waitpoint (some batchId))) m).resolved := by
  obtain ⟨htype, hcompleted⟩ := hrun w i hpair
  have hsent : ∃ w ∈ (pairs.map (completedWaitpoint waitpoint (some batchId))).map
      (fun cw => (cw, (none : Option String))), w.1.type ≠ .batch ∧
      (w.2 <|> resolverIdFromWaitpoint w.1) =
        some (batchResolverId (toFriendlyId "batch" batchId) (some i)) := by
    refine ⟨_, List.mem_map.mpr ⟨_, List.mem_map.mpr ⟨_, hpair, rfl⟩, rfl⟩, ?_, ?_⟩
    · show (waitpoint w).type ≠ .batch
      rw [htype]
      simp
    · exact resolverId_of_run htype hcompleted
  cases early with
  | true =>
    show ∃ cw, (i, cw) ∈ ((m.resolveWaitpoints _).waitForBatch _ runCount).resolved
    rw [resolveWaitpoints_eq]
    obtain ⟨cw, hget, hbatch⟩ := resolveAll_stores hm.resolvers hsent
    exact waitForBatch_answers (resolveAll_idle hm.resolvers) hi hbatch hget
  | false =>
    show ∃ cw, (i, cw) ∈ ((m.waitForBatch _ runCount).resolveWaitpoints _).resolved
    rw [resolveWaitpoints_eq]
    exact resolveAll_answers (waitForBatch_awaited hm.resolvers hi) hsent

/--
**batch の結果が自分の index に届くのは、index が 0 から隙間なく一度ずつ現れ、index の付いた id が index 無しでも
現れることがないときであり、そのときに限る。** 引き継ぐ回数にはよらない。
-/
theorem batch_index_iff (hrun : RunWaitpoints waitpoint l) (batchId : String) (fetch : Fetch)
    (fs : List Fetch) :
    ((∀ p, p ∈ carried fetch fs l ↔ p ∈ l) ∧
      ∀ early runCount m, RuntimeManager.Idle (toFriendlyId "batch" batchId) m →
        AnswersByIndex l runCount (deliveredTo early (toFriendlyId "batch" batchId) runCount
          ((carried fetch fs l).map (completedWaitpoint waitpoint (some batchId))) m)) ↔
      Indexed l := by
  rw [← mem_carried_iff fetch fs l]
  refine ⟨And.left, fun h => ⟨h, fun early runCount m hm i hi => ?_⟩⟩
  have hmatched := deliveredTo_matched waitpoint hm (fun p => (h p).mp) early runCount
  refine ⟨fun cw hcw => hmatched.answered hcw, fun w hpair => ?_⟩
  have hrun' : RunWaitpoints waitpoint (carried fetch fs l) :=
    fun w i hmem => hrun w i ((h _).mp hmem)
  obtain ⟨cw, hcw⟩ := deliveredTo_answers hm hrun' hi ((h _).mpr hpair) early
  -- index が一度しか現れないので、届いたものは `w` である。
  have hindexed : Indexed l := (mem_carried_iff fetch fs l).mp h
  have hsame := ((waitpointOrder_getElem? hindexed).mpr hpair).symm.trans
    ((waitpointOrder_getElem? hindexed).mpr (hmatched.answered hcw))
  exact ⟨cw, hcw, (Option.some.inj hsame).symm⟩

end WaitForBatch

/-- どの waitpoint も、同じ名前の run の完了を待つ。 -/
def sampleWaitpoint (id : String) : Waitpoint := ⟨.run, some id, none⟩

theorem batch_index_two : RunWaitpoints sampleWaitpoint [("a", some 1), ("b", some 0)] ∧
    ∀ p, p ∈ carried sampleFetch [sampleFetch] [("a", some 1), ("b", some 0)] ↔
      p ∈ [("a", some 1), ("b", some 0)] := by
  have hrun : RunWaitpoints sampleWaitpoint [("a", some 1), ("b", some 0)] :=
    fun _ _ _ => ⟨rfl, by simp [sampleWaitpoint]⟩
  refine ⟨hrun, ((batch_index_iff hrun "x" sampleFetch [sampleFetch]).mpr ⟨?_, ?_⟩).1⟩
  · decide
  · intro w i _ hnone
    simp at hnone

/-- 番号 1 の item が run を作らなかった batch では、番号 2 の結果が番号 1 の promise に届く。 -/
theorem batch_index_shifted :
    ("b", some 1) ∈ carried sampleFetch [] [("a", some 0), ("b", some 2)] ∧
    ("b", some 2) ∉ carried sampleFetch [] [("a", some 0), ("b", some 2)] ∧
    ¬ AnswersByIndex [("a", some 0), ("b", some 2)] 3
      (deliveredTo true (toFriendlyId "batch" "x") 3
        ((carried sampleFetch [] [("a", some 0), ("b", some 2)]).map
          (completedWaitpoint sampleWaitpoint (some "x"))) ⟨[], [], []⟩) := by
  refine ⟨by decide, by decide, fun h => ?_⟩
  have hmem := (h 1 (by decide)).1
    (completedWaitpoint sampleWaitpoint (some "x") ("b", some 1)) (by decide +kernel)
  simp [completedWaitpoint] at hmem

end RunEngine
