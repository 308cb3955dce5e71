import Trigger.Runs.Repository

/-!
# 一覧を辿る

`listRuns` の cursor を次の要求に渡して page を辿る。要求ごとに、ClickHouse が答えても Postgres が答えてもよい。

後ろへ辿る page は、`runIds.slice(1, size + 1)` で、cursor に近いほうの一つを落とす。
-/

namespace Runs

open Infra.Keyset

variable {ι : Type} {size : Nat}

/-! ## 一つ余分に読んだ並び -/

theorem nextCursor_paginate (cursor : Option ι) (l : List ι) (hsize : 0 < size) :
    (paginate ⟨size, cursor, some .forward⟩ (l.take (size + 1))).nextCursor =
      if size < l.length then l[size - 1]? else none := by
  have hlen : size < (l.take (size + 1)).length ↔ size < l.length := by
    rw [List.length_take]
    omega
  unfold paginate
  simp only [Option.getD_some, hlen]
  split
  · rw [List.getElem?_take_of_lt (by omega)]
  · rfl

theorem previousCursor_paginate (cursor : Option ι) (l : List ι) (hsize : 0 < size) :
    (paginate ⟨size, cursor, some .backward⟩ (l.take (size + 1))).previousCursor =
      if size < l.length then l[size - 1]? else none := by
  have hlen : size < (l.take (size + 1)).length ↔ size < l.length := by
    rw [List.length_take]
    omega
  unfold paginate
  simp only [Option.getD_some, hlen]
  split
  · next hlt =>
    have htake : (l.take (size + 1)).length = size + 1 := by
      rw [List.length_take]
      omega
    dsimp only
    rw [List.getElem?_reverse (by omega), htake, List.getElem?_take_of_lt (by omega)]
    rfl
  · rfl

theorem toReturn_forward {α : Type} (cursor : Option ι) (l : List α) :
    toReturn ⟨size, cursor, some .forward⟩ (l.take (size + 1)) = l.take size := by
  unfold toReturn
  rw [if_neg (fun h => Direction.noConfusion (Option.some.inj h.1)), List.take_take]
  exact congrArg (l.take ·) (Nat.min_eq_left (Nat.le_succ size))

theorem toReturn_backward {α : Type} (cursor : Option ι) (l : List α) :
    toReturn ⟨size, cursor, some .backward⟩ (l.take (size + 1)) =
      if size < l.length then (l.drop 1).take size else l := by
  have hlen : size < (l.take (size + 1)).length ↔ size < l.length := by
    rw [List.length_take]
    omega
  unfold toReturn
  simp only [true_and, hlen]
  split
  · rw [List.take_take, Nat.min_self, List.drop_take, Nat.add_sub_cancel]
  · rw [List.take_take, Nat.min_eq_left (by omega), List.take_of_length_le (by omega)]

theorem map_toReturn {α β : Type} (page : Page ι) (f : α → β) (l : List α) :
    (toReturn page l).map f = toReturn page (l.map f) := by
  unfold toReturn
  rw [List.length_map]
  split
  · rw [List.map_drop, List.map_take]
  · rw [List.map_take]

theorem mem_toReturn {α : Type} {page : Page ι} {l : List α} {a : α} (h : a ∈ toReturn page l) :
    a ∈ l := by
  unfold toReturn at h
  split at h
  · exact List.mem_of_mem_take (List.mem_of_mem_drop h)
  · exact List.mem_of_mem_take h

/-! ## 読んだ並び -/

variable [LinearOrder ι] {rows : List (Row ι)}

theorem ClickHouse.listRunIds_forward (h : Chronological rows) (cursor : Option ι)
    {direction : Option Direction} (hdirection : direction ≠ some .backward) :
    ClickHouse.listRunIds rows ⟨size, cursor, direction⟩ =
      (after (descending (rows.map (·.id))) cursor).take (size + 1) := by
  unfold ClickHouse.listRunIds
  cases cursor with
  | none =>
    rw [List.map_take, map_id_mergeSort h.nodup newestFirst_trans newestFirst_total fun a ha b hb =>
      h.le_of_newestFirst ha hb]
    rfl
  | some runId =>
    have hfilter := h.filter (·.id < runId)
    have hids := map_id_mergeSort hfilter.nodup newestFirst_trans newestFirst_total fun a ha b hb =>
      hfilter.le_of_newestFirst ha hb
    rw [descending_filter h.nodup (· < runId)] at hids
    dsimp only
    split
    · exact absurd rfl hdirection
    · rw [List.map_take, hids]
      rfl

theorem ClickHouse.listRunIds_backward (h : Chronological rows) (runId : ι) :
    ClickHouse.listRunIds rows ⟨size, some runId, some .backward⟩ =
      (above (descending (rows.map (·.id))) runId).take (size + 1) := by
  have hfilter := h.filter (runId < ·.id)
  have hids := map_id_mergeSort_reverse hfilter.nodup newestFirst_trans newestFirst_total
    fun a ha b hb => hfilter.le_of_newestFirst ha hb
  rw [descending_filter h.nodup (runId < ·)] at hids
  unfold ClickHouse.listRunIds
  rw [List.map_take, hids]
  rfl

theorem Postgres.listRunIds_forward (h : (rows.map (·.id)).Nodup) (cursor : Option ι)
    {direction : Option Direction} (hdirection : direction ≠ some .backward) :
    Postgres.listRunIds rows ⟨size, cursor, direction⟩ =
      (after (descending (rows.map (·.id))) cursor).take (size + 1) := by
  have hle : ∀ a b : Row ι, idDesc a b → b.id ≤ a.id := fun a b hab => of_decide_eq_true hab
  unfold Postgres.listRunIds Postgres.runsQuery
  dsimp only
  split
  · exact absurd rfl hdirection
  · cases cursor with
    | none =>
      rw [List.map_take, map_id_mergeSort h idDesc_trans idDesc_total fun a _ b _ => hle a b]
      rfl
    | some runId =>
      have hsub : ((rows.filter (·.id < runId)).map (·.id)).Nodup :=
        h.sublist (List.filter_sublist.map _)
      have hids := map_id_mergeSort hsub idDesc_trans idDesc_total fun a _ b _ => hle a b
      rw [descending_filter h (· < runId)] at hids
      dsimp only
      split
      · exact absurd rfl hdirection
      · rw [List.map_take, hids]
        rfl

theorem Postgres.listRunIds_backward (h : (rows.map (·.id)).Nodup) (runId : ι) :
    Postgres.listRunIds rows ⟨size, some runId, some .backward⟩ =
      (above (descending (rows.map (·.id))) runId).take (size + 1) := by
  have hsub : ((rows.filter (runId < ·.id)).map (·.id)).Nodup :=
    h.sublist (List.filter_sublist.map _)
  have hids := map_id_mergeSort_reverse hsub idDesc_trans idDesc_total fun a _ b _ =>
    fun hab => of_decide_eq_true hab
  rw [descending_filter h (runId < ·)] at hids
  unfold Postgres.listRunIds Postgres.runsQuery
  rw [List.map_take]
  dsimp only
  rw [hids]
  rfl

/-! ## 一覧の中身 -/

/-- 返される run である。 -/
def kept (table : List (Row ι)) (statuses : List String) (id : ι) : Bool :=
  statuses = [] || table.any fun row => row.id = id && row.status ∈ statuses

theorem map_id_filterStatuses {table runs : List (Row ι)} (htable : (table.map (·.id)).Nodup)
    (hruns : ∀ row ∈ runs, row ∈ table) (statuses : List String) :
    (filterStatuses statuses runs).map (·.id) = (runs.map (·.id)).filter (kept table statuses) := by
  unfold filterStatuses
  split
  · next hnil =>
    refine (List.filter_eq_self.mpr fun id _ => ?_).symm
    simp [kept, hnil]
  · next hne =>
    rw [List.filter_map]
    refine congrArg _ (List.filter_congr fun row hrow => ?_)
    have hiff : kept table statuses row.id = true ↔ row.status ∈ statuses := by
      simp only [kept, hne, decide_false, Bool.false_or, List.any_eq_true, Bool.and_eq_true,
        decide_eq_true_eq]
      constructor
      · rintro ⟨row', hrow', hid, hstatus⟩
        rwa [List.inj_on_of_nodup_map htable (hruns row hrow) hrow' hid.symm]
      · exact fun hstatus => ⟨row, hruns row hrow, rfl, hstatus⟩
    rw [Function.comp_apply, Bool.eq_iff_iff, decide_eq_true_iff, hiff]

/-- `table` から読んだものは、id の大きい順に並ぶ。 -/
theorem map_id_table {table : List (Row ι)} (htable : (table.map (·.id)).Nodup) {ids : List ι}
    (hids : ids.Nodup) (hmem : ∀ id ∈ ids, id ∈ table.map (·.id)) :
    ((table.filter (·.id ∈ ids)).mergeSort idDesc).map (·.id) = descending ids := by
  have hsub : ((table.filter (·.id ∈ ids)).map (·.id)).Nodup :=
    htable.sublist (List.filter_sublist.map _)
  rw [map_id_mergeSort hsub idDesc_trans idDesc_total fun a _ b _ hab => of_decide_eq_true hab]
  refine (falling_descending hsub).eq_of_mem_iff (falling_descending hids) fun id => ?_
  rw [mem_descending, mem_descending, List.mem_map]
  constructor
  · rintro ⟨row, hrow, rfl⟩
    exact of_decide_eq_true (List.mem_filter.mp hrow).2
  · intro hid
    obtain ⟨row, hrow, rfl⟩ := List.mem_map.mp (hmem id hid)
    exact ⟨row, List.mem_filter.mpr ⟨hrow, decide_eq_true hid⟩, rfl⟩

/-! ## 辿った結果 -/

/-- ClickHouse が追いついている。Postgres の条件に合う行は、同じ run である。 -/
structure CaughtUp (s : Stores ι) : Prop where
  chronological : Chronological s.clickhouse
  nodup : (s.postgres.map (·.id)).Nodup
  same : ∀ id, id ∈ s.postgres.map (·.id) ↔ id ∈ s.clickhouse.map (·.id)
  table : (s.table.map (·.id)).Nodup
  subset : ∀ row ∈ s.postgres, row ∈ s.table

/-- 前へ辿る page と、次の cursor。 -/
def forwardPage (s : Stores ι) (statuses : List String) (size : Nat) (repository : Repository)
    (cursor : Option ι) : List ι × Option ι :=
  let listed := listRuns s statuses ⟨size, cursor, some .forward⟩ repository
  (listed.runs.map (·.id), listed.pagination.nextCursor)

/-- 後ろへ辿る page と、次の cursor。run は古いものから並べる。ClickHouse の page は新しいものから並んでいる。 -/
def backwardPage (s : Stores ι) (statuses : List String) (size : Nat) (repository : Repository)
    (cursor : Option ι) : List ι × Option ι :=
  let listed := listRuns s statuses ⟨size, cursor, some .backward⟩ repository
  let ids := listed.runs.map (·.id)
  (match repository with
    | .clickhouse => ids.reverse
    | .postgres => ids, listed.pagination.previousCursor)

section Walk

variable {s : Stores ι} {statuses : List String}

theorem CaughtUp.descending_postgres (h : CaughtUp s) :
    descending (s.postgres.map (·.id)) = descending (s.clickhouse.map (·.id)) := by
  refine (falling_descending h.nodup).eq_of_mem_iff (falling_descending h.chronological.nodup)
    fun id => ?_
  rw [mem_descending, mem_descending, h.same]

theorem CaughtUp.mem_table (h : CaughtUp s) {id : ι}
    (hid : id ∈ descending (s.clickhouse.map (·.id))) : id ∈ s.table.map (·.id) := by
  obtain ⟨row, hrow, rfl⟩ := List.mem_map.mp ((h.same id).mpr (mem_descending.mp hid))
  exact List.mem_map_of_mem (h.subset row hrow)

theorem mem_runsQuery {page : Page ι} {row : Row ι} (h : row ∈ Postgres.runsQuery rows page) :
    row ∈ rows := by
  unfold Postgres.runsQuery at h
  have hmem := List.mem_of_mem_take h
  split at hmem <;> rw [(List.mergeSort_perm _ _).mem_iff] at hmem <;> split at hmem
  · exact hmem
  · split at hmem <;> exact List.mem_of_mem_filter hmem
  · exact hmem
  · split at hmem <;> exact List.mem_of_mem_filter hmem

/-- ClickHouse から読んで返される run。 -/
theorem map_id_listRuns_clickhouse (h : CaughtUp s) {page : Page ι} {l : List ι}
    (hids : ClickHouse.listRunIds s.clickhouse page = l) (hnodup : (toReturn page l).Nodup)
    (hmem : ∀ id ∈ l, id ∈ descending (s.clickhouse.map (·.id))) :
    (listRuns s statuses page .clickhouse).runs.map (·.id) =
      (descending (toReturn page l)).filter (kept s.table statuses) := by
  show (filterStatuses statuses ((s.table.filter (·.id ∈ toReturn page
    (ClickHouse.listRunIds s.clickhouse page))).mergeSort idDesc)).map (·.id) = _
  rw [hids, map_id_filterStatuses h.table, map_id_table h.table hnodup]
  · exact fun id hid => h.mem_table (hmem id (mem_toReturn hid))
  · exact fun row hrow => List.mem_of_mem_filter ((List.mergeSort_perm _ _).mem_iff.mp hrow)

theorem map_id_listRuns_postgres (h : CaughtUp s) {page : Page ι} {l : List ι}
    (hids : Postgres.listRunIds s.postgres page = l) :
    (listRuns s statuses page .postgres).runs.map (·.id) =
      (toReturn page l).filter (kept s.table statuses) := by
  show (filterStatuses statuses (toReturn page (Postgres.runsQuery s.postgres page))).map (·.id) = _
  have hmem : ∀ row ∈ toReturn page (Postgres.runsQuery s.postgres page), row ∈ s.table :=
    fun row hrow => h.subset row (mem_runsQuery (mem_toReturn hrow))
  rw [map_id_filterStatuses h.table hmem, map_toReturn]
  exact congrArg (fun l => (toReturn page l).filter _) hids

theorem pagination_listRuns {page : Page ι} {l : List ι}
    (hclickhouse : ClickHouse.listRunIds s.clickhouse page = l)
    (hpostgres : Postgres.listRunIds s.postgres page = l) (repository : Repository) :
    (listRuns s statuses page repository).pagination = paginate page l := by
  cases repository with
  | clickhouse => exact congrArg (paginate page) hclickhouse
  | postgres => exact congrArg (paginate page) hpostgres

theorem forwardPage_eq (h : CaughtUp s) (hsize : 0 < size) (repository : Repository)
    (cursor : Option ι) :
    let rest := after (descending (s.clickhouse.map (·.id))) cursor
    forwardPage s statuses size repository cursor =
      ((rest.take size).filter (kept s.table statuses),
        if size < rest.length then rest[size - 1]? else none) := by
  intro rest
  have hdirection : some Direction.forward ≠ some .backward := fun h =>
    Direction.noConfusion (Option.some.inj h)
  have hclickhouse : ClickHouse.listRunIds s.clickhouse ⟨size, cursor, some .forward⟩ =
      rest.take (size + 1) := ClickHouse.listRunIds_forward h.chronological cursor hdirection
  have hpostgres : Postgres.listRunIds s.postgres ⟨size, cursor, some .forward⟩ =
      rest.take (size + 1) := by
    rw [Postgres.listRunIds_forward h.nodup cursor hdirection, h.descending_postgres]
  have hfalling : Falling rest ∧ ∀ id ∈ rest, id ∈ descending (s.clickhouse.map (·.id)) := by
    have hids := falling_descending h.chronological.nodup
    cases cursor with
    | none => exact ⟨hids, fun _ hid => hid⟩
    | some runId => exact ⟨hids.filter _, fun _ hid => List.mem_of_mem_filter hid⟩
  have hruns : (listRuns s statuses ⟨size, cursor, some .forward⟩ repository).runs.map (·.id) =
      (rest.take size).filter (kept s.table statuses) := by
    rw [← @toReturn_forward ι size ι cursor rest]
    cases repository with
    | clickhouse =>
      have htake : Falling (toReturn ⟨size, cursor, some .forward⟩ (rest.take (size + 1))) := by
        rw [toReturn_forward]
        exact hfalling.1.take size
      rw [map_id_listRuns_clickhouse h hclickhouse htake.nodup fun id hid =>
        hfalling.2 id (List.mem_of_mem_take hid), htake.descending_eq]
    | postgres => exact map_id_listRuns_postgres h hpostgres
  unfold forwardPage
  dsimp only
  rw [pagination_listRuns hclickhouse hpostgres, nextCursor_paginate _ _ hsize, hruns]

/-- 後ろへ辿る page は、cursor に近い一つを落とす。 -/
theorem backwardPage_eq (h : CaughtUp s) (hsize : 0 < size) (repository : Repository) (runId : ι) :
    let newer := above (descending (s.clickhouse.map (·.id))) runId
    backwardPage s statuses size repository (some runId) =
      if size < newer.length then
        (((newer.drop 1).take size).filter (kept s.table statuses), newer[size - 1]?)
      else (newer.filter (kept s.table statuses), none) := by
  intro newer
  have hclickhouse : ClickHouse.listRunIds s.clickhouse ⟨size, some runId, some .backward⟩ =
      newer.take (size + 1) := ClickHouse.listRunIds_backward h.chronological runId
  have hpostgres : Postgres.listRunIds s.postgres ⟨size, some runId, some .backward⟩ =
      newer.take (size + 1) := by
    rw [Postgres.listRunIds_backward h.nodup runId, h.descending_postgres]
  obtain ⟨returned, hreturned⟩ : ∃ returned, returned =
      if size < newer.length then (newer.drop 1).take size else newer := ⟨_, rfl⟩
  have hreturn :
      toReturn ⟨size, some runId, some .backward⟩ (newer.take (size + 1)) = returned := by
    rw [toReturn_backward, hreturned]
  -- 返す並びは、小さい順のままである
  have hsub : returned.Sublist newer := by
    rw [hreturned]
    split
    · exact (List.take_sublist _ _).trans (List.drop_sublist _ _)
    · exact List.Sublist.refl _
  have hfalling : Falling newer.reverse := by
    rw [show newer.reverse = _ from List.reverse_reverse _]
    exact (falling_descending h.chronological.nodup).filter _
  have hrising : Falling returned.reverse := List.Pairwise.sublist hsub.reverse hfalling
  have hnodup : returned.Nodup := List.nodup_reverse.mp hrising.nodup
  have hruns : (backwardPage s statuses size repository (some runId)).1 =
      returned.filter (kept s.table statuses) := by
    cases repository with
    | clickhouse =>
      have hmem : ∀ id ∈ newer.take (size + 1), id ∈ descending (s.clickhouse.map (·.id)) :=
        fun id hid => List.mem_of_mem_filter (List.mem_reverse.mp (List.mem_of_mem_take hid))
      have hdescending : descending returned = returned.reverse := by
        refine (falling_descending hnodup).eq_of_mem_iff hrising fun id => ?_
        rw [mem_descending, List.mem_reverse]
      have hlisted := @map_id_listRuns_clickhouse ι _ s statuses h _ _ hclickhouse
        (hreturn ▸ hnodup) hmem
      show ((listRuns s statuses ⟨size, some runId, some .backward⟩ .clickhouse).runs.map
        (·.id)).reverse = _
      rw [hlisted, hreturn, hdescending, ← List.filter_reverse, List.reverse_reverse]
    | postgres => exact hreturn ▸ map_id_listRuns_postgres h hpostgres
  have hcursor : (backwardPage s statuses size repository (some runId)).2 =
      if size < newer.length then newer[size - 1]? else none := by
    unfold backwardPage
    dsimp only
    rw [pagination_listRuns hclickhouse hpostgres, previousCursor_paginate _ _ hsize]
  have hpage : backwardPage s statuses size repository (some runId) =
      (returned.filter (kept s.table statuses),
        if size < newer.length then newer[size - 1]? else none) := Prod.ext hruns hcursor
  rw [hpage, hreturned]
  split <;> rfl

/-- 五つの run。 -/
def sampleRows : List (Row Nat) :=
  [⟨5, 40, "EXECUTING"⟩, ⟨4, 30, "COMPLETED"⟩, ⟨3, 30, "COMPLETED"⟩, ⟨2, 20, "FAILED"⟩,
    ⟨1, 10, "COMPLETED"⟩]

def sampleStores : Stores Nat := ⟨sampleRows, sampleRows, sampleRows⟩

theorem caughtUp_sampleStores : CaughtUp sampleStores where
  chronological := ⟨by decide, by decide⟩
  nodup := by decide
  same _ := Iff.rfl
  table := by decide
  subset _ h := h

theorem descending_sampleStores :
    descending (sampleStores.clickhouse.map (·.id)) = [5, 4, 3, 2, 1] :=
  have h : Falling (sampleStores.clickhouse.map (·.id)) := by
    unfold Falling
    decide
  h.descending_eq

/--
**前へ辿った page は、条件に合う run を新しい順に `size` 個ずつ切ったものである。どの要求に ClickHouse が答え、どれに
Postgres が答えてもよい。**
-/
theorem forward_pages (h : CaughtUp s) (hsize : 0 < size) (answers : List Repository)
    (henough : s.clickhouse.length ≤ size * answers.length) :
    let ids := descending (s.clickhouse.map (·.id))
    let pages := walk (forwardPage s statuses size) answers none
    pages = (chunks size answers.length ids).map (List.filter (kept s.table statuses)) ∧
      pages.flatten = ids.filter (kept s.table statuses) := by
  intro ids pages
  have hpages : pages =
      (chunks size answers.length ids).map (List.filter (kept s.table statuses)) :=
    walk_eq_chunks (falling_descending h.chronological.nodup) hsize
      (fun repository cursor => forwardPage_eq h hsize repository cursor) answers none
  refine ⟨hpages, ?_⟩
  rw [hpages, ← List.filter_flatten, flatten_chunks]
  rw [length_descending, List.length_map]
  exact henough

theorem forward_pages_sample :
    (walk (forwardPage sampleStores [] 2) [.clickhouse, .postgres, .clickhouse] none).flatten =
      [5, 4, 3, 2, 1] := by
  have h := (@forward_pages Nat 2 _ sampleStores [] caughtUp_sampleStores (by decide)
    [.clickhouse, .postgres, .clickhouse] (by decide)).2
  rw [descending_sampleStores] at h
  exact h

/--
**後ろへ辿ると、新しい run が `size` 個より多ければ、cursor に最も近い run はどの page にも現れず、最後の page の最初の
run は二度現れる。** `full` は最後でない page の run の数である。
-/
theorem backward_pages (h : CaughtUp s) (hsize : 0 < size) (answers : List Repository) {runId : ι}
    (hnewer : above (descending (s.clickhouse.map (·.id))) runId ≠ [])
    (henough : (above (descending (s.clickhouse.map (·.id))) runId).length ≤
      size * answers.length) :
    let newer := above (descending (s.clickhouse.map (·.id))) runId
    let full := (newer.length - 1) / size * size
    (walk (backwardPage s statuses size) answers (some runId)).flatten =
      ((newer.drop 1).take full ++ newer.drop full).filter (kept s.table statuses) := by
  intro newer full
  have hpages : walk (backwardPage s statuses size) answers (some runId) =
      (strides size answers.length newer).map (List.filter (kept s.table statuses)) :=
    walk_eq_strides (falling_descending h.chronological.nodup) hsize
      (fun repository runId => backwardPage_eq h hsize repository runId) answers runId
  rw [hpages, ← List.filter_flatten, flatten_strides hsize hnewer henough]

/-- 2 は飛ばされ、4 は二度現れる。 -/
theorem backward_pages_sample :
    (walk (backwardPage sampleStores [] 2) [.clickhouse, .clickhouse] (some 1)).flatten =
      [3, 4, 4, 5] := by
  have hnewer : above (descending (sampleStores.clickhouse.map (·.id))) 1 = [2, 3, 4, 5] := by
    rw [descending_sampleStores]
    rfl
  have h := @backward_pages Nat 2 _ sampleStores [] caughtUp_sampleStores (by decide)
    [.clickhouse, .clickhouse] 1 (by rw [hnewer]; decide) (by rw [hnewer]; decide)
  rw [hnewer] at h
  exact h

end Walk

end Runs
