import Trigger.Infra.Keyset

/-!
# run の一覧

`runsRepository.server.ts`、`clickhouseRunsRepository.server.ts`、`postgresRunsRepository.server.ts`。

一覧は ClickHouse から読み、失敗すれば Postgres から読む。cursor 以外の条件は両方で同じ run を選ぶので、選ばれた行の並びを
与える。

## 並び順

ClickHouse は `created_at`、`run_id` の順に並べ、cursor は `run_id` だけで比べる。二つが合うのは、作られた順に id が
大きいときである（`Chronological`）。

* `forward_pages` — 前へ辿ると、どの run も一度ずつ現れる
* `backward_pages` — 後ろへ辿ると、cursor に最も近い run が飛ばされる
-/

namespace Runs

open Infra.Keyset

variable {ι : Type} [LinearOrder ι]

/-! ## 行と page -/

/-- 一覧に使う列。id の比較は、文字列の比較である。 -/
structure Row (ι : Type) where
  id : ι
  createdAt : Nat
  status : String
deriving DecidableEq

inductive Direction
  | forward
  | backward
deriving DecidableEq

/-- `Pagination` の `page`。空の cursor は `none` である。 -/
structure Page (ι : Type) where
  size : Nat
  cursor : Option ι := none
  direction : Option Direction := none

/-- `created_at DESC, run_id DESC`。 -/
def newestFirst (a b : Row ι) : Bool :=
  decide (b.createdAt < a.createdAt ∨ (b.createdAt = a.createdAt ∧ b.id ≤ a.id))

/-- `id DESC`。 -/
def idDesc (a b : Row ι) : Bool := decide (b.id ≤ a.id)

/-! ## listRuns -/

/-- `listRuns` の `pagination`。 -/
structure Pagination (ι : Type) where
  nextCursor : Option ι
  previousCursor : Option ι

structure Listed (ι : Type) where
  runs : List (Row ι)
  pagination : Pagination ι

/-- page の cursor。二つの repository で同じである。 -/
def paginate (page : Page ι) (runIds : List ι) : Pagination ι :=
  match page.direction.getD .forward with
  | .forward =>
    { previousCursor := if page.cursor.isSome then runIds.head? else none
      nextCursor := if page.size < runIds.length then runIds[page.size - 1]? else none }
  | .backward =>
    let reversedRunIds := runIds.reverse
    if page.size < runIds.length then
      { previousCursor := reversedRunIds[1]?, nextCursor := reversedRunIds[page.size]? }
    else { previousCursor := none, nextCursor := reversedRunIds[page.size - 1]? }

/-- `runIdsToReturn` と `runsToReturn`。 -/
def toReturn {α : Type} (page : Page ι) (runs : List α) : List α :=
  if page.direction = some .backward ∧ page.size < runs.length then
    (runs.take (page.size + 1)).drop 1
  else runs.take page.size

/-- ClickHouse は遅れるので、`statuses` では読んだ後にも絞る。 -/
def filterStatuses (statuses : List String) (runs : List (Row ι)) : List (Row ι) :=
  if statuses = [] then runs else runs.filter (·.status ∈ statuses)

local instance lawfulBEqId : LawfulBEq ι := inferInstance

namespace ClickHouse

/-- `ClickHouseRunsRepository.listRunIds`。 -/
def listRunIds (rows : List (Row ι)) (page : Page ι) : List ι :=
  let ordered : List (Row ι) :=
    match page.cursor with
    | none => rows.mergeSort newestFirst
    | some runId =>
      match page.direction with
      | some .backward => (rows.filter (runId < ·.id)).mergeSort fun a b => newestFirst b a
      | _ => (rows.filter (·.id < runId)).mergeSort newestFirst
  (ordered.take (page.size + 1)).map (·.id)

/-- `ClickHouseRunsRepository.listRuns`。run は Postgres の `table` から読む。 -/
def listRuns (rows table : List (Row ι)) (statuses : List String) (page : Page ι) : Listed ι :=
  let runIds := listRunIds rows page
  let runs := (table.filter (·.id ∈ toReturn page runIds)).mergeSort idDesc
  { runs := filterStatuses statuses runs, pagination := paginate page runIds }

end ClickHouse

namespace Postgres

/-- `#buildRunsQuery` の結果。 -/
def runsQuery (rows : List (Row ι)) (page : Page ι) : List (Row ι) :=
  let rows : List (Row ι) :=
    match page.cursor with
    | none => rows
    | some cursor =>
      match page.direction with
      | some .backward => rows.filter (cursor < ·.id)
      | _ => rows.filter (·.id < cursor)
  let ordered : List (Row ι) :=
    match page.direction with
    | some .backward => rows.mergeSort fun a b => idDesc b a
    | _ => rows.mergeSort idDesc
  ordered.take (page.size + 1)

/-- `PostgresRunsRepository.listRunIds`。 -/
def listRunIds (rows : List (Row ι)) (page : Page ι) : List ι := (runsQuery rows page).map (·.id)

/-- `PostgresRunsRepository.listRuns`。 -/
def listRuns (rows : List (Row ι)) (statuses : List String) (page : Page ι) : Listed ι :=
  let runs := runsQuery rows page
  { runs := filterStatuses statuses (toReturn page runs)
    pagination := paginate page (runs.map (·.id)) }

end Postgres

/-- 答えた repository。 -/
inductive Repository
  | clickhouse
  | postgres
deriving DecidableEq

/-- 条件に合う行と、Postgres のすべての run。 -/
structure Stores (ι : Type) where
  clickhouse : List (Row ι)
  postgres : List (Row ι)
  table : List (Row ι)

/-- `RunsRepository.listRunIds`。 -/
def listRunIds (s : Stores ι) (page : Page ι) : Repository → List ι
  | .clickhouse => ClickHouse.listRunIds s.clickhouse page
  | .postgres => Postgres.listRunIds s.postgres page

/-- `RunsRepository.listRuns`。 -/
def listRuns (s : Stores ι) (statuses : List String) (page : Page ι) : Repository → Listed ι
  | .clickhouse => ClickHouse.listRuns s.clickhouse s.table statuses page
  | .postgres => Postgres.listRuns s.postgres statuses page

/-! ## 並べた結果 -/

section Order

variable {rows : List (Row ι)}

theorem newestFirst_trans (a b c : Row ι) (hab : newestFirst a b) (hbc : newestFirst b c) :
    newestFirst a c := by
  unfold newestFirst at *
  simp only [decide_eq_true_eq] at *
  rcases hab with hab | ⟨hab, hid⟩
  · rcases hbc with hbc | ⟨hbc, -⟩
    · exact .inl (hbc.trans hab)
    · exact .inl (hbc ▸ hab)
  · rcases hbc with hbc | ⟨hbc, hid'⟩
    · exact .inl (hab ▸ hbc)
    · exact .inr ⟨hbc.trans hab, hid'.trans hid⟩

theorem newestFirst_total (a b : Row ι) : newestFirst a b || newestFirst b a := by
  unfold newestFirst
  rw [Bool.or_eq_true, decide_eq_true_eq, decide_eq_true_eq]
  rcases lt_trichotomy a.createdAt b.createdAt with hlt | heq | hlt
  · exact .inr (.inl hlt)
  · rcases le_total a.id b.id with hle | hle
    · exact .inr (.inr ⟨heq, hle⟩)
    · exact .inl (.inr ⟨heq.symm, hle⟩)
  · exact .inl (.inl hlt)

theorem idDesc_trans (a b c : Row ι) (hab : idDesc a b) (hbc : idDesc b c) : idDesc a c := by
  unfold idDesc at *
  simp only [decide_eq_true_eq] at *
  exact hbc.trans hab

theorem idDesc_total (a b : Row ι) : idDesc a b || idDesc b a := by
  unfold idDesc
  rw [Bool.or_eq_true, decide_eq_true_eq, decide_eq_true_eq]
  exact le_total b.id a.id

/-- id は重ならず、後に作られた run の id が大きい。 -/
structure Chronological (rows : List (Row ι)) : Prop where
  nodup : (rows.map (·.id)).Nodup
  mono : ∀ a ∈ rows, ∀ b ∈ rows, a.createdAt < b.createdAt → a.id < b.id

theorem Chronological.filter (h : Chronological rows) (p : Row ι → Bool) :
    Chronological (rows.filter p) where
  nodup := h.nodup.sublist (List.filter_sublist.map _)
  mono a ha b hb := h.mono a (List.mem_of_mem_filter ha) b (List.mem_of_mem_filter hb)

theorem Chronological.le_of_newestFirst (h : Chronological rows) {a b : Row ι} (ha : a ∈ rows)
    (hb : b ∈ rows) (hab : newestFirst a b) : b.id ≤ a.id := by
  unfold newestFirst at hab
  rw [decide_eq_true_eq] at hab
  rcases hab with hlt | ⟨-, hle⟩
  · exact (h.mono b hb a ha hlt).le
  · exact hle

/-- 行を id の大きい順に並べた結果。 -/
theorem map_id_mergeSort {le : Row ι → Row ι → Bool} (hnodup : (rows.map (·.id)).Nodup)
    (htrans : ∀ a b c, le a b → le b c → le a c) (htotal : ∀ a b, le a b || le b a)
    (hle : ∀ a ∈ rows, ∀ b ∈ rows, le a b → b.id ≤ a.id) :
    (rows.mergeSort le).map (·.id) = descending (rows.map (·.id)) := by
  have hperm := List.mergeSort_perm rows le
  have hids : ((rows.mergeSort le).map (·.id)).Nodup := (hperm.map _).nodup_iff.mpr hnodup
  have hfalling : Falling ((rows.mergeSort le).map (·.id)) := by
    refine List.pairwise_map.mpr ((List.pairwise_mergeSort htrans htotal rows).and
      (List.pairwise_map.mp hids) |>.imp_of_mem fun {a b} ha hb hab => ?_)
    exact lt_of_le_of_ne (hle a (hperm.mem_iff.mp ha) b (hperm.mem_iff.mp hb) hab.1)
      (Ne.symm hab.2)
  refine hfalling.eq_of_mem_iff (falling_descending hnodup) fun id => ?_
  rw [mem_descending, (hperm.map _).mem_iff]

/-- 小さい順に並べた結果。 -/
theorem map_id_mergeSort_reverse {le : Row ι → Row ι → Bool} (hnodup : (rows.map (·.id)).Nodup)
    (htrans : ∀ a b c, le a b → le b c → le a c) (htotal : ∀ a b, le a b || le b a)
    (hle : ∀ a ∈ rows, ∀ b ∈ rows, le a b → b.id ≤ a.id) :
    (rows.mergeSort fun a b => le b a).map (·.id) = (descending (rows.map (·.id))).reverse := by
  have hperm := List.mergeSort_perm rows fun a b => le b a
  have hids : ((rows.mergeSort fun a b => le b a).map (·.id)).Nodup :=
    (hperm.map _).nodup_iff.mpr hnodup
  have hfalling : Falling ((rows.mergeSort fun a b => le b a).map (·.id)).reverse := by
    refine List.pairwise_reverse.mpr (List.pairwise_map.mpr ((List.pairwise_mergeSort
      (fun a b c hab hbc => htrans c b a hbc hab) (fun a b => htotal b a) rows).and
      (List.pairwise_map.mp hids) |>.imp_of_mem fun {a b} ha hb hab => ?_))
    exact lt_of_le_of_ne (hle b (hperm.mem_iff.mp hb) a (hperm.mem_iff.mp ha) hab.1) hab.2
  rw [← hfalling.eq_of_mem_iff (falling_descending hnodup) fun id => ?_, List.reverse_reverse]
  rw [List.mem_reverse, mem_descending, (hperm.map _).mem_iff]

/-- 絞ってから並べても、並べてから絞っても同じである。 -/
theorem descending_filter (hnodup : (rows.map (·.id)).Nodup) (p : ι → Bool) :
    descending ((rows.filter (p ·.id)).map (·.id)) = (descending (rows.map (·.id))).filter p := by
  have hsub : ((rows.filter (p ·.id)).map (·.id)).Nodup :=
    hnodup.sublist (List.filter_sublist.map _)
  refine (falling_descending hsub).eq_of_mem_iff ((falling_descending hnodup).filter p) fun id => ?_
  rw [mem_descending, List.mem_filter, mem_descending, List.mem_map, List.mem_map]
  constructor
  · rintro ⟨row, hrow, rfl⟩
    obtain ⟨hrow, hp⟩ := List.mem_filter.mp hrow
    exact ⟨⟨row, hrow, rfl⟩, hp⟩
  · rintro ⟨⟨row, hrow, rfl⟩, hp⟩
    exact ⟨row, List.mem_filter.mpr ⟨hrow, hp⟩, rfl⟩

end Order

end Runs
