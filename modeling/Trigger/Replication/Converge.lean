import Mathlib.Data.List.Lex
import Mathlib.Data.List.Pairwise
import Mathlib.Data.Prod.Lex
import Trigger.Replication.Durable

/-!
# 最後の行

すべての挿入が成功し、batch も flush も残っていないとき、run ごとに版が最大の行（同じ版なら block の最後の行）は、
その run の最後の変更から作られた行である。
-/

namespace Replication

open Infra Infra.Machine
open Infra.Text (utf16 utf16_injective)

variable {J : Type} {o : Options J} {s : ServiceState J}

/-! ## 並べ替えの安定性 -/

/-- 比較関数の順を与える組。 -/
def sortKey (r : TaskRunRow J) : List Nat ×ₗ List Nat ×ₗ List Nat ×ₗ Int ×ₗ List Nat :=
  toLex (utf16 r.organizationId, toLex (utf16 r.projectId, toLex (utf16 r.environmentId,
    toLex (r.createdAt, utf16 r.runId))))

theorem compareText_le_iff {a b : String} : compareText a b ≤ 0 ↔ utf16 a < utf16 b := by
  unfold compareText
  split
  · next hlt => exact ⟨fun _ => hlt, fun _ => by decide⟩
  · next hlt => exact ⟨fun hle => absurd hle (by decide), fun hlt' => absurd hlt' hlt⟩

/-- 辞書式の比較の一段。 -/
theorem compareText_step {a b : String} {c : Int} {P : Prop} (hP : c ≤ 0 ↔ P) :
    (if a ≠ b then compareText a b else c) ≤ 0 ↔ utf16 a < utf16 b ∨ utf16 a = utf16 b ∧ P := by
  by_cases h : a = b
  · subst h
    rw [if_neg (not_not.mpr rfl), hP]
    simp
  · rw [if_pos h, compareText_le_iff]
    have hne : utf16 a ≠ utf16 b := fun heq => h (utf16_injective heq)
    simp [hne]

theorem compareRows_le_iff {a b : TaskRunRow J} : compareRows a b ≤ 0 ↔ sortKey a ≤ sortKey b := by
  unfold compareRows sortKey
  simp only [Prod.Lex.toLex_le_toLex]
  refine compareText_step (compareText_step (compareText_step ?_))
  -- 日時は差の符号だけが使われる。
  by_cases hcreated : a.createdAt = b.createdAt
  · rw [if_neg (not_not.mpr hcreated)]
    simp only [hcreated, lt_irrefl, false_or, true_and]
    by_cases hid : a.runId = b.runId
    · rw [if_pos hid, hid]
      exact ⟨fun _ => le_refl _, fun _ => le_refl _⟩
    · have hne : utf16 a.runId ≠ utf16 b.runId := fun heq => hid (utf16_injective heq)
      rw [if_neg hid, compareText_le_iff]
      exact ⟨le_of_lt, fun hle => lt_of_le_of_ne hle hne⟩
  · rw [if_pos hcreated]
    simp only [hcreated, false_and, or_false]
    omega

/-- 一つの run の行。 -/
def rowsOf (runId : String) (rows : List (TaskRunRow J)) : List (TaskRunRow J) :=
  rows.filter (·.runId = runId)

/-- 一つの run の行が比較関数で等しいなら、並べ替えはその並びを変えない。 -/
theorem rowsOf_mergeSort {runId : String} {rows : List (TaskRunRow J)}
    (h : (rowsOf runId rows).Pairwise fun a b => sortKey a = sortKey b) :
    rowsOf runId (rows.mergeSort fun a b => compareRows a b ≤ 0) = rowsOf runId rows := by
  have hle : ∀ a b : TaskRunRow J, (decide (compareRows a b ≤ 0) = true) ↔ sortKey a ≤ sortKey b :=
    fun a b => decide_eq_true_iff.trans compareRows_le_iff
  -- 安定な並べ替えは、等しいとみなす行の列をそのまま部分列に残す。
  have hsub : List.Sublist (rowsOf runId rows) (rows.mergeSort fun a b => compareRows a b ≤ 0) := by
    refine List.sublist_mergeSort ?_ ?_ ?_ List.filter_sublist
    · intro a b c hab hbc
      rw [hle] at hab hbc ⊢
      exact hab.trans hbc
    · intro a b
      rw [Bool.or_eq_true, hle, hle]
      exact le_total _ _
    · exact h.imp fun hab => (hle _ _).mpr (le_of_eq hab)
  have hfilter : List.Sublist (rowsOf runId rows)
      (rowsOf runId (rows.mergeSort fun a b => compareRows a b ≤ 0)) := by
    have := hsub.filter (·.runId = runId)
    unfold rowsOf at this ⊢
    rwa [List.filter_filter, List.filter_congr (q := (·.runId = runId)) (by simp)] at this
  refine (hfilter.eq_of_length ?_).symm
  exact ((List.mergeSort_perm rows _).filter _).length_eq.symm

/-! ## 最後の行 -/

/-- 版が最大の行を残す。同じ版なら後の行である。 -/
def newer (best : Option (TaskRunRow J)) (r : TaskRunRow J) : Option (TaskRunRow J) :=
  if best.all (·.version ≤ r.version) then some r else best

/-- run の最も新しい行。 -/
def latestRow (runId : String) (rows : List (TaskRunRow J)) : Option (TaskRunRow J) :=
  (rowsOf runId rows).foldl newer none

theorem foldl_newer_le {rows : List (TaskRunRow J)} {best : Option (TaskRunRow J)} {v : Nat}
    (hbest : best.all (·.version ≤ v) = true) (h : ∀ r ∈ rows, r.version ≤ v) :
    (rows.foldl newer best).all (·.version ≤ v) = true := by
  induction rows generalizing best with
  | nil => exact hbest
  | cons r rows ih =>
    refine ih ?_ fun q hq => h q (List.mem_cons_of_mem r hq)
    unfold newer
    split
    · exact decide_eq_true (h r List.mem_cons_self)
    · exact hbest

theorem foldl_newer_eq {rows : List (TaskRunRow J)} {r : TaskRunRow J}
    (h : ∀ q ∈ rows, q.version < r.version) : rows.foldl newer (some r) = some r := by
  induction rows with
  | nil => rfl
  | cons q rows ih =>
    have hq : newer (some r) q = some r := by
      have := h q List.mem_cons_self
      unfold newer
      rw [if_neg]
      simpa using this
    rw [List.foldl_cons, hq]
    exact ih fun q' hq' => h q' (List.mem_cons_of_mem q hq')

theorem latestRow_eq {runId : String} {rows a b : List (TaskRunRow J)} {r : TaskRunRow J}
    (hrows : rowsOf runId rows = a ++ r :: b) (ha : ∀ q ∈ a, q.version ≤ r.version)
    (hb : ∀ q ∈ b, q.version < r.version) : latestRow runId rows = some r := by
  unfold latestRow
  rw [hrows, List.foldl_append, List.foldl_cons]
  have hfirst : newer (a.foldl newer none) r = some r :=
    if_pos (foldl_newer_le (by rfl) ha)
  rw [hfirst]
  exact foldl_newer_eq hb

/-! ## run の履歴 -/

def Tag.rank : Tag → Nat
  | .insert => 0
  | .update => 1
  | .delete => 2

/-- 変わらない列。 -/
def SamePlace (x y : TaskRunInsert J) : Prop :=
  x.run.organizationId = y.run.organizationId ∧ x.run.projectId = y.run.projectId ∧
    x.run.runtimeEnvironmentId = y.run.runtimeEnvironmentId ∧ x.run.createdAt = y.run.createdAt

/-- どの run の変更も、高々一つの insert、update の列、高々一つの delete である。 -/
def WellFormed (log : List (TaskRunInsert J)) : Prop :=
  log.Pairwise fun x y => SameRun x y → x.event ≠ .delete ∧ y.event ≠ .insert ∧ SamePlace x y

/-- 複製される変更。 -/
def Replicable (x : TaskRunInsert J) : Prop := x.run.id ≠ "" ∧ recordedIn x.run ≠ none

/-- 履歴の一段の仮定。LSN は増え、挿入は成功する。 -/
def Admissible (s : ServiceState J) : Label J → Prop
  | .commit none => ∀ events, s.currentTransaction = some events → events = []
  | .commit (some lsn) => ∀ events, s.currentTransaction = some events →
    (∀ x ∈ s.log, x.version < lsnToUInt64 lsn) ∧ WellFormed (s.log ++ itemsOf lsn events)
  | .finishAttempt _ outcome => outcome.isOk = true
  | _ => True

/-! ## batch の中の並び -/

/-- 同じ run の変更は、insert・update・delete の順に並ぶ。 -/
def Follows (x y : TaskRunInsert J) : Prop := SameRun x y → x.event.rank < y.event.rank

theorem follows_of_wellFormed {x y : TaskRunInsert J} (hkey : ¬ SameKey x y)
    (h : SameRun x y → x.event ≠ .delete ∧ y.event ≠ .insert ∧ SamePlace x y) : Follows x y := by
  intro hrun
  obtain ⟨hx, hy, -⟩ := h hrun
  have hne : x.event ≠ y.event := by
    intro heq
    refine hkey ?_
    unfold SameKey getKey
    rw [hrun, heq]
  revert hx hy hne
  cases x.event <;> cases y.event <;> decide

theorem Follows.congr_left {x x' y : TaskRunInsert J} (h : Follows x y) (hkey : SameKey x' x)
    (hx : getKey x' ≠ none) : Follows x' y := by
  obtain ⟨k, hk⟩ := Option.ne_none_iff_exists'.mp hx
  obtain ⟨hevent, hrun⟩ := getKey_inj hk (hkey ▸ hk)
  intro hrun'
  rw [hevent]
  exact h (hrun.symm.trans hrun')

/-- 置き換えは並びを変えず、新しい key は末尾に加わる。 -/
theorem ordered_set {m : JsMap (TaskRunInsert J)} {key : String} {x : TaskRunInsert J}
    (hkeyed : ∀ k y, (k, y) ∈ m → getKey y = some k) (hx : getKey x = some key)
    (hm : (m.map Prod.snd).Pairwise Follows) (hafter : ∀ k y, (k, y) ∈ m → k ≠ key → Follows y x) :
    ((m.set key x).map Prod.snd).Pairwise Follows := by
  induction m with
  | nil => exact List.pairwise_singleton _ _
  | cons p m ih =>
    obtain ⟨k, b⟩ := p
    obtain ⟨hb, hm⟩ := List.pairwise_cons.mp hm
    have hkeyed' : ∀ k y, (k, y) ∈ m → getKey y = some k :=
      fun k y h => hkeyed k y (List.mem_cons_of_mem _ h)
    unfold JsMap.set
    split
    · next hk =>
      -- 同じ key の変更は、場所を変えずに置き換わる。
      subst hk
      refine List.pairwise_cons.mpr ⟨fun y hy => ?_, hm⟩
      have hsame : SameKey x b := hx.trans (hkeyed k b List.mem_cons_self).symm
      exact (hb y hy).congr_left hsame (by rw [hx]; exact Option.some_ne_none k)
    · next hk =>
      refine List.pairwise_cons.mpr ⟨fun y hy => ?_, ?_⟩
      · obtain ⟨⟨k', y'⟩, hmem, rfl⟩ := List.mem_map.mp hy
        rcases JsMap.mem_set hmem with hmem | ⟨-, rfl⟩
        · exact hb y' (List.mem_map_of_mem (f := Prod.snd) hmem)
        · exact hafter k b List.mem_cons_self hk
      · exact ih hkeyed' hm fun k y h => hafter k y (List.mem_cons_of_mem _ h)

theorem ordered_foldl {m : JsMap (TaskRunInsert J)} {log items : List (TaskRunInsert J)}
    (hm : Keyed m) (hordered : (m.map Prod.snd).Pairwise Follows) (hlog : ∀ y, Held m y → y ∈ log)
    (hwf : WellFormed (log ++ items)) :
    ((items.foldl addItem m).map Prod.snd).Pairwise Follows := by
  induction items generalizing m log with
  | nil => exact hordered
  | cons x items ih =>
    have happend : log ++ x :: items = (log ++ [x]) ++ items := by simp
    have hwf' : WellFormed ((log ++ [x]) ++ items) := happend ▸ hwf
    refine ih (hm.addItem x) ?_ ?_ hwf'
    · rcases addItem_cases m x with ⟨-, heq⟩ | ⟨_, _, -, -, -, heq⟩ | ⟨key, hkey, -, heq⟩ <;> rw [heq]
      · exact hordered
      · exact hordered
      · -- 新しい変更は、key の違う同じ run の変更より後の種類である。
        refine ordered_set hm.getKey hkey hordered fun k y hmem hne => ?_
        have hy : y ∈ log := hlog y (held_of_mem hmem)
        refine follows_of_wellFormed ?_ ?_
        · intro hsame
          have hk := (hm.getKey k y hmem).symm.trans (Eq.trans hsame hkey)
          exact hne (Option.some.inj hk)
        · exact (List.pairwise_append.mp hwf).2.2 y hy x List.mem_cons_self
    · intro y hy
      rcases held_addItem hy with hy | ⟨rfl, -⟩
      · exact List.mem_append_left _ (hlog y hy)
      · exact List.mem_append_right _ List.mem_cons_self

/-! ## batch どうし -/

/-- 版の交わらない batch。 -/
def Apart (b c : List (TaskRunInsert J)) : Prop := ∀ x ∈ b, ∀ y ∈ c, x.version ≠ y.version

theorem Apart.symm {b c : List (TaskRunInsert J)} (h : Apart b c) : Apart c b :=
  fun x hx y hy heq => h y hy x hx heq.symm

/-- 記録の変更を分けて持つ batch の列。 -/
structure Arranged (log : List (TaskRunInsert J)) (cs : List (List (TaskRunInsert J))) : Prop where
  ordered : ∀ c ∈ cs, c.Pairwise Follows
  logged : ∀ c ∈ cs, ∀ y ∈ c, y ∈ log
  apart : cs.Pairwise Apart

variable {log : List (TaskRunInsert J)} {cs cs' : List (List (TaskRunInsert J))}

theorem Arranged.perm (h : Arranged log cs) (hperm : cs.Perm cs') : Arranged log cs' where
  ordered c hc := h.ordered c (hperm.mem_iff.mpr hc)
  logged c hc := h.logged c (hperm.mem_iff.mpr hc)
  apart := (hperm.pairwise_iff Apart.symm).mp h.apart

theorem Arranged.left (h : Arranged log (cs ++ cs')) : Arranged log cs where
  ordered c hc := h.ordered c (List.mem_append_left _ hc)
  logged c hc := h.logged c (List.mem_append_left _ hc)
  apart := (List.pairwise_append.mp h.apart).1

theorem Arranged.append_nil (h : Arranged log cs) : Arranged log (cs ++ [[]]) where
  ordered c hc := by
    rcases List.mem_append.mp hc with hc | hc
    · exact h.ordered c hc
    · rw [List.mem_singleton.mp hc]
      exact List.Pairwise.nil
  logged c hc y hy := by
    rcases List.mem_append.mp hc with hc | hc
    · exact h.logged c hc y hy
    · rw [List.mem_singleton.mp hc] at hy
      cases hy
  apart := by
    refine List.pairwise_append.mpr ⟨h.apart, List.pairwise_singleton _ _, fun b _ c hc x _ y hy => ?_⟩
    rw [List.mem_singleton.mp hc] at hy
    cases hy

/-- 最後の batch に、これまでのどれより新しい版の変更が加わる。 -/
theorem Arranged.grow {log' b b' : List (TaskRunInsert J)} {v : Nat} (h : Arranged log (cs ++ [b]))
    (hlog : ∀ y ∈ log, y ∈ log' ∧ y.version < v) (hb : b'.Pairwise Follows)
    (hmem : ∀ y ∈ b', y ∈ b ∨ y ∈ log' ∧ y.version = v) : Arranged log' (cs ++ [b']) where
  ordered c hc := by
    rcases List.mem_append.mp hc with hc | hc
    · exact h.ordered c (List.mem_append_left _ hc)
    · rw [List.mem_singleton.mp hc]
      exact hb
  logged c hc y hy := by
    rcases List.mem_append.mp hc with hc | hc
    · exact (hlog y (h.logged c (List.mem_append_left _ hc) y hy)).1
    · rw [List.mem_singleton.mp hc] at hy
      rcases hmem y hy with hy | hy
      · exact (hlog y (h.logged b (List.mem_append_right _ List.mem_cons_self) y hy)).1
      · exact hy.1
  apart := by
    obtain ⟨hcs, -, hcross⟩ := List.pairwise_append.mp h.apart
    refine List.pairwise_append.mpr ⟨hcs, List.pairwise_singleton _ _, fun c hc d hd x hx y hy => ?_⟩
    rw [List.mem_singleton.mp hd] at hy
    rcases hmem y hy with hy | ⟨-, hy⟩
    · exact hcross c hc b List.mem_cons_self x hx y hy
    · -- 新しい変更の版は、記録にあるどの版よりも大きい。
      have hlt := (hlog x (h.logged c (List.mem_append_left _ hc) x hx)).2
      omega

/-! ## 不変条件 -/

/-- 行を書いていない flush。 -/
def Flush.unwritten (f : Flush J) : Bool :=
  match f.phase with
  | .payloads _ _ => false
  | _ => true

def unwrittenBatches (fs : List (Flush J)) : List (List (TaskRunInsert J)) :=
  (fs.filter Flush.unwritten).map Flush.batch

theorem unwrittenBatches_append (l₁ l₂ : List (Flush J)) :
    unwrittenBatches (l₁ ++ l₂) = unwrittenBatches l₁ ++ unwrittenBatches l₂ := by
  unfold unwrittenBatches
  rw [List.filter_append, List.map_append]

/-- 書かれた batch、待つ batch、作りかけの batch。 -/
def containers (s : ServiceState J) : List (List (TaskRunInsert J)) :=
  s.written ++ unwrittenBatches s.flushes ++ [s.batch.map Prod.snd]

/-- 仮定の下の実行の不変条件。 -/
structure Settling (o : Options J) (s : ServiceState J) : Prop where
  pipeline : Pipeline o s
  wellFormed : WellFormed s.log
  lost : s.lost = []
  succeeded : ∀ f ∈ s.flushes, ∀ attempt, f.phase ≠ .payloads attempt false
  arranged : Arranged s.log (containers s)

theorem Settling.init (o : Options J) : Settling o {} where
  pipeline := Pipeline.init o
  wellFormed := List.Pairwise.nil
  lost := rfl
  succeeded f hf := by cases hf
  arranged := by
    refine ⟨fun c hc => ?_, fun c hc y hy => ?_, List.pairwise_singleton _ _⟩
    · rw [List.mem_singleton.mp hc]
      exact List.Pairwise.nil
    · rw [List.mem_singleton.mp hc] at hy
      cases hy

theorem containers_flushNextBatch (s : ServiceState J) :
    containers (flushNextBatch s) = containers s ∨
      containers (flushNextBatch s) = containers s ++ [[]] := by
  unfold flushNextBatch
  split
  · exact .inl rfl
  · refine .inr ?_
    simp only [containers, unwrittenBatches_append, List.append_assoc]
    rfl

theorem Settling.flushNextBatch (h : Settling o s) : Settling o (flushNextBatch s) := by
  have hlog : (Replication.flushNextBatch s).log = s.log := by
    unfold Replication.flushNextBatch
    split <;> rfl
  refine ⟨h.pipeline.flushNextBatch, hlog ▸ h.wellFormed, ?_, ?_, ?_⟩
  · unfold Replication.flushNextBatch
    split <;> exact h.lost
  · unfold Replication.flushNextBatch
    split
    · exact h.succeeded
    · intro f hf attempt
      rcases List.mem_append.mp hf with hf | hf
      · exact h.succeeded f hf attempt
      · rw [List.mem_singleton.mp hf]
        exact fun heq => by cases heq
  · rw [hlog]
    rcases containers_flushNextBatch s with heq | heq <;> rw [heq]
    · exact h.arranged
    · exact h.arranged.append_nil

theorem record_eq_append {items : List (TaskRunInsert J)} {lsn : Lsn}
    (h : ∀ x ∈ log, x.version < lsnToUInt64 lsn) : record lsn items log = log ++ items := by
  have hall : ∀ x ∈ log, decide (x.version ≤ lsnToUInt64 lsn) = true :=
    fun x hx => decide_eq_true (h x hx).le
  unfold record
  rw [List.takeWhile_eq_self_iff.mpr hall, List.dropWhile_eq_nil_iff.mpr hall, List.append_nil]

theorem Settling.add (h : Settling o s) {lsn : Lsn} {events : List (TransactionEvent J)}
    (hlsn : ∀ x ∈ s.log, x.version < lsnToUInt64 lsn) (hwf : WellFormed (s.log ++ itemsOf lsn events)) :
    Settling o { s with log := Replication.record lsn (itemsOf lsn events) s.log
                        batch := (itemsOf lsn events).foldl addItem s.batch } where
  pipeline := h.pipeline.add fun x hx => version_of_mem_itemsOf hx
  wellFormed := by
    simp only [record_eq_append hlsn]
    exact hwf
  lost := h.lost
  succeeded := h.succeeded
  arranged := by
    refine h.arranged.grow (v := lsnToUInt64 lsn) ?_ ?_ ?_
    · exact fun y hy => ⟨mem_record.mpr (.inl hy), hlsn y hy⟩
    · refine ordered_foldl h.pipeline.keyed ?_ (fun y hy => h.pipeline.logged y (.inl hy)) hwf
      exact h.arranged.ordered _ (List.mem_append_right _ List.mem_cons_self)
    · intro y hy
      rcases held_foldl hy with hy | hy
      · exact .inl hy
      · exact .inr ⟨mem_record.mpr (.inr hy), version_of_mem_itemsOf hy⟩

/-- batch と flush を変えない一歩。 -/
theorem Settling.congr {s' : ServiceState J} (h : Settling o s) (hp : Pipeline o s')
    (hlog : s'.log = s.log) (hlost : s'.lost = s.lost) (hflushes : s'.flushes = s.flushes)
    (hbatch : s'.batch = s.batch) (hwritten : s'.written = s.written) : Settling o s' where
  pipeline := hp
  wellFormed := hlog ▸ h.wellFormed
  lost := hlost.trans h.lost
  succeeded := hflushes ▸ h.succeeded
  arranged := by
    unfold containers
    rw [hlog, hflushes, hbatch, hwritten]
    exact h.arranged

theorem Settling.handleCommit (h : Settling o s) {commitEndLsn : Option Lsn}
    (hadm : Admissible s (.commit commitEndLsn)) : Settling o (handleCommit o commitEndLsn s) := by
  unfold Replication.handleCommit
  cases htx : s.currentTransaction with
  | none => exact h
  | some events =>
    have hbase : ∀ lsn, Settling o { s with currentTransaction := none, latestCommitEndLsn := lsn } :=
      fun lsn => h.congr ⟨h.pipeline.inOrder, h.pipeline.keyed, h.pipeline.logged, h.pipeline.started,
        h.pipeline.carried, h.pipeline.blocks⟩ rfl rfl rfl rfl rfl
    cases commitEndLsn with
    | none =>
      simp only
      cases events <;> exact hbase _
    | some lsn =>
      obtain ⟨hlsn, hwf⟩ := hadm events htx
      simp only
      cases events with
      | nil => exact hbase _
      | cons e events =>
        have hadd := (hbase ((some lsn).or s.latestCommitEndLsn)).add hlsn hwf
        unfold handleTransaction addToBatch
        simp only
        split
        · exact hadd.flushNextBatch
        · exact hadd

theorem unwrittenBatches_split {l₁ l₂ : List (Flush J)} (f : Flush J) :
    unwrittenBatches (l₁ ++ f :: l₂) =
      unwrittenBatches l₁ ++ (if f.unwritten then [f.batch] else []) ++ unwrittenBatches l₂ := by
  unfold unwrittenBatches
  rw [List.filter_append, List.map_append, List.append_assoc, List.filter_cons]
  split <;> rfl

theorem Settling.startFlush (h : Settling o s) (hretries : 0 < o.insertMaxRetries) :
    Settling o (startFlush o s) := by
  have hp := h.pipeline.startFlush
  rcases startFlush_cases o s with heq | ⟨i, f, hi, hwaiting, heq | ⟨hzero, -⟩⟩
  · rw [heq]
    exact h
  · rw [heq] at hp ⊢
    refine ⟨hp, h.wellFormed, h.lost, fun g hg attempt => ?_, ?_⟩
    · rcases List.mem_or_eq_of_mem_set hg with hg | rfl
      · exact h.succeeded g hg attempt
      · exact fun heq => by cases heq
    · obtain ⟨l₁, l₂, hsplit, -, hset⟩ := getElem?_split hi
      have hsame : unwrittenBatches (s.flushes.set i { f with phase := .taskRuns 1 }) =
          unwrittenBatches s.flushes := by
        rw [hset, hsplit, unwrittenBatches_split, unwrittenBatches_split]
        simp only [Flush.unwritten, hwaiting]
      unfold containers
      simp only [hsame]
      exact h.arranged
  · omega

theorem Settling.finishAttempt (h : Settling o s) (i : Nat) {outcome : InsertOutcome}
    (hok : outcome.isOk = true) : Settling o (finishAttempt o i outcome s) := by
  have hp := h.pipeline.finishAttempt i outcome
  cases outcome with
  | error message applied => cases hok
  | ok =>
    revert hp
    unfold Replication.finishAttempt insertTaskRunInserts insertPayloadInserts
    split
    · next batch attempt hi =>
      intro hp
      refine ⟨hp, h.wellFormed, h.lost, fun g hg k => ?_, ?_⟩
      · rcases List.mem_or_eq_of_mem_set hg with hg | rfl
        · exact h.succeeded g hg k
        · exact fun heq => by cases heq
      · obtain ⟨l₁, l₂, hsplit, -, hset⟩ := getElem?_split hi
        -- 書かれた batch は、待つ batch の列から書かれた列に移る。
        refine h.arranged.perm ?_
        unfold containers
        simp only [InsertOutcome.applied, if_pos, InsertOutcome.retries, InsertOutcome.isOk, hset]
        rw [hsplit, unwrittenBatches_split, unwrittenBatches_split]
        simp only [Flush.unwritten, if_pos, Bool.false_eq_true, if_false, List.append_nil]
        refine List.Perm.append_right _ ?_
        simp only [List.append_assoc]
        refine List.Perm.append_left _ ?_
        exact List.perm_middle
    · next batch attempt inserted hi =>
      intro hp
      -- 挿入はみな成功しているので、payload を書く flush の行は書かれている。
      have hinserted : inserted = true := by
        have := h.succeeded _ (List.mem_of_getElem? hi) attempt
        cases inserted with
        | true => rfl
        | false => exact absurd rfl this
      subst hinserted
      obtain ⟨l₁, l₂, hsplit, herase, -⟩ := getElem?_split hi
      refine ⟨hp, h.wellFormed, h.lost, fun g hg k => ?_, ?_⟩
      · exact h.succeeded g (List.mem_of_mem_eraseIdx hg) k
      · have hsame : unwrittenBatches (s.flushes.eraseIdx i) = unwrittenBatches s.flushes := by
          rw [herase, hsplit, unwrittenBatches_split, unwrittenBatches_append]
          simp only [Flush.unwritten, Bool.false_eq_true, if_false, List.append_nil]
        unfold containers
        simp only [InsertOutcome.applied, if_pos, InsertOutcome.retries, Bool.false_eq_true, if_false,
          hsame]
        exact h.arranged
    · intro _
      exact h

theorem Settling.step (hretries : 0 < o.insertMaxRetries) (s : ServiceState J) (l : Label J)
    (h : Settling o s) (hadm : Admissible s l) : Settling o (step o s l) := by
  have hp := h.pipeline.step l
  cases l with
  | begin => exact h.congr hp rfl rfl rfl rfl rfl
  | change tag run => exact h.congr hp rfl rfl rfl rfl rfl
  | commit lsn => exact h.handleCommit hadm
  | heartbeat lsn shouldRespond =>
    cases shouldRespond <;> exact h.congr hp rfl rfl rfl rfl rfl
  | flushTick => exact h.flushNextBatch
  | acknowledgeTick now =>
    revert hp
    simp only [Replication.step]
    unfold acknowledgeLatestTransaction
    split
    · exact fun _ => h
    · exact fun hp => h.congr hp rfl rfl rfl rfl rfl
  | startFlush => exact h.startFlush hretries
  | finishAttempt i outcome => exact h.finishAttempt i hadm

/-! ## 収束 -/

/-- run の最後の変更。 -/
def lastEvent (runId : String) (log : List (TaskRunInsert J)) : Option (TaskRunInsert J) :=
  (log.filter (·.run.id = runId)).getLast?

theorem lastEvent_split {runId : String} {x : TaskRunInsert J} (h : lastEvent runId log = some x) :
    ∃ l₁ l₂, log = l₁ ++ x :: l₂ ∧ x.run.id = runId ∧ ∀ y ∈ l₂, y.run.id ≠ runId := by
  obtain ⟨ys, hys⟩ := List.getLast?_eq_some_iff.mp h
  obtain ⟨a, b, rfl, -, hb⟩ := List.filter_eq_append_iff.mp hys
  obtain ⟨b₁, b₂, rfl, -, hx, hb₂⟩ := List.filter_eq_cons_iff.mp hb
  refine ⟨a ++ b₁, b₂, by rw [List.append_assoc], of_decide_eq_true hx, fun y hy heq => ?_⟩
  exact List.filter_eq_nil_iff.mp hb₂ y hy (decide_eq_true heq)

theorem sortKey_eq {x y : TaskRunInsert J} {row row' : TaskRunRow J}
    (hx : taskRunInsertOf o x = some row) (hy : taskRunInsertOf o y = some row')
    (hrun : SameRun x y) (hplace : SamePlace x y) : sortKey row = sortKey row' := by
  have hc := carries_of_taskRunInsertOf hx
  have hc' := carries_of_taskRunInsertOf hy
  obtain ⟨horg, hproject, henv, hcreated⟩ := hplace
  have horgs : row.organizationId = row'.organizationId :=
    Option.some.inj (hc.organizationId.symm.trans (horg.trans hc'.organizationId))
  unfold sortKey
  rw [horgs, hc.projectId, hc'.projectId, hc.environmentId, hc'.environmentId, hc.createdAt,
    hc'.createdAt, hc.runId, hc'.runId, hproject, henv, hcreated, hrun]

theorem samePlace_of_mem (hwf : WellFormed log) {x y : TaskRunInsert J} (hx : x ∈ log) (hy : y ∈ log)
    (hrun : SameRun x y) : SamePlace x y := by
  have hall : log.Pairwise fun x y => SameRun x y → SamePlace x y :=
    hwf.imp fun h hr => (h hr).2.2
  have hsymm : Std.Symm fun x y : TaskRunInsert J => SameRun x y → SamePlace x y := by
    refine ⟨fun a b h hr => ?_⟩
    obtain ⟨h₁, h₂, h₃, h₄⟩ := h (Eq.symm hr)
    exact ⟨h₁.symm, h₂.symm, h₃.symm, h₄.symm⟩
  exact List.Pairwise.forall_of_forall (fun _ _ _ => ⟨rfl, rfl, rfl, rfl⟩) hall hx hy hrun

theorem mem_rowsOf_filterMap {runId : String} {c : List (TaskRunInsert J)} {r : TaskRunRow J}
    (h : r ∈ rowsOf runId (c.filterMap (taskRunInsertOf o))) :
    ∃ y ∈ c, taskRunInsertOf o y = some r ∧ y.run.id = runId := by
  obtain ⟨hmem, hid⟩ := List.mem_filter.mp h
  obtain ⟨y, hy, hrow⟩ := List.mem_filterMap.mp hmem
  exact ⟨y, hy, hrow, (carries_of_taskRunInsertOf hrow).runId.symm.trans (of_decide_eq_true hid)⟩

/-- 並べ替えは一つの run の行の並びを変えない。 -/
theorem rowsOf_taskRunInserts {runId : String} {c : List (TaskRunInsert J)} (hwf : WellFormed log)
    (hc : ∀ y ∈ c, y ∈ log) :
    rowsOf runId (taskRunInserts o c) = rowsOf runId (c.filterMap (taskRunInsertOf o)) := by
  refine rowsOf_mergeSort (List.pairwise_of_forall_mem_list fun a ha b hb => ?_)
  obtain ⟨x, hx, hrow, hid⟩ := mem_rowsOf_filterMap ha
  obtain ⟨y, hy, hrow', hid'⟩ := mem_rowsOf_filterMap hb
  have hrun : SameRun x y := hid.trans hid'.symm
  exact sortKey_eq hrow hrow' hrun (samePlace_of_mem hwf (hc x hx) (hc y hy) hrun)

theorem mem_rowsOf_blocks {runId : String} {cs : List (List (TaskRunInsert J))} {r : TaskRunRow J}
    (h : r ∈ rowsOf runId (cs.map (taskRunInserts o)).flatten) :
    ∃ c ∈ cs, ∃ y ∈ c, taskRunInsertOf o y = some r ∧ y.run.id = runId := by
  obtain ⟨hmem, hid⟩ := List.mem_filter.mp h
  obtain ⟨block, hblock, hr⟩ := List.mem_flatten.mp hmem
  obtain ⟨c, hc, rfl⟩ := List.mem_map.mp hblock
  obtain ⟨y, hy, hrow⟩ := mem_taskRunInserts.mp hr
  exact ⟨c, hc, y, hy, hrow, (carries_of_taskRunInsertOf hrow).runId.symm.trans (of_decide_eq_true hid)⟩

theorem rowsOf_append (runId : String) (a b : List (TaskRunRow J)) :
    rowsOf runId (a ++ b) = rowsOf runId a ++ rowsOf runId b := List.filter_append a b

/-- 最後の変更を持つ batch では、その後に同じ run の変更は無い。 -/
theorem not_after_last {l₁ l₂ α β : List (TaskRunInsert J)} {x y : TaskRunInsert J}
    (hwf : WellFormed (l₁ ++ x :: l₂)) (hlast : ∀ z ∈ l₂, ¬ SameRun z x)
    (hc : (α ++ x :: β).Pairwise Follows) (hlog : ∀ z ∈ α ++ x :: β, z ∈ l₁ ++ x :: l₂) (hy : y ∈ β) :
    ¬ SameRun y x := by
  intro hrun
  have hrank : x.event.rank < y.event.rank := by
    have hx := (List.pairwise_append.mp hc).2.1
    exact (List.pairwise_cons.mp hx).1 y hy (Eq.symm hrun)
  have hmem := hlog y (List.mem_append_right _ (List.mem_cons_of_mem x hy))
  rcases List.mem_append.mp hmem with hmem | hmem
  · -- 先に記録された変更は、後の変更より後の種類ではない。
    obtain ⟨hdelete, hinsert, -⟩ :=
      (List.pairwise_append.mp hwf).2.2 y hmem x List.mem_cons_self hrun
    revert hdelete hinsert hrank
    cases x.event <;> cases y.event <;> decide
  · rcases List.mem_cons.mp hmem with rfl | hmem
    · exact absurd hrank (lt_irrefl _)
    · exact hlast y hmem hrun

/-- 書かれた batch も、記録の変更を分けて持つ。 -/
theorem Settling.arranged_written (h : Settling o s) : Arranged s.log s.written := by
  have harranged := h.arranged
  unfold containers at harranged
  exact harranged.left.left

/-- 残るもののない状態では、最後の変更は書かれている。 -/
theorem Settling.last_written (h : Settling o s) (hbatch : s.batch = []) (hflushes : s.flushes = [])
    {runId : String} {x : TaskRunInsert J} (hx : lastEvent runId s.log = some x)
    (hne : x.run.id ≠ "") : ∃ b ∈ s.written, x ∈ b := by
  obtain ⟨l₁, l₂, hlog, hid, hlast⟩ := lastEvent_split hx
  have hkey : getKey x ≠ none := by
    rw [getKey_isSome hne]
    exact Option.some_ne_none _
  have hsuf : x :: l₂ <:+ s.log := ⟨l₁, hlog.symm⟩
  obtain ⟨y, hy, hxy, hcarried⟩ := h.pipeline.carried.of_suffix hsuf hkey
  -- 最後の変更に代わる変更は無い
  have hyx : y = x := by
    rcases List.mem_cons.mp hy with rfl | hy
    · rfl
    · exact absurd ((hxy.sameRun hkey).symm.trans hid) (hlast y hy)
  subst hyx
  rcases hcarried with (hheld | ⟨f, hf, -⟩ | hlost) | hstored
  · rw [hbatch] at hheld
    cases hheld
  · rw [hflushes] at hf
    cases hf
  · rw [h.lost] at hlost
    cases hlost
  · exact hstored.1

/-- 同じ run の変更の版は、最後の変更の版を超えない。 -/
theorem Settling.version_le_last (h : Settling o s) {runId : String} {x : TaskRunInsert J}
    (hx : lastEvent runId s.log = some x) {y : TaskRunInsert J} (hy : y ∈ s.log)
    (hyid : y.run.id = runId) : y.version ≤ x.version := by
  obtain ⟨l₁, l₂, hlog, -, hlast⟩ := lastEvent_split hx
  have hordered := h.pipeline.inOrder
  rw [hlog] at hy hordered
  rcases List.mem_append.mp hy with hy | hy
  · exact (List.pairwise_append.mp hordered).2.2 y hy x List.mem_cons_self
  · rcases List.mem_cons.mp hy with rfl | hy
    · exact le_refl _
    · exact absurd hyid (hlast y hy)

/-- 複製される変更には行がある。 -/
theorem exists_taskRunInsertOf (o : Options J) {x : TaskRunInsert J} (hrep : Replicable x) :
    ∃ row, taskRunInsertOf o x = some row := by
  obtain ⟨r, hr⟩ := Option.ne_none_iff_exists'.mp hrep.2
  refine ⟨prepareTaskRunInsert o x.run r.2 r.1 x.event x.version, ?_⟩
  unfold taskRunInsertOf
  rw [hr, Option.map_some]

/-- 残るもののない状態で、run の最も新しい行は最後の変更の行である。 -/
theorem Settling.latestRow_eq (h : Settling o s) (hbatch : s.batch = []) (hflushes : s.flushes = [])
    {runId : String} {x : TaskRunInsert J} (hx : lastEvent runId s.log = some x)
    (hrep : Replicable x) :
    latestRow runId s.taskRuns.flatten = taskRunInsertOf o x := by
  obtain ⟨l₁, l₂, hlog, hid, hlast⟩ := lastEvent_split hx
  have hwf := h.wellFormed
  obtain ⟨row, hrow⟩ := exists_taskRunInsertOf o hrep
  obtain ⟨c, hc, hxc⟩ := h.last_written hbatch hflushes hx hrep.1
  obtain ⟨d₁, d₂, hwritten⟩ := List.append_of_mem hc
  obtain ⟨α, β, rfl⟩ := List.append_of_mem hxc
  have harranged := h.arranged_written
  have hclog := harranged.logged _ hc
  have hle : ∀ y ∈ s.log, y.run.id = runId → y.version ≤ x.version :=
    fun y hy hyid => h.version_le_last hx hy hyid
  have hversion : ∀ {y row}, taskRunInsertOf o y = some row → row.version = y.version :=
    fun h => (carries_of_taskRunInsertOf h).version
  -- この run の行を、最後の変更の行の前後に分ける
  have hrows : rowsOf runId s.taskRuns.flatten =
      (rowsOf runId (d₁.map (taskRunInserts o)).flatten ++
        rowsOf runId (α.filterMap (taskRunInsertOf o))) ++
      row :: (rowsOf runId (β.filterMap (taskRunInsertOf o)) ++
        rowsOf runId (d₂.map (taskRunInserts o)).flatten) := by
    have hown : row.runId = runId := (carries_of_taskRunInsertOf hrow).runId.trans hid
    have hcons : rowsOf runId (row :: β.filterMap (taskRunInsertOf o)) =
        row :: rowsOf runId (β.filterMap (taskRunInsertOf o)) :=
      List.filter_cons_of_pos (decide_eq_true hown)
    rw [h.pipeline.blocks, hwritten, List.map_append, List.map_cons, List.flatten_append,
      List.flatten_cons, rowsOf_append, rowsOf_append, rowsOf_taskRunInserts hwf hclog,
      List.filterMap_append, List.filterMap_cons_some hrow, rowsOf_append, hcons]
    simp only [List.append_assoc, List.cons_append]
  rw [hrow]
  refine Replication.latestRow_eq hrows (fun q hq => ?_) fun q hq => ?_
  · rw [hversion hrow]
    rcases List.mem_append.mp hq with hq | hq
    · obtain ⟨b, hb, y, hy, hyrow, hyid⟩ := mem_rowsOf_blocks hq
      rw [hversion hyrow]
      refine hle y (harranged.logged b ?_ y hy) hyid
      rw [hwritten]
      exact List.mem_append_left _ hb
    · obtain ⟨y, hy, hyrow, hyid⟩ := mem_rowsOf_filterMap hq
      rw [hversion hyrow]
      exact hle y (hclog y (List.mem_append_left _ hy)) hyid
  · rw [hversion hrow]
    rcases List.mem_append.mp hq with hq | hq
    · -- 同じ batch では、最後の変更の後に同じ run の変更は無い
      obtain ⟨y, hy, -, hyid⟩ := mem_rowsOf_filterMap hq
      rw [hlog] at hwf hclog
      refine absurd (hyid.trans hid.symm) (not_after_last hwf ?_ (harranged.ordered _ hc) hclog hy)
      exact fun z hz hrun => hlast z hz (Eq.trans hrun hid)
    · -- 後に書かれた batch の版は、最後の変更の版と異なる
      obtain ⟨b, hb, y, hy, hyrow, hyid⟩ := mem_rowsOf_blocks hq
      have hbw : b ∈ s.written := by
        rw [hwritten]
        exact List.mem_append_right _ (List.mem_cons_of_mem _ hb)
      have hapart : Apart (α ++ x :: β) b := by
        have := harranged.apart
        rw [hwritten] at this
        exact (List.pairwise_cons.mp (List.pairwise_append.mp this).2.1).1 b hb
      have hdiff := hapart x hxc y hy
      have hyle := hle y (harranged.logged b hbw y hy) hyid
      rw [hversion hyrow]
      exact lt_of_le_of_ne hyle (Ne.symm hdiff)

/-- 同じ版の行は一つの block にある。 -/
theorem Settling.blocks_apart (h : Settling o s) :
    s.taskRuns.Pairwise fun b c => ∀ r ∈ b, ∀ q ∈ c, r.version ≠ q.version := by
  rw [h.pipeline.blocks, List.pairwise_map]
  refine h.arranged_written.apart.imp fun hbc r hr q hq => ?_
  obtain ⟨x, hx, hrow⟩ := mem_taskRunInserts.mp hr
  obtain ⟨y, hy, hrow'⟩ := mem_taskRunInserts.mp hq
  rw [(carries_of_taskRunInsertOf hrow).version, (carries_of_taskRunInsertOf hrow').version]
  exact hbc x hx y hy

/--
**すべてが flush された後、複製される run の最も新しい行は、最後の変更の後の状態を表す。** 同じ版の行は一つの block に
ある。
-/
theorem converges (o : Options J) (hretries : 0 < o.insertMaxRetries) (ls : List (Label J))
    (hadm : Along (step o) Admissible {} ls) (hbatch : (exec (step o) {} ls).batch = [])
    (hflushes : (exec (step o) {} ls).flushes = []) :
    ((exec (step o) {} ls).taskRuns.Pairwise fun b c => ∀ r ∈ b, ∀ q ∈ c, r.version ≠ q.version) ∧
    ∀ runId x, lastEvent runId (exec (step o) {} ls).log = some x → Replicable x →
      ∃ row, latestRow runId (exec (step o) {} ls).taskRuns.flatten = some row ∧
        Carries o x row ∧ (row.isDeleted = 1 ↔ x.event = .delete) := by
  have h : Settling o (exec (step o) {} ls) :=
    Along.invariant (Settling.step hretries) (Settling.init o) hadm
  refine ⟨h.blocks_apart, fun runId x hx hrep => ?_⟩
  obtain ⟨row, hrow⟩ := exists_taskRunInsertOf o hrep
  refine ⟨row, ?_, carries_of_taskRunInsertOf hrow, isDeleted_of_taskRunInsertOf hrow⟩
  rw [h.latestRow_eq hbatch hflushes hx hrep, hrow]

/-- 状態を変えていく run。 -/
def runAt (id status : String) : PostgresTaskRun String :=
  { createdRun id (some "PRODUCTION") (some "org") with status := status }

/--
二つの transaction を届け、それぞれを flush する。初めの transaction の `a` の update は二つで、後のものが先のものに
代わる。どちらの transaction にも同じ版の `a` の変更があり、二つ目の flush が先に行を書く。
-/
def interleaved : List (Label String) :=
  [.begin, .change .insert (runAt "a" "PENDING"), .change .update (runAt "a" "DEQUEUED"),
    .change .insert (runAt "b" "PENDING"), .change .update (runAt "a" "EXECUTING"),
    .commit (some ⟨0, 1⟩), .flushTick,
    .begin, .change .update (runAt "a" "COMPLETED"), .change .update (runAt "b" "EXECUTING"),
    .change .delete (runAt "a" "COMPLETED"), .commit (some ⟨0, 2⟩), .flushTick,
    .startFlush, .startFlush, .finishAttempt 1 .ok, .finishAttempt 0 .ok, .finishAttempt 1 .ok,
    .finishAttempt 0 .ok]

/-- 書かれた二つの batch と、消された `a`、実行中の `b` の行。 -/
theorem converges_interleaved :
    ((exec (step plainOptions) {} interleaved).written.map fun b =>
      b.map fun x => (x.version, x.event, x.run.id, x.run.status)) =
        [[(2, .update, "a", "COMPLETED"), (2, .update, "b", "EXECUTING"),
            (2, .delete, "a", "COMPLETED")],
          [(1, .insert, "a", "PENDING"), (1, .update, "a", "EXECUTING"),
            (1, .insert, "b", "PENDING")]] ∧
    (∃ row, latestRow "a" (exec (step plainOptions) {} interleaved).taskRuns.flatten = some row ∧
      Carries plainOptions ⟨2, runAt "a" "COMPLETED", .delete⟩ row ∧ row.isDeleted = 1) ∧
    ∃ row, latestRow "b" (exec (step plainOptions) {} interleaved).taskRuns.flatten = some row ∧
      Carries plainOptions ⟨2, runAt "b" "EXECUTING", .update⟩ row ∧ row.isDeleted ≠ 1 := by
  have hcommitted : Along (step plainOptions) Admissible {} interleaved := by
    refine ⟨trivial, trivial, trivial, trivial, trivial, ?_, trivial, trivial, trivial, trivial,
      trivial, ?_, trivial, trivial, trivial, rfl, rfl, rfl, rfl, trivial⟩
    · intro events hevents
      cases hevents
      exact ⟨fun x hx => (by cases hx), by unfold WellFormed SameRun SamePlace; decide +kernel⟩
    · intro events hevents
      cases hevents
      exact ⟨by decide +kernel, by unfold WellFormed SameRun SamePlace; decide +kernel⟩
  obtain ⟨-, hrows⟩ := converges plainOptions (by decide) interleaved hcommitted rfl rfl
  obtain ⟨row, hrow, hcarries, hdeleted⟩ :=
    hrows "a" ⟨2, runAt "a" "COMPLETED", .delete⟩ rfl ⟨by decide, by decide⟩
  obtain ⟨row', hrow', hcarries', hdeleted'⟩ :=
    hrows "b" ⟨2, runAt "b" "EXECUTING", .update⟩ rfl ⟨by decide, by decide⟩
  refine ⟨by decide +kernel, ⟨row, hrow, hcarries, hdeleted.mpr rfl⟩, row', hrow', hcarries', ?_⟩
  exact fun h => by cases hdeleted'.mp h

/-- 一つの run を作る transaction を届け、flush を終える。 -/
def flushed (run : PostgresTaskRun String) : List (Label String) :=
  [.begin, .change .insert run, .commit (some ⟨0, 1⟩), .flushTick, .startFlush,
    .finishAttempt 0 .ok, .finishAttempt 0 .ok]

/--
organization の無い run は、すべての挿入が成功しても行にならない。JSON でない output も、`""` と値の無い列の違いも、行に
残らない。
-/
theorem unrecorded_run_has_no_row :
    ((exec (step plainOptions) {} (flushed (createdRun "a" (some "PRODUCTION") none))).batch = [] ∧
      (exec (step plainOptions) {} (flushed (createdRun "a" (some "PRODUCTION") none))).flushes = [] ∧
      lastEvent "a"
        (exec (step plainOptions) {} (flushed (createdRun "a" (some "PRODUCTION") none))).log =
          some ⟨1, createdRun "a" (some "PRODUCTION") none, .insert⟩ ∧
      latestRow "a" (exec (step plainOptions) {}
        (flushed (createdRun "a" (some "PRODUCTION") none))).taskRuns.flatten = none) ∧
    (exec (step plainOptions) {} (flushed { runAt "a" "COMPLETED" with
        output := some "done", outputType := "text/plain", ttl := some "" })).taskRuns =
      (exec (step plainOptions) {} (flushed (runAt "a" "COMPLETED"))).taskRuns := by
  have hrows : (exec (step plainOptions) {}
      (flushed (createdRun "a" (some "PRODUCTION") none))).taskRuns =
        [([] : List (TaskRunRow String)).mergeSort fun a b => compareRows a b ≤ 0] := rfl
  refine ⟨⟨rfl, rfl, rfl, ?_⟩, rfl⟩
  rw [hrows, List.mergeSort_nil]
  rfl

end Replication
