import Mathlib.Algebra.BigOperators.Group.List.Basic
import Mathlib.Algebra.Order.BigOperators.Group.List
import Mathlib.Tactic.Linarith
import Trigger.Infra.Grouping
import Trigger.Infra.Sampling

/-!
# WeightedScheduler の tenant の選択

`fair-queue/schedulers/weighted.ts` の `#selectTopTenantQueues`。tenant ごとに queue の score の平均を求め、最大の
平均で割ったものを重みとして、`maximumTenantCount` 個の tenant を選ぶ。

選ばれる tenant の数と、返る queue は正しい。しかし `avgAge` という名の平均は score（最古の message の時刻）の平均
なので、古い tenant ほど重みが小さい。古い tenant の重みが大きいか等しいのは、古さに差のある tenant の組が無いとき、
そのときに限る（`selectTopTenantQueues_iff`）。
-/

namespace FairQueue

open Infra Infra.Sampling

/-! ## 選択 -/

/-- `QueueWithScore`。 -/
structure QueueWithScore where
  queueId : String
  score : ℚ
  tenantId : String
deriving DecidableEq

section Select

variable {ν : Type} (A : Arithmetic ν)

/-- `tenantAges`。queue の score の平均。 -/
def tenantAges (queues : List QueueWithScore) : List (String × ν) :=
  (JsMap.groupBy QueueWithScore.tenantId queues).map fun e =>
    (e.1, A.div (A.sum (e.2.map fun q => A.ofRat q.score)) (A.ofRat e.2.length))

/-- `weightedTenants`。 -/
def weightedTenants (queues : List QueueWithScore) : List (String × ν) :=
  let tenantAges := tenantAges A queues
  let maxAge := A.maximum (tenantAges.map Prod.snd)
  if A.isZero maxAge then
    tenantAges.map fun t => (t.1, A.div (A.ofRat 1) (A.ofRat tenantAges.length))
  else tenantAges.map fun t => (t.1, A.div t.2 maxAge)

/-- `selectedTenants`。tenant の id は異なるので、集合の大きさは選んだ回数である。 -/
def selectedTenants (maximumTenantCount : Nat) (rng : Nat → A.Draw)
    (queues : List QueueWithScore) : List String :=
  let weightedTenants := weightedTenants A queues
  let totalWeight := A.sum (weightedTenants.map Prod.snd)
  (sample A Prod.snd A.sub rng maximumTenantCount 0 totalWeight weightedTenants).map Prod.fst

/-- `#selectTopTenantQueues`。 -/
def selectTopTenantQueues (maximumTenantCount : Nat) (rng : Nat → A.Draw)
    (queues : List QueueWithScore) : List QueueWithScore :=
  queues.filter (·.tenantId ∈ selectedTenants A maximumTenantCount rng queues)

end Select

/-! ## 選ばれる tenant -/

section Selected

variable {ν : Type} {A : Arithmetic ν} {queues : List QueueWithScore}

theorem map_fst_weightedTenants :
    (weightedTenants A queues).map Prod.fst =
      (JsMap.groupBy QueueWithScore.tenantId queues).map Prod.fst := by
  simp only [weightedTenants, tenantAges, apply_ite (List.map Prod.fst), List.map_map,
    Function.comp_def, ite_self]

/-- 選ばれる tenant の数は、上限と tenant の数の小さい方である。 -/
def SelectsTenants (maximumTenantCount : Nat) (queues result : List QueueWithScore) : Prop :=
  ∃ selected : List String, selected.Nodup ∧
    selected.length = min maximumTenantCount (queues.map QueueWithScore.tenantId).dedup.length ∧
    (∀ t ∈ selected, ∃ q ∈ queues, q.tenantId = t) ∧
    result = queues.filter (·.tenantId ∈ selected)

/-- どの重みと乱数でも、上限までの tenant が選ばれ、その queue がすべて返る。 -/
theorem selectsTenants (A : Arithmetic ν) (maximumTenantCount : Nat) (rng : Nat → A.Draw)
    (queues : List QueueWithScore) : SelectsTenants maximumTenantCount queues
      (selectTopTenantQueues A maximumTenantCount rng queues) := by
  have hkeys := JsMap.keys_groupBy_perm QueueWithScore.tenantId queues
  have hsub : (selectedTenants A maximumTenantCount rng queues).Subperm
      ((JsMap.groupBy QueueWithScore.tenantId queues).map Prod.fst) := by
    rw [← map_fst_weightedTenants (A := A)]
    have hsample : (sample A Prod.snd A.sub rng maximumTenantCount 0
        (A.sum ((weightedTenants A queues).map Prod.snd)) (weightedTenants A queues)).Subperm
          (weightedTenants A queues) := sample_subperm ..
    obtain ⟨l, hperm, hl⟩ := hsample
    exact ⟨l.map Prod.fst, hperm.map _, hl.map _⟩
  refine ⟨selectedTenants A maximumTenantCount rng queues, ?_, ?_, fun t ht => ?_, rfl⟩
  · obtain ⟨l, hperm, hl⟩ := hsub
    exact hperm.nodup_iff.mp (hl.nodup (JsMap.nodup_keys_groupBy _ _))
  · rw [← hkeys.length_eq, ← map_fst_weightedTenants (A := A)]
    simp only [selectedTenants, List.length_map]
    exact length_sample ..
  · exact JsMap.mem_keys_groupBy.mp (hsub.subset ht)

end Selected

/-! ## 平均 -/

section Average

/-- `c` 以下の数の合計が `c` の個数倍以上なら、どれも `c` である。 -/
theorem forall_eq_of_sum_ge {c : ℚ} : ∀ {l : List ℚ}, (∀ x ∈ l, x ≤ c) →
    l.sum ≤ l.length * c ∧ (l.length * c ≤ l.sum → ∀ x ∈ l, x = c)
  | [], _ => by simp
  | x :: l, h => by
    obtain ⟨hle, heq⟩ := forall_eq_of_sum_ge fun y hy => h y (List.mem_cons_of_mem x hy)
    have hx : x ≤ c := h x List.mem_cons_self
    simp only [List.sum_cons, List.length_cons, Nat.cast_add, Nat.cast_one, add_mul, one_mul]
    refine ⟨by linarith, fun hge y hy => ?_⟩
    rcases List.mem_cons.mp hy with rfl | hy
    · linarith
    · exact heq (by linarith) y hy

/-- `c` 以上の数についても同じである。 -/
theorem forall_eq_of_sum_le {c : ℚ} {l : List ℚ} (h : ∀ x ∈ l, c ≤ x) :
    l.length * c ≤ l.sum ∧ (l.sum ≤ l.length * c → ∀ x ∈ l, x = c) := by
  have hneg : ∀ x ∈ l.map fun x => -x, x ≤ -c := by
    intro x hx
    obtain ⟨y, hy, rfl⟩ := List.mem_map.mp hx
    exact neg_le_neg (h y hy)
  obtain ⟨hle, heq⟩ := forall_eq_of_sum_ge hneg
  rw [← List.sum_neg, List.length_map, mul_neg] at hle heq
  refine ⟨neg_le_neg_iff.mp hle, fun hge x hx => ?_⟩
  exact neg_inj.mp (heq (neg_le_neg hge) (-x) (List.mem_map_of_mem hx))

/-- 空でない二つの列の、一方の数がどれももう一方の数以下だとする。平均が逆の順でもあるのは、どの数も等しいとき、
そのときに限る。 -/
theorem average_ge_iff {l l' : List ℚ} (hl : l ≠ []) (hl' : l' ≠ [])
    (h : ∀ x ∈ l, ∀ y ∈ l', x ≤ y) :
    l'.sum / l'.length ≤ l.sum / l.length ↔ ∀ x ∈ l, ∀ y ∈ l', y ≤ x := by
  have hn : (0 : ℚ) < l.length := by exact_mod_cast List.length_pos_iff.mpr hl
  have hn' : (0 : ℚ) < l'.length := by exact_mod_cast List.length_pos_iff.mpr hl'
  constructor
  · intro hge
    have hsum : (l.length : ℚ) * (l.sum / l.length) = l.sum := mul_div_cancel₀ _ hn.ne'
    have hsum' : (l'.length : ℚ) * (l'.sum / l'.length) = l'.sum := mul_div_cancel₀ _ hn'.ne'
    -- `l` の数はどれも `l'` の平均以下なので、`l` の平均以下であり、`l` の平均に等しい。
    have hbelow : ∀ x ∈ l, x ≤ l'.sum / l'.length := by
      intro x hx
      rw [le_div_iff₀ hn', mul_comm]
      exact (forall_eq_of_sum_le (h x hx)).1
    have heq : ∀ x ∈ l, x = l.sum / l.length :=
      (forall_eq_of_sum_ge fun x hx => (hbelow x hx).trans hge).2 hsum.le
    intro x hx y hy
    have hx' : l'.sum / l'.length ≤ x := by
      rw [heq x hx]
      exact hge
    have heq' : ∀ y ∈ l', y = x := by
      refine (forall_eq_of_sum_le (h x hx)).2 ?_
      calc l'.sum = l'.length * (l'.sum / l'.length) := hsum'.symm
        _ ≤ l'.length * x := mul_le_mul_of_nonneg_left hx' hn'.le
    exact (heq' y hy).le
  · intro hall
    obtain ⟨c, hc⟩ := List.exists_mem_of_ne_nil l hl
    have hle : l'.sum ≤ l'.length * c := (forall_eq_of_sum_ge fun y hy => hall c hc y hy).1
    have hge : l.length * c ≤ l.sum := by
      obtain ⟨d, hd⟩ := List.exists_mem_of_ne_nil l' hl'
      exact (forall_eq_of_sum_le fun x hx => (h c hc d hd).trans (hall x hx d hd)).1
    calc l'.sum / l'.length ≤ c := by rwa [div_le_iff₀ hn', mul_comm]
      _ ≤ l.sum / l.length := by rwa [le_div_iff₀ hn, mul_comm]

end Average

/-! ## 重みの順 -/

/-- `t` のどの queue も、`t'` のどの queue より古いか同じである。 -/
def AtLeastAsOld (queues : List QueueWithScore) (t t' : String) : Prop :=
  ∀ q ∈ queues, q.tenantId = t → ∀ q' ∈ queues, q'.tenantId = t' → q.score ≤ q'.score

/-- 古い tenant の重みは、大きいか等しい。 -/
def PrefersOlder (queues : List QueueWithScore) : Prop :=
  ∀ t w t' w', (t, w) ∈ weightedTenants Arithmetic.rational queues →
    (t', w') ∈ weightedTenants Arithmetic.rational queues → AtLeastAsOld queues t t' → w' ≤ w

/-- 古さに差のある tenant の組が無い。 -/
def NoneOlder (queues : List QueueWithScore) : Prop :=
  ∀ t t', AtLeastAsOld queues t t' → AtLeastAsOld queues t' t

section Weights

variable {queues : List QueueWithScore}

/-- tenant の queue の score。 -/
def scoresOf (queues : List QueueWithScore) (t : String) : List ℚ :=
  (queues.filter (·.tenantId = t)).map QueueWithScore.score

theorem mem_scoresOf {t : String} {x : ℚ} :
    x ∈ scoresOf queues t ↔ ∃ q ∈ queues, q.tenantId = t ∧ q.score = x := by
  simp [scoresOf, and_assoc]

/-- tenant の平均。 -/
theorem mem_tenantAges {t : String} {x : ℚ} :
    (t, x) ∈ tenantAges Arithmetic.rational queues ↔ scoresOf queues t ≠ [] ∧
      x = (scoresOf queues t).sum / (scoresOf queues t).length := by
  have havg : ∀ l : List QueueWithScore,
      Arithmetic.rational.div (Arithmetic.rational.sum (l.map fun q =>
        Arithmetic.rational.ofRat q.score)) (Arithmetic.rational.ofRat l.length) =
          (l.map QueueWithScore.score).sum / (l.map QueueWithScore.score).length := by
    intro l
    rw [List.length_map, List.sum_eq_foldl]
    rfl
  simp only [tenantAges, List.mem_map]
  constructor
  · rintro ⟨⟨t', qs⟩, hmem, heq⟩
    obtain ⟨rfl, rfl⟩ := Prod.mk.inj heq
    obtain ⟨rfl, hne⟩ := JsMap.mem_groupBy.mp hmem
    exact ⟨by simpa [scoresOf] using hne, havg _⟩
  · rintro ⟨hne, rfl⟩
    refine ⟨_, JsMap.mem_groupBy.mpr ⟨rfl, ?_⟩, Prod.ext rfl (havg _)⟩
    exact fun hnil => hne (by simp only [scoresOf, hnil, List.map_nil])

/-- score が正なら、平均も正である。 -/
theorem average_pos (hpos : ∀ q ∈ queues, 0 < q.score) {t : String} {x : ℚ}
    (h : (t, x) ∈ tenantAges Arithmetic.rational queues) : 0 < x := by
  obtain ⟨hne, rfl⟩ := mem_tenantAges.mp h
  have hall : ∀ y ∈ scoresOf queues t, 0 < y := by
    intro y hy
    obtain ⟨q, hq, -, rfl⟩ := mem_scoresOf.mp hy
    exact hpos q hq
  exact div_pos (List.sum_pos _ hall hne) (by exact_mod_cast List.length_pos_iff.mpr hne)

/-- 重みは、平均を正の数で割ったものである。 -/
theorem exists_weight (hpos : ∀ q ∈ queues, 0 < q.score) :
    ∃ c : ℚ, 0 < c ∧ ∀ t w, (t, w) ∈ weightedTenants Arithmetic.rational queues ↔
      ∃ x, (t, x) ∈ tenantAges Arithmetic.rational queues ∧ w = x / c := by
  rcases hmax : ((tenantAges Arithmetic.rational queues).map Prod.snd).max? with _ | c
  · have hnil : tenantAges Arithmetic.rational queues = [] := by
      simpa [List.max?_eq_none_iff] using hmax
    refine ⟨1, one_pos, fun t w => ?_⟩
    simp [weightedTenants, hnil]
  · obtain ⟨⟨t, x⟩, hmem, rfl⟩ := List.mem_map.mp (List.max?_mem hmax)
    have hx : 0 < x := average_pos hpos hmem
    have hzero : Arithmetic.rational.isZero (Arithmetic.rational.maximum
        ((tenantAges Arithmetic.rational queues).map Prod.snd)) = false := by
      simp [hmax, hx.ne']
    have hdiv : ∀ y : ℚ, Arithmetic.rational.div y (Arithmetic.rational.maximum
        ((tenantAges Arithmetic.rational queues).map Prod.snd)) = y / x := by
      intro y
      simp [hmax]
    refine ⟨x, hx, fun t w => ?_⟩
    simp only [weightedTenants, hzero, Bool.false_eq_true, if_false, hdiv, List.mem_map]
    constructor
    · rintro ⟨⟨t', y⟩, hy, heq⟩
      obtain ⟨rfl, rfl⟩ := Prod.mk.inj heq
      exact ⟨y, hy, rfl⟩
    · rintro ⟨y, hy, rfl⟩
      exact ⟨_, hy, rfl⟩

theorem tenantAges_of_mem {t : String} (h : scoresOf queues t ≠ []) :
    (t, (scoresOf queues t).sum / (scoresOf queues t).length) ∈
      tenantAges Arithmetic.rational queues :=
  mem_tenantAges.mpr ⟨h, rfl⟩

theorem atLeastAsOld_iff {t t' : String} : AtLeastAsOld queues t t' ↔
    ∀ x ∈ scoresOf queues t, ∀ y ∈ scoresOf queues t', x ≤ y := by
  constructor
  · intro h x hx y hy
    obtain ⟨q, hq, hqt, rfl⟩ := mem_scoresOf.mp hx
    obtain ⟨q', hq', hqt', rfl⟩ := mem_scoresOf.mp hy
    exact h q hq hqt q' hq' hqt'
  · intro h q hq hqt q' hq' hqt'
    exact h _ (mem_scoresOf.mpr ⟨q, hq, hqt, rfl⟩) _ (mem_scoresOf.mpr ⟨q', hq', hqt', rfl⟩)

/-- 古い tenant の重みが大きいか等しいのは、古さに差のある組が無いとき、そのときに限る。 -/
theorem prefersOlder_iff (hpos : ∀ q ∈ queues, 0 < q.score) :
    PrefersOlder queues ↔ NoneOlder queues := by
  obtain ⟨c, hc, hweight⟩ := exists_weight hpos
  -- 二つの tenant の重みの順は、平均の順である。
  have hpair : ∀ {t t' : String}, scoresOf queues t ≠ [] → scoresOf queues t' ≠ [] →
      AtLeastAsOld queues t t' →
      ((scoresOf queues t').sum / (scoresOf queues t').length / c ≤
        (scoresOf queues t).sum / (scoresOf queues t).length / c ↔ AtLeastAsOld queues t' t) := by
    intro t t' ht ht' hold
    rw [div_le_div_iff_of_pos_right hc, average_ge_iff ht ht' (atLeastAsOld_iff.mp hold),
      atLeastAsOld_iff]
    exact ⟨fun h y hy x hx => h x hx y hy, fun h x hx y hy => h y hy x hx⟩
  constructor
  · intro h t t' hold
    by_cases ht : scoresOf queues t = []
    · refine atLeastAsOld_iff.mpr fun y _ x hx => ?_
      rw [ht] at hx
      cases hx
    by_cases ht' : scoresOf queues t' = []
    · refine atLeastAsOld_iff.mpr fun y hy => ?_
      rw [ht'] at hy
      cases hy
    exact (hpair ht ht' hold).mp (h t _ t' _ ((hweight t _).mpr ⟨_, tenantAges_of_mem ht, rfl⟩)
      ((hweight t' _).mpr ⟨_, tenantAges_of_mem ht', rfl⟩) hold)
  · intro h t w t' w' hw hw' hold
    obtain ⟨x, hx, rfl⟩ := (hweight t w).mp hw
    obtain ⟨y, hy, rfl⟩ := (hweight t' w').mp hw'
    obtain ⟨ht, rfl⟩ := mem_tenantAges.mp hx
    obtain ⟨ht', rfl⟩ := mem_tenantAges.mp hy
    exact (hpair ht ht' hold).mpr (h t t' hold)

end Weights

/-- **score が正の任意の queue について、古い tenant の重みが大きいか等しく、かつどの乱数でも上限までの tenant が
選ばれてその queue がすべて返るのは、古さに差のある tenant の組が無いとき、そのときに限る。** 選ばれる数と返る queue に
ついては、いつも成り立つ（`selectsTenants`）。 -/
theorem selectTopTenantQueues_iff (maximumTenantCount : Nat) (queues : List QueueWithScore)
    (hpos : ∀ q ∈ queues, 0 < q.score) :
    (PrefersOlder queues ∧ ∀ rng : Nat → Arithmetic.rational.Draw,
      SelectsTenants maximumTenantCount queues
        (selectTopTenantQueues Arithmetic.rational maximumTenantCount rng queues)) ↔
      NoneOlder queues := by
  rw [and_iff_left fun rng => selectsTenants _ _ rng queues]
  exact prefersOlder_iff hpos

namespace Weighted

/-- 二つの tenant の queue が同時に入った。 -/
theorem selectTopTenantQueues_sample :
    PrefersOlder [⟨"qa", 1000, "a"⟩, ⟨"qb", 1000, "b"⟩] ∧
      ∀ rng : Nat → Arithmetic.rational.Draw,
        SelectsTenants 1 [⟨"qa", 1000, "a"⟩, ⟨"qb", 1000, "b"⟩]
          (selectTopTenantQueues Arithmetic.rational 1 rng
            [⟨"qa", 1000, "a"⟩, ⟨"qb", 1000, "b"⟩]) := by
  refine (selectTopTenantQueues_iff 1 _ (by simp)).mpr fun t t' _ q hq _ q' hq' _ => ?_
  have hscore : ∀ q ∈ [(⟨"qa", 1000, "a"⟩ : QueueWithScore), ⟨"qb", 1000, "b"⟩],
      q.score = 1000 := by
    decide +kernel
  rw [hscore q hq, hscore q' hq']

/-- `b` の queue は `a` の queue より 9 秒新しいが、`b` の重みは `a` の重みの 10 倍である。 -/
theorem newer_tenant_preferred :
    weightedTenants Arithmetic.rational [⟨"qa", 1000, "a"⟩, ⟨"qb", 10000, "b"⟩] =
        [("a", 1 / 10), ("b", 1)] ∧
      AtLeastAsOld [⟨"qa", 1000, "a"⟩, ⟨"qb", 10000, "b"⟩] "a" "b" ∧
      ¬ PrefersOlder [⟨"qa", 1000, "a"⟩, ⟨"qb", 10000, "b"⟩] := by
  have hweights : weightedTenants Arithmetic.rational [⟨"qa", 1000, "a"⟩, ⟨"qb", 10000, "b"⟩] =
      [("a", 1 / 10), ("b", 1)] := by
    decide +kernel
  have hold : AtLeastAsOld [⟨"qa", 1000, "a"⟩, ⟨"qb", 10000, "b"⟩] "a" "b" := by
    unfold AtLeastAsOld
    decide +kernel
  refine ⟨hweights, hold, fun h => ?_⟩
  have hle := h "a" (1 / 10) "b" 1 (by rw [hweights]; simp) (by rw [hweights]; simp) hold
  exact absurd hle (by norm_num)

end Weighted

end FairQueue
