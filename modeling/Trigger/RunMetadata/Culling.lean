import Trigger.RunMetadata.UpdateService

/-!
# buffer の整理

`_cullOperations` は、`set` を key ごとに最後のものだけ残し、ほかの操作の後に移す。整理した操作の結果が、時刻の順に適用した
結果と同じになる条件を調べる。

path でない key では、最後の `set` の後の操作をその key の値だけに適用して値が元に戻ること（`Restores`）が、必要十分である。
path は重なりうるので、動かした `set` がほかの操作を妨げないこと（`Settles`）を求める。
-/

namespace RunMetadata

open Infra (JsMap)

variable {p : JSONHeroPath} {m : Metadata} {key : String}

/-- 時刻の順に並べた操作。 -/
def inTimestampOrder (operations : List Buffered) : List Buffered :=
  operations.mergeSort fun a b => a.timestamp ≤ b.timestamp

def operationsOf (l : List Buffered) : List Operation := l.map (·.operation)

/-! ## 条件 -/

/-- 一つの key の値への、path を使わない操作の作用。 -/
def effect (key : String) (current : Option DeserializedJson) : Operation → Option DeserializedJson
  | .set k v => if k = key then some v else current
  | .delete k => if k = key then none else current
  | .append k v => if k = key then some (appended current v) else current
  | .remove k v =>
    if k = key then
      match current with
      | some (.arr items) => some (.arr (items.filter fun item => !dequal item v))
      | _ => current
    else current
  | .increment k n => if k = key then some (.num (numberOf current + n)) else current
  | .update value => value.lookup key

/-- 最後の `set` の後の操作は、その値を元に戻す。 -/
def Restores (ops : List Operation) : Prop :=
  ∀ pre key w suf, ops = pre ++ Operation.set key w :: suf → (∀ v, .set key v ∉ suf) →
    suf.foldl (effect key) (some w) = some w

/-- `set` の移動は、どの metadata でも結果を変えない。 -/
structure Settles (p : JSONHeroPath) (ops : List Operation) : Prop where
  own : ∀ op ∈ ops, ∀ key, op.key? = some key → key ∉ inheritedKeys
  /-- 最後の `set` は、後の操作を追い越せる。 -/
  last : ∀ pre key w suf, ops = pre ++ Operation.set key w :: suf → (∀ v, .set key v ∉ suf) →
    ∀ m, applyMetadataOperations p (write p key m w) suf =
      write p key (applyMetadataOperations p m suf) w
  /-- そうでない `set` は、次の `set` に消される。 -/
  overwritten : ∀ pre key v mid w suf, ops = pre ++ Operation.set key v ::
      (mid ++ Operation.set key w :: suf) →
    (∀ u, .set key u ∉ mid) →
    ∀ m, write p key (applyMetadataOperations p (write p key m v) mid) w =
      write p key (applyMetadataOperations p m mid) w
  /-- 別の key の `set` は入れ替えられる。 -/
  apart : ∀ key v key' v', .set key v ∈ ops → .set key' v' ∈ ops → key ≠ key' →
    ∀ m, write p key (write p key' m v') v = write p key' (write p key m v) v'

/-- 継承される名前でない property への操作か、全体の置き換え。 -/
def Operation.OnProperty (op : Operation) : Prop :=
  ∀ key, op.key? = some key → isPath key = false ∧ key ∉ inheritedKeys

/-! ## `latestSetOps` -/

/-- 一つの操作を加える。 -/
def latestStep (latest : JsMap Buffered) (op : Buffered) : JsMap Buffered :=
  match op.operation with
  | .set key _ => latest.set key op
  | _ => latest

theorem latestSetOps_eq (l : List Buffered) : latestSetOps l = l.foldl latestStep [] := rfl

/-- key `key` の `set`。 -/
def Buffered.Sets (key : String) (b : Buffered) : Prop := ∃ v, b.operation = .set key v

instance (key : String) (b : Buffered) : Decidable (b.Sets key) :=
  match h : b.operation with
  | .set k v => decidable_of_iff (k = key) ⟨fun hk => ⟨v, hk ▸ h⟩, fun ⟨w, hw⟩ => by
      rw [h] at hw
      cases hw
      rfl⟩
  | .delete _ | .append _ _ | .remove _ _ | .increment _ _ | .update _ =>
    isFalse fun ⟨w, hw⟩ => by
      rw [h] at hw
      cases hw

theorem latestStep_sets {b : Buffered} (h : b.Sets key) (latest : JsMap Buffered) :
    latestStep latest b = latest.set key b := by
  obtain ⟨v, hv⟩ := h
  rw [latestStep, hv]

/-- `set` でない操作は、何も加えない。 -/
theorem latestStep_other {b : Buffered} (h : b.operation.isSet = false) (latest : JsMap Buffered) :
    latestStep latest b = latest := by
  unfold latestStep
  split
  · next heq =>
    rw [heq] at h
    cases h
  · rfl

theorem sets_or_not (b : Buffered) : b.operation.isSet = false ∨ ∃ key, b.Sets key := by
  cases h : b.operation with
  | set key v => exact .inr ⟨key, v, h⟩
  | _ => exact .inl rfl

/-- 先頭の key は、最後の `set` で置き換わりながら先頭に残る。 -/
theorem latest_cons (l : List Buffered) : ∀ (b : Buffered) (latest : JsMap Buffered),
    l.foldl latestStep ((key, b) :: latest) =
      (key, ((l.filter fun b => decide (b.Sets key)).getLast?).getD b) ::
        (l.filter fun b => !decide (b.Sets key)).foldl latestStep latest := by
  induction l with
  | nil => intro b latest; rfl
  | cons c l ih =>
    intro b latest
    rw [List.foldl_cons]
    -- 同じ key の `set` は先頭の値を置き換え、ほかの操作は後ろの部分に加わる。
    by_cases hc : c.Sets key
    · have hstep : latestStep ((key, b) :: latest) c = (key, c) :: latest := by
        rw [latestStep_sets hc, JsMap.set, if_pos rfl]
      rw [hstep, ih, List.filter_cons_of_pos (by simpa using hc),
        List.filter_cons_of_neg (by simpa using hc), List.getLast?_cons, Option.getD_some]
    · have hstep : latestStep ((key, b) :: latest) c = (key, b) :: latestStep latest c := by
        rcases sets_or_not c with hset | ⟨k, hk⟩
        · rw [latestStep_other hset, latestStep_other hset]
        · have hne : key ≠ k := fun h => hc (h ▸ hk)
          rw [latestStep_sets hk, latestStep_sets hk, JsMap.set, if_neg hne]
      rw [hstep, ih, List.filter_cons_of_neg (by simpa using hc),
        List.filter_cons_of_pos (by simpa using hc), List.foldl_cons]

theorem latestSetOps_cons {b : Buffered} (h : b.Sets key) (l : List Buffered) :
    latestSetOps (b :: l) = (key, ((l.filter fun b => decide (b.Sets key)).getLast?).getD b) ::
      latestSetOps (l.filter fun b => !decide (b.Sets key)) := by
  rw [latestSetOps_eq, List.foldl_cons, latestStep_sets h]
  exact latest_cons l b []

/-- その key の最後の `set`。 -/
theorem get_latest (l : List Buffered) : ∀ latest : JsMap Buffered,
    (l.foldl latestStep latest).get key =
      match (l.filter fun b => decide (b.Sets key)).getLast? with
      | some b => some b
      | none => latest.get key := by
  induction l with
  | nil => intro latest; rfl
  | cons c l ih =>
    intro latest
    rw [List.foldl_cons, ih]
    by_cases hc : c.Sets key
    · rw [List.filter_cons_of_pos (by simpa using hc), List.getLast?_cons, latestStep_sets hc,
        JsMap.get_set_self]
      cases (l.filter fun b => decide (b.Sets key)).getLast? <;> rfl
    · rw [List.filter_cons_of_neg (by simpa using hc)]
      have hget : (latestStep latest c).get key = latest.get key := by
        rcases sets_or_not c with hset | ⟨k, hk⟩
        · rw [latestStep_other hset]
        · have hne : key ≠ k := fun h => hc (h ▸ hk)
          rw [latestStep_sets hk, JsMap.get_set_of_ne c hne]
      rw [hget]

theorem delete_latest (l : List Buffered) : ∀ latest : JsMap Buffered,
    (l.foldl latestStep latest).delete key =
      (l.filter fun b => !decide (b.Sets key)).foldl latestStep (latest.delete key) := by
  induction l with
  | nil => intro latest; rfl
  | cons c l ih =>
    intro latest
    rw [List.foldl_cons, ih]
    by_cases hc : c.Sets key
    · rw [List.filter_cons_of_neg (by simpa using hc), latestStep_sets hc, JsMap.delete_set,
        if_pos rfl]
    · rw [List.filter_cons_of_pos (by simpa using hc), List.foldl_cons]
      rcases sets_or_not c with hset | ⟨k, hk⟩
      · rw [latestStep_other hset, latestStep_other hset]
      · have hne : k ≠ key := fun h => hc (h ▸ hk)
        rw [latestStep_sets hk, latestStep_sets hk, JsMap.delete_set, if_neg hne]

/-- 残るのは、それぞれの key の `set` である。 -/
theorem mem_latest {l : List Buffered} {k : String} {b : Buffered} (h : (k, b) ∈ latestSetOps l) :
    b.Sets k ∧ b ∈ l := by
  have hall : ∀ (l : List Buffered) (latest : JsMap Buffered), (k, b) ∈ l.foldl latestStep latest →
      (k, b) ∈ latest ∨ (b.Sets k ∧ b ∈ l) := by
    intro l
    induction l with
    | nil => exact fun latest h => .inl h
    | cons c l ih =>
      intro latest h
      rcases ih _ h with hmem | hmem
      · rcases sets_or_not c with hset | ⟨k', hk'⟩
        · rw [latestStep_other hset] at hmem
          exact .inl hmem
        · rw [latestStep_sets hk'] at hmem
          rcases JsMap.mem_set hmem with hold | ⟨rfl, rfl⟩
          · exact .inl hold
          · exact .inr ⟨hk', List.mem_cons_self⟩
      · exact .inr ⟨hmem.1, List.mem_cons_of_mem c hmem.2⟩
  exact (hall l [] h).resolve_left List.not_mem_nil

theorem nodup_latest (l : List Buffered) : ((latestSetOps l).map Prod.fst).Nodup := by
  have hall : ∀ (l : List Buffered) (latest : JsMap Buffered), (latest.map Prod.fst).Nodup →
      ((l.foldl latestStep latest).map Prod.fst).Nodup := by
    intro l
    induction l with
    | nil => exact fun latest h => h
    | cons c l ih =>
      intro latest h
      refine ih _ ?_
      rcases sets_or_not c with hset | ⟨k, hk⟩
      · rwa [latestStep_other hset]
      · rw [latestStep_sets hk]
        exact JsMap.nodup_keys_set h k c
  exact hall l [] List.nodup_nil

/-- key の `set` があるとき、それは一か所にあり、残りはその key の無い buffer のものである。 -/
theorem latest_split {l : List Buffered} {b : Buffered}
    (h : (l.filter fun b => decide (b.Sets key)).getLast? = some b) : ∃ pre post,
      latestSetOps l = pre ++ (key, b) :: post ∧
        latestSetOps (l.filter fun b => !decide (b.Sets key)) = pre ++ post := by
  have hget : (latestSetOps l).get key = some b := by
    rw [latestSetOps_eq, get_latest, h]
  obtain ⟨pre, post, hsplit⟩ := List.append_of_mem (JsMap.mem_of_get hget)
  refine ⟨pre, post, hsplit, ?_⟩
  have hnodup := nodup_latest l
  rw [hsplit, List.map_append, List.map_cons, List.nodup_append, List.nodup_cons] at hnodup
  obtain ⟨-, ⟨hpost, -⟩, hpre⟩ := hnodup
  -- key を除いた列は、その key の `set` を除いた buffer の列である。
  have hdelete : (l.foldl latestStep []).delete key = _ := delete_latest l []
  rw [← latestSetOps_eq, hsplit] at hdelete
  refine hdelete.symm.trans ?_
  show List.filter _ (pre ++ (key, b) :: post) = pre ++ post
  rw [List.filter_append, List.filter_cons_of_neg (by simp), List.filter_eq_self.mpr,
    List.filter_eq_self.mpr]
  · intro q hq
    have hne : q.1 ≠ key := fun h => hpost (List.mem_map.mpr ⟨q, hq, h⟩)
    simpa using hne
  · intro q hq
    have hne : q.1 ≠ key := hpre q.1 (List.mem_map_of_mem hq) key List.mem_cons_self
    simpa using hne

/-! ## path を含む buffer -/

/-- 整理した操作。`l` は時刻の順である。 -/
def culled (l : List Buffered) : List Buffered :=
  l.filter (!·.operation.isSet) ++ (latestSetOps l).map Prod.snd

theorem cullOperations_eq (operations : List Buffered) :
    cullOperations operations = culled (inTimestampOrder operations) := rfl

theorem Settles.tail {op : Operation} {ops : List Operation} (h : Settles p (op :: ops)) :
    Settles p ops where
  own o ho := h.own o (List.mem_cons_of_mem op ho)
  last pre key w suf heq := h.last (op :: pre) key w suf (by rw [heq, List.cons_append])
  overwritten pre key v mid w suf heq :=
    h.overwritten (op :: pre) key v mid w suf (by rw [heq, List.cons_append])
  apart key v key' v' hv hv' :=
    h.apart key v key' v' (List.mem_cons_of_mem op hv) (List.mem_cons_of_mem op hv')

theorem applyMetadataOperations_cons (op : Operation) (ops : List Operation) (m : Metadata) :
    applyMetadataOperations p m (op :: ops) =
      applyMetadataOperations p (applyOperation p m op) ops := rfl

/-- 入れ替えられる操作は、先頭に移せる。 -/
theorem apply_front {op : Operation} {pre : List Operation} (post : List Operation)
    (h : ∀ o ∈ pre, ∀ m, applyOperation p (applyOperation p m o) op =
      applyOperation p (applyOperation p m op) o) (m : Metadata) :
    applyMetadataOperations p m (pre ++ op :: post) =
      applyMetadataOperations p m (op :: (pre ++ post)) := by
  induction pre generalizing m with
  | nil => rfl
  | cons o pre ih =>
    have hpre : ∀ o' ∈ pre, ∀ m, applyOperation p (applyOperation p m o') op =
        applyOperation p (applyOperation p m op) o' :=
      fun o' ho' => h o' (List.mem_cons_of_mem o ho')
    rw [List.cons_append, applyMetadataOperations_cons, ih hpre, applyMetadataOperations_cons,
      h o List.mem_cons_self]
    rfl

/-- 別の key に残る `set` は、`key` の `set` と入れ替えられる。 -/
theorem Settles.swap {l : List Buffered} (h : Settles p (operationsOf l)) {b c : Buffered}
    {k : String} (hb : b ∈ l) (hkey : b.Sets key) (hc : c ∈ l) (hk : c.Sets k) (hne : key ≠ k)
    (m : Metadata) :
    applyOperation p (applyOperation p m c.operation) b.operation =
      applyOperation p (applyOperation p m b.operation) c.operation := by
  obtain ⟨v, hv⟩ := hkey
  obtain ⟨w, hw⟩ := hk
  have := h.apart key v k w (hv ▸ List.mem_map_of_mem hb) (hw ▸ List.mem_map_of_mem hc) hne m
  rw [hv, hw]
  exact this

/-- 先頭の `set` は、次の `set` に消される。 -/
theorem Settles.absorb {b : Buffered} {l : List Buffered} (h : Settles p (operationsOf (b :: l)))
    {v : DeserializedJson} (hv : b.operation = .set key v) {c : Buffered} (hc : c ∈ l) (hcs : c.Sets key)
    (m : Metadata) : applyMetadataOperations p m (operationsOf (b :: l)) =
      applyMetadataOperations p m (operationsOf l) := by
  have hfirst : (l.find? fun b => decide (b.Sets key)).isSome :=
    List.find?_isSome.mpr ⟨c, hc, decide_eq_true hcs⟩
  obtain ⟨d, hd⟩ := Option.isSome_iff_exists.mp hfirst
  obtain ⟨hds, mid, suf, hl, hmid⟩ := List.find?_eq_some_iff_append.mp hd
  obtain ⟨w, hw⟩ : d.Sets key := of_decide_eq_true hds
  -- 同じ key の次の `set` の前後に分ける。
  have hops : operationsOf l = operationsOf mid ++ Operation.set key w :: operationsOf suf := by
    rw [hl, operationsOf, List.map_append, List.map_cons, hw]
    rfl
  have hclean : ∀ u, .set key u ∉ operationsOf mid := by
    intro u hu
    obtain ⟨e, he, heq⟩ := List.mem_map.mp hu
    have := hmid e he
    simp only [Bool.not_eq_true', decide_eq_false_iff_not] at this
    exact this ⟨u, heq⟩
  have hover := h.overwritten [] key v (operationsOf mid) w (operationsOf suf)
    (by rw [← hops, List.nil_append, ← hv]; rfl) hclean m
  show applyMetadataOperations p (applyOperation p m b.operation) (operationsOf l) = _
  rw [hops, hv, applyMetadataOperations_append, applyMetadataOperations_append,
    applyMetadataOperations_cons, applyMetadataOperations_cons]
  exact congrArg (applyMetadataOperations p · (operationsOf suf)) hover

/-- 先頭の `set` がその key の最後のものなら、後の操作を追い越す。 -/
theorem Settles.defer {b : Buffered} {l : List Buffered} (h : Settles p (operationsOf (b :: l)))
    {v : DeserializedJson} (hv : b.operation = .set key v) (hnone : ∀ c ∈ l, ¬ c.Sets key) (m : Metadata) :
    applyMetadataOperations p m (operationsOf (b :: l)) =
      write p key (applyMetadataOperations p m (operationsOf l)) v := by
  show applyMetadataOperations p (applyOperation p m b.operation) (operationsOf l) = _
  rw [hv]
  refine h.last [] key v (operationsOf l) (by rw [List.nil_append, ← hv]; rfl) (fun u hu => ?_) m
  obtain ⟨e, he, heq⟩ := List.mem_map.mp hu
  exact hnone e he ⟨u, heq⟩

/-- 残った `set` の列に入る `set` は、その先頭に移せる。 -/
theorem Settles.front {l : List Buffered} (h : Settles p (operationsOf l)) {b : Buffered}
    (hb : b ∈ l) (hkey : b.Sets key) {pre : JsMap Buffered}
    (hpre : ∀ q ∈ pre, key ≠ q.1 ∧ q.2.Sets q.1 ∧ q.2 ∈ l) (post : List Operation) (m : Metadata) :
    applyMetadataOperations p m (operationsOf (pre.map Prod.snd) ++ b.operation :: post) =
      applyMetadataOperations p m (b.operation :: (operationsOf (pre.map Prod.snd) ++ post)) := by
  refine apply_front post (fun o ho => ?_) m
  obtain ⟨e, he, rfl⟩ := List.mem_map.mp ho
  obtain ⟨q, hq, rfl⟩ := List.mem_map.mp he
  obtain ⟨hne, hk, hmem⟩ := hpre q hq
  exact h.swap hb hkey hmem hk hne

/-- `set` を動かしても結果が変わらない buffer は、整理してもよい。 -/
theorem Settles.culled_eq : ∀ {l : List Buffered}, Settles p (operationsOf l) → ∀ m,
    applyMetadataOperations p m (operationsOf (culled l)) =
      applyMetadataOperations p m (operationsOf l)
  | [], _, _ => rfl
  | b :: l, h, m => by
    have htail : Settles p (operationsOf l) := h.tail
    rcases sets_or_not b with hset | ⟨key, v, hv⟩
    · -- `set` でない操作は、どちらでも先頭にある
      have hculled : culled (b :: l) = b :: culled l := by
        rw [culled, List.filter_cons_of_pos (by simpa using hset), latestSetOps_eq, List.foldl_cons,
          latestStep_other hset]
        rfl
      rw [hculled]
      exact htail.culled_eq _
    · have hb : b.Sets key := ⟨v, hv⟩
      have hfilter : (b :: l).filter (!·.operation.isSet) = l.filter (!·.operation.isSet) :=
        List.filter_cons_of_neg (by rw [hv]; simp [Operation.isSet])
      have hculled : operationsOf (culled (b :: l)) =
          operationsOf (l.filter (!·.operation.isSet)) ++
            operationsOf ((latestSetOps (b :: l)).map Prod.snd) := by
        rw [culled, hfilter, operationsOf, List.map_append]
        rfl
      have hrest : operationsOf (culled l) = operationsOf (l.filter (!·.operation.isSet)) ++
          operationsOf ((latestSetOps l).map Prod.snd) := List.map_append
      rw [hculled, applyMetadataOperations_append, latestSetOps_cons hb]
      cases hlast : (l.filter fun b => decide (b.Sets key)).getLast? with
      | some c =>
        -- 後に同じ key の `set` があれば、先頭のものは消え、残る一つを先頭に移せる。
        obtain ⟨hcl, hcs⟩ := List.mem_filter.mp (List.mem_of_getLast? hlast)
        obtain ⟨pre, post, hsplit, hothers⟩ := latest_split hlast
        have hnodup := nodup_latest l
        rw [hsplit, List.map_append, List.nodup_append] at hnodup
        have hpre : ∀ q ∈ pre, key ≠ q.1 ∧ q.2.Sets q.1 ∧ q.2 ∈ l := by
          intro q hq
          have hmem : q ∈ latestSetOps l := by
            rw [hsplit]
            exact List.mem_append_left _ hq
          have hne : q.1 ≠ key :=
            hnodup.2.2 q.1 (List.mem_map_of_mem hq) key List.mem_cons_self
          exact ⟨Ne.symm hne, mem_latest hmem⟩
        have hfront :=
          htail.front hcl (of_decide_eq_true hcs) hpre (operationsOf (post.map Prod.snd))
        rw [h.absorb hv hcl (of_decide_eq_true hcs), ← htail.culled_eq m, hrest,
          applyMetadataOperations_append, Option.getD_some, hothers, hsplit]
        simp only [operationsOf, List.map_append, List.map_cons] at hfront ⊢
        exact (hfront _).symm
      | none =>
        -- 先頭の `set` が最後のものなら、後の操作を追い越して `set` の列の先頭に入る。
        have hnone : ∀ c ∈ l, ¬ c.Sets key := by
          intro c hc hcs
          have hmem : c ∈ l.filter fun b => decide (b.Sets key) :=
            List.mem_filter.mpr ⟨hc, decide_eq_true hcs⟩
          rw [List.getLast?_eq_none_iff.mp hlast] at hmem
          exact List.not_mem_nil hmem
        have hothers : l.filter (fun b => !decide (b.Sets key)) = l :=
          List.filter_eq_self.mpr fun c hc => by simpa using hnone c hc
        have hpre : ∀ q ∈ latestSetOps l, key ≠ q.1 ∧ q.2.Sets q.1 ∧ q.2 ∈ b :: l := by
          intro q hq
          obtain ⟨hk, hmem⟩ := mem_latest hq
          exact ⟨fun heq => hnone q.2 hmem (heq ▸ hk), hk, List.mem_cons_of_mem b hmem⟩
        have hfront := h.front List.mem_cons_self hb hpre []
          (applyMetadataOperations p m (operationsOf (l.filter (!·.operation.isSet))))
        rw [List.append_nil, applyMetadataOperations_append, hv] at hfront
        rw [h.defer hv hnone, ← htail.culled_eq m, hrest, applyMetadataOperations_append,
          Option.getD_none, hothers]
        refine Eq.trans ?_ hfront.symm
        show applyMetadataOperations p _ (b.operation :: _) = _
        rw [hv]
        rfl

/-! ## path の無い buffer -/

theorem lookup_applyOperation {op : Operation} (h : op.OnProperty) (m : Metadata) :
    (applyOperation p m op).lookup key = effect key (m.lookup key) op := by
  -- 一つの property を書く操作
  have hwrite : ∀ {k : String}, isPath k = false → ∀ v,
      (write p k m v).lookup key = if k = key then some v else m.lookup key := by
    intro k hk v
    simp only [write, hk, Bool.false_eq_true, if_false]
    by_cases heq : k = key
    · rw [if_pos heq, heq, Finmap.lookup_insert]
    · rw [if_neg heq, Finmap.lookup_insert_of_ne m (Ne.symm heq)]
  have hread : ∀ {k : String}, isPath k = false → read p k m = m.lookup k := by
    intro k hk
    simp only [read, hk, Bool.false_eq_true, if_false]
  cases op with
  | set k v => exact hwrite (h k rfl).1 v
  | delete k =>
    show (m.erase k).lookup key = if k = key then none else m.lookup key
    by_cases heq : k = key
    · rw [if_pos heq, heq, Finmap.lookup_erase]
    · rw [if_neg heq, Finmap.lookup_erase_ne (Ne.symm heq)]
  | append k v =>
    refine (hwrite (h k rfl).1 _).trans ?_
    rw [hread (h k rfl).1, effect]
    by_cases heq : k = key
    · rw [heq]
    · rw [if_neg heq, if_neg heq]
  | remove k v =>
    unfold applyOperation applyOperation? effect
    dsimp only
    rw [hread (h k rfl).1]
    by_cases heq : k = key
    · subst heq
      rw [if_pos rfl]
      cases hm : m.lookup k with
      | none => exact hm
      | some existing =>
        cases existing with
        | arr items => exact (hwrite (h k rfl).1 _).trans (if_pos rfl)
        | _ => exact hm
    · rw [if_neg heq]
      split
      · exact (hwrite (h k rfl).1 _).trans (if_neg heq)
      · rfl
  | increment k n =>
    refine (hwrite (h k rfl).1 _).trans ?_
    rw [hread (h k rfl).1, effect]
    by_cases heq : k = key
    · rw [heq]
    · rw [if_neg heq, if_neg heq]
  | update value => rfl

theorem lookup_applyMetadataOperations {ops : List Operation} (h : ∀ op ∈ ops, op.OnProperty)
    (m : Metadata) : (applyMetadataOperations p m ops).lookup key =
      ops.foldl (effect key) (m.lookup key) := by
  induction ops generalizing m with
  | nil => rfl
  | cons op ops ih =>
    rw [applyMetadataOperations_cons, ih fun o ho => h o (List.mem_cons_of_mem op ho),
      lookup_applyOperation (h op List.mem_cons_self), List.foldl_cons]

/-- `key` の `set` が無ければ、`set` を除いても `key` の値は同じである。 -/
theorem foldl_effect_filter {l : List Buffered} (h : ∀ b ∈ l, ¬ b.Sets key) (x : Option DeserializedJson) :
    (operationsOf (l.filter (!·.operation.isSet))).foldl (effect key) x =
      (operationsOf l).foldl (effect key) x := by
  induction l generalizing x with
  | nil => rfl
  | cons b l ih =>
    have hl : ∀ c ∈ l, ¬ c.Sets key := fun c hc => h c (List.mem_cons_of_mem b hc)
    rcases sets_or_not b with hset | ⟨k, v, hv⟩
    · rw [List.filter_cons_of_pos (by simpa using hset)]
      exact ih hl _
    · have hne : k ≠ key := fun heq => h b List.mem_cons_self ⟨v, heq ▸ hv⟩
      rw [List.filter_cons_of_neg (by rw [hv]; simp [Operation.isSet]), ih hl]
      show _ = (operationsOf l).foldl (effect key) (effect key x b.operation)
      rw [hv, effect, if_neg hne]

/-- 別の key の `set` は、`key` の値を変えない。 -/
theorem foldl_effect_others {sets : JsMap Buffered}
    (h : ∀ q ∈ sets, q.1 ≠ key ∧ q.2.Sets q.1) (x : Option DeserializedJson) :
    (operationsOf (sets.map Prod.snd)).foldl (effect key) x = x := by
  induction sets with
  | nil => rfl
  | cons q sets ih =>
    obtain ⟨hne, v, hv⟩ := h q List.mem_cons_self
    show (operationsOf (sets.map Prod.snd)).foldl (effect key) (effect key x q.2.operation) = x
    rw [hv, effect, if_neg hne, ih fun q' hq' => h q' (List.mem_cons_of_mem q hq')]

/-- 整理した操作の後の `key` の値は、最後の `set` の値である。 -/
theorem foldl_culled_some {l : List Buffered} {b : Buffered} {w : DeserializedJson}
    (h : (l.filter fun b => decide (b.Sets key)).getLast? = some b) (hw : b.operation = .set key w)
    (x : Option DeserializedJson) : (operationsOf (culled l)).foldl (effect key) x = some w := by
  obtain ⟨pre, post, hsplit, -⟩ := latest_split h
  have hnodup := nodup_latest l
  rw [hsplit, List.map_append, List.map_cons, List.nodup_append, List.nodup_cons] at hnodup
  have hpost : ∀ q ∈ post, q.1 ≠ key ∧ q.2.Sets q.1 := by
    intro q hq
    refine ⟨fun heq => hnodup.2.1.1 (List.mem_map.mpr ⟨q, hq, heq⟩), (mem_latest (l := l) ?_).1⟩
    rw [hsplit]
    exact List.mem_append_right _ (List.mem_cons_of_mem _ hq)
  rw [culled, hsplit]
  simp only [operationsOf, List.map_append, List.map_cons, List.foldl_append, List.foldl_cons, hw]
  rw [effect, if_pos rfl]
  exact foldl_effect_others hpost _

/-- `key` の `set` が無ければ、整理しても `key` の値は同じである。 -/
theorem foldl_culled_none {l : List Buffered} (h : ∀ b ∈ l, ¬ b.Sets key) (x : Option DeserializedJson) :
    (operationsOf (culled l)).foldl (effect key) x = (operationsOf l).foldl (effect key) x := by
  have hothers : ∀ q ∈ latestSetOps l, q.1 ≠ key ∧ q.2.Sets q.1 := by
    intro q hq
    obtain ⟨hk, hmem⟩ := mem_latest hq
    exact ⟨fun heq => h q.2 hmem (heq ▸ hk), hk⟩
  rw [culled, operationsOf, List.map_append, List.foldl_append, ← operationsOf, ← operationsOf,
    foldl_effect_others hothers, foldl_effect_filter h]

/-- 最後の `set` の前後に分ける。 -/
theorem last_set_split {l : List Buffered} {b : Buffered}
    (h : (l.filter fun b => decide (b.Sets key)).getLast? = some b) :
    b.Sets key ∧ ∃ pre suf, l = pre ++ b :: suf ∧ ∀ c ∈ suf, ¬ c.Sets key := by
  obtain ⟨init, hinit⟩ := List.getLast?_eq_some_iff.mp h
  obtain ⟨l₁, l₂, rfl, -, hl₂⟩ := List.filter_eq_append_iff.mp hinit
  obtain ⟨l₃, suf, rfl, -, hb, hsuf⟩ := List.filter_eq_cons_iff.mp hl₂
  refine ⟨of_decide_eq_true hb, l₁ ++ l₃, suf, by rw [List.append_assoc], fun c hc hcs => ?_⟩
  exact List.filter_eq_nil_iff.mp hsuf c hc (decide_eq_true hcs)

theorem culled_eq_iff {l : List Buffered} (h : ∀ b ∈ l, b.operation.OnProperty) (m : Metadata) :
    applyMetadataOperations p m (operationsOf (culled l)) =
      applyMetadataOperations p m (operationsOf l) ↔ Restores (operationsOf l) := by
  have hl : ∀ op ∈ operationsOf l, op.OnProperty := by
    intro op hop
    obtain ⟨b, hb, rfl⟩ := List.mem_map.mp hop
    exact h b hb
  have hculled : ∀ op ∈ operationsOf (culled l), op.OnProperty := by
    intro op hop
    obtain ⟨b, hb, rfl⟩ := List.mem_map.mp hop
    rcases List.mem_append.mp hb with hb | hb
    · exact h b (List.mem_filter.mp hb).1
    · obtain ⟨q, hq, rfl⟩ := List.mem_map.mp hb
      exact h q.2 (mem_latest hq).2
  constructor
  · -- その key の値だけを見ると、整理した側では最後の `set` の値になる。
    intro heq pre key w suf hops hsuf
    obtain ⟨l₁, l₂, rfl, rfl, hl₂⟩ := List.map_eq_append_iff.mp hops
    obtain ⟨b, l₃, rfl, hb, rfl⟩ := List.map_eq_cons_iff.mp hl₂
    have hnone : l₃.filter (fun b => decide (b.Sets key)) = [] :=
      List.filter_eq_nil_iff.mpr fun c hc hcs => by
        obtain ⟨v, hv⟩ := of_decide_eq_true hcs
        exact hsuf v (hv ▸ List.mem_map_of_mem hc)
    have hlast : ((l₁ ++ b :: l₃).filter fun b => decide (b.Sets key)).getLast? = some b := by
      have hbs : b.Sets key := ⟨w, hb⟩
      rw [List.filter_append, List.filter_cons_of_pos (by exact decide_eq_true hbs), hnone,
        List.getLast?_concat]
    have hlookup := congrArg (Finmap.lookup key) heq
    rw [lookup_applyMetadataOperations hculled, lookup_applyMetadataOperations hl,
      foldl_culled_some hlast hb, hops, List.foldl_append, List.foldl_cons] at hlookup
    rw [effect, if_pos rfl] at hlookup
    exact hlookup.symm
  · intro hrestores
    refine Finmap.ext_lookup fun key => ?_
    rw [lookup_applyMetadataOperations hculled, lookup_applyMetadataOperations hl]
    -- key ごとに、その key の `set` の有無で分ける。
    cases hlast : (l.filter fun b => decide (b.Sets key)).getLast? with
    | none =>
      refine foldl_culled_none (fun b hb hbs => ?_) _
      have hmem : b ∈ l.filter fun b => decide (b.Sets key) :=
        List.mem_filter.mpr ⟨hb, decide_eq_true hbs⟩
      rw [List.getLast?_eq_none_iff.mp hlast] at hmem
      exact List.not_mem_nil hmem
    | some b =>
      obtain ⟨⟨w, hw⟩, pre, suf, rfl, hsuf⟩ := last_set_split hlast
      have hops : operationsOf (pre ++ b :: suf) =
          operationsOf pre ++ Operation.set key w :: operationsOf suf := by
        rw [operationsOf, List.map_append, List.map_cons, hw]
        rfl
      have hback := hrestores _ key w _ hops fun v hv => by
        obtain ⟨c, hc, hcv⟩ := List.mem_map.mp hv
        exact hsuf c hc ⟨v, hcv⟩
      rw [foldl_culled_some hlast hw, hops, List.foldl_append, List.foldl_cons, effect, if_pos rfl,
        hback]

/-! ## 主定理 -/

/--
**整理した操作の結果は、path を使わない buffer では、最後の `set` の後の操作がその値を元に戻すとき、かつそのときに限り、
時刻の順に適用した結果と同じである。path を含む buffer でも、`set` の移動が結果を変えないなら同じになる。**
-/
theorem cullOperations_preserves_iff (p : JSONHeroPath) (m : Metadata)
    (operations : List Buffered) :
    (Settles p (operationsOf (inTimestampOrder operations)) →
      applyMetadataOperations p m (operationsOf (cullOperations operations)) =
        applyMetadataOperations p m (operationsOf (inTimestampOrder operations))) ∧
      ((∀ b ∈ operations, b.operation.OnProperty) →
        (applyMetadataOperations p m (operationsOf (cullOperations operations)) =
            applyMetadataOperations p m (operationsOf (inTimestampOrder operations)) ↔
          Restores (operationsOf (inTimestampOrder operations)))) := by
  rw [cullOperations_eq]
  refine ⟨fun h => h.culled_eq m, fun h => culled_eq_iff (fun b hb => ?_) m⟩
  exact h b ((List.mergeSort_perm _ _).mem_iff.mp hb)

/-- 値を書いた後に消す。 -/
def setThenDelete : List Buffered :=
  [⟨0, 0, .set "status" (.str "running")⟩, ⟨0, 1, .delete "status"⟩]

/-- 整理すると、消した key が残る。 -/
theorem cullOperations_differs :
    applyMetadataOperations noPath ∅ (operationsOf (cullOperations setThenDelete)) ≠
      applyMetadataOperations noPath ∅ (operationsOf (inTimestampOrder setThenDelete)) := by
  have horder : inTimestampOrder setThenDelete = setThenDelete :=
    List.mergeSort_of_pairwise (by decide)
  rw [cullOperations_eq, horder]
  intro h
  have hlookup := congrArg (Finmap.lookup "status") h
  have hculled : operationsOf (culled setThenDelete) =
      [.delete "status", .set "status" (.str "running")] := rfl
  rw [hculled] at hlookup
  have hset : (applyMetadataOperations noPath ∅
      [.delete "status", .set "status" (.str "running")]).lookup "status" = some (.str "running") :=
    Finmap.lookup_insert _
  have hdelete : (applyMetadataOperations noPath ∅ (operationsOf setThenDelete)).lookup "status" =
      none := Finmap.lookup_erase _ _
  rw [hset, hdelete] at hlookup
  cases hlookup

end RunMetadata
