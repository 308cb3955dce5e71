import Mathlib.Data.List.Induction
import Mathlib.Data.List.Nodup
import Trigger.TreeView.State

/-!
# TreeView の不変条件

木が親を先に並べたものであれば、どの操作の後でも、選ばれている node は高々一つで、見える node は祖先がすべて開いている
node である。filter があるときは、合う node とその祖先がいつも見える。

* `reachable_consistent` — どの操作の列の後でも成り立つこと
* `updateTree_keeps` — `UPDATE_TREE` の後の選択と開閉
-/

namespace TreeView

open Infra

variable {α ν : Type} {tree : List (FlatTreeItem α)} {nodes : NodesState}

/-! ## Map の操作 -/

theorem keys_set_of_get {m : NodesState} {key : String} {n : NodeState}
    (h : JsMap.get m key = some n) (n' : NodeState) :
    (m.set key n').map Prod.fst = m.map Prod.fst := by
  induction m with
  | nil => cases h
  | cons p m ih =>
    obtain ⟨k, b⟩ := p
    rw [JsMap.set_cons]
    split
    · rfl
    · next hk =>
      unfold JsMap.get at h
      rw [List.lookup_cons, beq_false_of_ne (Ne.symm hk)] at h
      rw [List.map_cons, List.map_cons, ih h]

theorem keys_modify (nodes : NodesState) (id : String) (f : NodeState → NodeState) :
    (modify nodes id f).map Prod.fst = nodes.map Prod.fst := by
  unfold modify
  split
  · rfl
  · next h => exact keys_set_of_get h _

theorem get_modify (nodes : NodesState) (id k : String) (f : NodeState → NodeState) :
    JsMap.get (modify nodes id f) k =
      if k = id then (JsMap.get nodes k).map f else JsMap.get nodes k := by
  unfold modify
  split
  · next h =>
    split
    · next hk => rw [hk, h]; rfl
    · rfl
  · next h =>
    rw [JsMap.get_set]
    split
    · next hk => rw [hk, h]; rfl
    · rfl

theorem keys_mapNodes (nodes : NodesState) (f : String → NodeState → NodeState) :
    (mapNodes nodes f).map Prod.fst = nodes.map Prod.fst := by
  unfold mapNodes
  rw [List.map_map]
  rfl

theorem get_mapNodes (nodes : NodesState) (f : String → NodeState → NodeState) (k : String) :
    JsMap.get (mapNodes nodes f) k = (JsMap.get nodes k).map (f k) := by
  unfold mapNodes JsMap.get
  induction nodes with
  | nil => rfl
  | cons p nodes ih =>
    rw [List.map_cons, List.lookup_cons, List.lookup_cons, ih]
    by_cases hk : k = p.1
    · rw [hk, beq_self_eq_true]
      rfl
    · rw [beq_false_of_ne hk]

/-- 同じ値を書き込むので、重なりがあってもよい。 -/
theorem get_foldl_modify {f : NodeState → NodeState} (hf : ∀ n, f (f n) = f n) (ids : List String)
    (nodes : NodesState) (k : String) :
    JsMap.get (ids.foldl (fun nodes id => modify nodes id f) nodes) k =
      if k ∈ ids then (JsMap.get nodes k).map f else JsMap.get nodes k := by
  induction ids generalizing nodes with
  | nil => simp
  | cons id ids ih =>
    rw [List.foldl_cons, ih, get_modify]
    by_cases hid : k = id
    · rw [if_pos hid, if_pos (List.mem_cons.mpr (.inl hid)), Option.map_map]
      split
      · exact congrArg (fun g => (JsMap.get nodes k).map g) (funext hf)
      · rfl
    · simp only [hid, if_false, List.mem_cons, false_or]

theorem keys_foldl_modify (f : NodeState → NodeState) (ids : List String) (nodes : NodesState) :
    (ids.foldl (fun nodes id => modify nodes id f) nodes).map Prod.fst = nodes.map Prod.fst := by
  induction ids generalizing nodes with
  | nil => rfl
  | cons id ids ih => rw [List.foldl_cons, ih, keys_modify]

theorem mem_addId {ids : List String} {id k : String} : k ∈ addId ids id ↔ k ∈ ids ∨ k = id := by
  unfold addId
  split
  · next h => exact ⟨.inl, fun hk => hk.elim (fun hk => hk) fun heq => heq ▸ h⟩
  · rw [List.mem_append, List.mem_singleton]

/-! ## 木 -/

/-- id は重ならず、空でもなく、親は子より前にある。 -/
structure WellFormed (tree : List (FlatTreeItem α)) : Prop where
  nodup : (tree.map (·.id)).Nodup
  nonempty : ∀ item ∈ tree, item.id ≠ ""
  parents : ∀ {before item after}, tree = before ++ item :: after →
    ∀ p, item.parent = some p → p ∈ before.map (·.id)

theorem WellFormed.of_append {before after : List (FlatTreeItem α)}
    (h : WellFormed (before ++ after)) : WellFormed before where
  nodup := by
    have := h.nodup
    rw [List.map_append] at this
    exact this.of_append_left
  nonempty item hi := h.nonempty item (List.mem_append_left _ hi)
  parents hsplit p hp := h.parents (by rw [hsplit, List.append_assoc]; rfl) p hp

theorem WellFormed.eq_of_id (h : WellFormed tree) {item item' : FlatTreeItem α} (hi : item ∈ tree)
    (hi' : item' ∈ tree) (heq : item.id = item'.id) : item = item' :=
  List.inj_on_of_nodup_map h.nodup hi hi' heq

theorem findNode_eq_some (h : WellFormed tree) {id : String} {item : FlatTreeItem α} :
    findNode tree id = some item ↔ item ∈ tree ∧ item.id = id := by
  constructor
  · intro hfind
    exact ⟨List.mem_of_find?_eq_some hfind, by simpa using List.find?_some hfind⟩
  · rintro ⟨hi, rfl⟩
    cases hfind : findNode tree item.id with
    | none => simpa using List.find?_eq_none.mp hfind item hi
    | some found =>
      have hid : found.id = item.id := by simpa using List.find?_some hfind
      rw [h.eq_of_id (List.mem_of_find?_eq_some hfind) hi hid]

/-- 親を先に示せば、すべての node について示せる。 -/
theorem WellFormed.induction (h : WellFormed tree) {P : FlatTreeItem α → Prop}
    (hP : ∀ item ∈ tree, (∀ parent ∈ tree, item.parent = some parent.id → P parent) → P item) :
    ∀ item ∈ tree, P item := by
  have key : ∀ n before item after, before.length = n → tree = before ++ item :: after →
      P item := by
    intro n
    -- 前にある node の個数についての帰納。親はそれより前にある。
    induction n using Nat.strongRecOn with
    | ind n ih =>
      intro before item after hlen hsplit
      refine hP item (by rw [hsplit]; simp) fun parent _ hparent => ?_
      obtain ⟨parent', hmem, hid⟩ := List.mem_map.mp (h.parents hsplit _ hparent)
      obtain ⟨before', after', rfl⟩ := List.append_of_mem hmem
      have htree : tree = before' ++ parent' :: (after' ++ item :: after) := by
        rw [hsplit, List.append_assoc, List.cons_append]
      have heq : parent' = parent :=
        h.eq_of_id (by rw [htree]; simp) (by assumption) hid
      rw [← heq]
      refine ih before'.length ?_ before' parent' _ rfl htree
      rw [← hlen, List.length_append, List.length_cons]
      omega
  intro item hi
  obtain ⟨before, after, hsplit⟩ := List.append_of_mem hi
  exact key _ before item after rfl hsplit

/-! ### 祖先 -/

/-- `parentId` の node が、前から `fuel` 個のうちにある。 -/
def Enough (tree : List (FlatTreeItem α)) (fuel : Nat) (parentId : Option String) : Prop :=
  ∀ p, parentId = some p → ∃ before item after,
    tree = before ++ item :: after ∧ item.id = p ∧ before.length < fuel

/-! ### 平らな木 -/

mutual

/-- 並びの node の親は、並びの前にあるか、木の親である。 -/
theorem parentId_flattenNode : ∀ (t : Tree α) {parentId : Option String} {level : Nat}
    {before after : List (FlatTreeItem α)} {item : FlatTreeItem α},
    flattenNode t parentId level = before ++ item :: after →
      item.parentId = parentId ∨ ∃ p ∈ before.map (·.id), item.parentId = some p
  | .node id runId data children, parentId, level, before, after, item, h => by
    rw [flattenNode] at h
    cases before with
    | nil =>
      obtain ⟨rfl, -⟩ := List.cons.inj h
      exact .inl rfl
    | cons first before =>
      obtain ⟨rfl, htail⟩ := List.cons.inj h
      rcases parentId_flattenChildren children htail with hp | ⟨p, hp, heq⟩
      · exact .inr ⟨id, List.mem_cons_self, hp⟩
      · exact .inr ⟨p, List.mem_cons_of_mem _ hp, heq⟩

theorem parentId_flattenChildren : ∀ (ts : List (Tree α)) {parentId : String} {level : Nat}
    {before after : List (FlatTreeItem α)} {item : FlatTreeItem α},
    flattenChildren ts parentId level = before ++ item :: after →
      item.parentId = some parentId ∨ ∃ p ∈ before.map (·.id), item.parentId = some p
  | [], _, _, before, _, _, h => by
    rw [flattenChildren] at h
    exact absurd (List.nil_eq_append_iff.mp h).2 (List.cons_ne_nil _ _)
  | t :: ts, parentId, level, before, after, item, h => by
    rw [flattenChildren] at h
    rcases List.append_eq_append_iff.mp h with ⟨mid, rfl, hrest⟩ | ⟨mid, h, hrest⟩
    · -- `ts` の node である
      rcases parentId_flattenChildren ts hrest with hp | ⟨p, hp, heq⟩
      · exact .inl hp
      · exact .inr ⟨p, by rw [List.map_append]; exact List.mem_append_right _ hp, heq⟩
    · cases mid with
      | nil =>
        rw [List.nil_append] at hrest
        have hstart : flattenChildren ts parentId level = [] ++ item :: after := hrest.symm
        rcases parentId_flattenChildren ts hstart with hp | ⟨p, hp, -⟩
        · exact .inl hp
        · exact absurd hp List.not_mem_nil
      | cons first mid =>
        obtain ⟨rfl, -⟩ := List.cons.inj hrest
        exact parentId_flattenNode t h

end

/-- id の重ならない木を平らにしたものは、親を先に並べたものである。 -/
theorem wellFormed_flattenTree {t : Tree α} (h : t.ids.Nodup) (hne : "" ∉ t.ids) :
    WellFormed (flattenTree t) := by
  have hids : (flattenTree t).map (·.id) = t.ids := by
    rw [← map_id_items t none 0]
    unfold items flattenTree
    rw [List.map_map]
    rfl
  refine ⟨hids ▸ h, fun item hi heq => hne (hids ▸ heq ▸ List.mem_map_of_mem hi),
    fun {before item after} hsplit p hp => ?_⟩
  obtain ⟨hparent, -⟩ := Option.filter_eq_some_iff.mp hp
  rcases parentId_flattenNode t hsplit with hnone | ⟨q, hq, heq⟩
  · rw [hnone] at hparent
    cases hparent
  · rw [heq] at hparent
    cases hparent
    exact hq

section Ancestors

variable {before after : List (FlatTreeItem α)} {item : FlatTreeItem α}

theorem enough_parent (h : WellFormed tree) (hsplit : tree = before ++ item :: after) :
    Enough tree before.length item.parent := by
  intro p hp
  obtain ⟨parent, hmem, hid⟩ := List.mem_map.mp (h.parents hsplit p hp)
  obtain ⟨before', after', rfl⟩ := List.append_of_mem hmem
  refine ⟨before', parent, after' ++ item :: after, ?_, hid, ?_⟩
  · rw [hsplit, List.append_assoc, List.cons_append]
  · rw [List.length_append, List.length_cons]
    omega

/-- `while` の次の値。 -/
theorem parentsFrom_succ (h : WellFormed tree) (hsplit : tree = before ++ item :: after)
    (fuel : Nat) : parentsFrom tree (fuel + 1) (some item.id) =
      item.id :: parentsFrom tree fuel item.parent := by
  have hfind : findNode tree item.id = some item :=
    (findNode_eq_some h).mpr ⟨by rw [hsplit]; simp, rfl⟩
  rw [parentsFrom, hfind]
  rfl

theorem Enough.pos {fuel : Nat} {p : String} (h : Enough tree fuel (some p)) : fuel ≠ 0 := by
  obtain ⟨before, item, after, -, -, hlt⟩ := h p rfl
  omega

theorem parentsFrom_none (fuel : Nat) : parentsFrom tree fuel none = [] := by
  cases fuel <;> rfl

/-- 足りていれば、`fuel` によらない。 -/
theorem parentsFrom_fuel (h : WellFormed tree) : ∀ (fuel fuel' : Nat) (parentId : Option String),
    Enough tree fuel parentId → fuel ≤ fuel' →
      parentsFrom tree fuel' parentId = parentsFrom tree fuel parentId
  | fuel, fuel', none, _, _ => by rw [parentsFrom_none, parentsFrom_none]
  | 0, _, some p, henough, _ => absurd rfl henough.pos
  | fuel + 1, fuel', some p, henough, hle => by
    obtain ⟨before, item, after, hsplit, rfl, hlt⟩ := henough p rfl
    obtain ⟨fuel', rfl⟩ : ∃ k, fuel' = k + 1 := ⟨fuel' - 1, by omega⟩
    have henough' : Enough tree fuel item.parent := fun q hq => by
      obtain ⟨b, i, a, hs, hi, hlen⟩ := enough_parent h hsplit q hq
      exact ⟨b, i, a, hs, hi, by omega⟩
    rw [parentsFrom_succ h hsplit, parentsFrom_succ h hsplit,
      parentsFrom_fuel h fuel fuel' item.parent henough' (by omega)]

/-- 祖先は、親と、親の祖先である。 -/
theorem ancestors_eq (h : WellFormed tree) (hi : item ∈ tree) {parent : FlatTreeItem α}
    (hparent : parent ∈ tree) (hid : item.parent = some parent.id) :
    ancestors tree item = parent.id :: ancestors tree parent := by
  obtain ⟨before, after, hsplit⟩ := List.append_of_mem hi
  obtain ⟨before', after', hsplit'⟩ := List.append_of_mem hparent
  have hlen : before.length < tree.length := by
    rw [hsplit, List.length_append, List.length_cons]
    omega
  obtain ⟨fuel, hfuel⟩ : ∃ k, tree.length = k + 1 := ⟨tree.length - 1, by omega⟩
  have hle : before'.length ≤ fuel := by
    rw [hsplit', List.length_append, List.length_cons] at hfuel
    omega
  unfold ancestors
  rw [hid, hfuel, parentsFrom_succ h hsplit',
    parentsFrom_fuel h _ fuel _ (enough_parent h hsplit') hle,
    parentsFrom_fuel h _ (fuel + 1) _ (enough_parent h hsplit') (by omega)]

theorem exists_parent (h : WellFormed tree) (hi : item ∈ tree) {p : String}
    (hp : item.parent = some p) : ∃ parent ∈ tree, parent.id = p := by
  obtain ⟨before, after, hsplit⟩ := List.append_of_mem hi
  obtain ⟨parent, hmem, hid⟩ := List.mem_map.mp (h.parents hsplit p hp)
  exact ⟨parent, by rw [hsplit]; exact List.mem_append_left _ hmem, hid⟩

theorem ancestors_of_root (hroot : item.parent = none) : ancestors tree item = [] := by
  unfold ancestors
  rw [hroot, parentsFrom_none]

/-- 祖先は木の node で、祖先の親も祖先である。 -/
theorem ancestors_closed (h : WellFormed tree) : ∀ item ∈ tree, ∀ a ∈ ancestors tree item,
    ∃ node ∈ tree, node.id = a ∧ ∀ q, node.parent = some q → q ∈ ancestors tree item := by
  -- 親の祖先について示してから、親自身を加える。
  refine h.induction fun item hi ih a ha => ?_
  cases hp : item.parent with
  | none =>
    rw [ancestors_of_root hp] at ha
    cases ha
  | some p =>
    obtain ⟨parent, hparent, rfl⟩ := exists_parent h hi hp
    rw [ancestors_eq h hi hparent hp] at ha ⊢
    rcases List.mem_cons.mp ha with rfl | ha
    · refine ⟨parent, hparent, rfl, fun q hq => ?_⟩
      obtain ⟨grand, hgrand, rfl⟩ := exists_parent h hparent hq
      rw [ancestors_eq h hparent hgrand hq]
      exact List.mem_cons_of_mem _ List.mem_cons_self
    · obtain ⟨node, hnode, hid, hclosed⟩ := ih parent hparent hp a ha
      exact ⟨node, hnode, hid, fun q hq => List.mem_cons_of_mem _ (hclosed q hq)⟩

end Ancestors

/-! ## 見えるかどうか -/

/-- 親が見えて開いている。根はいつも見える。 -/
def parentShown (nodes : NodesState) (item : FlatTreeItem α) : Bool :=
  (parentState nodes item).any fun n => n.expanded && n.visible

/-- `nodes` は木の node ごとに一つの状態を持つ。選ばれているものは高々一つで、親が見えて開いているものが見える。 -/
structure Coherent (tree : List (FlatTreeItem α)) (nodes : NodesState) : Prop where
  keys : nodes.map Prod.fst = tree.map (·.id)
  single : ∀ {k k' n n'}, JsMap.get nodes k = some n → n.selected → JsMap.get nodes k' = some n' →
    n'.selected → k = k'
  visible : ∀ item ∈ tree, ∀ n, JsMap.get nodes item.id = some n →
    n.visible = parentShown nodes item

theorem exists_get (hkeys : nodes.map Prod.fst = tree.map (·.id)) {item : FlatTreeItem α}
    (hi : item ∈ tree) : ∃ n, JsMap.get nodes item.id = some n := by
  have hmem : item.id ∈ nodes.map Prod.fst := by
    rw [hkeys]
    exact List.mem_map_of_mem hi
  cases hget : JsMap.get nodes item.id with
  | some n => exact ⟨n, rfl⟩
  | none =>
    obtain ⟨p, hp, hid⟩ := List.mem_map.mp hmem
    exact absurd hid.symm (bne_iff_ne.mp (List.lookup_eq_none_iff.mp hget p hp))

theorem set_of_not_mem {m : NodesState} {key : String} (h : key ∉ m.map Prod.fst) (n : NodeState) :
    m.set key n = m ++ [(key, n)] := by
  induction m with
  | nil => rfl
  | cons p m ih =>
    rw [List.map_cons, List.mem_cons, not_or] at h
    rw [JsMap.set_cons, if_neg (Ne.symm h.1), ih h.2]
    rfl

/-- `applyVisibility` は、開閉と選択を変えずに、見えるかどうかを計算し直す。 -/
theorem applyVisibility_spec (state : NodesState) : ∀ {tree : List (FlatTreeItem α)},
    WellFormed tree → ∃ nodes, applyVisibility tree state = some nodes ∧
      nodes.map Prod.fst = tree.map (·.id) ∧ ∀ item ∈ tree, JsMap.get nodes item.id =
        some { nodeState state item with visible := parentShown nodes item } := by
  intro tree
  induction tree using List.reverseRecOn with
  | nil => exact fun _ => ⟨[], rfl, rfl, fun _ h => absurd h List.not_mem_nil⟩
  | append_singleton tree item ih =>
    intro h
    obtain ⟨nodes, heq, hkeys, hget⟩ := ih h.of_append
    -- 親は前にあるので、既に計算されている
    obtain ⟨parent, hparent⟩ : ∃ parent, parentState nodes item = some parent := by
      unfold parentState
      cases hp : item.parent with
      | none => exact ⟨_, rfl⟩
      | some p =>
        obtain ⟨node, hnode, rfl⟩ := List.mem_map.mp (h.parents rfl p hp)
        exact exists_get hkeys hnode
    have hshown : (parent.expanded && parent.visible) = parentShown nodes item := by
      unfold parentShown
      rw [hparent]
      rfl
    have hnot : item.id ∉ nodes.map Prod.fst := by
      have := h.nodup
      rw [List.map_append, List.map_singleton] at this
      rw [hkeys]
      exact fun hmem => List.disjoint_of_nodup_append this hmem (List.mem_singleton_self _)
    -- 後の node の値を加えても、前にある親の値は変わらない。
    have hshown_set : ∀ (n : NodeState) (i : FlatTreeItem α), (∀ p, i.parent = some p →
        p ∈ tree.map (·.id)) → parentShown (nodes.set item.id n) i = parentShown nodes i := by
      intro n i hi
      unfold parentShown parentState
      cases hp : i.parent with
      | none => rfl
      | some p =>
        have hne : p ≠ item.id := by
          rintro rfl
          exact hnot (hkeys ▸ hi _ hp)
        simp only [JsMap.get_set_of_ne _ hne]
    refine ⟨nodes.set item.id
      { nodeState state item with visible := parent.expanded && parent.visible }, ?_, ?_, ?_⟩
    · unfold applyVisibility at heq ⊢
      rw [List.foldlM_append, heq]
      simp [hparent]
    · rw [set_of_not_mem hnot, List.map_append, hkeys, List.map_append]
      rfl
    · intro i hi
      have hparents : ∀ p, i.parent = some p → p ∈ tree.map (·.id) := by
        intro p hp
        rcases List.mem_append.mp hi with hi | hi
        · obtain ⟨b, a, rfl⟩ := List.append_of_mem hi
          exact List.map_subset _ (fun _ hx => List.mem_append_left _ hx)
            (h.of_append.parents rfl p hp)
        · rw [List.mem_singleton.mp hi] at hp
          exact h.parents rfl p hp
      rw [hshown_set _ _ hparents]
      rcases List.mem_append.mp hi with hi | hi
      · have hne : i.id ≠ item.id := by
          intro heq
          exact hnot (hkeys ▸ heq ▸ List.mem_map_of_mem hi)
        rw [JsMap.get_set_of_ne _ hne]
        exact hget i hi
      · rw [List.mem_singleton.mp hi, JsMap.get_set_self, hshown]

/-- **見えるのは、祖先がすべて開いているときである。** -/
theorem Coherent.visible_iff (hwf : WellFormed tree) (h : Coherent tree nodes) : ∀ item ∈ tree,
    ∀ n, JsMap.get nodes item.id = some n →
      (n.visible ↔ ∀ a ∈ ancestors tree item, ∃ m, JsMap.get nodes a = some m ∧ m.expanded) := by
  refine hwf.induction fun item hi ih n hn => ?_
  rw [h.visible item hi n hn]
  unfold parentShown parentState
  cases hp : item.parent with
  | none =>
    rw [ancestors_of_root hp]
    exact ⟨fun _ _ ha => absurd ha List.not_mem_nil, fun _ => rfl⟩
  | some p =>
    obtain ⟨parent, hparent, rfl⟩ := exists_parent hwf hi hp
    obtain ⟨m, hm⟩ := exists_get h.keys hparent
    rw [ancestors_eq hwf hi hparent hp]
    simp only [hm, Option.any_some, Bool.and_eq_true, List.mem_cons, forall_eq_or_imp,
      ih parent hparent hp m hm, Option.some.injEq, exists_eq_left']

/-- 状態を、開閉と見えるかどうかを変えずに書き換える。 -/
theorem Coherent.congr {nodes' : NodesState} (h : Coherent tree nodes)
    (f : String → NodeState → NodeState)
    (hget : ∀ k, JsMap.get nodes' k = (JsMap.get nodes k).map (f k))
    (hf : ∀ k n, (f k n).expanded = n.expanded ∧ (f k n).visible = n.visible)
    (hkeys : nodes'.map Prod.fst = nodes.map Prod.fst)
    (hsingle : ∀ {k k' n n'}, JsMap.get nodes' k = some n → n.selected →
      JsMap.get nodes' k' = some n' → n'.selected → k = k') : Coherent tree nodes' where
  keys := hkeys.trans h.keys
  single := hsingle
  visible item hi n hn := by
    obtain ⟨m, hm, rfl⟩ := Option.map_eq_some_iff.mp ((hget item.id).symm.trans hn)
    rw [(hf _ m).2, h.visible item hi m hm]
    unfold parentShown parentState
    cases item.parent with
    | none => rfl
    | some p =>
      simp only [hget]
      cases JsMap.get nodes p with
      | none => rfl
      | some m => simp [hf]

/-- 見えるかどうかを計算し直した状態。選択と開閉は変わらない。 -/
theorem coherent_applyVisibility (hwf : WellFormed tree) {state : NodesState}
    (hkeys : state.map Prod.fst = tree.map (·.id))
    (hsingle : ∀ {k k' n n'}, JsMap.get state k = some n → n.selected →
      JsMap.get state k' = some n' → n'.selected → k = k') :
    ∃ nodes, applyVisibility tree state = some nodes ∧ Coherent tree nodes ∧
      ∀ item ∈ tree, ∀ n, JsMap.get state item.id = some n →
        ∃ n', JsMap.get nodes item.id = some n' ∧
          n'.selected = n.selected ∧ n'.expanded = n.expanded := by
  obtain ⟨nodes, heq, hkeys', hget⟩ := applyVisibility_spec state hwf
  have hstate : ∀ item ∈ tree, ∀ n, JsMap.get state item.id = some n →
      nodeState state item = n := by
    intro item hi n hn
    unfold nodeState
    rw [hn, Option.getD_some]
  have hback : ∀ {k n}, JsMap.get nodes k = some n → n.selected →
      ∃ m, JsMap.get state k = some m ∧ m.selected := by
    intro k n hn hsel
    have hmem : k ∈ nodes.map Prod.fst := List.mem_map_of_mem (JsMap.mem_of_get hn)
    rw [hkeys'] at hmem
    obtain ⟨item, hi, rfl⟩ := List.mem_map.mp hmem
    obtain ⟨m, hm⟩ := exists_get hkeys hi
    rw [hget item hi, hstate item hi m hm] at hn
    cases hn
    exact ⟨m, hm, hsel⟩
  refine ⟨nodes, heq, ⟨hkeys', fun hk hs hk' hs' => ?_, fun item hi n hn => ?_⟩,
    fun item hi n hn => ?_⟩
  · obtain ⟨m, hm, hms⟩ := hback hk hs
    obtain ⟨m', hm', hms'⟩ := hback hk' hs'
    exact hsingle hm hms hm' hms'
  · rw [hget item hi] at hn
    cases hn
    rfl
  · exact ⟨_, hget item hi, by rw [hstate item hi n hn], by rw [hstate item hi n hn]⟩

/-! ## filter -/

/-- node が見える。 -/
def shown (nodes : NodesState) (item : FlatTreeItem α) : Bool :=
  (JsMap.get nodes item.id).any (·.visible)

theorem visibleNodes_eq {l : List (FlatTreeItem α)}
    (h : ∀ item ∈ l, ∃ n, JsMap.get nodes item.id = some n) :
    visibleNodes l nodes = some (l.filter (shown nodes)) := by
  induction l with
  | nil => rfl
  | cons item l ih =>
    obtain ⟨n, hn⟩ := h item List.mem_cons_self
    have ih := ih fun i hi => h i (List.mem_cons_of_mem _ hi)
    unfold visibleNodes at ih ⊢
    rw [List.mapM_cons, hn]
    cases hm : l.mapM fun node => (JsMap.get nodes node.id).map fun state => (node, state) with
    | none => simp [hm] at ih
    | some states =>
      simp only [hm, Option.pure_def, Option.bind_eq_bind, Option.bind_some,
        Option.some.injEq] at ih
      have hshown : shown nodes item = n.visible := by
        unfold shown
        rw [hn, Option.any_some]
      simp only [Option.map_some, Option.pure_def, Option.bind_eq_bind, Option.bind_some,
        List.filter_cons, hshown]
      split <;> simp [ih]

theorem firstVisibleNode_some {l : List (FlatTreeItem α)}
    (h : ∀ item ∈ l, ∃ n, JsMap.get nodes item.id = some n) :
    ∃ found, firstVisibleNode nodes l = some found ∧ ∀ item ∈ found, item ∈ l := by
  induction l with
  | nil => exact ⟨none, rfl, fun _ h => absurd h (Option.not_mem_none _)⟩
  | cons item l ih =>
    obtain ⟨n, hn⟩ := h item List.mem_cons_self
    rw [firstVisibleNode, hn]
    dsimp only
    split
    · exact ⟨some item, rfl, fun i hi => by cases hi; exact List.mem_cons_self⟩
    · obtain ⟨found, heq, hmem⟩ := ih fun i hi => h i (List.mem_cons_of_mem _ hi)
      exact ⟨found, heq, fun i hi => List.mem_cons_of_mem _ (hmem i hi)⟩

theorem keys_applyDisplayed (d : Displayed) :
    (applyDisplayed tree nodes d).map Prod.fst = nodes.map Prod.fst := by
  unfold applyDisplayed writeDisplayed
  split
  · simp only [keys_foldl_modify]
  · simp only [keys_modify, keys_foldl_modify]

theorem keys_filterNodes (filter : Option (Filter α ν)) :
    (filterNodes tree filter nodes).map Prod.fst = nodes.map Prod.fst := by
  unfold filterNodes
  split
  · rfl
  · dsimp only
    split
    · rfl
    · exact keys_applyDisplayed _

theorem applyFilterToState_eq {s : TreeState α ν}
    (hkeys : s.nodes.map Prod.fst = s.tree.map (·.id)) :
    applyFilterToState s = some { s with
      filteredNodes := filterNodes s.tree s.filter s.nodes
      visibleNodeIds :=
        (s.tree.filter (shown (filterNodes s.tree s.filter s.nodes))).map (·.id) } := by
  unfold applyFilterToState
  dsimp only
  rw [visibleNodes_eq fun item hi => exists_get ((keys_filterNodes _).trans hkeys) hi]
  rfl

/-! ### 表示する node -/

theorem foldl_show_expand (ids : List String) (d : Displayed) (k : String) :
    (k ∈ (ids.foldl (fun d id => (d.show id).expand id) d).visible ↔ k ∈ d.visible ∨ k ∈ ids) ∧
      (k ∈ (ids.foldl (fun d id => (d.show id).expand id) d).expanded ↔
        k ∈ d.expanded ∨ k ∈ ids) := by
  induction ids generalizing d with
  | nil => simp
  | cons id ids ih =>
    rw [List.foldl_cons, (ih _).1, (ih _).2]
    simp only [Displayed.show, Displayed.expand, mem_addId, List.mem_cons, or_assoc, and_self]

theorem mem_showNode (d : Displayed) (node : FlatTreeItem α) (k : String) :
    (k ∈ (d.showNode node).visible ↔ k ∈ d.visible ∨ k = node.id) ∧
      (k ∈ (d.showNode node).expanded ↔ k ∈ d.expanded ∨ (node.hasChildren ∧ k = node.id)) := by
  unfold Displayed.showNode
  cases node.hasChildren <;> simp [Displayed.show, Displayed.expand, mem_addId]

theorem foldl_showNode (children : List (FlatTreeItem α)) (d : Displayed) (k : String) :
    (k ∈ (children.foldl Displayed.showNode d).visible ↔
        k ∈ d.visible ∨ ∃ child ∈ children, k = child.id) ∧
      (k ∈ (children.foldl Displayed.showNode d).expanded ↔
        k ∈ d.expanded ∨ ∃ child ∈ children, child.hasChildren ∧ k = child.id) := by
  induction children generalizing d with
  | nil => simp
  | cons child children ih =>
    rw [List.foldl_cons, (ih _).1, (ih _).2, (mem_showNode d child k).1, (mem_showNode d child k).2]
    simp only [List.exists_mem_cons_iff, or_assoc, and_self]

/-- `display` が見せる id。 -/
def Visits (tree : List (FlatTreeItem α)) (node : FlatTreeItem α) (k : String) : Prop :=
  k = node.id ∨ k ∈ ancestors tree node ∨
    (node.hasChildren ∧ ∃ child ∈ tree, child.parentId = some node.id ∧ k = child.id)

/-- `display` が開く id。 -/
def Expands (tree : List (FlatTreeItem α)) (node : FlatTreeItem α) (k : String) : Prop :=
  (node.hasChildren ∧ k = node.id) ∨ k ∈ ancestors tree node ∨
    (node.hasChildren ∧ ∃ child ∈ tree,
      child.parentId = some node.id ∧ child.hasChildren ∧ k = child.id)

theorem mem_display (d : Displayed) (node : FlatTreeItem α) (k : String) :
    (k ∈ (display tree d node).visible ↔ k ∈ d.visible ∨ Visits tree node k) ∧
      (k ∈ (display tree d node).expanded ↔ k ∈ d.expanded ∨ Expands tree node k) := by
  have hparents := foldl_show_expand (ancestors tree node) (d.showNode node) k
  have hnode := mem_showNode d node k
  unfold display Visits Expands
  dsimp only
  split
  · next hchildren =>
    have hfold := foldl_showNode (tree.filter (·.parentId = some node.id))
      ((ancestors tree node).foldl (fun d id => (d.show id).expand id) (d.showNode node)) k
    rw [hfold.1, hfold.2, hparents.1, hparents.2, hnode.1, hnode.2]
    simp only [hchildren, true_and, List.mem_filter, decide_eq_true_eq, and_assoc, or_assoc,
      and_self]
  · next hchildren =>
    rw [hparents.1, hparents.2, hnode.1, hnode.2]
    simp only [hchildren, Bool.false_eq_true, false_and, or_false, false_or, or_assoc, and_self]

/-- 表示する node の親は、表示されて開いている。開いている node は表示されている。 -/
structure Closed (tree : List (FlatTreeItem α)) (d : Displayed) : Prop where
  parent : ∀ item ∈ tree, item.id ∈ d.visible → ∀ p, item.parent = some p →
    p ∈ d.visible ∧ p ∈ d.expanded
  subset : ∀ k ∈ d.expanded, k ∈ d.visible

theorem Closed.display (hwf : WellFormed tree) {d : Displayed} (h : Closed tree d)
    {node : FlatTreeItem α} (hnode : node ∈ tree) : Closed tree (display tree d node) where
  parent item hi hvisible p hp := by
    rw [(mem_display d node p).1, (mem_display d node p).2]
    have hancestor : p ∈ ancestors tree node →
        (p ∈ d.visible ∨ Visits tree node p) ∧ (p ∈ d.expanded ∨ Expands tree node p) :=
      fun ha => ⟨.inr (.inr (.inl ha)), .inr (.inr (.inl ha))⟩
    rcases (mem_display d node item.id).1.mp hvisible with
      hold | hself | ha | ⟨hchildren, child, hc, hcp, hid⟩
    · obtain ⟨hv, he⟩ := h.parent item hi hold p hp
      exact ⟨.inl hv, .inl he⟩
    · rw [hwf.eq_of_id hi hnode hself] at hp
      obtain ⟨parent, hparent, rfl⟩ := exists_parent hwf hnode hp
      refine hancestor ?_
      rw [ancestors_eq hwf hnode hparent hp]
      exact List.mem_cons_self
    · obtain ⟨node', hnode', hid, hclosed⟩ := ancestors_closed hwf node hnode item.id ha
      rw [hwf.eq_of_id hnode' hi hid] at hclosed
      exact hancestor (hclosed p hp)
    · -- 子の親は `node` である
      rw [hwf.eq_of_id hi hc hid] at hp
      have heq : p = node.id := by
        obtain ⟨hpid, -⟩ := Option.filter_eq_some_iff.mp hp
        exact Option.some.inj (hpid.symm.trans hcp)
      exact ⟨.inr (.inl heq), .inr (.inl ⟨hchildren, heq⟩)⟩
  subset k hk := by
    rw [(mem_display d node k).1]
    rcases (mem_display d node k).2.mp hk with
      hold | ⟨-, hself⟩ | ha | ⟨hchildren, child, hc, hcp, -, hid⟩
    · exact .inl (h.subset k hold)
    · exact .inr (.inl hself)
    · exact .inr (.inr (.inl ha))
    · exact .inr (.inr (.inr ⟨hchildren, child, hc, hcp, hid⟩))

/-- filter に合う node をすべて表示したもの。 -/
theorem closed_foldl_display (hwf : WellFormed tree) {l : List (FlatTreeItem α)}
    (hl : ∀ node ∈ l, node ∈ tree) {d : Displayed} (h : Closed tree d) :
    Closed tree (l.foldl (display tree) d) ∧
      (∀ k ∈ d.visible, k ∈ (l.foldl (display tree) d).visible) ∧
      ∀ node ∈ l, node.id ∈ (l.foldl (display tree) d).visible := by
  induction l generalizing d with
  | nil => exact ⟨h, fun _ hk => hk, fun _ hn => absurd hn List.not_mem_nil⟩
  | cons node l ih =>
    obtain ⟨hclosed, hmono, hmem⟩ := ih (fun n hn => hl n (List.mem_cons_of_mem _ hn))
      (h.display hwf (hl node List.mem_cons_self))
    refine ⟨hclosed, fun k hk => hmono k ((mem_display d node k).1.mpr (.inl hk)), fun n hn => ?_⟩
    rcases List.mem_cons.mp hn with rfl | hn
    · exact hmono _ ((mem_display d n n.id).1.mpr (.inr (.inl rfl)))
    · exact hmem n hn

theorem get_writeDisplayed {d : Displayed} {k : String} (hk : k ∈ tree.map (·.id)) :
    JsMap.get (writeDisplayed tree nodes d) k = (JsMap.get nodes k).map fun n =>
      { n with
        expanded := if k ∈ d.expanded then true else if k ∈ d.visible then false else n.expanded
        visible := decide (k ∈ d.visible) } := by
  have hhidden : k ∈ difference (tree.map (·.id)) d.visible ↔ k ∉ d.visible := by
    simp [difference, hk]
  have hcollapsed : k ∈ difference d.visible d.expanded ↔ k ∈ d.visible ∧ k ∉ d.expanded := by
    simp [difference]
  unfold writeDisplayed
  dsimp only
  rw [get_foldl_modify (f := ({ · with expanded := true })) (fun _ => rfl),
    get_foldl_modify (f := ({ · with expanded := false })) (fun _ => rfl),
    get_foldl_modify (f := ({ · with visible := true })) (fun _ => rfl),
    get_foldl_modify (f := ({ · with visible := false })) (fun _ => rfl)]
  simp only [hhidden, hcollapsed]
  by_cases hv : k ∈ d.visible
  · by_cases he : k ∈ d.expanded <;> simp [hv, he, Function.comp_def]
  · by_cases he : k ∈ d.expanded <;> simp [hv, he, Function.comp_def]

/-- 書き込んだ後の状態。選択は、元から選ばれていたものに限る。 -/
theorem get_applyDisplayed {d : Displayed} {k : String} (hk : k ∈ tree.map (·.id))
    {n' : NodeState} (h : JsMap.get (applyDisplayed tree nodes d) k = some n') :
    ∃ n, JsMap.get nodes k = some n ∧ (n'.visible ↔ k ∈ d.visible) ∧
      (k ∈ d.expanded → n'.expanded) ∧
      (n'.selected → n.selected ∨ selectedIdFromState nodes = some k) := by
  unfold applyDisplayed at h
  split at h
  · rw [get_writeDisplayed hk] at h
    obtain ⟨n, hn, rfl⟩ := Option.map_eq_some_iff.mp h
    exact ⟨n, hn, by simp, fun he => by simp [he], fun hs => .inl hs⟩
  · next id hid =>
    rw [get_modify, get_writeDisplayed hk] at h
    have hselected := (Option.filter_eq_some_iff.mp hid).1
    split at h
    · next heq =>
      rw [Option.map_map] at h
      obtain ⟨n, hn, rfl⟩ := Option.map_eq_some_iff.mp h
      exact ⟨n, hn, by simp, fun he => by simp [he], fun _ => .inr (heq ▸ hselected)⟩
    · obtain ⟨n, hn, rfl⟩ := Option.map_eq_some_iff.mp h
      exact ⟨n, hn, by simp, fun he => by simp [he], fun hs => .inl hs⟩

theorem keys_nodup (hwf : WellFormed tree) (hkeys : nodes.map Prod.fst = tree.map (·.id)) :
    (nodes.map Prod.fst).Nodup := by
  rw [hkeys]
  exact hwf.nodup

/-- `selectedIdFromState` は、選ばれている node である。 -/
theorem selectedIdFromState_some (hnodup : (nodes.map Prod.fst).Nodup) {k : String}
    (h : selectedIdFromState nodes = some k) : ∃ n, JsMap.get nodes k = some n ∧ n.selected := by
  unfold selectedIdFromState at h
  obtain ⟨⟨k', n⟩, hfind, rfl⟩ := Option.map_eq_some_iff.mp h
  exact ⟨n, Record.lookup_of_mem hnodup (List.mem_of_find?_eq_some hfind),
    by simpa using List.find?_some hfind⟩

/-! ## 状態の不変条件 -/

/-- filter が絞り込むなら、見える node の親は見えて開いていて、filter に合う node は見える。 -/
structure Filtered (s : TreeState α ν) : Prop where
  single : ∀ {k k' n n'}, JsMap.get s.filteredNodes k = some n → n.selected →
    JsMap.get s.filteredNodes k' = some n' → n'.selected → k = k'
  parent : ∀ item ∈ s.tree, ∀ n, JsMap.get s.filteredNodes item.id = some n → n.visible →
    ∀ p, item.parent = some p →
      ∃ m, JsMap.get s.filteredNodes p = some m ∧ m.visible ∧ m.expanded
  matched : ∀ filter ∈ s.filter, ∀ value ∈ filter.value,
    (∃ item ∈ s.tree, filter.fn value item = false) → ∀ item ∈ s.tree, filter.fn value item →
      ∃ n, JsMap.get s.filteredNodes item.id = some n ∧ n.visible
  ids : s.visibleNodeIds = (s.tree.filter (shown s.filteredNodes)).map (·.id)

theorem mem_ids_of_get (hkeys : nodes.map Prod.fst = tree.map (·.id)) {k : String} {n : NodeState}
    (h : JsMap.get nodes k = some n) : k ∈ tree.map (·.id) :=
  hkeys ▸ List.mem_map_of_mem (JsMap.mem_of_get h)

/-- 絞り込まなければ、`filteredNodes` は `nodes` である。 -/
theorem Coherent.parent (h : Coherent tree nodes) : ∀ item ∈ tree, ∀ n,
    JsMap.get nodes item.id = some n → n.visible → ∀ p, item.parent = some p →
      ∃ m, JsMap.get nodes p = some m ∧ m.visible ∧ m.expanded := by
  intro item hi n hn hvisible p hp
  rw [h.visible item hi n hn] at hvisible
  unfold parentShown parentState at hvisible
  rw [hp] at hvisible
  dsimp only at hvisible
  cases hm : JsMap.get nodes p with
  | none =>
    rw [hm] at hvisible
    cases hvisible
  | some m =>
    rw [hm, Option.any_some, Bool.and_eq_true] at hvisible
    exact ⟨m, rfl, hvisible.2, hvisible.1⟩

theorem filtered_applyFilterToState {s : TreeState α ν} (hwf : WellFormed s.tree)
    (h : Coherent s.tree s.nodes) :
    ∃ s', applyFilterToState s = some s' ∧ s'.tree = s.tree ∧ s'.nodes = s.nodes ∧
      s'.filter = s.filter ∧ Filtered s' := by
  refine ⟨_, applyFilterToState_eq h.keys, rfl, rfl, rfl, ?_⟩
  have hnodup := keys_nodup hwf h.keys
  unfold filterNodes
  cases hfn : s.filter.bind fun filter => filter.value.map filter.fn with
  | none =>
    refine ⟨h.single, h.parent, fun filter hf value hv => ?_, rfl⟩
    rw [Option.mem_def.mp hf] at hfn
    simp [Option.mem_def.mp hv] at hfn
  | some fn =>
    dsimp only
    split
    · next hempty =>
      -- 外れる item が無いとき、nodes はそのままである
      refine ⟨h.single, h.parent, fun filter hf value hv hout => ?_, rfl⟩
      obtain ⟨item, hi, hfalse⟩ := hout
      rw [Option.mem_def.mp hf] at hfn
      obtain rfl : filter.fn value = fn := by simpa [Option.mem_def.mp hv] using hfn
      have hmem : item ∈ s.tree.filter (!filter.fn value ·) :=
        List.mem_filter.mpr ⟨hi, by simp [hfalse]⟩
      rw [List.map_eq_nil_iff.mp hempty] at hmem
      cases hmem
    · -- 残る item とその祖先が表示される
      set shownItems := s.tree.filter
        (·.id ∉ (s.tree.filter (!fn ·)).map (·.id)) with hshown
      obtain ⟨hclosed, -, hmem⟩ := closed_foldl_display hwf (l := shownItems) (d := {})
        (fun node hn => (List.mem_filter.mp hn).1)
        ⟨fun _ _ h => absurd h List.not_mem_nil, fun _ h => absurd h List.not_mem_nil⟩
      have hkeys := (@keys_applyDisplayed _ s.tree s.nodes
        (shownItems.foldl (display s.tree) {})).trans h.keys
      refine ⟨fun {k k' n n'} hk hs hk' hs' => ?_, fun item hi n hn hvisible p hp => ?_,
        fun filter hf value hv _ item hi hmatch => ?_, rfl⟩
      · have hback : ∀ {k n}, JsMap.get (applyDisplayed s.tree s.nodes
            (shownItems.foldl (display s.tree) {})) k = some n → n.selected →
            ∃ m, JsMap.get s.nodes k = some m ∧ m.selected := by
          intro k n hn hsel
          obtain ⟨m, hm, -, -, hselected⟩ := get_applyDisplayed (mem_ids_of_get hkeys hn) hn
          rcases hselected hsel with hms | hid
          · exact ⟨m, hm, hms⟩
          · exact selectedIdFromState_some hnodup hid
        obtain ⟨m, hm, hms⟩ := hback hk hs
        obtain ⟨m', hm', hms'⟩ := hback hk' hs'
        exact h.single hm hms hm' hms'
      · obtain ⟨-, -, hv, -, -⟩ := get_applyDisplayed (List.mem_map_of_mem hi) hn
        obtain ⟨hpv, hpe⟩ := hclosed.parent item hi (hv.mp hvisible) p hp
        obtain ⟨parent, hparent, rfl⟩ := exists_parent hwf hi hp
        obtain ⟨m, hm⟩ := exists_get hkeys hparent
        obtain ⟨-, -, hv', he', -⟩ := get_applyDisplayed (List.mem_map_of_mem hparent) hm
        exact ⟨m, hm, hv'.mpr hpv, he' hpe⟩
      · rw [Option.mem_def.mp hf] at hfn
        obtain rfl : filter.fn value = fn := by simpa [Option.mem_def.mp hv] using hfn
        have hin : item ∈ shownItems := by
          refine List.mem_filter.mpr ⟨hi, ?_⟩
          simp only [decide_eq_true_eq]
          intro hout
          obtain ⟨other, hother, hid⟩ := List.mem_map.mp hout
          obtain ⟨ho, hfalse⟩ := List.mem_filter.mp hother
          rw [hwf.eq_of_id ho hi hid] at hfalse
          simp [hmatch] at hfalse
        obtain ⟨m, hm⟩ := exists_get hkeys hi
        obtain ⟨-, -, hv', -, -⟩ := get_applyDisplayed (List.mem_map_of_mem hi) hm
        exact ⟨m, hm, hv'.mpr (hmem item hin)⟩

/-- 状態の不変条件。`filteredNodes` はいつも計算し直されたものである。 -/
structure Valid (s : TreeState α ν) : Prop where
  wellFormed : WellFormed s.tree
  coherent : Coherent s.tree s.nodes
  applied : applyFilterToState s = some s

section Actions

variable {s : TreeState α ν}

/-- 新しい `nodes` が整っていれば、状態も整う。 -/
theorem valid_applyFilterToState (hwf : WellFormed s.tree) (h : Coherent s.tree s.nodes) :
    ∃ s', applyFilterToState s = some s' ∧ Valid s' ∧ s'.tree = s.tree ∧ s'.nodes = s.nodes := by
  refine ⟨_, applyFilterToState_eq h.keys, ⟨hwf, h, ?_⟩, rfl, rfl⟩
  exact applyFilterToState_eq h.keys

theorem valid_withNodes (hs : Valid s) {nodes : NodesState} (h : Coherent s.tree nodes) :
    ∃ s', withNodes s nodes = some s' ∧ Valid s' ∧ s'.tree = s.tree ∧ s'.nodes = nodes :=
  valid_applyFilterToState (s := { s with nodes, changes := _ }) hs.wellFormed h

theorem valid_withExpanded (hs : Valid s) {nodes : NodesState}
    (hkeys : nodes.map Prod.fst = s.nodes.map Prod.fst)
    (hselected : ∀ k n, JsMap.get nodes k = some n →
      ∃ m, JsMap.get s.nodes k = some m ∧ m.selected = n.selected) :
    ∃ s', withExpanded s nodes = some s' ∧ Valid s' ∧ s'.tree = s.tree := by
  obtain ⟨nodes', heq, hcoherent, -⟩ := coherent_applyVisibility hs.wellFormed
    (hkeys.trans hs.coherent.keys) fun {k k' n n'} hk hsel hk' hsel' => by
      obtain ⟨m, hm, hms⟩ := hselected k n hk
      obtain ⟨m', hm', hms'⟩ := hselected k' n' hk'
      exact hs.coherent.single hm (hms.trans hsel) hm' (hms'.trans hsel')
  obtain ⟨s', hs', hvalid, htree, -⟩ := valid_withNodes hs hcoherent
  unfold withExpanded
  rw [heq]
  exact ⟨s', hs', hvalid, htree⟩

theorem coherent_deselectAll (h : Coherent tree nodes) :
    Coherent tree (mapNodes nodes fun _ n => { n with selected := false }) := by
  refine h.congr _ (get_mapNodes nodes _) (fun _ _ => ⟨rfl, rfl⟩) (keys_mapNodes nodes _) ?_
  intro k k' n n' hk hs
  rw [get_mapNodes] at hk
  obtain ⟨m, -, rfl⟩ := Option.map_eq_some_iff.mp hk
  cases hs

theorem coherent_select (h : Coherent tree nodes) (id : String) :
    Coherent tree (modify (mapNodes nodes fun _ n => { n with selected := false }) id
      ({ · with selected := true })) := by
  have hget := get_modify (mapNodes nodes fun _ n => { n with selected := false }) id
  refine (coherent_deselectAll h).congr
    (fun k n => if k = id then { n with selected := true } else n) (fun k => ?_)
    (fun k n => ?_) (keys_modify _ _ _) ?_
  · rw [hget]
    split <;> simp
  · split <;> exact ⟨rfl, rfl⟩
  · -- 選ばれているのは `id` だけである
    have honly : ∀ {k n}, JsMap.get (modify (mapNodes nodes fun _ n => { n with selected := false })
        id ({ · with selected := true })) k = some n → n.selected → k = id := by
      intro k n hk hs
      rw [hget, get_mapNodes] at hk
      split at hk
      · assumption
      · obtain ⟨m, -, rfl⟩ := Option.map_eq_some_iff.mp hk
        cases hs
    intro k k' n n' hk hs hk' hs'
    rw [honly hk hs, honly hk' hs']

theorem coherent_deselect (h : Coherent tree nodes) (id : String) :
    Coherent tree (modify nodes id ({ · with selected := false })) := by
  have hget := get_modify nodes id
  refine h.congr (fun k n => if k = id then { n with selected := false } else n) (fun k => ?_)
    (fun k n => ?_) (keys_modify _ _ _) ?_
  · rw [hget]
    split <;> simp
  · split <;> exact ⟨rfl, rfl⟩
  · have hback : ∀ {k n}, JsMap.get (modify nodes id ({ · with selected := false })) k = some n →
        n.selected → ∃ m, JsMap.get nodes k = some m ∧ m.selected := by
      intro k n hk hs
      rw [hget] at hk
      split at hk
      · obtain ⟨m, -, rfl⟩ := Option.map_eq_some_iff.mp hk
        cases hs
      · exact ⟨n, hk, hs⟩
    intro k k' n n' hk hs hk' hs'
    obtain ⟨m, hm, hms⟩ := hback hk hs
    obtain ⟨m', hm', hms'⟩ := hback hk' hs'
    exact h.single hm hms hm' hms'

theorem valid_selectNode (hs : Valid s) (id : String) :
    ∃ s', selectNode s id = some s' ∧ Valid s' := by
  unfold selectNode
  split
  · exact ⟨s, rfl, hs⟩
  · obtain ⟨s', heq, hvalid, -⟩ := valid_withNodes hs (coherent_select hs.coherent id)
    exact ⟨s', heq, hvalid⟩

theorem valid_deselectNode (hs : Valid s) (id : String) :
    ∃ s', deselectNode s id = some s' ∧ Valid s' := by
  obtain ⟨s', heq, hvalid, -⟩ := valid_withNodes hs (coherent_deselect hs.coherent id)
  exact ⟨s', heq, hvalid⟩

theorem valid_setExpanded (hs : Valid s) (id : String) (expanded : Bool) :
    ∃ s', setExpanded s id expanded = some s' ∧ Valid s' := by
  obtain ⟨s', heq, hvalid, -⟩ := valid_withExpanded hs
    (keys_modify s.nodes id ({ · with expanded })) fun k n hk => by
      rw [get_modify] at hk
      split at hk
      · obtain ⟨m, hm, rfl⟩ := Option.map_eq_some_iff.mp hk
        exact ⟨m, hm, rfl⟩
      · exact ⟨n, hk, rfl⟩
  exact ⟨s', heq, hvalid⟩

theorem valid_setExpandedWhere (hs : Valid s) (level : Nat → Bool) (expanded : Bool) :
    ∃ s', setExpandedWhere s level expanded = some s' ∧ Valid s' := by
  unfold setExpandedWhere
  obtain ⟨s', heq, hvalid, -⟩ := valid_withExpanded hs (keys_mapNodes s.nodes fun key value =>
      if (s.tree.filter fun n => level n.level && n.hasChildren).any (·.id = key) then
        { value with expanded }
      else value) fun k n hk => by
      rw [get_mapNodes] at hk
      obtain ⟨m, hm, rfl⟩ := Option.map_eq_some_iff.mp hk
      exact ⟨m, hm, by split <;> rfl⟩
  exact ⟨s', heq, hvalid⟩

theorem valid_selectFound (hs : Valid s) (node : Option (FlatTreeItem α)) :
    ∃ s', selectFound s node = some s' ∧ Valid s' := by
  cases node with
  | none => exact ⟨s, rfl, hs⟩
  | some node => exact valid_selectNode hs node.id

theorem Valid.keys_filtered (hs : Valid s) :
    s.filteredNodes.map Prod.fst = s.tree.map (·.id) := by
  have happlied := (applyFilterToState_eq hs.coherent.keys).symm.trans hs.applied
  rw [← congrArg TreeState.filteredNodes (Option.some.inj happlied)]
  exact (keys_filterNodes _).trans hs.coherent.keys

theorem valid_selectFirst (hs : Valid s) : ∃ s', selectFirst s = some s' ∧ Valid s' := by
  obtain ⟨found, heq, -⟩ := firstVisibleNode_some (l := s.tree) fun _ hi =>
    exists_get hs.keys_filtered hi
  unfold selectFirst
  rw [heq]
  exact valid_selectFound hs found

theorem valid_selectLast (hs : Valid s) :
    ∃ s', (lastVisibleNode s.tree s.filteredNodes).bind (selectFound s) = some s' ∧ Valid s' := by
  obtain ⟨found, heq, -⟩ := firstVisibleNode_some (l := s.tree.reverse) fun _ hi =>
    exists_get hs.keys_filtered (List.mem_reverse.mp hi)
  unfold lastVisibleNode
  rw [heq]
  exact valid_selectFound hs found

theorem valid_selectBeside (hs : Valid s) (target : Int → Nat) :
    ∃ s', selectBeside s target = some s' ∧ Valid s' := by
  unfold selectBeside
  split
  · exact valid_selectFirst hs
  · rw [visibleNodes_eq fun _ hi => exists_get hs.keys_filtered hi]
    exact valid_selectFound hs _

theorem valid_selectParent (hs : Valid s) : ∃ s', selectParent s = some s' ∧ Valid s' := by
  unfold selectParent
  split
  · exact valid_selectFirst hs
  · split
    · exact ⟨s, rfl, hs⟩
    · exact valid_selectFound hs _

end Actions

/-! ## 初期状態 -/

section Initial

variable {selectedId : Option String} {collapsedIds : List String}

theorem get_foldl_set {β : Type} (ids : List String) (m : JsMap β) (b : β) (k : String) :
    JsMap.get (ids.foldl (fun m id => m.set id b) m) k =
      if k ∈ ids then some b else JsMap.get m k := by
  induction ids generalizing m with
  | nil => rfl
  | cons id ids ih =>
    rw [List.foldl_cons, ih, JsMap.get_set]
    by_cases hk : k = id
    · simp [hk]
    · simp only [hk, if_false, List.mem_cons, false_or]

theorem get_collapsed (k : String) : JsMap.get (partialState tree none collapsedIds) k =
    if k ∈ collapsedIds ∧ k ∈ tree.map (·.id) then some { expanded := some false } else none := by
  have hfold : ∀ (m : JsMap PartialNodeState),
      JsMap.get (collapsedIds.foldl (fun state id => if (tree.any (·.id = id)) then
        state.set id { expanded := some false } else state) m) k =
      if k ∈ collapsedIds ∧ k ∈ tree.map (·.id) then some { expanded := some false }
        else JsMap.get m k := by
    induction collapsedIds with
    | nil => intro m; simp
    | cons id ids ih =>
      intro m
      rw [List.foldl_cons, ih]
      by_cases hk : k = id
      · subst hk
        by_cases hmem : k ∈ tree.map (·.id)
        · have hany : tree.any (·.id = k) = true := by simpa using hmem
          by_cases hin : k ∈ ids <;> simp [hany, hmem, hin, JsMap.get_set_self]
        · have hany : tree.any (·.id = k) = false := by simpa using hmem
          simp [hany, hmem]
      · simp only [List.mem_cons, hk, false_or]
        split
        · rfl
        · split
          · exact JsMap.get_set_of_ne _ hk
          · rfl
  exact hfold []

/-- 選ぶ node。 -/
def initialNode (tree : List (FlatTreeItem α)) (selectedId : Option String) :
    Option (FlatTreeItem α) :=
  (selectedId.filter (· ≠ "")).bind (findNode tree)

theorem get_partialState (k : String) : JsMap.get (partialState tree selectedId collapsedIds) k =
    let collapsed : Option PartialNodeState :=
      if k ∈ collapsedIds ∧ k ∈ tree.map (·.id) then some { expanded := some false } else none
    match initialNode tree selectedId with
    | none => collapsed
    | some node => if k ∈ ancestors tree node then some { expanded := some true }
      else if k = node.id then some { selected := some true }
      else collapsed := by
  rw [← get_collapsed]
  unfold initialNode
  cases hnode : (selectedId.filter (· ≠ "")).bind (findNode tree) with
  | none =>
    unfold partialState
    simp only [hnode]
    rfl
  | some node =>
    unfold partialState
    simp only [hnode, get_foldl_set, JsMap.get_set]
    rfl

/-- 各 node の値を、木の順に書き込む。 -/
theorem get_foldl_write (f : FlatTreeItem α → NodeState) : ∀ {tree : List (FlatTreeItem α)},
    (tree.map (·.id)).Nodup → ((tree.foldl (fun acc node => JsMap.set acc node.id (f node)) []).map
      Prod.fst = tree.map (·.id) ∧ ∀ item ∈ tree,
        JsMap.get (tree.foldl (fun acc node => JsMap.set acc node.id (f node)) []) item.id =
          some (f item)) := by
  intro tree
  induction tree using List.reverseRecOn with
  | nil => exact fun _ => ⟨rfl, fun _ h => absurd h List.not_mem_nil⟩
  | append_singleton tree item ih =>
    intro hnodup
    rw [List.map_append, List.map_singleton] at hnodup
    obtain ⟨hkeys, hget⟩ := ih hnodup.of_append_left
    have hnot : item.id ∉ tree.map (·.id) := fun hmem =>
      List.disjoint_of_nodup_append hnodup hmem (List.mem_singleton_self _)
    rw [List.foldl_append, List.foldl_cons, List.foldl_nil]
    refine ⟨?_, fun i hi => ?_⟩
    · rw [set_of_not_mem (hkeys ▸ hnot), List.map_append, hkeys, List.map_append]
      rfl
    · rcases List.mem_append.mp hi with hi | hi
      · have hne : i.id ≠ item.id := fun heq => hnot (heq ▸ List.mem_map_of_mem hi)
        rw [JsMap.get_set_of_ne _ hne]
        exact hget i hi
      · rw [List.mem_singleton.mp hi, JsMap.get_set_self]

theorem initialNode_some (hwf : WellFormed tree) {item : FlatTreeItem α} :
    initialNode tree selectedId = some item ↔ item ∈ tree ∧ selectedId = some item.id := by
  unfold initialNode
  constructor
  · intro h
    obtain ⟨id, hid, hfind⟩ := Option.bind_eq_some_iff.mp h
    obtain ⟨hmem, rfl⟩ := (findNode_eq_some hwf).mp hfind
    exact ⟨hmem, (Option.filter_eq_some_iff.mp hid).1⟩
  · rintro ⟨hmem, rfl⟩
    have hne : item.id ≠ "" := hwf.nonempty item hmem
    simp [Option.filter, hne, (findNode_eq_some hwf).mpr ⟨hmem, rfl⟩]

/-- 祖先は、木で前にある。 -/
theorem ancestors_before (hwf : WellFormed tree) : ∀ item ∈ tree, ∀ before after,
    tree = before ++ item :: after → ∀ a ∈ ancestors tree item, a ∈ before.map (·.id) := by
  refine hwf.induction fun item hi ih before after hsplit a ha => ?_
  cases hp : item.parent with
  | none =>
    rw [ancestors_of_root hp] at ha
    exact absurd ha List.not_mem_nil
  | some p =>
    obtain ⟨parent, hmem, rfl⟩ := List.mem_map.mp (hwf.parents hsplit p hp)
    have hparent : parent ∈ tree := by
      rw [hsplit]
      exact List.mem_append_left _ hmem
    rw [ancestors_eq hwf hi hparent hp] at ha
    rcases List.mem_cons.mp ha with rfl | ha
    · exact List.mem_map_of_mem hmem
    · obtain ⟨before', after', rfl⟩ := List.append_of_mem hmem
      have hin := ih parent hparent hp before' (after' ++ item :: after)
        (by rw [hsplit, List.append_assoc, List.cons_append]) a ha
      rw [List.map_append]
      exact List.mem_append_left _ hin

theorem not_mem_ancestors (hwf : WellFormed tree) {item : FlatTreeItem α} (hi : item ∈ tree) :
    item.id ∉ ancestors tree item := by
  intro ha
  obtain ⟨before, after, hsplit⟩ := List.append_of_mem hi
  have hmem := ancestors_before hwf item hi before after hsplit _ ha
  have hnodup := hwf.nodup
  rw [hsplit, List.map_append] at hnodup
  exact List.disjoint_of_nodup_append hnodup hmem List.mem_cons_self

/-- node が最初に選ばれるか、開いているか。 -/
theorem concreteNode_initial (hwf : WellFormed tree) (selectedId : Option String)
    (collapsedIds : List String) {item : FlatTreeItem α} (hi : item ∈ tree) :
    let n := concreteNode (partialState tree selectedId collapsedIds) item
    (n.selected ↔ selectedId = some item.id) ∧
      (n.expanded ↔ item.id ∉ collapsedIds ∨ selectedId = some item.id ∨
        ∃ node ∈ tree, selectedId = some node.id ∧ item.id ∈ ancestors tree node) := by
  have hmem : item.id ∈ tree.map (·.id) := List.mem_map_of_mem hi
  simp only [concreteNode, get_partialState]
  cases hnode : initialNode tree selectedId with
  | none =>
    have hnone : ∀ node ∈ tree, selectedId ≠ some node.id := by
      intro node hn heq
      rw [(initialNode_some hwf).mpr ⟨hn, heq⟩] at hnode
      cases hnode
    have hno : ¬∃ node ∈ tree, selectedId = some node.id ∧ item.id ∈ ancestors tree node := by
      rintro ⟨node, hn, heq, -⟩
      exact hnone node hn heq
    simp only [hmem, and_true, hnone item hi, hno, or_false, iff_false]
    by_cases hc : item.id ∈ collapsedIds <;> simp [hc, defaultSelected, defaultExpanded]
  | some node =>
    obtain ⟨hn, rfl⟩ := (initialNode_some hwf).mp hnode
    have hex : (∃ other ∈ tree, some node.id = some other.id ∧
        item.id ∈ ancestors tree other) ↔ item.id ∈ ancestors tree node := by
      constructor
      · rintro ⟨other, ho, heq, ha⟩
        rwa [hwf.eq_of_id hn ho (Option.some.inj heq)]
      · exact fun ha => ⟨node, hn, rfl, ha⟩
    rw [hex]
    dsimp only
    by_cases ha : item.id ∈ ancestors tree node
    · -- 自分の祖先ではないので、選ばれる node ではない
      have hne : node.id ≠ item.id := by
        intro heq
        rw [hwf.eq_of_id hn hi heq] at ha
        exact not_mem_ancestors hwf hi ha
      simp [ha, hne, defaultSelected]
    · by_cases heq : item.id = node.id
      · have hself : node.id ∉ ancestors tree node := heq ▸ ha
        simp [hself, heq, defaultExpanded]
      · simp only [ha, heq, if_false, hmem, and_true, Option.some.injEq, Ne.symm heq, or_false,
          iff_false]
        by_cases hc : item.id ∈ collapsedIds <;> simp [hc, defaultSelected, defaultExpanded]

/-- 最初の状態。選ばれるのは `selectedId` の node で、その祖先は開く。 -/
theorem concreteStateFromInput_spec (hwf : WellFormed tree) (filter : Option (Filter α ν))
    (selectedId : Option String) (collapsedIds : List String) :
    ∃ s, concreteStateFromInput tree filter selectedId collapsedIds = some s ∧ Valid s ∧
      s.tree = tree ∧ ∀ item ∈ tree, ∃ n, JsMap.get s.nodes item.id = some n ∧
        (n.selected ↔ selectedId = some item.id) ∧
        (n.expanded ↔ item.id ∉ collapsedIds ∨ selectedId = some item.id ∨
          ∃ node ∈ tree, selectedId = some node.id ∧ item.id ∈ ancestors tree node) := by
  obtain ⟨hkeys, hget⟩ := get_foldl_write
    (concreteNode (partialState tree selectedId collapsedIds)) hwf.nodup
  have hvalue := fun item => @concreteNode_initial _ _ hwf selectedId collapsedIds item
  have hselected : ∀ {k n}, JsMap.get (tree.foldl (fun acc node => JsMap.set acc node.id
      (concreteNode (partialState tree selectedId collapsedIds) node)) []) k = some n →
      n.selected → selectedId = some k := by
    intro k n hk hsel
    obtain ⟨item, hi, rfl⟩ := List.mem_map.mp (mem_ids_of_get hkeys hk)
    rw [hget item hi] at hk
    cases hk
    exact (hvalue item hi).1.mp hsel
  obtain ⟨nodes, hvis, hcoherent, hnodes⟩ := coherent_applyVisibility hwf hkeys
    fun hk hs hk' hs' => Option.some.inj ((hselected hk hs).symm.trans (hselected hk' hs'))
  have hconcrete : concreteStateFromPartialState tree (partialState tree selectedId collapsedIds) =
      some nodes := hvis
  obtain ⟨s, hs, hvalid, htree, hsnodes⟩ := valid_applyFilterToState
    (s := { tree, nodes, filter
            changes := selectedId, filteredNodes := nodes, visibleNodeIds := [] })
    hwf hcoherent
  refine ⟨s, ?_, hvalid, htree, fun item hi => ?_⟩
  · unfold concreteStateFromInput
    rw [hconcrete]
    exact hs
  · obtain ⟨n', hn', hsel, hexp⟩ := hnodes item hi _ (hget item hi)
    rw [hsnodes]
    exact ⟨n', hn', hsel ▸ (hvalue item hi).1, hexp ▸ (hvalue item hi).2⟩

end Initial

/-! ## どの操作の後でも -/

/-- 行った操作の id は木にあり、新しい木は親を先に並べたものである。 -/
def Legal (s : TreeState α ν) : Action α ν → Prop
  | .selectNode id | .deselectNode id | .toggleNodeSelection id | .expandNode id | .collapseNode id
  | .toggleExpandNode id => id ∈ s.tree.map (·.id)
  | .updateTree tree => WellFormed tree
  | _ => True

/-- `useReducer` の状態。 -/
inductive Reachable : TreeState α ν → Prop
  | init {tree : List (FlatTreeItem α)} {filter : Option (Filter α ν)} {selectedId : Option String}
      {collapsedIds : List String} {s : TreeState α ν} (hwf : WellFormed tree)
      (h : concreteStateFromInput tree filter selectedId collapsedIds = some s) : Reachable s
  | step {s s' : TreeState α ν} {action : Action α ν} (hs : Reachable s) (hlegal : Legal s action)
      (h : reducer s action = some s') : Reachable s'

/-! ### 例 -/

def sampleFilter : Filter Unit String where
  value := some "b"
  fn value item := item.id = value

/-- `c` を選んで始め、`a` と `b` を閉じ、`b` に絞り込んだ状態。 -/
def sampleState : TreeState Unit String where
  tree := flattenTree sampleTree
  nodes :=
    [("root", { selected := false, expanded := true, visible := true }),
      ("a", { selected := false, expanded := false, visible := true }),
      ("b", { selected := false, expanded := false, visible := false }),
      ("c", { selected := true, expanded := true, visible := true })]
  filteredNodes :=
    [("root", { selected := false, expanded := true, visible := true }),
      ("a", { selected := false, expanded := true, visible := true }),
      ("b", { selected := false, expanded := false, visible := true }),
      ("c", { selected := false, expanded := true, visible := false })]
  changes := none
  filter := some sampleFilter
  visibleNodeIds := ["root", "a", "b"]

theorem reachable_sampleState : Reachable sampleState := by
  have hwf : WellFormed (flattenTree sampleTree) := wellFormed_flattenTree (by decide) (by decide)
  obtain ⟨s₀, s₁, s₂, h₀, ha, h₁, hb, h₂, h₃⟩ : ∃ s₀ s₁ s₂ : TreeState Unit String,
      concreteStateFromInput (flattenTree sampleTree) none (some "c") [] = some s₀ ∧
        "a" ∈ s₀.tree.map (·.id) ∧ reducer s₀ (.collapseNode "a") = some s₁ ∧
        "b" ∈ s₁.tree.map (·.id) ∧ reducer s₁ (.collapseNode "b") = some s₂ ∧
        reducer s₂ (.updateFilter (some sampleFilter)) = some sampleState :=
    ⟨_, _, _, rfl, by decide, rfl, by decide, rfl, rfl⟩
  have hopen : Reachable s₀ := .init hwf h₀
  have hclosed : Reachable s₁ := hopen.step (show Legal s₀ (.collapseNode "a") from ha) h₁
  have hboth : Reachable s₂ := hclosed.step (show Legal s₁ (.collapseNode "b") from hb) h₂
  exact hboth.step (show Legal s₂ (.updateFilter (some sampleFilter)) from trivial) h₃

section Run

variable {s : TreeState α ν}

/-- どの操作も、整った状態を整った状態へ移す。 -/
theorem valid_reducer (hs : Valid s) {action : Action α ν} (hlegal : Legal s action) :
    ∃ s', reducer s action = some s' ∧ Valid s' := by
  cases action with
  | selectNode id => exact valid_selectNode hs id
  | deselectNode id => exact valid_deselectNode hs id
  | deselectAllNodes =>
    obtain ⟨s', heq, hvalid, -⟩ := valid_withNodes hs (coherent_deselectAll hs.coherent)
    exact ⟨s', heq, hvalid⟩
  | toggleNodeSelection id =>
    simp only [reducer]
    split
    · exact valid_deselectNode hs id
    · exact valid_selectNode hs id
  | expandNode id => exact valid_setExpanded hs id true
  | collapseNode id => exact valid_setExpanded hs id false
  | toggleExpandNode id =>
    simp only [reducer]
    split
    · exact valid_setExpanded hs id false
    · exact valid_setExpanded hs id true
  | expandAllBelowDepth | collapseAllBelowDepth | expandLevel | collapseLevel =>
    simp only [reducer]
    exact valid_setExpandedWhere hs _ _
  | toggleExpandLevel level =>
    simp only [reducer]
    split
    · exact ⟨s, rfl, hs⟩
    · split
      · exact valid_setExpandedWhere hs _ _
      · exact valid_setExpandedWhere hs _ _
  | selectFirstVisibleNode => exact valid_selectFirst hs
  | selectLastVisibleNode => exact valid_selectLast hs
  | selectNextVisibleNode | selectPreviousVisibleNode =>
    simp only [reducer]
    exact valid_selectBeside hs _
  | selectParentNode => exact valid_selectParent hs
  | updateTree tree =>
    obtain ⟨s', heq, hvalid, -⟩ := concreteStateFromInput_spec hlegal s.filter
      (selectedIdFromState s.nodes) (collapsedIdsFromState s.nodes)
    exact ⟨s', heq, hvalid⟩
  | updateFilter filter =>
    obtain ⟨s', heq, hvalid, -⟩ := valid_applyFilterToState (s := { s with filter }) hs.wellFormed
      hs.coherent
    exact ⟨s', heq, hvalid⟩

theorem valid_of_reachable (h : Reachable s) : Valid s := by
  induction h with
  | init hwf h =>
    obtain ⟨s', heq, hvalid, -⟩ := concreteStateFromInput_spec hwf _ _ _
    rw [h] at heq
    cases heq
    exact hvalid
  | step hs hlegal h ih =>
    obtain ⟨s', heq, hvalid⟩ := valid_reducer ih hlegal
    rw [h] at heq
    cases heq
    exact hvalid

/-- **どの操作の列の後でも、選ばれている node は高々一つ、見える node は祖先がすべて開いている node で、絞り込みに合う
node は見える祖先とともに見える。次の操作は例外にならない。** -/
theorem reachable_consistent (h : Reachable s) :
    (∀ {k k' n n'}, JsMap.get s.nodes k = some n → n.selected → JsMap.get s.nodes k' = some n' →
      n'.selected → k = k') ∧
    (∀ item ∈ s.tree, ∃ n, JsMap.get s.nodes item.id = some n ∧
      (n.visible ↔ ∀ a ∈ ancestors s.tree item, ∃ m, JsMap.get s.nodes a = some m ∧ m.expanded)) ∧
    Filtered s ∧ ∀ action, Legal s action → ∃ s', reducer s action = some s' := by
  have hs := valid_of_reachable h
  refine ⟨hs.coherent.single, fun item hi => ?_, ?_, fun action hlegal => ?_⟩
  · obtain ⟨n, hn⟩ := exists_get hs.coherent.keys hi
    exact ⟨n, hn, hs.coherent.visible_iff hs.wellFormed item hi n hn⟩
  · obtain ⟨s', heq, -, -, -, hfiltered⟩ := filtered_applyFilterToState hs.wellFormed hs.coherent
    rw [hs.applied] at heq
    cases heq
    exact hfiltered
  · obtain ⟨s', heq, -⟩ := valid_reducer hs hlegal
    exact ⟨s', heq⟩

/-- `a` が閉じているので `b` は見えないが、絞り込めば見える。 -/
theorem reachable_consistent_sample :
    (∀ {k k' n n'}, JsMap.get sampleState.nodes k = some n → n.selected →
      JsMap.get sampleState.nodes k' = some n' → n'.selected → k = k') ∧
    (∀ item ∈ sampleState.tree, ∃ n, JsMap.get sampleState.nodes item.id = some n ∧
      (n.visible ↔ ∀ a ∈ ancestors sampleState.tree item,
        ∃ m, JsMap.get sampleState.nodes a = some m ∧ m.expanded)) ∧
    Filtered sampleState ∧
      ∀ action, Legal sampleState action → ∃ s', reducer sampleState action = some s' :=
  reachable_consistent reachable_sampleState

theorem selectedIdFromState_eq_some (h : Coherent tree nodes) (hwf : WellFormed tree) {k : String} :
    selectedIdFromState nodes = some k ↔ ∃ n, JsMap.get nodes k = some n ∧ n.selected := by
  constructor
  · exact selectedIdFromState_some (keys_nodup hwf h.keys)
  · rintro ⟨n, hn, hsel⟩
    cases hid : selectedIdFromState nodes with
    | none =>
      unfold selectedIdFromState at hid
      have hnone := List.find?_eq_none.mp (Option.map_eq_none_iff.mp hid) _ (JsMap.mem_of_get hn)
      exact absurd hsel hnone
    | some k' =>
      obtain ⟨n', hn', hsel'⟩ := selectedIdFromState_some (keys_nodup hwf h.keys) hid
      rw [h.single hn hsel hn' hsel']

theorem mem_collapsedIdsFromState (h : Coherent tree nodes) (hwf : WellFormed tree) {k : String} :
    k ∉ collapsedIdsFromState nodes ↔ ∀ n, JsMap.get nodes k = some n → n.expanded := by
  unfold collapsedIdsFromState
  constructor
  · intro hk n hn
    by_contra hexpanded
    refine hk (List.mem_map.mpr ⟨(k, n), List.mem_filter.mpr ⟨JsMap.mem_of_get hn, ?_⟩, rfl⟩)
    simpa using hexpanded
  · intro hall hk
    obtain ⟨⟨k', n⟩, hmem, rfl⟩ := List.mem_map.mp hk
    obtain ⟨hmem, hcollapsed⟩ := List.mem_filter.mp hmem
    have hexpanded := hall n (Record.lookup_of_mem (keys_nodup hwf h.keys) hmem)
    simp [hexpanded] at hcollapsed

/-- **木を取り替えても、選ばれている node は選ばれたままである。閉じている node は、選ばれているかその祖先であるときに
限り開く。** -/
theorem updateTree_keeps (h : Reachable s) {newTree : List (FlatTreeItem α)}
    (hwf : WellFormed newTree) :
    ∃ s', reducer s (.updateTree newTree) = some s' ∧ s'.tree = newTree ∧
      ∀ item ∈ newTree, ∃ n', JsMap.get s'.nodes item.id = some n' ∧
        (n'.selected ↔ ∃ n, JsMap.get s.nodes item.id = some n ∧ n.selected) ∧
        (n'.expanded ↔ (∀ n, JsMap.get s.nodes item.id = some n → n.expanded) ∨ n'.selected ∨
          ∃ node ∈ newTree, item.id ∈ ancestors newTree node ∧
            ∃ m, JsMap.get s.nodes node.id = some m ∧ m.selected) := by
  have hs := valid_of_reachable h
  obtain ⟨s', heq, -, htree, hnodes⟩ := concreteStateFromInput_spec hwf s.filter
    (selectedIdFromState s.nodes) (collapsedIdsFromState s.nodes)
  refine ⟨s', heq, htree, fun item hi => ?_⟩
  obtain ⟨n', hn', hsel, hexp⟩ := hnodes item hi
  simp only [selectedIdFromState_eq_some hs.coherent hs.wellFormed] at hsel hexp
  refine ⟨n', hn', hsel, ?_⟩
  rw [hexp, mem_collapsedIdsFromState hs.coherent hs.wellFormed, hsel]
  refine or_congr Iff.rfl (or_congr Iff.rfl (exists_congr fun node => and_congr Iff.rfl ?_))
  exact and_comm

/-- `c` が `a` の下へ移った木。 -/
def movedTree : Tree Unit :=
  .node "root" none ()
    [.node "a" none () [.node "c" none () []], .node "b" none () [.node "d" none () []]]

/-- 木を取り替えると、選ばれている `c` の祖先になった `a` は開き、`b` は閉じたままである。 -/
theorem updateTree_keeps_sample :
    ((reducer sampleState (.updateTree (flattenTree movedTree))).map fun s =>
      s.nodes.map fun entry => (entry.1, entry.2.selected, entry.2.expanded)) =
        some [("root", false, true), ("a", false, true), ("c", true, true), ("b", false, false),
          ("d", false, true)] ∧
    ∃ s', reducer sampleState (.updateTree (flattenTree movedTree)) = some s' ∧
      s'.tree = flattenTree movedTree ∧
      ∀ item ∈ flattenTree movedTree, ∃ n', JsMap.get s'.nodes item.id = some n' ∧
        (n'.selected ↔ ∃ n, JsMap.get sampleState.nodes item.id = some n ∧ n.selected) ∧
        (n'.expanded ↔ (∀ n, JsMap.get sampleState.nodes item.id = some n → n.expanded) ∨
          n'.selected ∨ ∃ node ∈ flattenTree movedTree,
            item.id ∈ ancestors (flattenTree movedTree) node ∧
              ∃ m, JsMap.get sampleState.nodes node.id = some m ∧ m.selected) :=
  ⟨rfl, updateTree_keeps reachable_sampleState
    (wellFormed_flattenTree (by decide) (by decide))⟩

end Run

end TreeView
