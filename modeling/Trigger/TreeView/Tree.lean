import Mathlib.Data.List.Nodup
import Trigger.Infra.Record

/-!
# 木と平らな木

trace の画面の木。`TreeView.tsx` の `flattenTree` と `createTreeFromFlatItems`。

`createTreeFromFlatItems` は、id で引いた object の `children` に、子の object への参照を加えていく。参照はいつも id で
引いたものなので、`Heap` では id で表す。

* `read_createTreeFromFlatItems` — 平らにした木から、元の木が作り直される
-/

namespace TreeView

open Infra

variable {α : Type}

/-! ## flattenTree -/

/-- `Tree<TData>`。`children` が無いことは、空であることと区別しない。 -/
inductive Tree (α : Type)
  | node (id : String) (runId : Option String) (data : α) (children : List (Tree α))

namespace Tree

def id : Tree α → String
  | node id .. => id

def children : Tree α → List (Tree α)
  | node _ _ _ children => children

mutual

/-- 木に現れる id。 -/
def ids : Tree α → List String
  | node id _ _ children => id :: idsAll children

def idsAll : List (Tree α) → List String
  | [] => []
  | t :: ts => ids t ++ idsAll ts

end

end Tree

/-- `FlatTreeItem<TData>`。 -/
structure FlatTreeItem (α : Type) where
  id : String
  parentId : Option String
  runId : Option String
  children : List String
  hasChildren : Bool
  level : Nat
  data : α

mutual

/-- `flattenNode`。 -/
def flattenNode : Tree α → Option String → Nat → List (FlatTreeItem α)
  | .node id runId data children, parentId, level =>
    { id, parentId, runId, level, data
      children := children.map Tree.id
      hasChildren := 0 < (children.map Tree.id).length } ::
    flattenChildren children id (level + 1)

/-- `node.children?.forEach(...)`。 -/
def flattenChildren : List (Tree α) → String → Nat → List (FlatTreeItem α)
  | [], _, _ => []
  | t :: ts, parentId, level =>
    flattenNode t (some parentId) level ++ flattenChildren ts parentId level

end

/-- `flattenTree`。 -/
def flattenTree (tree : Tree α) : List (FlatTreeItem α) := flattenNode tree none 0

/-! ## createTreeFromFlatItems -/

/-- `FlatTreeWithoutChildren<TData>`。 -/
structure FlatTreeWithoutChildren (α : Type) where
  id : String
  parentId : Option String
  runId : Option String
  data : α

def FlatTreeItem.withoutChildren (item : FlatTreeItem α) : FlatTreeWithoutChildren α :=
  { id := item.id, parentId := item.parentId, runId := item.runId, data := item.data }

/-- `indexedItems` の object。`children` は参照の並びである。 -/
structure Object (α : Type) where
  id : String
  runId : Option String
  data : α
  children : List String

abbrev Heap (α : Type) := JsMap (Object α)

/-- すべての item を id で引けるようにする。 -/
def indexItems (items : List (FlatTreeWithoutChildren α)) : Heap α :=
  items.foldl (fun acc item =>
    acc.set item.id { id := item.id, runId := item.runId, data := item.data, children := [] }) []

/-- 親の `children` に item を加える。親が無ければ何もしない。 -/
def addToParent (heap : Heap α) (item : FlatTreeWithoutChildren α) : Heap α :=
  match item.parentId with
  | none => heap
  | some parentId =>
    match heap.get parentId with
    | none => heap
    | some parent => heap.set parentId { parent with children := parent.children ++ [item.id] }

/-- `createTreeFromFlatItems` の作る object。返り値は `indexedItems[rootId]` である。 -/
def createTreeFromFlatItems (items : List (FlatTreeWithoutChildren α)) : Heap α :=
  items.foldl addToParent (indexItems items)

/-- 参照を辿って木として読む。`fuel` は読む深さで、参照が輪になっていればどの深さでも読み切れない。 -/
def Heap.read (heap : Heap α) : Nat → String → Option (Tree α)
  | 0, _ => none
  | fuel + 1, id => do
    let object ← heap.get id
    let children ← object.children.mapM (Heap.read heap fuel)
    return .node object.id object.runId object.data children

/-! ## 作られる object -/

/-- `parentId` を親とする item の id。 -/
def childIds (parentId : String) (items : List (FlatTreeWithoutChildren α)) : List String :=
  (items.filter (·.parentId = some parentId)).map (·.id)

theorem childIds_append (parentId : String) (l l' : List (FlatTreeWithoutChildren α)) :
    childIds parentId (l ++ l') = childIds parentId l ++ childIds parentId l' := by
  unfold childIds
  rw [List.filter_append, List.map_append]

theorem childIds_cons_of_eq {parentId : String} {item : FlatTreeWithoutChildren α}
    (h : item.parentId = some parentId) (l : List (FlatTreeWithoutChildren α)) :
    childIds parentId (item :: l) = item.id :: childIds parentId l := by
  unfold childIds
  rw [List.filter_cons_of_pos (by simpa using h), List.map_cons]

theorem childIds_cons_of_ne {parentId : String} {item : FlatTreeWithoutChildren α}
    (h : item.parentId ≠ some parentId) (l : List (FlatTreeWithoutChildren α)) :
    childIds parentId (item :: l) = childIds parentId l := by
  unfold childIds
  rw [List.filter_cons_of_neg (by simpa using h)]

/-- どの item の親でもない。 -/
theorem childIds_eq_nil {parentId : String} {l : List (FlatTreeWithoutChildren α)}
    (h : ∀ item ∈ l, item.parentId ≠ some parentId) : childIds parentId l = [] := by
  unfold childIds
  rw [List.filter_eq_nil_iff.mpr fun item hi => by simpa using h item hi, List.map_nil]

/-- 親に加えても、引ける id も、`children` のほかの値も変わらない。 -/
theorem get_foldl_addToParent (items : List (FlatTreeWithoutChildren α)) (heap : Heap α)
    (id : String) : JsMap.get (items.foldl addToParent heap) id =
      (heap.get id).map fun object =>
        { object with children := object.children ++ childIds id items } := by
  induction items generalizing heap with
  | nil =>
    rw [List.foldl_nil]
    cases JsMap.get heap id with
    | none => rfl
    | some object => simp [childIds]
  | cons item items ih =>
    have hcons : childIds id (item :: items) = childIds id [item] ++ childIds id items :=
      childIds_append id [item] items
    have hstep : JsMap.get (addToParent heap item) id = (heap.get id).map fun object =>
        { object with children := object.children ++ childIds id [item] } := by
      unfold addToParent
      cases hparent : item.parentId with
      | none =>
        rw [childIds_eq_nil (by simp [hparent])]
        simp
      | some parentId =>
        dsimp only
        by_cases heq : id = parentId
        · subst heq
          cases hget : JsMap.get heap id with
          | none => simpa using hget
          | some parent => simp [JsMap.get_set_self, childIds, hparent]
        · rw [childIds_eq_nil (by simpa [hparent] using Ne.symm heq)]
          cases hget : JsMap.get heap parentId with
          | none => simp
          | some parent => simp [JsMap.get_set_of_ne _ heq]
    rw [List.foldl_cons, ih, hstep, hcons, Option.map_map]
    simp [Function.comp_def, List.append_assoc]

theorem get_foldl_set_of_not_mem {items : List (FlatTreeWithoutChildren α)} {heap : Heap α}
    {id : String} (h : id ∉ items.map (·.id)) :
    JsMap.get (items.foldl (fun acc item => acc.set item.id
      { id := item.id, runId := item.runId, data := item.data, children := [] }) heap) id =
      heap.get id := by
  induction items generalizing heap with
  | nil => rfl
  | cons item items ih =>
    rw [List.map_cons, List.mem_cons, not_or] at h
    rw [List.foldl_cons, ih h.2, JsMap.get_set_of_ne _ h.1]

/-- id に重なりが無ければ、item ごとに一つの object がある。 -/
theorem get_indexItems {items : List (FlatTreeWithoutChildren α)}
    (hnodup : (items.map (·.id)).Nodup) {item : FlatTreeWithoutChildren α} (h : item ∈ items) :
    (indexItems items).get item.id =
      some { id := item.id, runId := item.runId, data := item.data, children := [] } := by
  obtain ⟨before, after, rfl⟩ := List.append_of_mem h
  rw [List.map_append, List.map_cons] at hnodup
  have hafter : item.id ∉ after.map (·.id) := (List.nodup_cons.mp hnodup.of_append_right).1
  unfold indexItems
  rw [List.foldl_append, List.foldl_cons, get_foldl_set_of_not_mem hafter, JsMap.get_set_self]

/-- item の object の `children` は、それを親とする item を順に並べたものである。 -/
theorem get_createTreeFromFlatItems {items : List (FlatTreeWithoutChildren α)}
    (hnodup : (items.map (·.id)).Nodup) {item : FlatTreeWithoutChildren α} (h : item ∈ items) :
    (createTreeFromFlatItems items).get item.id = some
      { id := item.id, runId := item.runId, data := item.data
        children := childIds item.id items } := by
  unfold createTreeFromFlatItems
  rw [get_foldl_addToParent, get_indexItems hnodup h]
  rfl

/-! ## 読み戻し -/

/-- 親は、木の外の `parentId` か、木に現れる id である。 -/
def items (t : Tree α) (parentId : Option String) (level : Nat) :
    List (FlatTreeWithoutChildren α) :=
  (flattenNode t parentId level).map FlatTreeItem.withoutChildren

def itemsAll (ts : List (Tree α)) (parentId : String) (level : Nat) :
    List (FlatTreeWithoutChildren α) :=
  (flattenChildren ts parentId level).map FlatTreeItem.withoutChildren

theorem items_node (id : String) (runId : Option String) (data : α) (children : List (Tree α))
    (parentId : Option String) (level : Nat) :
    items (.node id runId data children) parentId level =
      { id, parentId, runId, data } :: itemsAll children id (level + 1) := by
  unfold items itemsAll
  rw [flattenNode, List.map_cons]
  rfl

theorem itemsAll_cons (t : Tree α) (ts : List (Tree α)) (parentId : String) (level : Nat) :
    itemsAll (t :: ts) parentId level =
      items t (some parentId) level ++ itemsAll ts parentId level := by
  unfold items itemsAll
  rw [flattenChildren, List.map_append]

mutual

theorem map_id_items : ∀ (t : Tree α) (parentId : Option String) (level : Nat),
    (items t parentId level).map (·.id) = t.ids
  | .node id runId data children, parentId, level => by
    rw [items_node, List.map_cons, Tree.ids, map_id_itemsAll children id (level + 1)]

theorem map_id_itemsAll : ∀ (ts : List (Tree α)) (parentId : String) (level : Nat),
    (itemsAll ts parentId level).map (·.id) = Tree.idsAll ts
  | [], _, _ => rfl
  | t :: ts, parentId, level => by
    rw [itemsAll_cons, List.map_append, Tree.idsAll, map_id_items t, map_id_itemsAll ts]

end

mutual

theorem parentId_items : ∀ (t : Tree α) (parentId : Option String) (level : Nat),
    ∀ item ∈ items t parentId level,
      item.parentId = parentId ∨ ∃ id ∈ t.ids, item.parentId = some id
  | .node id runId data children, parentId, level => by
    intro item hi
    rw [items_node] at hi
    rw [Tree.ids]
    rcases List.mem_cons.mp hi with rfl | hi
    · exact .inl rfl
    · rcases parentId_itemsAll children id (level + 1) item hi with h | ⟨k, hk, h⟩
      · exact .inr ⟨id, List.mem_cons_self, h⟩
      · exact .inr ⟨k, List.mem_cons_of_mem _ hk, h⟩

theorem parentId_itemsAll : ∀ (ts : List (Tree α)) (parentId : String) (level : Nat),
    ∀ item ∈ itemsAll ts parentId level,
      item.parentId = some parentId ∨ ∃ id ∈ Tree.idsAll ts, item.parentId = some id
  | [], _, _ => fun _ h => absurd h List.not_mem_nil
  | t :: ts, parentId, level => by
    intro item hi
    rw [itemsAll_cons] at hi
    rw [Tree.idsAll]
    rcases List.mem_append.mp hi with hi | hi
    · rcases parentId_items t (some parentId) level item hi with h | ⟨k, hk, h⟩
      · exact .inl h
      · exact .inr ⟨k, List.mem_append_left _ hk, h⟩
    · rcases parentId_itemsAll ts parentId level item hi with h | ⟨k, hk, h⟩
      · exact .inl h
      · exact .inr ⟨k, List.mem_append_right _ hk, h⟩

end

/-- 子を並べた部分では、親の子は木の根である。 -/
theorem childIds_itemsAll {parentId : String} (level : Nat) :
    ∀ {ts : List (Tree α)}, parentId ∉ Tree.idsAll ts →
      childIds parentId (itemsAll ts parentId level) = ts.map Tree.id
  | [], _ => rfl
  | .node id runId data children :: ts, h => by
    rw [Tree.idsAll, Tree.ids, List.mem_append, not_or, List.mem_cons, not_or] at h
    have hinner : childIds parentId (itemsAll children id (level + 1)) = [] := by
      refine childIds_eq_nil fun item hi heq => ?_
      rcases parentId_itemsAll children id (level + 1) item hi with hk | ⟨k, hk, hparent⟩
      · exact h.1.1 (Option.some.inj (heq.symm.trans hk))
      · rw [Option.some.inj (heq.symm.trans hparent)] at h
        exact h.1.2 hk
    rw [itemsAll_cons, items_node, childIds_append, childIds_itemsAll level h.2,
      childIds_cons_of_eq rfl, hinner]
    rfl

mutual

/-- 木のどの節でも、object の `children` は子の id の並びである。 -/
def Matches (heap : Heap α) : Tree α → Prop
  | .node id runId data children =>
    JsMap.get heap id = some { id, runId, data, children := children.map Tree.id } ∧
      MatchesAll heap children

def MatchesAll (heap : Heap α) : List (Tree α) → Prop
  | [] => True
  | t :: ts => Matches heap t ∧ MatchesAll heap ts

end

/-- 前後の item が木の節を親としないなら、木の節の object は木のとおりである。 -/
def Apart (t : List String) (l : List (FlatTreeWithoutChildren α)) : Prop :=
  ∀ item ∈ l, ∀ id ∈ t, item.parentId ≠ some id

mutual

theorem matches_createTree : ∀ (t : Tree α) {parentId : Option String} {level : Nat}
    {before after : List (FlatTreeWithoutChildren α)},
    ((before ++ items t parentId level ++ after).map (·.id)).Nodup →
    Apart t.ids before → Apart t.ids after → (∀ id ∈ t.ids, parentId ≠ some id) →
      Matches (createTreeFromFlatItems (before ++ items t parentId level ++ after)) t
  | .node id runId data children, parentId, level, before, after, hnodup, hbefore, hafter,
      hparent => by
    have hids : (Tree.node id runId data children).ids.Nodup := by
      rw [List.map_append, List.map_append, map_id_items] at hnodup
      exact hnodup.of_append_left.of_append_right
    rw [Tree.ids] at hids hbefore hafter hparent
    rw [items_node] at hnodup ⊢
    rw [Matches]
    have hmem : ({ id, parentId, runId, data } : FlatTreeWithoutChildren α) ∈
        before ++ { id, parentId, runId, data } :: itemsAll children id (level + 1) ++ after := by
      simp
    refine ⟨?_, ?_⟩
    · rw [get_createTreeFromFlatItems hnodup hmem, childIds_append, childIds_append,
        childIds_eq_nil fun item hi => hbefore item hi id List.mem_cons_self,
        childIds_eq_nil fun item hi => hafter item hi id List.mem_cons_self,
        childIds_cons_of_ne (hparent id List.mem_cons_self),
        childIds_itemsAll _ (List.nodup_cons.mp hids).1, List.append_nil, List.nil_append]
    · -- 根の item を前に移す
      rw [List.append_cons] at hnodup ⊢
      refine matchesAll_createTree children hnodup (fun item hi k hk => ?_)
        (fun item hi k hk => hafter item hi k (List.mem_cons_of_mem _ hk))
        (List.nodup_cons.mp hids).1
      rcases List.mem_append.mp hi with hi | hi
      · exact hbefore item hi k (List.mem_cons_of_mem _ hk)
      · rw [List.mem_singleton.mp hi]
        exact hparent k (List.mem_cons_of_mem _ hk)

theorem matchesAll_createTree : ∀ (ts : List (Tree α)) {parentId : String} {level : Nat}
    {before after : List (FlatTreeWithoutChildren α)},
    ((before ++ itemsAll ts parentId level ++ after).map (·.id)).Nodup →
    Apart (Tree.idsAll ts) before → Apart (Tree.idsAll ts) after → parentId ∉ Tree.idsAll ts →
      MatchesAll (createTreeFromFlatItems (before ++ itemsAll ts parentId level ++ after)) ts
  | [], _, _, _, _, _, _, _, _ => by rw [MatchesAll]; trivial
  | t :: ts, parentId, level, before, after, hnodup, hbefore, hafter, hparent => by
    have hids : (t.ids ++ Tree.idsAll ts).Nodup := by
      rw [List.map_append, List.map_append, map_id_itemsAll] at hnodup
      exact hnodup.of_append_left.of_append_right
    have hdisjoint := List.disjoint_of_nodup_append hids
    rw [Tree.idsAll, List.mem_append, not_or] at hparent
    rw [Tree.idsAll] at hbefore hafter
    rw [itemsAll_cons] at hnodup ⊢
    rw [MatchesAll]
    -- 兄弟の item の親は、`parentId` か兄弟の木の節である
    have hrest : Apart t.ids (itemsAll ts parentId level) := by
      intro item hi k hk heq
      rcases parentId_itemsAll ts parentId level item hi with h | ⟨j, hj, h⟩
      · rw [Option.some.inj (h.symm.trans heq)] at hparent
        exact hparent.1 hk
      · rw [Option.some.inj (h.symm.trans heq)] at hj
        exact hdisjoint hk hj
    have hfirst : Apart (Tree.idsAll ts) (items t (some parentId) level) := by
      intro item hi k hk heq
      rcases parentId_items t (some parentId) level item hi with h | ⟨j, hj, h⟩
      · rw [Option.some.inj (h.symm.trans heq)] at hparent
        exact hparent.2 hk
      · rw [Option.some.inj (h.symm.trans heq)] at hj
        exact hdisjoint hj hk
    refine ⟨?_, ?_⟩
    · rw [← List.append_assoc, List.append_assoc _ _ after] at hnodup ⊢
      refine matches_createTree t hnodup
        (fun item hi k hk => hbefore item hi k (List.mem_append_left _ hk))
        (fun item hi k hk => ?_) fun k hk heq => hparent.1 (Option.some.inj heq ▸ hk)
      rcases List.mem_append.mp hi with hi | hi
      · exact hrest item hi k hk
      · exact hafter item hi k (List.mem_append_left _ hk)
    · rw [← List.append_assoc] at hnodup ⊢
      refine matchesAll_createTree ts hnodup (fun item hi k hk => ?_)
        (fun item hi k hk => hafter item hi k (List.mem_append_right _ hk)) hparent.2
      rcases List.mem_append.mp hi with hi | hi
      · exact hbefore item hi k (List.mem_append_right _ hk)
      · exact hfirst item hi k hk

end

mutual

/-- 木の高さより深く読めば、読み切れる。 -/
theorem exists_read : ∀ {heap : Heap α} (t : Tree α), Matches heap t →
    ∃ height, ∀ fuel, height ≤ fuel → heap.read fuel t.id = some t
  | heap, .node id runId data children, h => by
    rw [Matches] at h
    obtain ⟨height, hread⟩ := exists_readAll children h.2
    refine ⟨height + 1, fun fuel hle => ?_⟩
    obtain ⟨fuel, rfl⟩ := Nat.exists_eq_add_of_lt hle
    rw [Heap.read]
    show (JsMap.get heap id).bind _ = _
    rw [h.1]
    show (List.mapM (Heap.read heap _) (children.map Tree.id)).bind _ = _
    rw [hread (height + fuel) (Nat.le_add_right height fuel)]
    rfl

theorem exists_readAll : ∀ {heap : Heap α} (ts : List (Tree α)), MatchesAll heap ts →
    ∃ height, ∀ fuel, height ≤ fuel → (ts.map Tree.id).mapM (Heap.read heap fuel) = some ts
  | _, [], _ => ⟨0, fun _ _ => rfl⟩
  | heap, t :: ts, h => by
    rw [MatchesAll] at h
    obtain ⟨first, hfirst⟩ := exists_read t h.1
    obtain ⟨rest, hrest⟩ := exists_readAll ts h.2
    refine ⟨max first rest, fun fuel hle => ?_⟩
    rw [List.map_cons, List.mapM_cons, hfirst fuel (by omega),
      hrest fuel (by omega)]
    rfl

end

/-- **id に重なりの無い木を平らにすると、`createTreeFromFlatItems` は元の木を作り直す。** -/
theorem read_createTreeFromFlatItems {t : Tree α} (h : t.ids.Nodup) :
    ∃ height, ∀ fuel, height ≤ fuel →
      (createTreeFromFlatItems ((flattenTree t).map FlatTreeItem.withoutChildren)).read fuel t.id =
        some t := by
  have hnodup : (([] ++ items t none 0 ++ []).map FlatTreeWithoutChildren.id).Nodup := by
    rw [List.nil_append, List.append_nil, map_id_items]
    exact h
  have hmatches := matches_createTree t hnodup (fun _ hi => absurd hi List.not_mem_nil)
    (fun _ hi => absurd hi List.not_mem_nil) fun _ _ => (Option.some_ne_none _).symm
  rw [List.nil_append, List.append_nil] at hmatches
  exact exists_read t hmatches

/-- 根と二つの子。 -/
def sampleTree : Tree Unit :=
  .node "root" none () [.node "a" (some "run_1") () [.node "b" none () []], .node "c" none () []]

theorem read_sampleTree :
    ∃ height, ∀ fuel, height ≤ fuel →
      (createTreeFromFlatItems ((flattenTree sampleTree).map FlatTreeItem.withoutChildren)).read
        fuel "root" = some sampleTree :=
  read_createTreeFromFlatItems (t := sampleTree) (by decide)

end TreeView
