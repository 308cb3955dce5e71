import Trigger.TreeView.Tree

/-!
# TreeView の状態

trace の画面の木の開閉と選択。`utils.ts` と `reducer.ts`。

`nodes[id].visible` のように、値の無い id を読む式は例外になる。例外は `none` で表す。

filter の無い状態と、filter で絞った状態の二つの `Map` がある。`nodes` が元の状態で、`filteredNodes` はいつも
`applyFilterToState` で計算し直される。
-/

namespace TreeView

open Infra

variable {α ν : Type}

/-! ## 状態 -/

structure NodeState where
  selected : Bool
  expanded : Bool
  visible : Bool
deriving DecidableEq

/-- `Partial<NodeState>`。 -/
structure PartialNodeState where
  selected : Option Bool := none
  expanded : Option Bool := none

abbrev NodesState := JsMap NodeState

/-- `Filter`。`value` は、偽であれば `none` である。 -/
structure Filter (α ν : Type) where
  value : Option ν
  fn : ν → FlatTreeItem α → Bool

structure TreeState (α ν : Type) where
  tree : List (FlatTreeItem α)
  nodes : NodesState
  filteredNodes : NodesState
  /-- `changes.selectedId`。 -/
  changes : Option String
  filter : Option (Filter α ν)
  visibleNodeIds : List String

def defaultSelected : Bool := false

def defaultExpanded : Bool := true

/-! ## Map の操作 -/

/-- `{ ...nodes, [id]: { ...nodes[id], ... } }`。id は木にあるものとする。 -/
def modify (nodes : NodesState) (id : String) (f : NodeState → NodeState) : NodesState :=
  match JsMap.get nodes id with
  | none => nodes
  | some n => JsMap.set nodes id (f n)

/-- `Object.fromEntries(Object.entries(nodes).map(...))`。 -/
def mapNodes (nodes : NodesState) (f : String → NodeState → NodeState) : NodesState :=
  nodes.map fun entry => (entry.1, f entry.1 entry.2)

/-- `set.add(id)`。 -/
def addId (ids : List String) (id : String) : List String := if id ∈ ids then ids else ids ++ [id]

/-- `difference`。 -/
def difference (a b : List String) : List String := a.filter (· ∉ b)

/-- `selectedIdFromState`。 -/
def selectedIdFromState (state : NodesState) : Option String :=
  (state.find? (·.2.selected)).map Prod.fst

/-- `collapsedIdsFromState`。 -/
def collapsedIdsFromState (state : NodesState) : List String :=
  (state.filter fun entry => entry.2.expanded = false).map Prod.fst

/-- `generateChanges`。 -/
def generateChanges (a b : NodesState) : Option String :=
  if selectedIdFromState a ≠ selectedIdFromState b then selectedIdFromState b else none

/-! ## 木 -/

/-- 空でない `parentId`。 -/
def FlatTreeItem.parent (item : FlatTreeItem α) : Option String := item.parentId.filter (· ≠ "")

/-- `tree.find((node) => node.id === id)`。 -/
def findNode (tree : List (FlatTreeItem α)) (id : String) : Option (FlatTreeItem α) :=
  tree.find? (·.id = id)

/-- `while (parentId)` の巡る id。 -/
def parentsFrom (tree : List (FlatTreeItem α)) : Nat → Option String → List String
  | 0, _ => []
  | fuel + 1, parentId =>
    match parentId with
    | none => []
    | some id => id :: parentsFrom tree fuel ((findNode tree id).bind FlatTreeItem.parent)

/-- 祖先を、近いものから並べる。 -/
def ancestors (tree : List (FlatTreeItem α)) (item : FlatTreeItem α) : List String :=
  parentsFrom tree tree.length item.parent

/-! ## visibility -/

/-- `state[node.id]`。無ければ、子のある node は開いている。 -/
def nodeState (state : NodesState) (node : FlatTreeItem α) : NodeState :=
  (JsMap.get state node.id).getD
    { selected := defaultSelected
      expanded := if node.hasChildren then defaultExpanded else !defaultExpanded
      visible := false }

/-- 親の状態。根の親は、見えて開いているものとする。 -/
def parentState (acc : NodesState) (node : FlatTreeItem α) : Option NodeState :=
  match node.parent with
  | none => some { selected := defaultSelected, expanded := defaultExpanded, visible := true }
  | some id => JsMap.get acc id

/-- `applyVisibility`。親がまだ無ければ例外になる。 -/
def applyVisibility (tree : List (FlatTreeItem α)) (state : NodesState) : Option NodesState :=
  tree.foldlM (fun acc node => do
    let parent ← parentState acc node
    return acc.set node.id
      { nodeState state node with visible := parent.expanded && parent.visible }) []

/-- `visibleNodes`。 -/
def visibleNodes (tree : List (FlatTreeItem α)) (nodes : NodesState) :
    Option (List (FlatTreeItem α)) := do
  let states ← tree.mapM fun node => (JsMap.get nodes node.id).map fun state => (node, state)
  return (states.filter (·.2.visible)).map Prod.fst

/-- `firstVisibleNode`。 -/
def firstVisibleNode (nodes : NodesState) :
    List (FlatTreeItem α) → Option (Option (FlatTreeItem α))
  | [] => some none
  | node :: tree =>
    match JsMap.get nodes node.id with
    | none => none
    | some state => if state.visible then some (some node) else firstVisibleNode nodes tree

/-- `lastVisibleNode`。 -/
def lastVisibleNode (tree : List (FlatTreeItem α)) (nodes : NodesState) :
    Option (Option (FlatTreeItem α)) :=
  firstVisibleNode nodes tree.reverse

/-! ## filter -/

/-- `applyFilterToState` の `visible` と `expanded`。 -/
structure Displayed where
  visible : List String := []
  expanded : List String := []

def Displayed.show (d : Displayed) (id : String) : Displayed :=
  { d with visible := addId d.visible id }

def Displayed.expand (d : Displayed) (id : String) : Displayed :=
  { d with expanded := addId d.expanded id }

/-- node を表示し、子があれば開く。 -/
def Displayed.showNode (d : Displayed) (node : FlatTreeItem α) : Displayed :=
  let d := d.show node.id
  if node.hasChildren then d.expand node.id else d

/-- filter に合う node について、node と祖先と子を表示する。 -/
def display (tree : List (FlatTreeItem α)) (d : Displayed) (node : FlatTreeItem α) : Displayed :=
  let d := (ancestors tree node).foldl (fun d id => (d.show id).expand id) (d.showNode node)
  if node.hasChildren then
    (tree.filter (·.parentId = some node.id)).foldl Displayed.showNode d
  else d

/-- 見えるかどうかと開閉を書き込む。 -/
def writeDisplayed (tree : List (FlatTreeItem α)) (nodes : NodesState) (d : Displayed) :
    NodesState :=
  let hidden := difference (tree.map (·.id)) d.visible
  let collapsed := difference d.visible d.expanded
  let nodes := hidden.foldl (fun nodes id => modify nodes id ({ · with visible := false })) nodes
  let nodes := d.visible.foldl (fun nodes id => modify nodes id ({ · with visible := true })) nodes
  let nodes :=
    collapsed.foldl (fun nodes id => modify nodes id ({ · with expanded := false })) nodes
  d.expanded.foldl (fun nodes id => modify nodes id ({ · with expanded := true })) nodes

/-- 表示する node の状態を書き込む。選ばれている node は、表示されなければ選ばれていないものになる。 -/
def applyDisplayed (tree : List (FlatTreeItem α)) (nodes : NodesState) (d : Displayed) :
    NodesState :=
  match (selectedIdFromState nodes).filter (· ≠ "") with
  | none => writeDisplayed tree nodes d
  | some id =>
    modify (writeDisplayed tree nodes d) id ({ · with selected := decide (id ∈ d.visible) })

/-- 絞り込みの結果。 -/
def filterNodes (tree : List (FlatTreeItem α)) (filter : Option (Filter α ν)) (nodes : NodesState) :
    NodesState :=
  match filter.bind fun filter => filter.value.map filter.fn with
  | none => nodes
  | some fn =>
    let newFilteredOut := (tree.filter (!fn ·)).map (·.id)
    if newFilteredOut = [] then nodes
    else
      let shown := tree.filter (·.id ∉ newFilteredOut)
      applyDisplayed tree nodes (shown.foldl (display tree) {})

/-- `applyFilterToState`。 -/
def applyFilterToState (s : TreeState α ν) : Option (TreeState α ν) := do
  let filteredNodes := filterNodes s.tree s.filter s.nodes
  let visible ← visibleNodes s.tree filteredNodes
  return { s with filteredNodes, visibleNodeIds := visible.map (·.id) }

/-! ## 初期状態 -/

/-- `acc[node.id]`。無い値は既定の値になる。 -/
def concreteNode (state : JsMap PartialNodeState) (node : FlatTreeItem α) : NodeState :=
  let node' := (JsMap.get state node.id).getD {}
  { selected := node'.selected.getD defaultSelected
    expanded := node'.expanded.getD defaultExpanded
    visible := true }

/-- `concreteStateFromPartialState`。木に無い id の値は、`applyVisibility` が読まない。 -/
def concreteStateFromPartialState (tree : List (FlatTreeItem α)) (state : JsMap PartialNodeState) :
    Option NodesState :=
  applyVisibility tree (tree.foldl (fun acc node => acc.set node.id (concreteNode state node)) [])

/-- `concreteStateFromInput` の `state`。 -/
def partialState (tree : List (FlatTreeItem α)) (selectedId : Option String)
    (collapsedIds : List String) : JsMap PartialNodeState :=
  let state : JsMap PartialNodeState := collapsedIds.foldl (fun state id =>
    if (tree.any (·.id = id)) then state.set id { expanded := some false } else state) []
  match (selectedId.filter (· ≠ "")).bind (findNode tree) with
  | none => state
  | some selectedNode =>
    (ancestors tree selectedNode).foldl (fun state id => state.set id { expanded := some true })
      (state.set selectedNode.id { selected := some true })

/-- `concreteStateFromInput`。 -/
def concreteStateFromInput (tree : List (FlatTreeItem α)) (filter : Option (Filter α ν))
    (selectedId : Option String) (collapsedIds : List String) : Option (TreeState α ν) := do
  let nodes ← concreteStateFromPartialState tree (partialState tree selectedId collapsedIds)
  applyFilterToState
    { tree, nodes, filter, changes := selectedId, filteredNodes := nodes, visibleNodeIds := [] }

/-! ## reducer -/

inductive Action (α ν : Type)
  | selectNode (id : String)
  | deselectNode (id : String)
  | deselectAllNodes
  | toggleNodeSelection (id : String)
  | expandNode (id : String)
  | collapseNode (id : String)
  | toggleExpandNode (id : String)
  | expandAllBelowDepth (depth : Nat)
  | collapseAllBelowDepth (depth : Nat)
  | expandLevel (level : Nat)
  | collapseLevel (level : Nat)
  | toggleExpandLevel (level : Nat)
  | selectFirstVisibleNode
  | selectLastVisibleNode
  | selectNextVisibleNode
  | selectPreviousVisibleNode
  | selectParentNode
  | updateTree (tree : List (FlatTreeItem α))
  | updateFilter (filter : Option (Filter α ν))

section Reducer

variable (s : TreeState α ν)

/-- 新しい `nodes` から、残りを計算し直す。 -/
def withNodes (nodes : NodesState) : Option (TreeState α ν) :=
  applyFilterToState { s with nodes, changes := generateChanges s.nodes nodes }

/-- 開閉を変え、見えるかどうかを計算し直す。 -/
def withExpanded (nodes : NodesState) : Option (TreeState α ν) := do
  let visibleNodes ← applyVisibility s.tree nodes
  withNodes s visibleNodes

/-- `SELECT_NODE`。既に選ばれていれば何もしない。 -/
def selectNode (id : String) : Option (TreeState α ν) :=
  if (JsMap.get s.nodes id).any (·.selected) then some s
  else
    withNodes s (modify (mapNodes s.nodes fun _ n => { n with selected := false }) id
      ({ · with selected := true }))

/-- `DESELECT_NODE`。 -/
def deselectNode (id : String) : Option (TreeState α ν) :=
  withNodes s (modify s.nodes id ({ · with selected := false }))

/-- `EXPAND_NODE` と `COLLAPSE_NODE`。 -/
def setExpanded (id : String) (expanded : Bool) : Option (TreeState α ν) :=
  withExpanded s (modify s.nodes id ({ · with expanded }))

/-- 子を持つ node のうち、`level` が条件を満たすものの開閉を変える。 -/
def setExpandedWhere (level : Nat → Bool) (expanded : Bool) : Option (TreeState α ν) :=
  withExpanded s (mapNodes s.nodes fun key value =>
    if (s.tree.filter fun n => level n.level && n.hasChildren).any (·.id = key) then
      { value with expanded }
    else value)

/-- node があれば選ぶ。 -/
def selectFound (node : Option (FlatTreeItem α)) : Option (TreeState α ν) :=
  match node with
  | none => some s
  | some node => selectNode s node.id

/-- `SELECT_FIRST_VISIBLE_NODE`。 -/
def selectFirst : Option (TreeState α ν) :=
  (firstVisibleNode s.filteredNodes s.tree).bind (selectFound s)

/-- `SELECT_NEXT_VISIBLE_NODE` と `SELECT_PREVIOUS_VISIBLE_NODE`。`target` は選ばれている位置から選ぶ位置を求める。
見えない node の位置は -1 である。 -/
def selectBeside (target : Int → Nat) : Option (TreeState α ν) :=
  match (selectedIdFromState s.nodes).filter (· ≠ "") with
  | none => selectFirst s
  | some selected => do
    let visible ← visibleNodes s.tree s.filteredNodes
    let selectedIndex : Int := match visible.findIdx? (·.id = selected) with
      | none => -1
      | some i => i
    selectFound s visible[target selectedIndex]?

/-- `SELECT_PARENT_NODE`。 -/
def selectParent : Option (TreeState α ν) :=
  match (selectedIdFromState s.nodes).filter (· ≠ "") with
  | none => selectFirst s
  | some selected =>
    match findNode s.tree selected with
    | none => some s
    | some selectedNode => selectFound s (selectedNode.parentId.bind (findNode s.tree))

/-- `reducer`。`scrollToNodeFn` の呼び出しは状態に関わらない。 -/
def reducer : Action α ν → Option (TreeState α ν)
  | .selectNode id => selectNode s id
  | .deselectNode id => deselectNode s id
  | .deselectAllNodes => withNodes s (mapNodes s.nodes fun _ n => { n with selected := false })
  | .toggleNodeSelection id =>
    if (JsMap.get s.nodes id).any (·.selected) then deselectNode s id else selectNode s id
  | .expandNode id => setExpanded s id true
  | .collapseNode id => setExpanded s id false
  | .toggleExpandNode id =>
    if ((JsMap.get s.nodes id).map (·.expanded)).getD true then setExpanded s id false
    else setExpanded s id true
  | .expandAllBelowDepth depth => setExpandedWhere s (fun level => depth ≤ level) true
  | .collapseAllBelowDepth depth => setExpandedWhere s (fun level => depth ≤ level) false
  | .expandLevel level => setExpandedWhere s (fun l => l ≤ level) true
  | .collapseLevel level => setExpandedWhere s (fun l => l = level) false
  | .toggleExpandLevel level =>
    match s.tree.find? fun n => n.level = level && n.hasChildren with
    | none => some s
    | some firstNode =>
      let currentlyExpanded := ((JsMap.get s.nodes firstNode.id).map (·.expanded)).getD true
      let currentVisible := ((JsMap.get s.nodes firstNode.id).map (·.visible)).getD true
      if currentlyExpanded && currentVisible then setExpandedWhere s (fun l => l = level) false
      else setExpandedWhere s (fun l => l ≤ level) true
  | .selectFirstVisibleNode => selectFirst s
  | .selectLastVisibleNode => (lastVisibleNode s.tree s.filteredNodes).bind (selectFound s)
  | .selectNextVisibleNode => selectBeside s fun i => (i + 1).toNat
  | .selectPreviousVisibleNode => selectBeside s fun i => (max 0 (i - 1)).toNat
  | .selectParentNode => selectParent s
  | .updateTree tree =>
    concreteStateFromInput tree s.filter (selectedIdFromState s.nodes)
      (collapsedIdsFromState s.nodes)
  | .updateFilter filter => applyFilterToState { s with filter }

end Reducer

end TreeView
