import Mathlib.Data.List.Dedup

/-!
# token の権限

`authorization.server.ts` の `checkAuthorization` と、それを使う `api.v2.tasks.batch` の route。

`checkAuthorization` は、列挙した resource のどれか一つが許されていれば通す。読み出しの絞り込みには合うが、batch の route は
起動する task をすべて渡すので、許された task が一つ混じれば、ほかの task も起動できる（`batch_route_iff`）。
-/

namespace Authorization

/-! ## `checkAuthorization` -/

inductive EntityType
  | PUBLIC
  | PRIVATE
  | PUBLIC_JWT
deriving DecidableEq

structure AuthorizationEntity where
  type : EntityType
  scopes : Option (List String)
deriving DecidableEq

/-- resource の値。key があって値の無いこともある。 -/
inductive ResourceValue
  | undefined
  | one (value : String)
  | many (values : List String)
deriving DecidableEq

/-- `AuthorizationResources`。key の順に並べる。 -/
abbrev AuthorizationResources := List (String × ResourceValue)

def ResourceTypes : List String := ["tasks", "tags", "runs", "batch", "waitpoints", "deployments"]

inductive AuthorizationResult
  | authorized
  | unauthorized (reason : String)
deriving DecidableEq

/-- `Array.isArray(resourceValue) ? resourceValue : [resourceValue]` を文字列にしたもの。 -/
def ResourceValue.values : ResourceValue → List String
  | .undefined => ["undefined"]
  | .one value => [value]
  | .many values => values

def specificPermission (action resourceType value : String) : String :=
  action ++ ":" ++ resourceType ++ ":" ++ value

def generalPermission (action resourceType : String) : String := action ++ ":" ++ resourceType

/-- 一つの resource の種類を調べる `for` 文。 -/
def permitsAny (scopes : List String) (action resourceType : String) (values : List String) :
    Bool :=
  values.any fun value =>
    scopes.contains (specificPermission action resourceType value) ||
      scopes.contains (generalPermission action resourceType)

/-- 権限の無いことを伝える文。 -/
def missingReason (scopes : List String) : String :=
  "Public Access Token is missing required permissions. Token has the following permissions: " ++
    String.intercalate ", " (scopes.map fun s => "'" ++ s ++ "'") ++
    ". See https://trigger.dev/docs/frontend/overview#authentication for more information."

def checkAuthorization (entity : AuthorizationEntity) (action : String)
    (resource : AuthorizationResources) (superScopes : List String) : AuthorizationResult :=
  match entity.type with
  | .PRIVATE => .authorized
  | .PUBLIC => .unauthorized "PUBLIC type is deprecated and has no access"
  | .PUBLIC_JWT =>
    let scopes := entity.scopes.getD []
    if scopes = [] then
      .unauthorized
        ("Public Access Token has no permissions. See " ++
          "https://trigger.dev/docs/frontend/overview#authentication for more information.")
    else if resource = [] then .unauthorized "Resource object is empty"
    else if superScopes.any scopes.contains then .authorized
    else
      let filteredResource := resource.filter fun p => ResourceTypes.contains p.1
      if filteredResource.any fun p => permitsAny scopes action p.1 p.2.values then .authorized
      else .unauthorized (missingReason scopes)

/-! ## batch の route -/

/-- `BatchTriggerTaskV3RequestBody` の item のうち、route が見るもの。 -/
structure BatchItem where
  task : String
deriving DecidableEq

/-- `Array.from(new Set(tasks))`。 -/
def distinct : List String → List String
  | [] => []
  | task :: rest => task :: (distinct rest).filter (· ≠ task)

/-- route の `authorization.resource`。 -/
def batchResource (items : List BatchItem) : AuthorizationResources :=
  [("tasks", .many (distinct (items.map BatchItem.task)))]

def batchSuperScopes : List String := ["write:tasks", "admin"]

def batchAuthorized (entity : AuthorizationEntity) (items : List BatchItem) : AuthorizationResult :=
  checkAuthorization entity "batchTrigger" (batchResource items) batchSuperScopes

/-! ## 条件 -/

/-- どの task の起動も許す scope を持つ。 -/
def Unrestricted (scopes : List String) : Prop :=
  (∃ scope ∈ batchSuperScopes, scope ∈ scopes) ∨ generalPermission "batchTrigger" "tasks" ∈ scopes

/-- その task の起動を許す scope。 -/
def taskScope (task : String) : String := specificPermission "batchTrigger" "tasks" task

/-- 一つの task だけを見たときの権限。 -/
def Permits (scopes : List String) (task : String) : Prop :=
  taskScope task ∈ scopes ∨ Unrestricted scopes

theorem mem_distinct {task : String} :
    ∀ {tasks : List String}, task ∈ distinct tasks ↔ task ∈ tasks
  | [] => Iff.rfl
  | first :: rest => by
    rw [distinct, List.mem_cons, List.mem_cons, List.mem_filter, mem_distinct]
    by_cases h : task = first
    · simp [h]
    · simp [h]

/-- route が通すのは、どれか一つの task が許されているか、task に依らない scope を持つときである。 -/
theorem batchAuthorized_iff {scopes : Option (List String)} {items : List BatchItem} :
    batchAuthorized ⟨.PUBLIC_JWT, scopes⟩ items = .authorized ↔
      (∃ scope ∈ batchSuperScopes, scope ∈ scopes.getD []) ∨
        ∃ item ∈ items, Permits (scopes.getD []) item.task := by
  unfold batchAuthorized checkAuthorization
  dsimp only
  by_cases hempty : scopes.getD [] = []
  · rw [if_pos hempty, hempty]
    simp [Permits, Unrestricted]
  · rw [if_neg hempty, if_neg (by simp [batchResource])]
    by_cases hsuper : batchSuperScopes.any (scopes.getD []).contains
    · rw [if_pos hsuper]
      have hsuper' : ∃ scope ∈ batchSuperScopes, scope ∈ scopes.getD [] := by simpa using hsuper
      exact iff_of_true rfl (.inl hsuper')
    · have hsuper' : ¬ ∃ scope ∈ batchSuperScopes, scope ∈ scopes.getD [] := by simpa using hsuper
      have hfilter : (batchResource items).filter (fun p => ResourceTypes.contains p.1) =
          batchResource items := rfl
      rw [if_neg hsuper, or_iff_right hsuper', hfilter]
      have hloop : (batchResource items).any (fun p =>
          permitsAny (scopes.getD []) "batchTrigger" p.1 p.2.values) = true ↔
            ∃ item ∈ items, Permits (scopes.getD []) item.task := by
        simp only [batchResource, List.any_cons, List.any_nil, Bool.or_false, permitsAny,
          ResourceValue.values, List.any_eq_true, mem_distinct, List.mem_map, Bool.or_eq_true,
          List.contains_iff_mem, Permits, Unrestricted, or_iff_right hsuper', taskScope]
        constructor
        · rintro ⟨_, ⟨item, hitem, rfl⟩, h⟩
          exact ⟨item, hitem, h⟩
        · rintro ⟨item, hitem, h⟩
          exact ⟨item.task, ⟨item, hitem, rfl⟩, h⟩
      rw [← hloop]
      split
      · next h => exact iff_of_true rfl h
      · next h => exact iff_of_false nofun h

/--
**route が通した batch の task がどれも許されているのは、task に依らない scope を持つか、scope の名指す task が batch に
一つも無いか、batch の task をすべて名指すとき、かつそのときに限る。**
-/
theorem batch_route_iff (scopes : Option (List String)) (items : List BatchItem) :
    (batchAuthorized ⟨.PUBLIC_JWT, scopes⟩ items = .authorized →
        ∀ task ∈ distinct (items.map BatchItem.task), Permits (scopes.getD []) task) ↔
      Unrestricted (scopes.getD []) ∨ (∀ item ∈ items, taskScope item.task ∉ scopes.getD []) ∨
        ∀ item ∈ items, taskScope item.task ∈ scopes.getD [] := by
  rw [batchAuthorized_iff]
  by_cases hall : Unrestricted (scopes.getD [])
  · exact iff_of_true (fun _ _ _ => .inr hall) (.inl hall)
  · have hpermits : ∀ task, Permits (scopes.getD []) task ↔ taskScope task ∈ scopes.getD [] :=
      fun task => or_iff_left hall
    have hsuper : ¬ ∃ scope ∈ batchSuperScopes, scope ∈ scopes.getD [] := fun h => hall (.inl h)
    simp only [or_iff_right hall, or_iff_right hsuper, hpermits]
    constructor
    · intro h
      by_cases hone : ∃ item ∈ items, taskScope item.task ∈ scopes.getD []
      · exact .inr fun item hitem =>
          h hone item.task (mem_distinct.mpr (List.mem_map_of_mem hitem))
      · exact .inl fun item hitem hscope => hone ⟨item, hitem, hscope⟩
    · rintro (hnone | heach) ⟨item, hitem, hscope⟩ task htask
      · exact absurd hscope (hnone item hitem)
      · obtain ⟨item', hitem', rfl⟩ := List.mem_map.mp (mem_distinct.mp htask)
        exact heach item' hitem'

/-- 許された task に許されていない task を混ぜた batch が通る。 -/
theorem batch_route_mixed :
    ¬ (batchAuthorized ⟨.PUBLIC_JWT, some ["batchTrigger:tasks:resize"]⟩
          [⟨"resize"⟩, ⟨"delete-all"⟩] = .authorized →
        ∀ task ∈ distinct ["resize", "delete-all"],
          Permits ["batchTrigger:tasks:resize"] task) := by
  intro h
  have hpermits := h (by decide) "delete-all" (by decide)
  unfold Permits Unrestricted at hpermits
  revert hpermits
  decide

end Authorization
