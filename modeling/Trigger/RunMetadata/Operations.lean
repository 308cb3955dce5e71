import Trigger.RunMetadata.Json

/-!
# metadata の操作

`runMetadata/operations.ts` の `applyMetadataOperations` と `collapseOperations`。

`$.` で始まる key は JSONHeroPath の path で、その読み書き（`first`・`set`）は引数である。そのほかの key は
object の property の名前で、継承される名前（`inheritedKeys`）は扱わない。

`collapseOperations` は続く増分を先に足し合わせる。倍精度の加算は結合的でないので、まとめた操作がもとの操作と同じ結果に
なるのは、合計を足した値が順に足した値と同じときである（`collapseOperations_preserves_iff`）。
-/

namespace RunMetadata

open Infra (Number)

/-- `RunMetadataChangeOperation`。 -/
inductive Operation
  | set (key : String) (value : DeserializedJson)
  | delete (key : String)
  | append (key : String) (value : DeserializedJson)
  | remove (key : String) (value : DeserializedJson)
  | increment (key : String) (value : Number)
  | update (value : Metadata)
deriving DecidableEq

/-- `JSONHeroPath` の読み書き。引数は path と metadata である。 -/
structure JSONHeroPath where
  first : String → Metadata → Option DeserializedJson
  set : String → Metadata → DeserializedJson → Metadata

/-- 一致するもののない path。 -/
def noPath : JSONHeroPath where
  first _ _ := none
  set _ m _ := m

/-- `key.startsWith("$.")`。 -/
def isPath (key : String) : Bool := "$.".toList.isPrefixOf key.toList

/-- object が継承する property の名前。 -/
def inheritedKeys : List String :=
  ["constructor", "toString", "toLocaleString", "valueOf", "hasOwnProperty", "isPrototypeOf",
    "propertyIsEnumerable", "__proto__", "__defineGetter__", "__defineSetter__", "__lookupGetter__",
    "__lookupSetter__"]

/-! ## 適用 -/

section Apply

variable (p : JSONHeroPath)

def read (key : String) (m : Metadata) : Option DeserializedJson :=
  if isPath key then p.first key m else m.lookup key

def write (key : String) (m : Metadata) (value : DeserializedJson) : Metadata :=
  if isPath key then p.set key m value else m.insert key value

/-- `append` の後の値。 -/
def appended (existing : Option DeserializedJson) (value : DeserializedJson) : DeserializedJson :=
  match existing with
  | none => .arr [value]
  | some (.arr items) => .arr (items ++ [value])
  | some existing => .arr [existing, value]

/-- 数でなければ 0 とみなす。 -/
def numberOf : Option DeserializedJson → Number
  | some (.num n) => n
  | _ => 0

/-- 一つの操作。適用できなければ `none`。 -/
def applyOperation? (m : Metadata) : Operation → Option Metadata
  | .set key value => some (write p key m value)
  | .delete key => some (m.erase key)
  | .append key value => some (write p key m (appended (read p key m) value))
  | .remove key value =>
    match read p key m with
    | some (.arr items) => some (write p key m (.arr (items.filter fun item => !dequal item value)))
    | _ => none
  | .increment key value => some (write p key m (.num (numberOf (read p key m) + value)))
  | .update value => some value

def applyOperation (m : Metadata) (op : Operation) : Metadata := (applyOperation? p m op).getD m

/-- `applyMetadataOperations` の `newMetadata`。 -/
def applyMetadataOperations (m : Metadata) (ops : List Operation) : Metadata :=
  ops.foldl (applyOperation p) m

theorem applyMetadataOperations_append (m : Metadata) (ops ops' : List Operation) :
    applyMetadataOperations p m (ops ++ ops') =
      applyMetadataOperations p (applyMetadataOperations p m ops) ops' := List.foldl_append

end Apply

/-! ## まとめる -/

/-- `collapseOperations` の内側のループの一回。`op` に次の操作をまとめる。 -/
def mergeOperation : Operation → Operation → Option Operation
  | .increment key sum, .increment key' value =>
    if key' = key then some (.increment key (sum + value)) else none
  | .set key _, .set key' value => if key' = key then some (.set key' value) else none
  | .delete key, .delete key' => if key' = key then some (.delete key) else none
  | _, _ => none

def collapseFrom (op : Operation) : List Operation → List Operation
  | [] => [op]
  | next :: rest =>
    match mergeOperation op next with
    | some merged => collapseFrom merged rest
    | none => op :: collapseFrom next rest

/-- `collapseOperations`。 -/
def collapseOperations : List Operation → List Operation
  | [] => []
  | op :: rest => collapseFrom op rest

example : collapseOperations [.increment "n" 1, .increment "n" 2, .set "s" .null, .delete "s"] =
    [.increment "n" 3, .set "s" .null, .delete "s"] := by decide +kernel

/-! ## 読み書きの法則 -/

/-- 書いた値がそのまま読め、後の書き込みが前の書き込みを消す。一致するものの無い path は何も書かない。 -/
structure Lawful (p : JSONHeroPath) (key : String) : Prop where
  overwrite : ∀ m v w, write p key (write p key m v) w = write p key m w
  readBack : ∀ m, (∀ v, read p key (write p key m v) = some v) ∨ ∀ v, write p key m v = m

/-- 継承される名前でなく、読み書きできる key。 -/
structure Readable (p : JSONHeroPath) (key : String) : Prop extends Lawful p key where
  notInherited : key ∉ inheritedKeys

/-- path でない key は読み書きできる。 -/
theorem lawful_of_property (p : JSONHeroPath) {key : String} (hkey : isPath key = false) :
    Lawful p key where
  overwrite m v w := by
    simp only [write, hkey, Bool.false_eq_true, if_false]
    exact Finmap.insert_insert m
  readBack m := by
    refine .inl fun v => ?_
    simp only [read, write, hkey, Bool.false_eq_true, if_false]
    exact Finmap.lookup_insert m

/-- 操作の key。 -/
def Operation.key? : Operation → Option String
  | .set key _ | .delete key | .append key _ | .remove key _ | .increment key _ => some key
  | .update _ => none

/-- 操作の key が読み書きできる。 -/
def Operation.Readable (p : JSONHeroPath) (op : Operation) : Prop :=
  ∀ key, op.key? = some key → RunMetadata.Readable p key

variable {p : JSONHeroPath}

/-! ## まとめても同じ結果になる条件 -/

/-- 合計を足した値は、順に足した値と同じである。一致するものの無い path では、値を問わない。 -/
def AddsExactly (p : JSONHeroPath) (key : String) (m : Metadata) (sum value : Number) : Prop :=
  (∀ v, write p key m v = m) ∨
    numberOf (read p key m) + (sum + value) = numberOf (read p key m) + sum + value

/-- `m` に適用する二つの操作は、まとめても同じ結果になる。 -/
def MergesExactly (p : JSONHeroPath) (m : Metadata) : Operation → Operation → Prop
  | .increment key sum, .increment key' value => key' = key → AddsExactly p key m sum value
  | _, _ => True

/-- `op` にまとめながら読む操作の列は、どこでまとめても同じ結果になる。 -/
def SumsExactlyFrom (p : JSONHeroPath) (m : Metadata) (op : Operation) : List Operation → Prop
  | [] => True
  | next :: rest =>
    match mergeOperation op next with
    | some merged => MergesExactly p m op next ∧ SumsExactlyFrom p m merged rest
    | none => SumsExactlyFrom p (applyOperation p m op) next rest

def SumsExactly (p : JSONHeroPath) (m : Metadata) : List Operation → Prop
  | [] => True
  | op :: rest => SumsExactlyFrom p m op rest

theorem increment_increment_iff {key : String} (h : Lawful p key) (m : Metadata) (a b : Number) :
    applyOperation p m (.increment key (a + b)) =
        applyOperation p (applyOperation p m (.increment key a)) (.increment key b) ↔
      AddsExactly p key m a b := by
  simp only [applyOperation, applyOperation?, Option.getD_some]
  rcases h.readBack m with hread | hnone
  · -- 書いた値が読めるので、二つ目の増分は一つ目の後の値に足される。
    rw [hread, h.overwrite, numberOf]
    constructor
    · intro heq
      have hvalue := congrArg (read p key) heq
      rw [hread, hread] at hvalue
      exact .inr (JsonValue.num.inj (Option.some.inj hvalue))
    · rintro (hnone | heq)
      · rw [hnone, hnone]
      · rw [heq]
  · -- 何にも一致しない path では、どの値を書いても変わらない。
    refine ⟨fun _ => .inl hnone, fun _ => ?_⟩
    rw [hnone, hnone, hnone]

theorem set_set {key : String} (h : Lawful p key) (m : Metadata) (v w : DeserializedJson) :
    applyOperation p (applyOperation p m (.set key v)) (.set key w) =
      applyOperation p m (.set key w) := h.overwrite m v w

theorem delete_delete (key : String) (m : Metadata) :
    applyOperation p (applyOperation p m (.delete key)) (.delete key) =
      applyOperation p m (.delete key) := by
  simp only [applyOperation, applyOperation?, Option.getD_some]
  refine Finmap.ext_lookup fun k => ?_
  by_cases hk : k = key
  · rw [hk, Finmap.lookup_erase, Finmap.lookup_erase]
  · rw [Finmap.lookup_erase_ne hk]

/-- まとめた操作の key は、もとの操作の key である。 -/
theorem key_mergeOperation {op next merged : Operation} (hmerge : mergeOperation op next = some merged) :
    merged.key? = op.key? := by
  unfold mergeOperation at hmerge
  split at hmerge
  · obtain ⟨-, hmerged⟩ := Option.ite_none_right_eq_some.mp hmerge
    cases hmerged
    rfl
  · obtain ⟨rfl, hmerged⟩ := Option.ite_none_right_eq_some.mp hmerge
    cases hmerged
    rfl
  · obtain ⟨-, hmerged⟩ := Option.ite_none_right_eq_some.mp hmerge
    cases hmerged
    rfl
  · cases hmerge

theorem Operation.Readable.merge {op next merged : Operation} (h : op.Readable p)
    (hmerge : mergeOperation op next = some merged) : merged.Readable p :=
  fun key hkey => h key (key_mergeOperation hmerge ▸ hkey)

theorem mergeOperation_apply_iff {op next merged : Operation} (h : op.Readable p)
    (hmerge : mergeOperation op next = some merged) (m : Metadata) :
    applyOperation p m merged = applyOperation p (applyOperation p m op) next ↔
      MergesExactly p m op next := by
  unfold mergeOperation at hmerge
  split at hmerge
  · next key sum key' value =>
    obtain ⟨rfl, hmerged⟩ := Option.ite_none_right_eq_some.mp hmerge
    cases hmerged
    -- 条件を持つのは、増分どうしをまとめるときだけである。
    refine (increment_increment_iff (h _ rfl).toLawful m sum value).trans ?_
    exact ⟨fun hadds _ => hadds, fun hmerges => hmerges rfl⟩
  · obtain ⟨rfl, hmerged⟩ := Option.ite_none_right_eq_some.mp hmerge
    cases hmerged
    exact ⟨fun _ => trivial, fun _ => (set_set (h _ rfl).toLawful m _ _).symm⟩
  · obtain ⟨rfl, hmerged⟩ := Option.ite_none_right_eq_some.mp hmerge
    cases hmerged
    exact ⟨fun _ => trivial, fun _ => (delete_delete _ m).symm⟩
  · cases hmerge

/-- 空でない先頭の部分は `a` から始まる。 -/
theorem forall_prefix_cons {α : Type} {motive : List α → Prop} {a : α} {l : List α}
    (hnil : motive []) :
    (∀ pre, pre <+: a :: l → motive pre) ↔ ∀ pre, pre <+: l → motive (a :: pre) := by
  simp only [List.prefix_cons_iff]
  constructor
  · exact fun h pre hpre => h _ (.inr ⟨pre, rfl, hpre⟩)
  · rintro h pre (rfl | ⟨tail, rfl, htail⟩)
    · exact hnil
    · exact h tail htail

/-- まとめた操作の列は、先頭のどの部分についても、もとの操作の列と同じ結果になる。 -/
theorem collapseFrom_apply_iff {op : Operation} {rest : List Operation} (hop : op.Readable p)
    (hrest : ∀ o ∈ rest, o.Readable p) (m : Metadata) :
    (∀ pre, pre <+: rest → applyMetadataOperations p m (collapseFrom op pre) =
        applyMetadataOperations p (applyOperation p m op) pre) ↔ SumsExactlyFrom p m op rest := by
  induction rest generalizing op m with
  | nil =>
    refine ⟨fun _ => trivial, fun _ pre hpre => ?_⟩
    rw [List.prefix_nil.mp hpre]
    rfl
  | cons next rest ih =>
    have hnext := hrest next List.mem_cons_self
    have hrest' : ∀ o ∈ rest, o.Readable p := fun o ho => hrest o (List.mem_cons_of_mem next ho)
    rw [SumsExactlyFrom]
    -- 空の部分はいつでも同じなので、`next` までを含む部分だけを調べる。
    refine (forall_prefix_cons (motive := fun pre =>
      applyMetadataOperations p m (collapseFrom op pre) =
        applyMetadataOperations p (applyOperation p m op) pre) rfl).trans ?_
    simp only [collapseFrom]
    split
    · next merged hmerge =>
      have hstep := mergeOperation_apply_iff hop hmerge m
      rw [← hstep, ← ih (hop.merge hmerge) hrest']
      constructor
      · intro h
        -- ちょうど `next` までの部分が、この一回のまとめの条件になる。
        have hmerged := h [] (List.nil_prefix)
        refine ⟨hmerged, fun pre hpre => ?_⟩
        exact (h pre hpre).trans (congrArg (applyMetadataOperations p · pre) hmerged.symm)
      · rintro ⟨hmerged, h⟩ pre hpre
        exact (h pre hpre).trans (congrArg (applyMetadataOperations p · pre) hmerged)
    · exact ih hnext hrest' _

theorem SumsExactlyFrom.of_prefix {op : Operation} {pre rest : List Operation} {m : Metadata}
    (h : SumsExactlyFrom p m op rest) (hpre : pre <+: rest) : SumsExactlyFrom p m op pre := by
  induction rest generalizing op m pre with
  | nil =>
    rw [List.prefix_nil.mp hpre]
    exact trivial
  | cons next rest ih =>
    rcases List.prefix_cons_iff.mp hpre with rfl | ⟨tail, rfl, htail⟩
    · exact trivial
    rw [SumsExactlyFrom] at h ⊢
    split
    · next merged hmerge =>
      rw [hmerge] at h
      exact ⟨h.1, ih h.2 htail⟩
    · next hmerge =>
      rw [hmerge] at h
      exact ih h htail

/-! ## 末尾に加える -/

/-- `applyMetadataOperations` の `unappliedOperations`。 -/
def unappliedOperations (p : JSONHeroPath) (m : Metadata) : List Operation → List Operation
  | [] => []
  | op :: rest =>
    if (applyOperation? p m op).isNone then
      op :: unappliedOperations p (applyOperation p m op) rest
    else unappliedOperations p (applyOperation p m op) rest

/-- まとめる操作は、いつでも適用できる。 -/
theorem mergeOperation_applied {op next merged : Operation}
    (hmerge : mergeOperation op next = some merged) (m : Metadata) :
    (applyOperation? p m op).isNone = false ∧ (applyOperation? p m next).isNone = false ∧
      (applyOperation? p m merged).isNone = false := by
  unfold mergeOperation at hmerge
  split at hmerge
  · obtain ⟨-, hmerged⟩ := Option.ite_none_right_eq_some.mp hmerge
    cases hmerged
    exact ⟨rfl, rfl, rfl⟩
  · obtain ⟨-, hmerged⟩ := Option.ite_none_right_eq_some.mp hmerge
    cases hmerged
    exact ⟨rfl, rfl, rfl⟩
  · obtain ⟨-, hmerged⟩ := Option.ite_none_right_eq_some.mp hmerge
    cases hmerged
    exact ⟨rfl, rfl, rfl⟩
  · cases hmerge

theorem unappliedOperations_collapseFrom {op : Operation} {rest : List Operation}
    (hop : op.Readable p) (hrest : ∀ o ∈ rest, o.Readable p) (m : Metadata)
    (h : SumsExactlyFrom p m op rest) :
    unappliedOperations p m (collapseFrom op rest) = unappliedOperations p m (op :: rest) := by
  induction rest generalizing op m with
  | nil => rfl
  | cons next rest ih =>
    have hrest' : ∀ o ∈ rest, o.Readable p := fun o ho => hrest o (List.mem_cons_of_mem next ho)
    rw [SumsExactlyFrom] at h
    rw [collapseFrom]
    split
    · next merged hmerge =>
      rw [hmerge] at h
      -- まとめた後の metadata も同じなので、残りの操作の適否は変わらない。
      have happly := (mergeOperation_apply_iff hop hmerge m).mpr h.1
      obtain ⟨hop', -, hmerged'⟩ := mergeOperation_applied (p := p) hmerge m
      have hnext := (mergeOperation_applied (p := p) hmerge (applyOperation p m op)).2.1
      rw [ih (hop.merge hmerge) hrest' m h.2, unappliedOperations, unappliedOperations,
        unappliedOperations, hmerged', hop', hnext, happly]
      rfl
    · next hmerge =>
      rw [hmerge] at h
      rw [unappliedOperations, unappliedOperations, ih (hrest next List.mem_cons_self) hrest' _ h]

/-! ## 主定理 -/

/-- まとめた操作の metadata と適用できない操作は、もとの操作のものと同じである。 -/
def CollapsePreserves (p : JSONHeroPath) (m : Metadata) (ops : List Operation) : Prop :=
  applyMetadataOperations p m (collapseOperations ops) = applyMetadataOperations p m ops ∧
    unappliedOperations p m (collapseOperations ops) = unappliedOperations p m ops

/--
**操作の列が、先頭のどの部分についても、まとめても同じ結果になるのは、まとめた増分の合計を足した値がどこでも順に足した値と
同じとき、そのときに限る。**
-/
theorem collapseOperations_preserves_iff (p : JSONHeroPath) (m : Metadata) (ops : List Operation)
    (h : ∀ op ∈ ops, op.Readable p) :
    (∀ pre, pre <+: ops → CollapsePreserves p m pre) ↔ SumsExactly p m ops := by
  rcases ops with _ | ⟨op, rest⟩
  · refine ⟨fun _ => trivial, fun _ pre hpre => ?_⟩
    rw [List.prefix_nil.mp hpre]
    exact ⟨rfl, rfl⟩
  have hop := h op List.mem_cons_self
  have hrest : ∀ o ∈ rest, o.Readable p := fun o ho => h o (List.mem_cons_of_mem op ho)
  refine (forall_prefix_cons ⟨rfl, rfl⟩).trans ?_
  constructor
  · exact fun hall => (collapseFrom_apply_iff hop hrest m).mp fun pre hpre => (hall pre hpre).1
  · intro hsums pre hpre
    refine ⟨(collapseFrom_apply_iff hop hrest m).mpr hsums pre hpre, ?_⟩
    exact unappliedOperations_collapseFrom hop (fun o ho => hrest o (hpre.subset ho)) m
      (hsums.of_prefix hpre)

/-- 一つの property を指す path。property が無ければ何も書かない。 -/
def propertyPath : JSONHeroPath where
  first path m := m.lookup (String.ofList (path.toList.drop 2))
  set path m v :=
    if (m.lookup (String.ofList (path.toList.drop 2))).isSome then
      m.insert (String.ofList (path.toList.drop 2)) v
    else m

theorem propertyPath_lawful (key : String) : Lawful propertyPath key := by
  cases hkey : isPath key with
  | false => exact lawful_of_property _ hkey
  | true =>
    refine ⟨fun m v w => ?_, fun m => ?_⟩
    · simp only [write, hkey, if_true, propertyPath]
      by_cases h : (m.lookup (String.ofList (key.toList.drop 2))).isSome
      · rw [if_pos h, if_pos h, Finmap.lookup_insert, Option.isSome_some, if_pos rfl,
          Finmap.insert_insert]
      · rw [if_neg h, if_neg h]
    · simp only [read, write, hkey, if_true, propertyPath]
      by_cases h : (m.lookup (String.ofList (key.toList.drop 2))).isSome
      · exact .inl fun v => by rw [if_pos h, Finmap.lookup_insert]
      · exact .inr fun v => if_neg h

/-- path の増分、property の `set`、適用できない `remove`。 -/
def mixedOperations : List Operation :=
  [.increment "$.count" 1, .increment "$.count" 2, .set "status" .null, .set "status" (.bool true),
    .remove "status" .null]

theorem collapseOperations_mixed :
    CollapsePreserves propertyPath (Finmap.singleton "count" (.num 4)) mixedOperations := by
  refine (collapseOperations_preserves_iff propertyPath _ mixedOperations ?_).mpr ?_ _
    (List.prefix_refl _)
  · intro op hop key hkey
    have hall : ∀ op ∈ mixedOperations, ∀ key ∈ op.key?, key ∉ inheritedKeys := by decide
    exact ⟨propertyPath_lawful key, hall op hop key hkey⟩
  · exact ⟨fun _ => .inr (by decide +kernel), trivial, trivial⟩

/-- 0.1 に 1 と -1 を順に足すと 0.1 には戻らない。 -/
theorem collapseOperations_rounds :
    ¬ CollapsePreserves noPath (Finmap.singleton "n" (.num (.round (1 / 10))))
      [.increment "n" 1, .increment "n" (.ofInt (-1))] := by
  intro h
  exact absurd h.1 (by decide +kernel)

end RunMetadata
