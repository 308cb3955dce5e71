import Trigger.Tsql.Results
import Trigger.Tsql.Boolean

/-!
# 表を持つ column の絞り込みと表示

`valueMap`・`fieldMapping` を持つ column への条件が、結果にその値で表示される行を選ぶか。

条件の側は user の値を表の label として引いて内部の値に直し、結果の側は内部の値を key として引いて
label に直す。二つは別のループで、次の点で食い違う。

* 条件の書き換えは右辺だけに行われる。`v = column` の `v` は label のまま比べられる。
* 結果の側は、key に一致しない値も大小を無視して引き、それでも無ければそのまま表示する
  （`ByFallback`）。条件の側は key そのものとだけ比べる。
* `valueMap` があれば `fieldMapping` の label は表示されない。条件の側では使われる。
-/

namespace Tsql

open Infra

/-! ## 表 -/

section Maps

variable (ctx : PrinterContext) (c : ColumnSchema)

/-- 実行時の表の entry。 -/
def mappingEntries : List (String × String) :=
  ((truthy c.fieldMapping).bind ctx.fieldMappings.get).elim [] Record.entries

/-- column の二つの表の entry。内部の値と label の組である。 -/
def mapEntries : List (String × String) := c.valueMap ++ mappingEntries ctx c

/-- 結果の表示に使われる entry。 -/
def shownEntries : List (String × String) :=
  if c.valueMap ≠ [] then c.valueMap else mappingEntries ctx c

/-- 大小を無視して等しい。 -/
def SameText (a b : String) : Prop := ctx.toLowerCase a = ctx.toLowerCase b

/-- `v` は label である。 -/
def IsLabel (v : String) : Prop := ∃ m ∈ mapEntries ctx c, SameText ctx m.2 v

/-- `v` は表にある内部の値である。 -/
def IsInternal (v : String) : Prop := ∃ m ∈ mapEntries ctx c, m.1 = v

end Maps

/-- 表を持つ column と、それを参照する field。label は大小を無視しても互いに異なり、text column の
名前は印字できる。 -/
structure MappedColumn (ctx : PrinterContext) where
  state : PrinterState
  chain : Chain
  schema : List TableSchema
  name : String
  column : ColumnSchema
  isColumn : chain = [.name name] ∨ ∃ tableAlias, chain = [.name tableAlias, .name name]
  resolves : resolveFieldToColumnSchema state.tableContexts chain = some (.own column)
  prints : ∀ op e, .fail e ∉ compareLeft state op (.field chain)
  shown : (buildColumnTransformMaps schema).get name = some column
  keysNodup : (column.valueMap.map Prod.fst).Nodup
  labelsNodup : ((mapEntries ctx column).map fun m => ctx.toLowerCase m.2).Nodup

/-- 行の値。`stored` は column の文字列、`text` はその text column の文字列である。 -/
structure StoredRow where
  stored : String
  text : String

/-! ## 印字された条件の真偽 -/

section Truth

variable (chain : Chain) (row : StoredRow)

/-- 列または定数の値。 -/
def scalarValues : Expr → List String
  | .field c => if c = chain then [row.stored] else []
  | .constant (.string v) => [v]
  | _ => []

/-- operand の値。tuple と配列では要素の値を並べる。 -/
def operandValues : Template → List String
  | [.visit (.tuple es)] | [.visit (.array es)] => es.flatMap (scalarValues chain row)
  | [.visit e] => scalarValues chain row e
  | .text (.identifier _) :: _ => [row.text]
  | _ => []

def isComma : Atom → Bool
  | .text (.keyword k) => k = ", "
  | _ => false

/-- `equals(l, r)` と `in(l, r)` の形の条件が、行について真である。 -/
def Holds : Template → Prop
  | .text (.keyword call) :: rest =>
    (call = "equals(" ∨ call = "in(") ∧
      ∃ x ∈ operandValues chain row (rest.takeWhile fun a => !isComma a),
        x ∈ operandValues chain row ((rest.dropWhile fun a => !isComma a).tail.dropLast)
  | _ => False

end Truth

namespace MappedColumn

variable {ctx : PrinterContext} (m : MappedColumn ctx)

/-! ## 主張 -/

/-- `column = v`。 -/
def equalsRight (v : String) : Template :=
  visitCompareOperation ctx m.state .eq (.field m.chain) (.constant (.string v))

/-- `v = column`。 -/
def equalsLeft (v : String) : Template :=
  visitCompareOperation ctx m.state .eq (.constant (.string v)) (.field m.chain)

/-- `column IN list`。 -/
def inList (list : Expr) : Template := visitCompareOperation ctx m.state .in (.field m.chain) list

/-- 結果に、大小を無視して `v` に等しい値が表示される。 -/
def Shows (v stored : String) : Prop :=
  ∃ x, transformResults (α := Unit) ctx.toLowerCase [[(m.name, .string stored)]] m.schema
    (some ctx.fieldMappings) = [[(m.name, .string x)]] ∧ SameText ctx x v

/-- 主張が述べる値である。label か、label でも内部の値でもない文字列である。 -/
def Stated (v : String) : Prop := IsLabel ctx m.column v ∨ ¬ IsInternal ctx m.column v

/-- `v` による条件が選ぶべき行である。 -/
def Wanted (v stored : String) : Prop :=
  IsLabel ctx m.column v ∧ m.Shows v stored ∨ ¬ IsLabel ctx m.column v ∧ stored = v

/-- `column = v` が、`v` と表示される行を選ぶ。 -/
def EqualsSelects (v : String) (row : StoredRow) : Prop :=
  m.Stated v → (Holds m.chain row (m.equalsRight v) ↔ m.Wanted v row.stored)

/-- `v = column` が、`v` と表示される行を選ぶ。 -/
def SwappedSelects (v : String) (row : StoredRow) : Prop :=
  m.Stated v → (Holds m.chain row (m.equalsLeft v) ↔ m.Wanted v row.stored)

/-- `column IN (…, v, …)` の `v` が、`v` と表示される行を選ぶ。残りの要素が選ばない行について述べる。 -/
def InSelects (v : String) (row : StoredRow) : Prop :=
  m.Stated v → ∀ list ∈ [Expr.tuple, Expr.array], ∀ before after,
    ¬ Holds m.chain row (m.inList (list (before ++ after))) →
    (Holds m.chain row (m.inList (list (before ++ .constant (.string v) :: after))) ↔
      m.Wanted v row.stored)

/-- `=` の両辺を入れ替えても、選ばれる行は変わらない。 -/
def Symmetric (v : String) (row : StoredRow) : Prop :=
  Holds m.chain row (m.equalsRight v) ↔ Holds m.chain row (m.equalsLeft v)

/-! ## 成り立つ条件 -/

/-- 結果の側の、key に一致しないときの検索が `v` を表示する。 -/
def FallbackShows (v stored : String) : Prop :=
  m.column.valueMap ≠ [] ∧ stored ∉ m.column.valueMap.map Prod.fst ∧ stored ∉ objectPrototype ∧
    SameText ctx
      (((m.column.valueMap.find? fun e => ctx.toLowerCase e.1 = ctx.toLowerCase stored).map
        Prod.snd).getD stored) v

/-- 条件が比べる文字列。 -/
def compared (row : StoredRow) : String :=
  if (truthy m.column.textColumn).isSome then row.text else row.stored

/-- `whereTransform` があれば `v` はそれで、無ければ label の内部の値 `x` に直される。 -/
def Sought (v x : String) : Prop :=
  match m.column.whereTransform with
  | some f => x = f v
  | none => (∃ e ∈ mapEntries ctx m.column, SameText ctx e.2 v ∧ e.1 = x) ∨
      ¬ IsLabel ctx m.column v ∧ x = v

/-- `v` が label なら、検索による表示は、表示に使われない entry の内部の値に限られる。 -/
def FallbackAgrees (v stored : String) : Prop :=
  ∀ e ∈ mapEntries ctx m.column, SameText ctx e.2 v →
    (m.FallbackShows v stored ↔ stored = e.1 ∧ e ∉ shownEntries ctx m.column)

/-- `column = v` の条件。 -/
def EqualsAgrees (v : String) (row : StoredRow) : Prop :=
  match m.column.whereTransform, truthy m.column.textColumn with
  | none, none => m.FallbackAgrees v row.stored
  | _, _ => m.Stated v → ∀ x, m.Sought v x → (m.compared row = x ↔ m.Wanted v row.stored)

/-- `v = column` の条件。 -/
def SwappedAgrees (v : String) (row : StoredRow) : Prop :=
  ∀ e ∈ mapEntries ctx m.column, SameText ctx e.2 v →
    (row.stored = v ↔
      row.stored = e.1 ∧ e ∈ shownEntries ctx m.column ∨ m.FallbackShows v row.stored)

/-- `column IN (…, v, …)` の条件。 -/
def InAgrees (v : String) (row : StoredRow) : Prop :=
  match m.column.whereTransform with
  | none => m.FallbackAgrees v row.stored
  | some f => m.Stated v → (row.stored = f v ↔ m.Wanted v row.stored)

/-- 対称であるための条件。 -/
def SymmetricAgrees (v : String) (row : StoredRow) : Prop :=
  match m.column.whereTransform, truthy m.column.textColumn with
  | none, none => ∀ e ∈ mapEntries ctx m.column, SameText ctx e.2 v →
      (row.stored = e.1 ↔ row.stored = v)
  | _, _ => ∀ x, m.Sought v x → (m.compared row = x ↔ row.stored = v)

end MappedColumn

/-! ## 二つの表の検索 -/

section Lookup

variable {ctx : PrinterContext} {c : ColumnSchema} {v : String}

/-- 大小を無視して同じ label の entry は一つである。 -/
theorem entry_unique {l : List (String × String)}
    (hl : (l.map fun m => ctx.toLowerCase m.2).Nodup) {e e' : String × String} (he : e ∈ l)
    (he' : e' ∈ l) (h : SameText ctx e.2 v) (h' : SameText ctx e'.2 v) : e = e' :=
  List.inj_on_of_nodup_map hl he he' (h.trans h'.symm)

theorem find_label {l : List (String × String)}
    (hl : (l.map fun m => ctx.toLowerCase m.2).Nodup) {e : String × String} (he : e ∈ l)
    (h : SameText ctx e.2 v) :
    (l.find? fun m => ctx.toLowerCase m.2 = ctx.toLowerCase v) = some e := by
  cases hfind : l.find? fun m => ctx.toLowerCase m.2 = ctx.toLowerCase v with
  | none => exact absurd h (by simpa [SameText] using List.find?_eq_none.mp hfind e he)
  | some e' =>
    have hsame : SameText ctx e'.2 v := by simpa [SameText] using List.find?_some hfind
    rw [entry_unique hl (List.mem_of_find?_eq_some hfind) he hsame h]

theorem find_label_none {l : List (String × String)} (h : ∀ e ∈ l, ¬ SameText ctx e.2 v) :
    (l.find? fun m => ctx.toLowerCase m.2 = ctx.toLowerCase v) = none := by
  rw [List.find?_eq_none]
  intro e he
  simpa [SameText] using h e he

/-- 実行時の表の逆引きは、その entry の検索である。 -/
theorem reverse_mapping :
    ((truthy c.fieldMapping).bind fun mapping =>
      getInternalValueFromMapping ctx.toLowerCase ctx.fieldMappings mapping v) =
      ((mappingEntries ctx c).find? fun m => ctx.toLowerCase m.2 = ctx.toLowerCase v).map
        Prod.fst := by
  unfold mappingEntries getInternalValueFromMapping
  cases truthy c.fieldMapping with
  | none => rfl
  | some mapping =>
    cases hget : ctx.fieldMappings.get mapping with
    | none => simp [hget]
    | some r => simp [hget]

theorem transformSingleValue_eq (hw : c.whereTransform = none) :
    transformSingleValue ctx c v =
      if getInternalValue ctx.toLowerCase c v ≠ v then getInternalValue ctx.toLowerCase c v
      else (((mappingEntries ctx c).find? fun m =>
        ctx.toLowerCase m.2 = ctx.toLowerCase v).map Prod.fst).getD v := by
  unfold transformSingleValue
  rw [hw, ← reverse_mapping]
  dsimp only
  split
  · rfl
  · cases truthy c.fieldMapping <;> rfl

variable (hl : ((mapEntries ctx c).map fun m => ctx.toLowerCase m.2).Nodup)
include hl

/-- label は、その entry の内部の値に直される。 -/
theorem transform_label (hw : c.whereTransform = none) {e : String × String}
    (he : e ∈ mapEntries ctx c) (h : SameText ctx e.2 v) : transformSingleValue ctx c v = e.1 := by
  rw [transformSingleValue_eq hw]
  unfold mapEntries at hl he
  rw [List.map_append] at hl
  unfold getInternalValue
  rcases List.mem_append.mp he with he | he
  · rw [find_label hl.of_append_left he h]
    dsimp only
    split
    · rfl
    · next hsame =>
      -- 内部の値が `v` 自身のときは実行時の表も引くが、同じ label は無い
      have hnone : ∀ e' ∈ mappingEntries ctx c, ¬ SameText ctx e'.2 v := by
        intro e' he' h'
        have hmem : ctx.toLowerCase e'.2 ∈ c.valueMap.map fun m => ctx.toLowerCase m.2 := by
          rw [show ctx.toLowerCase e'.2 = ctx.toLowerCase e.2 from h'.trans h.symm]
          exact List.mem_map_of_mem he
        exact List.disjoint_of_nodup_append hl hmem (List.mem_map_of_mem he')
      rw [find_label_none hnone]
      exact (not_not.mp hsame).symm
  · have hnone : ∀ e' ∈ c.valueMap, ¬ SameText ctx e'.2 v := by
      intro e' he' h'
      have hmem : ctx.toLowerCase e.2 ∈ c.valueMap.map fun m => ctx.toLowerCase m.2 := by
        rw [show ctx.toLowerCase e.2 = ctx.toLowerCase e'.2 from h.trans h'.symm]
        exact List.mem_map_of_mem he'
      exact List.disjoint_of_nodup_append hl hmem (List.mem_map_of_mem he)
    rw [find_label_none hnone, find_label hl.of_append_right he h]
    simp

omit hl in
/-- label でない文字列は変わらない。 -/
theorem transform_other (hw : c.whereTransform = none) (h : ¬ IsLabel ctx c v) :
    transformSingleValue ctx c v = v := by
  have hnone : ∀ e ∈ mapEntries ctx c, ¬ SameText ctx e.2 v := fun e he hs => h ⟨e, he, hs⟩
  rw [transformSingleValue_eq hw]
  unfold getInternalValue
  rw [find_label_none fun e he => hnone e (List.mem_append_left _ he),
    find_label_none fun e he => hnone e (List.mem_append_right _ he)]
  simp

end Lookup

/-! ## 表示の側 -/

section Display

variable {ctx : PrinterContext}

/-- 変換の表に入るのは、表を持つ column だけである。 -/
theorem hasMap_of_get {schema : List TableSchema} {name : String} {c : ColumnSchema}
    (h : (buildColumnTransformMaps schema).get name = some c) :
    c.valueMap ≠ [] ∨ (truthy c.fieldMapping).isSome := by
  suffices ∀ (l : List (String × ColumnSchema)) (acc : JsMap ColumnSchema),
      (∀ p ∈ acc, p.2.valueMap ≠ [] ∨ (truthy p.2.fieldMapping).isSome) →
      ∀ p ∈ l.foldl (fun columnMaps c =>
        if c.2.valueMap ≠ [] ∨ (truthy c.2.fieldMapping).isSome then columnMaps.set c.1 c.2
        else columnMaps) acc, p.2.valueMap ≠ [] ∨ (truthy p.2.fieldMapping).isSome from
    this _ [] (fun p hp => by cases hp) (name, c) (JsMap.mem_of_get h)
  intro l
  induction l with
  | nil => exact fun acc h => h
  | cons c l ih =>
    intro acc hacc
    refine ih _ fun p hp => ?_
    dsimp only at hp
    split at hp
    · next hmap =>
      rcases JsMap.mem_set hp with hp | ⟨-, heq⟩
      · exact hacc p hp
      · rw [heq]
        exact hmap
    · exact hacc p hp

variable (m : MappedColumn ctx)

theorem transformResults_cell (stored : String) :
    transformResults (α := Unit) ctx.toLowerCase [[(m.name, .string stored)]] m.schema
      (some ctx.fieldMappings) =
        [[(m.name, transformResultValue ctx.toLowerCase m.column stored
          (some ctx.fieldMappings))]] := by
  have hne : buildColumnTransformMaps m.schema ≠ [] := by
    intro hnil
    have := m.shown
    rw [hnil] at this
    cases this
  unfold transformResults transformRow
  dsimp only
  rw [if_neg hne]
  simp [m.shown]

theorem shows_iff_transform {v stored : String} :
    m.Shows v stored ↔ ∃ x, transformResultValue (α := Unit) ctx.toLowerCase m.column stored
      (some ctx.fieldMappings) = .string x ∧ SameText ctx x v := by
  unfold MappedColumn.Shows
  rw [transformResults_cell]
  simp

/-- **`v` が表示されるのは、`stored` を key とする entry の label が `v` であるか、key に一致せずに引いた
結果が `v` のときである。** -/
theorem shows_iff {v stored : String} :
    m.Shows v stored ↔ (∃ e ∈ shownEntries ctx m.column, e.1 = stored ∧ SameText ctx e.2 v) ∨
      m.FallbackShows v stored := by
  rw [shows_iff_transform]
  unfold transformResultValue shownEntries MappedColumn.FallbackShows
  -- `valueMap` があればそれだけを引き、無ければ `fieldMapping` を引く。
  by_cases hmap : m.column.valueMap ≠ []
  · rw [if_pos hmap, if_pos hmap]
    unfold getUserFriendlyValue propertyOf
    cases hlookup : m.column.valueMap.lookup stored with
    | some label =>
      have hmem := JsMap.mem_of_get hlookup
      have hkey : stored ∈ m.column.valueMap.map Prod.fst := List.mem_map_of_mem hmem
      constructor
      · rintro ⟨x, hx, hsame⟩
        cases hx
        exact .inl ⟨_, hmem, rfl, hsame⟩
      · rintro (⟨⟨k, label'⟩, he, rfl, hsame⟩ | ⟨-, hno, -⟩)
        · have := Record.lookup_of_mem m.keysNodup he
          rw [hlookup] at this
          cases this
          exact ⟨label, rfl, hsame⟩
        · exact absurd hkey hno
    | none =>
      have hkey : stored ∉ m.column.valueMap.map Prod.fst := by
        intro hkey
        obtain ⟨⟨k, label⟩, he, rfl⟩ := List.mem_map.mp hkey
        have := Record.lookup_of_mem m.keysNodup he
        rw [hlookup] at this
        cases this
      have hown : ¬ ∃ e ∈ m.column.valueMap, e.1 = stored ∧ SameText ctx e.2 v :=
        fun ⟨e, he, hk, _⟩ => hkey (hk ▸ List.mem_map_of_mem he)
      rw [or_iff_right hown]
      -- `Object.prototype` の名前では、継承された値が先に見つかり、文字列は表示されない。
      by_cases hproto : stored ∈ objectPrototype
      · rw [if_pos hproto]
        exact iff_of_false (fun ⟨x, hx, _⟩ => by cases hx) fun h => h.2.2.1 hproto
      · rw [if_neg hproto]
        cases m.column.valueMap.find? fun e => ctx.toLowerCase e.1 = ctx.toLowerCase stored with
        | none => simp [hmap, hkey, hproto]
        | some e => simp [hmap, hkey, hproto]
  · have hno : ¬ m.FallbackShows v stored := fun h => hmap h.1
    rw [if_neg hmap, if_neg hmap]
    obtain ⟨mapping, hmapping⟩ :=
      Option.isSome_iff_exists.mp ((hasMap_of_get m.shown).resolve_left hmap)
    unfold mappingEntries getExternalValue
    simp only [hmapping, Option.bind_some]
    refine Iff.trans ?_ (or_iff_left hno).symm
    cases ctx.fieldMappings.get mapping with
    | none =>
      refine iff_of_false ?_ (by simp)
      rintro ⟨x, hx, -⟩
      dsimp only at hx
      split at hx <;> cases hx
    | some r =>
      unfold propertyOf
      dsimp only [Option.elim_some]
      cases hlookup : r.entries.lookup stored with
      | some label =>
        constructor
        · rintro ⟨x, hx, hsame⟩
          cases hx
          exact ⟨_, JsMap.mem_of_get hlookup, rfl, hsame⟩
        · rintro ⟨⟨k, label'⟩, he, rfl, hsame⟩
          have := Record.lookup_of_mem r.nodup he
          rw [hlookup] at this
          cases this
          exact ⟨label, rfl, hsame⟩
      | none =>
        refine iff_of_false ?_ ?_
        · rintro ⟨x, hx, -⟩
          dsimp only at hx
          split at hx <;> cases hx
        · rintro ⟨⟨k, label⟩, he, rfl, -⟩
          have := Record.lookup_of_mem r.nodup he
          rw [hlookup] at this
          cases this

end Display

/-! ## 条件の側 -/

section Condition

variable {chain : Chain} {row : StoredRow}

theorem holds_compareCall {call after : String} {l r : Template} (hl : ∀ a ∈ l, isComma a = false) :
    Holds chain row (compareCall call l ", " r after) ↔
      (call = "equals(" ∨ call = "in(") ∧
        ∃ x ∈ operandValues chain row l, x ∈ operandValues chain row r := by
  have hshape : compareCall call l ", " r after =
      Atom.text (.keyword call) ::
        (l ++ Atom.text (.keyword ", ") :: (r ++ [Atom.text (.keyword after)])) := by
    simp [compareCall, kw]
  have hall : ∀ a ∈ l, (!isComma a) = true := fun a ha => by rw [hl a ha]; rfl
  have hstop : (!isComma (.text (.keyword ", "))) = false := by simp [isComma]
  rw [hshape, Holds]
  rw [List.takeWhile_append_of_pos hall, List.dropWhile_append_of_pos hall,
    List.takeWhile_cons_of_neg (by rw [hstop]; decide), List.append_nil,
    List.dropWhile_cons_of_neg (by rw [hstop]; decide), List.tail_cons, List.dropLast_concat]

theorem isComma_visitOne (e : Expr) : ∀ a ∈ visitOne e, isComma a = false := by
  intro a ha
  rw [List.mem_singleton.mp ha]
  rfl

variable {ctx : PrinterContext} (m : MappedColumn ctx)

theorem textColumn_eq : getTextColumnForExpression m.state.tableContexts (.field m.chain) =
    m.column.textColumn := by
  have hresolves := m.resolves
  rw [getTextColumnForExpression]
  rcases m.isColumn with hchain | ⟨tableAlias, hchain⟩
  · rw [hchain] at hresolves ⊢
    rw [getTextColumnForField, hresolves]
    rfl
  · rw [hchain] at hresolves ⊢
    rw [getTextColumnForField]
    rw [resolveFieldToColumnSchema] at hresolves
    cases htable : m.state.tableContexts.get tableAlias with
    | none => rw [htable] at hresolves; cases hresolves
    | some t =>
      rw [htable, Option.bind_some] at hresolves
      simp [hresolves, ColumnRef.own?]

/-- 左辺の column の値。 -/
theorem compareLeft_values :
    (∀ a ∈ compareLeft m.state .eq (.field m.chain), isComma a = false) ∧
      operandValues m.chain row (compareLeft m.state .eq (.field m.chain)) =
        [m.compared row] := by
  have hprints := m.prints .eq
  unfold compareLeft at hprints ⊢
  rw [textColumn_eq] at hprints ⊢
  unfold MappedColumn.compared
  simp only [show CompareOp.usesTextColumn .eq = true from rfl, if_true] at hprints ⊢
  cases htext : truthy m.column.textColumn with
  | none =>
    refine ⟨isComma_visitOne _, ?_⟩
    simp [operandValues, visitOne, scalarValues]
  | some column =>
    rw [htext] at hprints
    have hident {name : String} (h : ∀ e, .fail e ∉ printIdentifier name) :
        printIdentifier name = [.text (.identifier name)] := by
      unfold printIdentifier at h ⊢
      cases hescape : escapeClickHouseIdentifier name with
      | ok _ => rfl
      | error e =>
        rw [hescape] at h
        exact absurd List.mem_cons_self (h e)
    have hvalues (rest : Template) (name : String) :
        operandValues m.chain row (.text (.identifier name) :: rest) = [row.text] := by
      cases rest <;> rfl
    rcases m.isColumn with hchain | ⟨tableAlias, hchain⟩
    · rw [hchain] at hprints ⊢
      dsimp only at hprints ⊢
      rw [hident hprints]
      exact ⟨fun a ha => by rw [List.mem_singleton.mp ha]; rfl, rfl⟩
    · rw [hchain] at hprints
      rw [show (Expr.field m.chain) = .field [.name tableAlias, .name m.name] by rw [hchain]]
      dsimp only at hprints ⊢
      -- 最初の名前が table の別名なら、別名ごと印字される
      by_cases htable : (m.state.tableContexts.get tableAlias).isSome
      · rw [if_pos htable] at hprints ⊢
        rw [hident fun e he => hprints e (List.mem_append_left _ (List.mem_append_left _ he)),
          hident fun e he => hprints e (List.mem_append_right _ he)]
        refine ⟨fun a ha => ?_, hvalues _ _⟩
        simp only [kw, List.cons_append, List.nil_append, List.mem_cons, List.not_mem_nil,
          or_false] at ha
        rcases ha with rfl | rfl | rfl
        · rfl
        · simp [isComma]
        · rfl
      · rw [if_neg htable] at hprints ⊢
        rw [hident hprints]
        exact ⟨fun a ha => by rw [List.mem_singleton.mp ha]; rfl, rfl⟩

theorem transformValueMap_own (e : Expr) :
    transformValueMapExpression ctx (some (.own m.column)) e =
      mapStrings (transformSingleValue ctx m.column) e := by
  have htransform : m.column.hasValueTransform = true := by
    unfold ColumnSchema.hasValueTransform
    rcases hasMap_of_get m.shown with h | h
    · simp [h]
    · simp [h]
  unfold transformValueMapExpression
  simp [ColumnRef.own?, htransform]

theorem extractColumnSchema_column :
    extractColumnSchema m.state.tableContexts (.field m.chain) = some (.own m.column) := m.resolves

theorem operandValues_scalar (v : String) :
    operandValues m.chain row (visitOne (.constant (.string v))) = [v] := rfl

theorem operandValues_column :
    operandValues m.chain row (visitOne (.field m.chain)) = [row.stored] := by
  simp [operandValues, visitOne, scalarValues]

theorem holds_equalsRight (v : String) : Holds m.chain row (m.equalsRight v) ↔
    m.compared row = transformSingleValue ctx m.column v := by
  have hshape : m.equalsRight v = compareCall "equals(" (compareLeft m.state .eq (.field m.chain))
      ", " (visitOne (.constant (.string (transformSingleValue ctx m.column v)))) ")" := by
    unfold MappedColumn.equalsRight visitCompareOperation
    rw [extractColumnSchema_column]
    dsimp only
    rw [transformValueMap_own]
    rfl
  obtain ⟨hcomma, hvalues⟩ : (∀ a ∈ compareLeft m.state .eq (.field m.chain), isComma a = false) ∧
      operandValues m.chain row (compareLeft m.state .eq (.field m.chain)) = [m.compared row] :=
    compareLeft_values m
  rw [hshape, holds_compareCall hcomma, hvalues, operandValues_scalar]
  simp

theorem holds_equalsLeft (v : String) : Holds m.chain row (m.equalsLeft v) ↔ row.stored = v := by
  have hshape : m.equalsLeft v = compareCall "equals(" (visitOne (.constant (.string v))) ", "
      (visitOne (.field m.chain)) ")" := rfl
  rw [hshape, holds_compareCall (isComma_visitOne _), operandValues_scalar, operandValues_column]
  simp [eq_comm]

theorem mapStringsAll_eq (f : String → String) (es : List Expr) :
    mapStringsAll f es = es.map (mapStrings f) := by
  induction es with
  | nil => rfl
  | cons e es ih => rw [mapStringsAll, ih]; rfl

theorem holds_inList {list : List Expr → Expr} (hlist : list ∈ [Expr.tuple, Expr.array])
    (es : List Expr) : Holds m.chain row (m.inList (list es)) ↔
      ∃ e ∈ es, row.stored ∈
        scalarValues m.chain row (mapStrings (transformSingleValue ctx m.column) e) := by
  have hshape : m.inList (list es) = compareCall "in(" (visitOne (.field m.chain)) ", "
      (visitOne (mapStrings (transformSingleValue ctx m.column) (list es))) ")" := by
    unfold MappedColumn.inList visitCompareOperation
    rw [extractColumnSchema_column]
    dsimp only
    rw [transformValueMap_own]
    rfl
  have hright : operandValues m.chain row
      (visitOne (mapStrings (transformSingleValue ctx m.column) (list es))) =
        (es.map (mapStrings (transformSingleValue ctx m.column))).flatMap
          (scalarValues m.chain row) := by
    simp only [List.mem_cons, List.not_mem_nil, or_false] at hlist
    rcases hlist with rfl | rfl
    · rw [mapStrings, mapStringsAll_eq]; rfl
    · rw [mapStrings, mapStringsAll_eq]; rfl
  rw [hshape, holds_compareCall (isComma_visitOne _), operandValues_column, hright]
  simp

end Condition

/-! ## 条件との同値 -/

namespace MappedColumn

variable {ctx : PrinterContext} (m : MappedColumn ctx) {v : String} {row : StoredRow}

theorem sought_iff {x : String} :
    m.Sought v x ↔ x = transformSingleValue ctx m.column v := by
  unfold Sought
  cases hw : m.column.whereTransform with
  | some f => simp [transformSingleValue, hw]
  | none =>
    dsimp only
    by_cases hlabel : IsLabel ctx m.column v
    · obtain ⟨e, he, hsame⟩ := hlabel
      rw [transform_label m.labelsNodup hw he hsame]
      constructor
      · rintro (⟨e', he', hsame', rfl⟩ | ⟨hno, -⟩)
        · rw [entry_unique m.labelsNodup he' he hsame' hsame]
        · exact absurd ⟨e, he, hsame⟩ hno
      · rintro rfl
        exact .inl ⟨e, he, hsame, rfl⟩
    · rw [transform_other hw hlabel]
      constructor
      · rintro (⟨e, he, hsame, -⟩ | ⟨-, rfl⟩)
        · exact absurd ⟨e, he, hsame⟩ hlabel
        · rfl
      · rintro rfl
        exact .inr ⟨hlabel, rfl⟩

/-- label については、表示は一つの entry と検索で決まる。 -/
theorem wanted_label {e : String × String} (he : e ∈ mapEntries ctx m.column)
    (hsame : SameText ctx e.2 v) {stored : String} : m.Wanted v stored ↔
      stored = e.1 ∧ e ∈ shownEntries ctx m.column ∨ m.FallbackShows v stored := by
  have hlabel : IsLabel ctx m.column v := ⟨e, he, hsame⟩
  unfold Wanted
  rw [shows_iff]
  have hsub : shownEntries ctx m.column ⊆ mapEntries ctx m.column := by
    unfold shownEntries mapEntries
    split
    · exact List.subset_append_left _ _
    · exact List.subset_append_right _ _
  constructor
  · rintro (⟨-, ⟨e', he', rfl, hsame'⟩ | hfallback⟩ | ⟨hno, -⟩)
    · cases entry_unique m.labelsNodup (hsub he') he hsame' hsame
      exact .inl ⟨rfl, he'⟩
    · exact .inr hfallback
    · exact absurd hlabel hno
  · rintro (⟨rfl, hshown⟩ | hfallback)
    · exact .inl ⟨hlabel, .inl ⟨e, hshown, rfl, hsame⟩⟩
    · exact .inl ⟨hlabel, .inr hfallback⟩

theorem wanted_other (h : ¬ IsLabel ctx m.column v) {stored : String} :
    m.Wanted v stored ↔ stored = v := by
  unfold Wanted
  simp [h]

/-- 検索で表示される値は、表示に使われる entry の key ではない。 -/
theorem not_shown_of_fallback {stored : String} (h : m.FallbackShows v stored)
    {e : String × String} (he : e.1 = stored) : e ∉ shownEntries ctx m.column := by
  intro hshown
  unfold shownEntries at hshown
  rw [if_pos h.1] at hshown
  exact h.2.1 (he ▸ List.mem_map_of_mem hshown)

/-- 書き換えた値と比べる条件が正しいのは、検索による表示が余らないときに限る。 -/
theorem selects_iff (hw : m.column.whereTransform = none) {stored : String} :
    (m.Stated v → (stored = transformSingleValue ctx m.column v ↔ m.Wanted v stored)) ↔
      m.FallbackAgrees v stored := by
  constructor
  · intro h e he hsame
    have hiff := h (.inl ⟨e, he, hsame⟩)
    rw [transform_label m.labelsNodup hw he hsame, m.wanted_label he hsame] at hiff
    constructor
    · intro hfallback
      have heq := hiff.mpr (.inr hfallback)
      exact ⟨heq, m.not_shown_of_fallback hfallback heq.symm⟩
    · rintro ⟨heq, hnot⟩
      exact (hiff.mp heq).resolve_left fun hshown => hnot hshown.2
  · intro h hstated
    by_cases hlabel : IsLabel ctx m.column v
    · obtain ⟨e, he, hsame⟩ := hlabel
      rw [transform_label m.labelsNodup hw he hsame, m.wanted_label he hsame]
      have hfallback := h e he hsame
      constructor
      · intro heq
        by_cases hshown : e ∈ shownEntries ctx m.column
        · exact .inl ⟨heq, hshown⟩
        · exact .inr (hfallback.mpr ⟨heq, hshown⟩)
      · rintro (⟨heq, -⟩ | hshows)
        · exact heq
        · exact (hfallback.mp hshows).1
    · rw [transform_other hw hlabel, m.wanted_other hlabel]

theorem equalsSelects_iff : m.EqualsSelects v row ↔ m.EqualsAgrees v row := by
  unfold EqualsSelects EqualsAgrees
  rw [holds_equalsRight]
  have hraw : (m.Stated v → (m.compared row = transformSingleValue ctx m.column v ↔
      m.Wanted v row.stored)) ↔
      (m.Stated v → ∀ x, m.Sought v x → (m.compared row = x ↔ m.Wanted v row.stored)) := by
    refine forall_congr' fun _ => ⟨fun h x hx => ?_, fun h => h _ (m.sought_iff.mpr rfl)⟩
    rw [m.sought_iff.mp hx]
    exact h
  split
  · next hw htext =>
    have hcompared : m.compared row = row.stored := by simp [compared, htext]
    rw [hcompared]
    exact m.selects_iff hw
  · exact hraw

theorem swappedSelects_iff : m.SwappedSelects v row ↔ m.SwappedAgrees v row := by
  unfold SwappedSelects SwappedAgrees
  rw [holds_equalsLeft]
  constructor
  · intro h e he hsame
    rw [← m.wanted_label he hsame]
    exact h (.inl ⟨e, he, hsame⟩)
  · intro h hstated
    by_cases hlabel : IsLabel ctx m.column v
    · obtain ⟨e, he, hsame⟩ := hlabel
      rw [m.wanted_label he hsame]
      exact h e he hsame
    · rw [m.wanted_other hlabel]

theorem inSelects_iff : m.InSelects v row ↔ m.InAgrees v row := by
  -- `v` の要素が選ぶのは、書き換えた値に等しい行である
  have helement : m.InSelects v row ↔ (m.Stated v →
      (row.stored = transformSingleValue ctx m.column v ↔ m.Wanted v row.stored)) := by
    refine forall_congr' fun _ => ⟨fun h => ?_, fun h list hlist before after hrest => ?_⟩
    · have hin := h .tuple List.mem_cons_self [] []
      rw [holds_inList m List.mem_cons_self, holds_inList m List.mem_cons_self] at hin
      simpa [mapStrings, scalarValues] using hin
    · rw [holds_inList m hlist] at hrest ⊢
      rw [← h]
      constructor
      · rintro ⟨e, he, hvalue⟩
        rcases List.mem_append.mp he with he | he
        · exact absurd ⟨e, List.mem_append_left _ he, hvalue⟩ hrest
        · rcases List.mem_cons.mp he with rfl | he
          · exact List.mem_singleton.mp hvalue
          · exact absurd ⟨e, List.mem_append_right _ he, hvalue⟩ hrest
      · intro heq
        exact ⟨_, List.mem_append_right _ List.mem_cons_self, List.mem_singleton.mpr heq⟩
  rw [helement]
  unfold InAgrees
  split
  · next hw => exact m.selects_iff hw
  · next f hw =>
    have htransform : transformSingleValue ctx m.column v = f v := by
      simp [transformSingleValue, hw]
    rw [htransform]

theorem symmetric_iff : m.Symmetric v row ↔ m.SymmetricAgrees v row := by
  unfold Symmetric SymmetricAgrees
  rw [holds_equalsRight, holds_equalsLeft]
  split
  · next hw htext =>
    have hcompared : m.compared row = row.stored := by simp [compared, htext]
    rw [hcompared]
    constructor
    · intro h e he hsame
      rwa [transform_label m.labelsNodup hw he hsame] at h
    · intro h
      by_cases hlabel : IsLabel ctx m.column v
      · obtain ⟨e, he, hsame⟩ := hlabel
        rw [transform_label m.labelsNodup hw he hsame]
        exact h e he hsame
      · rw [transform_other hw hlabel]
  · refine ⟨fun h x hx => ?_, fun h => h _ (m.sought_iff.mpr rfl)⟩
    rw [m.sought_iff.mp hx]
    exact h

end MappedColumn

/-- **表を持つ column への条件が、その値で表示される行を選ぶのは、それぞれ次のとき、かつそのときに限る。** -/
theorem filter_selects_iff (ctx : PrinterContext) (m : MappedColumn ctx) (v : String)
    (row : StoredRow) : (m.EqualsSelects v row ↔ m.EqualsAgrees v row) ∧
      (m.SwappedSelects v row ↔ m.SwappedAgrees v row) ∧
      (m.InSelects v row ↔ m.InAgrees v row) ∧ (m.Symmetric v row ↔ m.SymmetricAgrees v row) :=
  ⟨m.equalsSelects_iff, m.swappedSelects_iff, m.inSelects_iff, m.symmetric_iff⟩

/-- 値 `DONE` を `Done` と表示する column。 -/
def doneColumn : ColumnSchema :=
  { name := "status", type := "String", valueMap := [("DONE", "Done")] }

def doneTable : TableSchema :=
  { name := "runs", clickhouseName := "runs"
    columns := ⟨[("status", doneColumn)], by decide⟩ }

def doneStatus : MappedColumn emptyContext where
  state := { tableContexts := [("runs", doneTable)] }
  chain := [.name "status"]
  schema := [doneTable]
  name := "status"
  column := doneColumn
  isColumn := .inl rfl
  resolves := rfl
  prints := by
    intro op e h
    unfold compareLeft at h
    have hnone : truthy (getTextColumnForExpression [("runs", doneTable)]
        (.field [.name "status"])) = none := rfl
    rw [hnone] at h
    split at h <;> simp [visitOne] at h
  shown := rfl
  keysNodup := by decide
  labelsNodup := by decide

/-- `'Done' = status` は label のまま比べるので、`Done` と表示される行を選ばない。 -/
theorem swapped_misses_done : ¬ ∀ (ctx : PrinterContext) (m : MappedColumn ctx) (v : String)
    (row : StoredRow), m.EqualsSelects v row ∧ m.SwappedSelects v row ∧ m.InSelects v row ∧
      m.Symmetric v row := by
  intro h
  have hswapped := (h emptyContext doneStatus "Done" ⟨"DONE", ""⟩).2.1
  have hentry : ("DONE", "Done") ∈ mapEntries emptyContext doneStatus.column := List.mem_cons_self
  have hwanted : doneStatus.Wanted "Done" "DONE" :=
    .inl ⟨⟨_, hentry, rfl⟩, "Done", rfl, rfl⟩
  have hholds := (hswapped (.inl ⟨_, hentry, rfl⟩)).mpr hwanted
  rw [holds_equalsLeft] at hholds
  exact absurd hholds (by decide)

end Tsql
