import Trigger.Infra.Machine
import Trigger.Replication.Layout

/-!
# 二つの復号の一致

`parse` と `parseArray` を同じ buffer の列に使う。一つの message について求めるのは次の二つである（`Conforms`）。

* どちらも失敗するか、object の行が、配列の行を列名と組にしたものになる
* 受け付けた buffer を、列の値の途中で切り詰めたものは、どちらも受け付けない

code が外れるのは三か所である。配列だけが列の個数の負の message を拒み、`old` から補う `u` の列は object では列名、配列では
番号で引かれ、`read` は範囲を確かめないので最後の値は短くなっても読める。このどれにも当たらないこと（`Sound`）が条件になる。
-/

namespace Replication.Pgoutput

open Infra Infra.Machine BinaryReader

variable {V K T : Type} {types : TypeParsers V} {c : Caches} {buf : Bytes}

/-! ## 列名との組 -/

/-- 最初の `n` 列のうち、その名前の最後の列の番号。 -/
def lastIndex : Nat → List RelationColumn → String → Option Nat
  | n + 1, column :: columns, name =>
    match lastIndex n columns name with
    | some i => some (i + 1)
    | none => if column.name = name then some 0 else none
  | _, _, _ => none

theorem lastIndex_lt {name : String} : ∀ {n : Nat} {columns : List RelationColumn} {i : Nat},
    lastIndex n columns name = some i → i < n
  | 0, columns, _, h => by cases columns <;> cases h
  | _ + 1, [], _, h => by cases h
  | n + 1, column :: columns, i, h => by
    rw [lastIndex] at h
    cases hr : lastIndex n columns name with
    | some j =>
      rw [hr] at h
      cases h
      have := lastIndex_lt hr
      omega
    | none =>
      rw [hr] at h
      dsimp only at h
      split at h
      · cases h
        omega
      · cases h

theorem lastIndex_name {name : String} : ∀ {n : Nat} {columns : List RelationColumn} {i : Nat},
    lastIndex n columns name = some i → ∃ column, columns[i]? = some column ∧ column.name = name
  | 0, columns, _, h => by cases columns <;> cases h
  | _ + 1, [], _, h => by cases h
  | n + 1, column :: columns, i, h => by
    rw [lastIndex] at h
    cases hr : lastIndex n columns name with
    | some j =>
      rw [hr] at h
      cases h
      obtain ⟨column', hc, hname⟩ := lastIndex_name hr
      exact ⟨column', by rw [List.getElem?_cons_succ, hc], hname⟩
    | none =>
      rw [hr] at h
      dsimp only at h
      split at h
      · next hname =>
        cases h
        exact ⟨column, rfl, hname⟩
      · cases h

/-- object の値は、その名前の最後の列の値である。 -/
theorem get_pairInto : ∀ (columns : List RelationColumn) (values : List (Field V)) (tuple : Tuple V)
    (name : String), (pairInto tuple columns values).get name =
      match (lastIndex values.length columns name).bind (values[·]?) with
      | some value => some value
      | none => tuple.get name
  | [], [], _, _ => rfl
  | [], _ :: _, _, _ => rfl
  | _ :: _, [], _, _ => rfl
  | column :: columns, value :: values, tuple, name => by
    rw [pairInto, get_pairInto columns values, List.length_cons, lastIndex]
    cases hl : lastIndex values.length columns name with
    | none =>
      rw [Option.bind_none, JsMap.get_set]
      by_cases h : column.name = name
      · simp [h]
      · simp [h, Ne.symm h]
    | some i =>
      have hi : i < values.length := lastIndex_lt hl
      simp only [Option.bind_some, List.getElem?_cons_succ, List.getElem?_eq_getElem hi]

theorem get_pair (relation : MessageRelation) (values : List (Field V)) (name : String) :
    (pair relation values).get name =
      (lastIndex values.length relation.columns name).bind (values[·]?) := by
  rw [pair, get_pairInto]
  cases (lastIndex values.length relation.columns name).bind (values[·]?) <;> rfl

theorem keys_pairInto : ∀ (columns : List RelationColumn) (values values' : List (Field V))
    (tuple tuple' : Tuple V), values.length = values'.length →
      tuple.map Prod.fst = tuple'.map Prod.fst →
      (pairInto tuple columns values).map Prod.fst = (pairInto tuple' columns values').map Prod.fst
  | [], _, _, _, _, _, h => h
  | _ :: _, [], values', tuple, tuple', hl, h => by
    rw [List.length_eq_zero_iff.mp hl.symm]
    exact h
  | column :: columns, value :: values, [], _, _, hl, _ => by cases hl
  | column :: columns, value :: values, value' :: values', tuple, tuple', hl, h =>
    keys_pairInto columns values values' _ _ (Nat.succ.inj hl)
      (JsMap.keys_set_congr h column.name value value')

theorem nodup_pairInto : ∀ (columns : List RelationColumn) (values : List (Field V))
    (tuple : Tuple V), (tuple.map Prod.fst).Nodup →
      ((pairInto tuple columns values).map Prod.fst).Nodup
  | [], _, _, h => h
  | _ :: _, [], _, h => h
  | column :: columns, value :: values, _, h =>
    nodup_pairInto columns values _ (JsMap.nodup_keys_set h column.name value)

/-- 同じ長さの配列から同じ object ができるのは、どの名前の最後の列の値も同じときである。 -/
theorem pair_eq_iff {relation : MessageRelation} {values values' : List (Field V)}
    (hl : values.length = values'.length) : pair relation values = pair relation values' ↔
      ∀ name i, lastIndex values.length relation.columns name = some i →
        values[i]? = values'[i]? := by
  constructor
  · intro h name i hi
    have := congrArg (JsMap.get · name) h
    rwa [get_pair, get_pair, ← hl, hi, Option.bind_some, Option.bind_some] at this
  · intro h
    refine JsMap.ext_get (keys_pairInto _ _ _ _ _ hl rfl) (nodup_pairInto _ _ _ List.nodup_nil)
      fun name => ?_
    show (pair relation values).get name = (pair relation values').get name
    rw [get_pair, get_pair, ← hl]
    cases hi : lastIndex values.length relation.columns name with
    | none => rfl
    | some i => exact h name i hi

/-! ## 列の値 -/

/-- どの text の列も、型の parser が受け付ける。 -/
def Accepts (types : TypeParsers V) (buf : Bytes) : List RelationColumn → List RawField → Prop
  | _, [] => True
  | [], _ :: _ => False
  | column :: columns, field :: fields =>
    (∀ o s, field = .text o s →
      (types column.typeOid (decodeText (subarray buf o (o + s)))).isSome) ∧
      Accepts types buf columns fields

theorem interpField_isSome {typeOid : Int} {u : Field V} {field : RawField} :
    (interpField types typeOid u buf field).isSome ↔
      ∀ o s, field = .text o s → (types typeOid (decodeText (subarray buf o (o + s)))).isSome := by
  cases field with
  | text o s => exact ⟨fun h o' s' heq => by cases heq; exact h, fun h => h o s rfl⟩
  | null => exact ⟨fun _ _ _ heq => (by cases heq), fun _ => rfl⟩
  | unchanged => exact ⟨fun _ _ _ heq => (by cases heq), fun _ => rfl⟩
  | binary o s => exact ⟨fun _ _ _ heq => (by cases heq), fun _ => rfl⟩

theorem interpFields_isSome {u : Nat → RelationColumn → Field V} :
    ∀ {fields : List RawField} {columns : List RelationColumn} {i : Nat},
      (interpFields types u buf i columns fields).isSome ↔ Accepts types buf columns fields
  | [], columns, i => by cases columns <;> simp [interpFields, Accepts]
  | _ :: _, [], _ => by simp [interpFields, Accepts]
  | field :: fields, column :: columns, i => by
    rw [Accepts, ← interpField_isSome (u := u i column),
      ← interpFields_isSome (u := u) (i := i + 1), interpFields]
    cases interpField types column.typeOid (u i column) buf field <;> simp

/-- 補う値が違うだけの二つの行。違いは `u` の列にだけ現れる。 -/
theorem interpFields_eq_iff {u u' : Nat → RelationColumn → Field V} :
    ∀ {fields : List RawField} {columns : List RelationColumn} {i : Nat}
      {values values' : List (Field V)},
      interpFields types u buf i columns fields = some values →
      interpFields types u' buf i columns fields = some values' →
      values.length = fields.length ∧ values'.length = fields.length ∧
        ∀ j, values[j]? = values'[j]? ↔
          ∀ column, columns[j]? = some column → fields[j]? = some .unchanged →
            u (i + j) column = u' (i + j) column
  | [], columns, i, values, values', h, h' => by
    have : values = [] ∧ values' = [] := by
      cases columns <;> cases h <;> cases h' <;> exact ⟨rfl, rfl⟩
    obtain ⟨rfl, rfl⟩ := this
    simp
  | _ :: _, [], _, _, _, h, _ => by cases h
  | field :: fields, column :: columns, i, values, values', h, h' => by
    rw [interpFields] at h h'
    obtain ⟨v, hv, h⟩ := Option.bind_eq_some_iff.mp h
    obtain ⟨rest, hrest, rfl⟩ := Option.map_eq_some_iff.mp h
    obtain ⟨v', hv', h'⟩ := Option.bind_eq_some_iff.mp h'
    obtain ⟨rest', hrest', rfl⟩ := Option.map_eq_some_iff.mp h'
    obtain ⟨hl, hl', hj⟩ := interpFields_eq_iff hrest hrest'
    refine ⟨by rw [List.length_cons, hl, List.length_cons], by rw [List.length_cons, hl',
      List.length_cons], fun j => ?_⟩
    cases j with
    | zero =>
      simp only [List.getElem?_cons_zero, Option.some.injEq, Nat.add_zero, forall_eq']
      cases field with
      | unchanged =>
        cases hv
        cases hv'
        exact ⟨fun h _ => h, fun h => h rfl⟩
      | null => cases hv; cases hv'; simp
      | binary o s => cases hv; cases hv'; simp
      | text o s =>
        have : v = v' := Option.some.inj (hv.symm.trans hv')
        simp [this]
    | succ j =>
      simp only [List.getElem?_cons_succ]
      rw [hj j, show i + (j + 1) = i + 1 + j by omega]

/-! ## 求めること -/

/-- 配列の message を列名と組にする。 -/
def RowMessage.pair : RowMessage (List (Field V)) (List (Field V)) → RowMessage (Tuple V) (Tuple V)
  | .insert relation new => .insert relation (Pgoutput.pair relation new)
  | .update relation key old new =>
    .update relation (key.map fun k => keyOf relation (Pgoutput.pair relation k))
      (old.map (Pgoutput.pair relation)) (Pgoutput.pair relation new)
  | .delete relation key old =>
    .delete relation (key.map fun k => keyOf relation (Pgoutput.pair relation k))
      (old.map (Pgoutput.pair relation))

def PgoutputMessage.pair :
    PgoutputMessage (List (Field V)) (List (Field V)) → PgoutputMessage (Tuple V) (Tuple V)
  | .plain message => .plain message
  | .row message => .row message.pair

/-- `parse` だけを使う parser と、`parseArray` だけを使う parser の cache。 -/
structure Parsers where
  object : Caches
  array : Caches

def Parsers.fresh : Parsers := ⟨.empty, .empty⟩

/-- 同じ buffer を両方に渡す。 -/
def feed (types : TypeParsers V) (s : Parsers) (buf : Bytes) : Parsers :=
  ⟨cachesAfter s.object (parse types s.object buf),
    cachesAfter s.array (parseArray types s.array buf)⟩

/-- `k` byte で切ると、列の値が途中で切れる。 -/
def Cuts (raw : RowMessage RawTuple RawTuple) (k : Nat) : Prop :=
  ∃ f ∈ rawFieldsOf raw, ∃ o s, f.span = some (o, s) ∧ o ≤ k ∧ (k : Int) < o + s

structure Conforms (types : TypeParsers V) (s : Parsers) (buf : Bytes) : Prop where
  agrees : (parse types s.object buf).map Prod.fst =
    (parseArray types s.array buf).map fun p => p.1.pair
  rejects : ∀ raw cur, rawMessage s.object buf ⟨0, 0⟩ = some (raw, cur) →
    (parse types s.object buf).isSome ∨ (parseArray types s.array buf).isSome →
      ∀ k < buf.length, Cuts raw k →
        parse types s.object (buf.take k) = none ∧ parseArray types s.array (buf.take k) = none

/-! ## 条件 -/

/-- どの行の値も読める。 -/
def Readable (types : TypeParsers V) (buf : Bytes) (raw : RowMessage RawTuple RawTuple) : Prop :=
  ∀ t ∈ raw.tuples, Accepts types buf raw.relation.columns t.fields

/-- `u` の列が名前の最後の列なら、`old` のその番号の値と、その名前の最後の列の値が同じである。 -/
def FallbackAgrees (types : TypeParsers V) (buf : Bytes) : RowMessage RawTuple RawTuple → Prop
  | .update relation none (some old) new =>
    ∀ values, interpFields types (fun _ _ => .undefined) buf 0 relation.columns old.fields =
        some values →
      ∀ name i, lastIndex new.fields.length relation.columns name = some i →
        new.fields[i]? = some .unchanged →
          ((lastIndex values.length relation.columns name).bind (values[·]?)).getD .undefined =
            (values[i]?).getD .undefined
  | _ => True

structure Sound (types : TypeParsers V) (buf : Bytes) (raw : RowMessage RawTuple RawTuple)
    (cur : Cursor) : Prop where
  counted : ∀ t ∈ raw.tuples, 0 ≤ t.count
  fallback : FallbackAgrees types buf raw
  /-- 整数を読んだ範囲より後で切ったものは読めない。そこにあるのは最後の値の残りである。 -/
  closed : ∀ k < buf.length, cur.checked ≤ k → (k : Int) < cur.offset →
    ¬ Readable types (buf.take k) raw

/-- 読める行の message は、どれも `Sound` である。 -/
def Admissible (types : TypeParsers V) (c : Caches) (buf : Bytes) : Prop :=
  ∀ raw cur, rawMessage c buf ⟨0, 0⟩ = some (raw, cur) → Readable types buf raw →
    Sound types buf raw cur

/-! ## 一つの message -/

theorem Interp.message_isSome {I : Interp K T} {P : MessageRelation → RawTuple → Prop}
    (hkey : ∀ relation t, (I.key relation buf t).isSome ↔ P relation t)
    (htuple : ∀ relation fallback t, (I.tuple relation fallback buf t).isSome ↔ P relation t)
    (raw : RowMessage RawTuple RawTuple) :
    (I.message buf raw).isSome ↔ ∀ t ∈ raw.tuples, P raw.relation t := by
  -- 二つの行を順に読む
  have htwo : ∀ {α β γ : Type} {x : Option α} {y : α → Option β} {f : α → β → γ} {p q : Prop},
      (x.isSome ↔ p) → (∀ a, (y a).isSome ↔ q) →
        ((x.bind fun a => (y a).map (f a)).isSome ↔ p ∧ q) := by
    intro α β γ x y f p q hx hy
    cases x with
    | none => simpa using fun hp => absurd (hx.mpr hp) (by simp)
    | some a => simpa using ⟨fun h => ⟨hx.mp rfl, (hy a).mp h⟩, fun h => (hy a).mpr h.2⟩
  rcases raw with
    ⟨relation, new⟩ | ⟨relation, _ | key, _ | old, new⟩ | ⟨relation, _ | key, _ | old⟩ <;>
    simp [Interp.message, RowMessage.tuples, RowMessage.relation, hkey, htuple,
      htwo (hkey _ _) fun _ => htuple _ _ _, htwo (htuple _ _ _) fun _ => htuple _ _ _]

theorem object_isSome (raw : RowMessage RawTuple RawTuple) :
    ((objectInterp types).message buf raw).isSome ↔ Readable types buf raw := by
  refine Interp.message_isSome (P := fun relation t => Accepts types buf relation.columns t.fields)
    (fun relation t => ?_) (fun relation fallback t => ?_) raw
  · rw [objectInterp, Option.isSome_map]
    exact interpFields_isSome
  · rw [objectInterp, Option.isSome_map]
    exact interpFields_isSome

theorem array_isSome (raw : RowMessage RawTuple RawTuple) :
    ((arrayInterp types).message buf raw).isSome ↔
      (∀ t ∈ raw.tuples, 0 ≤ t.count) ∧ Readable types buf raw := by
  have hone : ∀ {u : Nat → RelationColumn → Field V} (relation : MessageRelation) (t : RawTuple),
      (if t.count < 0 then none else interpFields types u buf 0 relation.columns t.fields).isSome ↔
        0 ≤ t.count ∧ Accepts types buf relation.columns t.fields := by
    intro u relation t
    split
    · simp
      omega
    · rw [interpFields_isSome, and_iff_right (by omega)]
  rw [Interp.message_isSome
    (P := fun relation t => 0 ≤ t.count ∧ Accepts types buf relation.columns t.fields)
    (fun relation t => hone relation t) (fun relation fallback t => hone relation t)]
  exact forall₂_and

/-- 補わない行は、配列を列名と組にしたものである。 -/
theorem object_tuple {relation : MessageRelation} {t : RawTuple} (h : 0 ≤ t.count) :
    (objectInterp types).tuple relation none buf t =
      ((arrayInterp types).tuple relation none buf t).map (pair relation) := by
  simp only [arrayInterp, if_neg (Int.not_lt.mpr h)]
  rfl

theorem object_key {relation : MessageRelation} {t : RawTuple} (h : 0 ≤ t.count) :
    (objectInterp types).key relation buf t =
      ((arrayInterp types).key relation buf t).map fun k => keyOf relation (pair relation k) := by
  simp only [arrayInterp, if_neg (Int.not_lt.mpr h)]
  rfl

/-- `old` から補う行。 -/
theorem object_new_iff {relation : MessageRelation} {new : RawTuple} {v : List (Field V)}
    (hnew : 0 ≤ new.count) (haccepts : Accepts types buf relation.columns new.fields) :
    (objectInterp types).tuple relation (some (pair relation v)) buf new =
        ((arrayInterp types).tuple relation (some v) buf new).map (pair relation) ↔
      ∀ name i, lastIndex new.fields.length relation.columns name = some i →
        new.fields[i]? = some .unchanged →
          ((lastIndex v.length relation.columns name).bind (v[·]?)).getD .undefined =
            (v[i]?).getD .undefined := by
  obtain ⟨w, hw⟩ := Option.isSome_iff_exists.mp (interpFields_isSome (i := 0)
    (u := fun _ column => fallbackByName (some (pair relation v)) column.name)
    |>.mpr haccepts)
  obtain ⟨w', hw'⟩ := Option.isSome_iff_exists.mp (interpFields_isSome (i := 0)
    (u := fun i _ => fallbackByIndex (some v) i) |>.mpr haccepts)
  obtain ⟨hl, hl', hj⟩ := interpFields_eq_iff hw hw'
  simp only [objectInterp, arrayInterp, if_neg (Int.not_lt.mpr hnew)]
  rw [hw, hw', Option.map_some, Option.map_some, Option.some.injEq, pair_eq_iff (hl.trans hl'.symm),
    hl]
  refine forall₂_congr fun name i => ⟨fun h hi hu => ?_, fun h hi => ?_⟩
  · obtain ⟨column, hc, hname⟩ := lastIndex_name hi
    have := (hj i).mp (h hi) column hc hu
    rw [Nat.zero_add] at this
    rw [← get_pair, ← hname]
    exact this
  · refine (hj i).mpr fun column hc hu => ?_
    obtain ⟨column', hc', hname⟩ := lastIndex_name hi
    obtain rfl : column' = column := Option.some.inj (hc'.symm.trans hc)
    have := h hi hu
    rw [← get_pair, ← hname] at this
    rw [Nat.zero_add]
    exact this

/-- 行の個数が負でなければ、二つの message の一致は補う値の一致である。 -/
theorem message_pair_iff {raw : RowMessage RawTuple RawTuple}
    (hcounts : ∀ t ∈ raw.tuples, 0 ≤ t.count) (hread : Readable types buf raw) :
    (objectInterp types).message buf raw =
      ((arrayInterp types).message buf raw).map RowMessage.pair ↔ FallbackAgrees types buf raw := by
  rcases raw with ⟨relation, new⟩ | ⟨relation, _ | key, _ | old, new⟩ | ⟨relation, _ | key, _ | old⟩
  · refine iff_of_true ?_ trivial
    simp only [Interp.message]
    rw [object_tuple (hcounts new (by simp [RowMessage.tuples]))]
    cases (arrayInterp types).tuple relation none buf new <;> rfl
  · refine iff_of_true ?_ trivial
    simp only [Interp.message]
    rw [object_tuple (hcounts new (by simp [RowMessage.tuples]))]
    cases (arrayInterp types).tuple relation none buf new <;> rfl
  · -- 古い行を持つ update だけが、欠けた値を二つの方法で補う
    have hold : 0 ≤ old.count := hcounts old (by simp [RowMessage.tuples])
    have hnew : 0 ≤ new.count := hcounts new (by simp [RowMessage.tuples])
    have hacceptsOld : Accepts types buf relation.columns old.fields :=
      hread old (by simp [RowMessage.tuples])
    have hacceptsNew : Accepts types buf relation.columns new.fields :=
      hread new (by simp [RowMessage.tuples])
    obtain ⟨values, hvalues⟩ := Option.isSome_iff_exists.mp (interpFields_isSome (i := 0)
      (u := fun _ _ => (.undefined : Field V)) |>.mpr hacceptsOld)
    have ho : (arrayInterp types).tuple relation none buf old = some values := by
      simp only [arrayInterp, if_neg (Int.not_lt.mpr hold)]
      exact hvalues
    have hn := object_new_iff (v := values) hnew hacceptsNew
    simp only [Interp.message]
    rw [object_tuple hold, ho, Option.map_some, Option.bind_some, Option.bind_some]
    constructor
    · intro h values' hvalues'
      obtain rfl := Option.some.inj (hvalues.symm.trans hvalues')
      refine hn.mp ?_
      cases hx : (objectInterp types).tuple relation (some (pair relation values)) buf new with
      | none =>
        cases hy : (arrayInterp types).tuple relation (some values) buf new with
        | none => rfl
        | some y => rw [hx, hy] at h; cases h
      | some x =>
        cases hy : (arrayInterp types).tuple relation (some values) buf new with
        | none => rw [hx, hy] at h; cases h
        | some y =>
          rw [hx, hy] at h
          simpa [RowMessage.pair] using h
    · intro h
      rw [hn.mpr (h values hvalues)]
      cases (arrayInterp types).tuple relation (some values) buf new <;> rfl
  · refine iff_of_true ?_ trivial
    simp only [Interp.message]
    rw [object_tuple (hcounts new (by simp [RowMessage.tuples])),
      object_key (hcounts key (by simp [RowMessage.tuples]))]
    cases (arrayInterp types).key relation buf key <;>
      cases (arrayInterp types).tuple relation none buf new <;> rfl
  · refine iff_of_true ?_ trivial
    simp only [Interp.message]
    rw [object_tuple (hcounts new (by simp [RowMessage.tuples])),
      object_key (hcounts key (by simp [RowMessage.tuples]))]
    cases (arrayInterp types).key relation buf key <;>
      cases (arrayInterp types).tuple relation none buf new <;> rfl
  · exact iff_of_true rfl trivial
  · refine iff_of_true ?_ trivial
    simp only [Interp.message]
    rw [object_tuple (hcounts old (by simp [RowMessage.tuples]))]
    cases (arrayInterp types).tuple relation none buf old <;> rfl
  · refine iff_of_true ?_ trivial
    simp only [Interp.message]
    rw [object_key (hcounts key (by simp [RowMessage.tuples]))]
    cases (arrayInterp types).key relation buf key <;> rfl
  · refine iff_of_true ?_ trivial
    simp only [Interp.message]
    rw [object_key (hcounts key (by simp [RowMessage.tuples]))]
    cases (arrayInterp types).key relation buf key <;> rfl

/-- 配置の読める message の結果。 -/
theorem parse_of_raw {raw : RowMessage RawTuple RawTuple} {cur : Cursor}
    (h : rawMessage c buf ⟨0, 0⟩ = some (raw, cur)) :
    parse types c buf = ((objectInterp types).message buf raw).map fun m => (.row m, c) := by
  show ((readMessage _ _ _ c buf ⟨0, 0⟩).map Prod.fst) = _
  rw [show readMessage (msgInsert types) (msgUpdate types) (msgDelete types) c buf ⟨0, 0⟩ = _ from
    readMessage_eq (interprets_object types) c buf ⟨0, 0⟩, h]
  exact Option.map_map ..

theorem parseArray_of_raw {raw : RowMessage RawTuple RawTuple} {cur : Cursor}
    (h : rawMessage c buf ⟨0, 0⟩ = some (raw, cur)) :
    parseArray types c buf = ((arrayInterp types).message buf raw).map fun m => (.row m, c) := by
  show ((readMessage _ _ _ c buf ⟨0, 0⟩).map Prod.fst) = _
  rw [show readMessage (msgInsertArray types) (msgUpdateArray types) (msgDeleteArray types) c buf
    ⟨0, 0⟩ = _ from readMessage_eq (interprets_array types) c buf ⟨0, 0⟩, h]
  exact Option.map_map ..

theorem parse_isSome {raw : RowMessage RawTuple RawTuple} {cur : Cursor}
    (h : rawMessage c buf ⟨0, 0⟩ = some (raw, cur)) :
    (parse types c buf).isSome ↔ Readable types buf raw := by
  rw [parse_of_raw h, Option.isSome_map]
  exact object_isSome raw

theorem parseArray_isSome {raw : RowMessage RawTuple RawTuple} {cur : Cursor}
    (h : rawMessage c buf ⟨0, 0⟩ = some (raw, cur)) :
    (parseArray types c buf).isSome ↔
      (∀ t ∈ raw.tuples, 0 ≤ t.count) ∧ Readable types buf raw := by
  rw [parseArray_of_raw h, Option.isSome_map]
  exact array_isSome raw

/-- 行を持たない message は、どちらでも同じに読まれる。 -/
theorem parse_of_none (types : TypeParsers V) (h : rawMessage c buf ⟨0, 0⟩ = none) :
    ∃ r : Option (PlainMessage × Caches),
    parse types c buf = r.map (fun p => (.plain p.1, p.2)) ∧
      parseArray types c buf = r.map fun p => (.plain p.1, p.2) := by
  have hobject : parse types c buf = _ :=
    congrArg (Option.map Prod.fst) (readMessage_eq (interprets_object types) c buf ⟨0, 0⟩)
  have harray : parseArray types c buf = _ :=
    congrArg (Option.map Prod.fst) (readMessage_eq (interprets_array types) c buf ⟨0, 0⟩)
  rw [hobject, harray, h]
  dsimp only
  rcases readUint8 buf ⟨0, 0⟩ with _ | ⟨tag, cur⟩
  · exact ⟨none, rfl, rfl⟩
  · simp only [Option.bind_some]
    split
    · exact ⟨none, rfl, rfl⟩
    · rcases readPlain c tag buf cur with _ | p
      · exact ⟨none, rfl, rfl⟩
      · exact ⟨some p.1, rfl, rfl⟩

/-- 行の配置が読めない、行の message は失敗する。 -/
theorem parse_none (h : rawMessage c buf ⟨0, 0⟩ = none)
    (htag : ∀ p, readUint8 buf ⟨0, 0⟩ = some p → p.1 = 0x49 ∨ p.1 = 0x55 ∨ p.1 = 0x44) :
    parse types c buf = none ∧ parseArray types c buf = none := by
  have hfails : ∀ {K T : Type} {r : RowReaders K T} {I : Interp K T}, Interprets r I →
      runReader (readMessage (msgInsertWith r) (msgUpdateWith r) (msgDeleteWith r) c) buf =
        none := by
    intro K T r I hI
    rw [runReader, readMessage_eq hI, h]
    dsimp only
    cases ht : readUint8 buf ⟨0, 0⟩ with
    | none => rfl
    | some p => rw [Option.bind_some, if_pos (htag p ht)]; rfl
  exact ⟨hfails (interprets_object types), hfails (interprets_array types)⟩

theorem rawMessage_tag {raw : RowMessage RawTuple RawTuple} {cur : Cursor}
    (h : rawMessage c buf ⟨0, 0⟩ = some (raw, cur)) :
    ∀ p, readUint8 buf ⟨0, 0⟩ = some p → p.1 = 0x49 ∨ p.1 = 0x55 ∨ p.1 = 0x44 := by
  intro p hp
  rw [rawMessage, bind_apply, hp, Option.bind_some] at h
  by_cases hi : p.1 = 0x49
  · exact .inl hi
  · by_cases hu : p.1 = 0x55
    · exact .inr (.inl hu)
    · by_cases hd : p.1 = 0x44
      · exact .inr (.inr hd)
      · rw [if_neg hi, if_neg hu, if_neg hd] at h
        cases h

/-- 整数を読んだ範囲の中で切ると、失敗する。 -/
theorem take_none {raw : RowMessage RawTuple RawTuple} {cur : Cursor}
    (h : rawMessage c buf ⟨0, 0⟩ = some (raw, cur)) {k : Nat} (hk : k ≤ buf.length)
    (hcut : ¬ cur.checked ≤ k) :
    parse types c (buf.take k) = none ∧ parseArray types c (buf.take k) = none := by
  refine parse_none ?_ fun p hp => ?_
  · rw [(checked_rawMessage c).take hk (Nat.zero_le k), h, Option.filter_some,
      if_neg (by simpa using hcut)]
  · rw [checked_readUint8.take hk (Nat.zero_le k)] at hp
    exact rawMessage_tag h p (Option.filter_eq_some_iff.mp hp).1

/-- その後で切ると、同じ配置になる。 -/
theorem take_raw {raw : RowMessage RawTuple RawTuple} {cur : Cursor}
    (h : rawMessage c buf ⟨0, 0⟩ = some (raw, cur)) {k : Nat} (hk : k ≤ buf.length)
    (hcut : cur.checked ≤ k) : rawMessage c (buf.take k) ⟨0, 0⟩ = some (raw, cur) := by
  rw [(checked_rawMessage c).take hk (Nat.zero_le k), h, Option.filter_some,
    if_pos (decide_eq_true hcut)]

/-- 整数を読んだ範囲の後で値が切れるのは、最後の値が残りを持つときである。 -/
theorem cuts_iff {raw : RowMessage RawTuple RawTuple} {cur : Cursor}
    (h : rawMessage c buf ⟨0, 0⟩ = some (raw, cur)) {k : Nat} (hcut : cur.checked ≤ k) :
    Cuts raw k ↔ (k : Int) < cur.offset := by
  have hends := ends_rawMessage h
  constructor
  · rintro ⟨f, hf, o, s, hspan, ho, hs⟩
    obtain ⟨_, hend⟩ := hends.span f hf o s hspan
    omega
  · intro hk
    rcases hends.last with hoff | ⟨f, hf, o, s, hspan, hend⟩
    · omega
    · obtain ⟨ho, _⟩ := hends.span f hf o s hspan
      exact ⟨f, hf, o, s, hspan, by omega, by omega⟩

theorem conforms_iff : Conforms types ⟨c, c⟩ buf ↔ Admissible types c buf := by
  cases hraw : rawMessage c buf ⟨0, 0⟩ with
  | none =>
    refine iff_of_true ⟨?_, fun raw cur h => ?_⟩ fun raw cur h => ?_
    · obtain ⟨r, hobject, harray⟩ := parse_of_none types hraw
      rw [hobject, harray]
      cases r <;> rfl
    · cases hraw.symm.trans h
    · cases hraw.symm.trans h
  | some p =>
    obtain ⟨raw, cur⟩ := p
    have hagrees : (parse types c buf).map Prod.fst =
        (parseArray types c buf).map (fun p => p.1.pair) ↔
          (objectInterp types).message buf raw =
            ((arrayInterp types).message buf raw).map RowMessage.pair := by
      rw [parse_of_raw hraw, parseArray_of_raw hraw]
      cases (objectInterp types).message buf raw <;>
        cases (arrayInterp types).message buf raw <;> simp [PgoutputMessage.pair]
    constructor
    · intro hconforms raw' cur' h hread
      obtain ⟨rfl, rfl⟩ := Prod.mk.inj (Option.some.inj (hraw.symm.trans h))
      have hobject : (parse types c buf).isSome := (parse_isSome hraw).mpr hread
      have harray : (parseArray types c buf).isSome := by
        rw [← Option.isSome_map (f := fun p => p.1.pair), ← hconforms.agrees, Option.isSome_map]
        exact hobject
      have hcounts := ((parseArray_isSome hraw).mp harray).1
      refine ⟨hcounts, (message_pair_iff hcounts hread).mp (hagrees.mp hconforms.agrees), ?_⟩
      intro k hk hcut hoffset hshort
      have hnone :=
        hconforms.rejects raw cur hraw (.inl hobject) k hk ((cuts_iff hraw hcut).mpr hoffset)
      have hsome := (parse_isSome (take_raw hraw hk.le hcut)).mpr hshort
      rw [hnone.1] at hsome
      cases hsome
    · intro hadmissible
      constructor
      · by_cases hread : Readable types buf raw
        · have hsound := hadmissible raw cur hraw hread
          exact hagrees.mpr ((message_pair_iff hsound.counted hread).mpr hsound.fallback)
        · -- どちらも失敗する
          have hobject : ¬ (parse types c buf).isSome := fun h => hread ((parse_isSome hraw).mp h)
          have harray : ¬ (parseArray types c buf).isSome :=
            fun h => hread ((parseArray_isSome hraw).mp h).2
          rw [Option.not_isSome_iff_eq_none.mp hobject, Option.not_isSome_iff_eq_none.mp harray]
          rfl
      · intro raw' cur' h haccepted k hk hcuts
        obtain ⟨rfl, rfl⟩ := Prod.mk.inj (Option.some.inj (hraw.symm.trans h))
        have hread : Readable types buf raw := by
          rcases haccepted with h | h
          · exact (parse_isSome hraw).mp h
          · exact ((parseArray_isSome hraw).mp h).2
        by_cases hcut : cur.checked ≤ k
        · have hshort :=
            (hadmissible raw cur hraw hread).closed k hk hcut ((cuts_iff hraw hcut).mp hcuts)
          have htake := take_raw hraw hk.le hcut
          exact ⟨Option.not_isSome_iff_eq_none.mp fun h => hshort ((parse_isSome htake).mp h),
            Option.not_isSome_iff_eq_none.mp fun h => hshort ((parseArray_isSome htake).mp h).2⟩
        · exact take_none hraw hk.le hcut

/-! ## 実行 -/

/-- 行の message は cache を変えないので、二つの cache は同じに変わる。 -/
theorem cachesAfter_eq :
    cachesAfter c (parse types c buf) = cachesAfter c (parseArray types c buf) := by
  cases hraw : rawMessage c buf ⟨0, 0⟩ with
  | none =>
    obtain ⟨r, hobject, harray⟩ := parse_of_none types hraw
    rw [hobject, harray]
    cases r <;> rfl
  | some p =>
    rw [parse_of_raw hraw, parseArray_of_raw hraw]
    cases (objectInterp types).message buf p.1 <;>
      cases (arrayInterp types).message buf p.1 <;> rfl

theorem feed_same {s : Parsers} (h : s.object = s.array) :
    (feed types s buf).object = (feed types s buf).array := by
  obtain ⟨c, c'⟩ := s
  obtain rfl : c = c' := h
  exact cachesAfter_eq

/--
**新しい二つの parser に渡したどの buffer についても復号が一致し、途中で切れた値を拒むのは、どの buffer の行の message も
`Sound` のとき、かつそのときに限る。**
-/
theorem decoders_conform_iff (types : TypeParsers V) (bufs : List Bytes) :
    Along (feed types) (Conforms types) Parsers.fresh bufs ↔
      Along (feed types) (fun s buf => Admissible types s.object buf) Parsers.fresh bufs := by
  have hsame : ∀ s buf, s.object = s.array → (feed types s buf).object = (feed types s buf).array :=
    fun s buf h => feed_same h
  have hone : ∀ (s : Parsers) buf, s.object = s.array →
      (Conforms types s buf ↔ Admissible types s.object buf) := by
    rintro ⟨c, c'⟩ buf h
    obtain rfl : c = c' := h
    exact conforms_iff
  constructor
  · exact Along.of_invariant (I := fun s => s.object = s.array) (fun s buf h _ => hsame s buf h)
      (fun s buf h => (hone s buf h).mp) rfl
  · exact Along.of_invariant (I := fun s => s.object = s.array) (fun s buf h _ => hsame s buf h)
      (fun s buf h => (hone s buf h).mpr) rfl

/-! ### 外れる入力 -/

/-- text をそのまま値とする型。 -/
def textTypes : TypeParsers String := fun _ text => some (.parsed text)

/-- 名前の無い `n` 列の relation。 -/
def relationBytes (n : UInt8) : Bytes :=
  [0x52, 0, 0, 0, 1, 0, 0, 0x64, 0, n] ++
    (List.replicate n.toNat [0, 0, 0, 0, 0, 25, 0, 0, 0, 0]).flatten

/-- 二 byte の text の列を持つ行。 -/
def insertText : Bytes := [0x49, 0, 0, 0, 1, 0x4e, 0, 1, 0x74, 0, 0, 0, 2, 0x61, 0x62]

/-- 列の個数が `-1` の行。 -/
def insertNegative : Bytes := [0x49, 0, 0, 0, 1, 0x4e, 0xff, 0xff]

/-- `old` の行は一列、新しい行は同じ名前の二列で、後の列が `u` である。 -/
def updateUnchanged : Bytes :=
  [0x55, 0, 0, 0, 1, 0x4f, 0, 1, 0x6e, 0x4e, 0, 2, 0x6e, 0x75]

/-- relation を一つ読んだ後の cache。 -/
def withRelation (n : UInt8) : Caches := (feed textTypes Parsers.fresh (relationBytes n)).object

theorem feed_relation (n : UInt8) :
    feed textTypes .fresh (relationBytes n) = ⟨withRelation n, withRelation n⟩ :=
  congrArg (Parsers.mk _) cachesAfter_eq.symm

theorem rawMessage_insertText :
    ((rawMessage (withRelation 1) insertText ⟨0, 0⟩).map fun p => rawFieldsOf p.1) =
      some [.text 13 2] := by
  decide +kernel

theorem parse_insertText : (parse textTypes (withRelation 1) insertText).isSome = true ∧
    (parse textTypes (withRelation 1) (insertText.take 14)).isSome = true := by
  decide +kernel

theorem parse_insertNegative : (parse textTypes (withRelation 1) insertNegative).isSome = true ∧
    (parseArray textTypes (withRelation 1) insertNegative).isSome = false := by
  decide +kernel

/-- 更新の後の、名前の無い列の値。 -/
def newValue : PgoutputMessage (Tuple String) (Tuple String) → Option (Field String)
  | .row (.update _ _ _ new) => new.get ""
  | _ => none

theorem parse_updateUnchanged :
    ((parse textTypes (withRelation 2) updateUnchanged).bind fun p => newValue p.1) = some .null ∧
      ((parseArray textTypes (withRelation 2) updateUnchanged).bind fun p => newValue p.1.pair) =
        some .undefined := by
  decide +kernel

/-- 短い text を受け付ける。負の個数を受け付けるのは `parse` だけである。同じ名前の列では `u` の値が違う。 -/
theorem decoders_disagree :
    ¬ Along (feed textTypes) (Conforms textTypes) .fresh [relationBytes 1, insertText] ∧
      ¬ Along (feed textTypes) (Conforms textTypes) .fresh [relationBytes 1, insertNegative] ∧
      ¬ Along (feed textTypes) (Conforms textTypes) .fresh [relationBytes 2, updateUnchanged] := by
  -- relation の後の一つの message に帰着する
  have hlast : ∀ {n : UInt8} {buf : Bytes},
      Along (feed textTypes) (Conforms textTypes) .fresh [relationBytes n, buf] →
        Conforms textTypes ⟨withRelation n, withRelation n⟩ buf :=
    fun h => feed_relation _ ▸ h.2.1
  refine ⟨fun h => ?_, fun h => ?_, fun h => ?_⟩
  · obtain ⟨⟨raw, cur⟩, hraw, hfields⟩ := Option.map_eq_some_iff.mp rawMessage_insertText
    have hcuts : Cuts raw 14 := by
      refine ⟨.text 13 2, ?_, 13, 2, rfl, by decide, by decide⟩
      rw [show rawFieldsOf raw = [.text 13 2] from hfields]
      exact List.mem_singleton_self _
    obtain ⟨-, hrejects⟩ := hlast h
    dsimp only at hrejects
    have hnone := (hrejects raw cur hraw (.inl parse_insertText.1) 14 (by decide) hcuts).1
    have hsome := parse_insertText.2
    rw [hnone] at hsome
    cases hsome
  · have hboth := congrArg Option.isSome (hlast h).agrees
    rw [Option.isSome_map, Option.isSome_map] at hboth
    rw [parse_insertNegative.1, parse_insertNegative.2] at hboth
    cases hboth
  · have hboth := congrArg (Option.bind · newValue) (hlast h).agrees
    simp only [Option.bind_map, Function.comp_def] at hboth
    rw [parse_updateUnchanged.1, parse_updateUnchanged.2] at hboth
    cases hboth

end Replication.Pgoutput
