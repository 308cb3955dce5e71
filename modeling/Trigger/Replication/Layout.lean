import Trigger.Replication.Pgoutput

/-!
# 行の配置

行を持つ message の値を読まずに、列の種類と値の範囲だけを読んだもの（`RawTuple`）。二つの復号はどちらも、この配置を
読んでから値を解釈したものに等しい（`readMessage_eq`）。

配置を読むのは範囲を確かめる整数の読み出しだけなので、buffer を `k` byte に切り詰めても、整数を読んだ範囲が残れば
同じ配置になり、残らなければ失敗する（`checked_rawMessage`）。
-/

namespace Replication.Pgoutput

open Infra BinaryReader

variable {V K T : Type} {α β : Type}

/-! ## 読み手の計算 -/

theorem bind_apply (x : BinaryReader α) (f : α → BinaryReader β) (buf : Bytes) (c : Cursor) :
    (x >>= f) buf c = (x buf c).bind fun p => f p.1 buf p.2 := rfl

theorem pure_apply (a : α) (buf : Bytes) (c : Cursor) :
    (pure a : BinaryReader α) buf c = some (a, c) := rfl

theorem map_apply (f : α → β) (x : BinaryReader α) (buf : Bytes) (c : Cursor) :
    (f <$> x) buf c = (x buf c).map fun p => (f p.1, p.2) := by
  show (x buf c).bind (fun p => some (f p.1, p.2)) = _
  cases x buf c <;> rfl

/-! ## 配置 -/

/-- 列の配置。値は `offset` から `size` byte である。 -/
inductive RawField
  | null
  | unchanged
  | binary (offset size : Int)
  | text (offset size : Int)
deriving DecidableEq

/-- 値の範囲の始まりと長さ。 -/
def RawField.span : RawField → Option (Int × Int)
  | .binary o s => some (o, s)
  | .text o s => some (o, s)
  | _ => none

structure RawTuple where
  count : Int
  fields : List RawField
deriving DecidableEq

/-- 値を読まずに飛ばす。 -/
def skip (size : Int) : BinaryReader Int := fun _ c =>
  some (c.offset, ⟨c.offset + size, c.checked⟩)

def rawField : BinaryReader RawField := do
  let kind ← readUint8
  if kind = 0x62 then
    let size ← readInt32
    let offset ← skip size
    return .binary offset size
  else if kind = 0x74 then
    let size ← readInt32
    let offset ← skip size
    return .text offset size
  else if kind = 0x6e then return .null
  else if kind = 0x75 then return .unchanged
  else fail

def rawFields : Nat → List RelationColumn → BinaryReader (List RawField)
  | 0, _ => pure []
  | _ + 1, [] => fail
  | n + 1, _ :: columns => do
    let field ← rawField
    let rest ← rawFields n columns
    return field :: rest

def rawTuple (relation : MessageRelation) : BinaryReader RawTuple := do
  let nfields ← readInt16
  let fields ← rawFields nfields.toNat relation.columns
  return ⟨nfields, fields⟩

def rawReaders : RowReaders RawTuple RawTuple := ⟨rawTuple, fun relation _ => rawTuple relation⟩

/-- 行を持つ message の配置。 -/
def rawMessage (c : Caches) : BinaryReader (RowMessage RawTuple RawTuple) := do
  let tag ← readUint8
  if tag = 0x49 then msgInsertWith rawReaders c
  else if tag = 0x55 then msgUpdateWith rawReaders c
  else if tag = 0x44 then msgDeleteWith rawReaders c
  else fail

/-! ## 値の解釈 -/

/-- 一つの列の値。型の parser の例外は `none` である。 -/
def interpField (types : TypeParsers V) (typeOid : Int) (unchanged : Field V) (buf : Bytes) :
    RawField → Option (Field V)
  | .null => some .null
  | .unchanged => some unchanged
  | .binary o s => some (.binary (subarray buf o (o + s)))
  | .text o s => types typeOid (decodeText (subarray buf o (o + s)))

/-- 列の値の並び。`unchanged i` は `i` 番目の列が `u` のときの値である。 -/
def interpFields (types : TypeParsers V) (unchanged : Nat → RelationColumn → Field V)
    (buf : Bytes) : Nat → List RelationColumn → List RawField → Option (List (Field V))
  | _, _, [] => some []
  | _, [], _ :: _ => none
  | i, column :: columns, field :: fields =>
    (interpField types column.typeOid (unchanged i column) buf field).bind fun value =>
      (interpFields types unchanged buf (i + 1) columns fields).map (value :: ·)

/-- 値を列名と組にして object に加える。 -/
def pairInto (tuple : Tuple V) : List RelationColumn → List (Field V) → Tuple V
  | column :: columns, value :: values => pairInto (tuple.set column.name value) columns values
  | _, _ => tuple

/-- 値の配列を列名と組にした object。 -/
def pair (relation : MessageRelation) (values : List (Field V)) : Tuple V :=
  pairInto [] relation.columns values

theorem readField_eq (types : TypeParsers V) (typeOid : Int) (unchanged : Field V) (buf : Bytes)
    (c : Cursor) : readField types typeOid unchanged buf c =
      (rawField buf c).bind fun p =>
        (interpField types typeOid unchanged buf p.1).map fun v => (v, p.2) := by
  unfold readField rawField
  rw [bind_apply, bind_apply]
  rcases readUint8 buf c with _ | ⟨kind, c₁⟩
  · rfl
  · simp only [Option.bind_some]
    split
    · rw [bind_apply, bind_apply]
      rcases readInt32 buf c₁ with _ | ⟨size, c₂⟩
      · rfl
      · rfl
    · split
      · rw [bind_apply, bind_apply]
        rcases readInt32 buf c₁ with _ | ⟨size, c₂⟩
        · rfl
        · show (ofOption (types typeOid (decodeText (subarray buf c₂.offset (c₂.offset + size))))
            : BinaryReader (Field V)) buf ⟨c₂.offset + size, c₂.checked⟩ =
              (types typeOid (decodeText (subarray buf c₂.offset (c₂.offset + size)))).map _
          cases types typeOid (decodeText (subarray buf c₂.offset (c₂.offset + size))) <;> rfl
      · split
        · rfl
        · split
          · rfl
          · rfl

theorem readTupleFrom_eq (types : TypeParsers V) (fallback : Option (Tuple V)) (buf : Bytes)
    (n : Nat) : ∀ (i : Nat) (columns : List RelationColumn) (tuple : Tuple V) (c : Cursor),
      readTupleFrom types fallback n columns tuple buf c =
        (rawFields n columns buf c).bind fun p =>
          (interpFields types (fun _ column => fallbackByName fallback column.name) buf i columns
            p.1).map fun values => (pairInto tuple columns values, p.2) := by
  induction n with
  | zero => intro i columns tuple c; cases columns <;> rfl
  | succ n ih =>
    intro i columns tuple c
    cases columns with
    | nil => rfl
    | cons column columns =>
      rw [readTupleFrom, rawFields, bind_apply, bind_apply, readField_eq]
      rcases rawField buf c with _ | ⟨field, c₁⟩
      · rfl
      · simp only [Option.bind_some, bind_apply]
        cases hv : interpField types column.typeOid (fallbackByName fallback column.name) buf
            field with
        | none =>
          rcases rawFields n columns buf c₁ with _ | ⟨fields, c₂⟩
          · rfl
          · simp [pure_apply, interpFields, hv]
        | some value =>
          simp only [Option.map_some, Option.bind_some]
          rw [ih (i + 1)]
          rcases rawFields n columns buf c₁ with _ | ⟨fields, c₂⟩
          · rfl
          · simp [pure_apply, interpFields, hv, Option.map_map, Function.comp_def, pairInto]

theorem readTupleAsArrayFrom_eq (types : TypeParsers V) (fallback : Option (List (Field V)))
    (buf : Bytes) (n : Nat) :
    ∀ (i : Nat) (columns : List RelationColumn) (c : Cursor),
      readTupleAsArrayFrom types fallback n i columns buf c =
        (rawFields n columns buf c).bind fun p =>
          (interpFields types (fun i _ => fallbackByIndex fallback i) buf i columns p.1).map
            fun values => (values, p.2) := by
  induction n with
  | zero => intro i columns c; cases columns <;> rfl
  | succ n ih =>
    intro i columns c
    cases columns with
    | nil => rfl
    | cons column columns =>
      rw [readTupleAsArrayFrom, rawFields, bind_apply, bind_apply, readField_eq]
      rcases rawField buf c with _ | ⟨field, c₁⟩
      · rfl
      · simp only [Option.bind_some, bind_apply]
        cases hv : interpField types column.typeOid (fallbackByIndex fallback i) buf field with
        | none =>
          rcases rawFields n columns buf c₁ with _ | ⟨fields, c₂⟩
          · rfl
          · simp [pure_apply, interpFields, hv]
        | some value =>
          simp only [Option.map_some, Option.bind_some]
          rw [ih (i + 1)]
          rcases rawFields n columns buf c₁ with _ | ⟨fields, c₂⟩
          · rfl
          · cases hvs : interpFields types (fun i _ => fallbackByIndex fallback i) buf (i + 1)
                columns fields with
            | none => simp [pure_apply, interpFields, hv, hvs]
            | some values => simp [pure_apply, interpFields, hv, hvs]

/-! ## message の解釈 -/

/-- 配置から key と行を作る関数。 -/
structure Interp (K T : Type) where
  key : MessageRelation → Bytes → RawTuple → Option K
  tuple : MessageRelation → Option T → Bytes → RawTuple → Option T

/-- 行の読み方は、配置を読んでから解釈したものである。 -/
structure Interprets (r : RowReaders K T) (I : Interp K T) : Prop where
  key : ∀ relation buf c, r.key relation buf c =
    (rawTuple relation buf c).bind fun p => (I.key relation buf p.1).map fun k => (k, p.2)
  tuple : ∀ relation fallback buf c, r.tuple relation fallback buf c =
    (rawTuple relation buf c).bind fun p =>
      (I.tuple relation fallback buf p.1).map fun t => (t, p.2)

/-- 配置の message から作った message。 -/
def Interp.message (I : Interp K T) (buf : Bytes) :
    RowMessage RawTuple RawTuple → Option (RowMessage K T)
  | .insert relation new => (I.tuple relation none buf new).map (.insert relation)
  | .update relation (some key) _ new =>
    (I.key relation buf key).bind fun k =>
      (I.tuple relation none buf new).map (.update relation (some k) none)
  | .update relation none (some old) new =>
    (I.tuple relation none buf old).bind fun o =>
      (I.tuple relation (some o) buf new).map (.update relation none (some o))
  | .update relation none none new =>
    (I.tuple relation none buf new).map (.update relation none none)
  | .delete relation (some key) _ =>
    (I.key relation buf key).map fun k => .delete relation (some k) none
  | .delete relation none (some old) =>
    (I.tuple relation none buf old).map fun o => .delete relation none (some o)
  | .delete relation none none => some (.delete relation none none)

section Interprets

variable {r : RowReaders K T} {I : Interp K T}

theorem msgInsertWith_eq (h : Interprets r I) (c : Caches) (buf : Bytes) (cur : Cursor) :
    msgInsertWith r c buf cur = (msgInsertWith rawReaders c buf cur).bind fun p =>
      (I.message buf p.1).map fun m => (m, p.2) := by
  unfold msgInsertWith
  simp only [bind_apply]
  rcases readRelation c buf cur with _ | ⟨relation, c₁⟩
  · rfl
  · simp only [Option.bind_some]
    rcases readUint8 buf c₁ with _ | ⟨_, c₂⟩
    · rfl
    · simp only [Option.bind_some, h.tuple]
      show _ = ((rawTuple relation buf c₂).bind _).bind _
      rcases rawTuple relation buf c₂ with _ | ⟨new, c₃⟩
      · rfl
      · simp only [Option.bind_some, pure_apply, Interp.message]
        cases I.tuple relation none buf new <;> rfl

theorem msgUpdateWith_eq (h : Interprets r I) (c : Caches) (buf : Bytes) (cur : Cursor) :
    msgUpdateWith r c buf cur = (msgUpdateWith rawReaders c buf cur).bind fun p =>
      (I.message buf p.1).map fun m => (m, p.2) := by
  unfold msgUpdateWith
  simp only [bind_apply]
  rcases readRelation c buf cur with _ | ⟨relation, c₁⟩
  · rfl
  · simp only [Option.bind_some]
    -- key、古い行、新しい行のどれから始まるかは、次の一 byte で決まる。
    rcases readUint8 buf c₁ with _ | ⟨subMsgKey, c₂⟩
    · rfl
    · simp only [Option.bind_some]
      split
      · simp only [bind_apply, h.key, h.tuple]
        show _ = ((rawTuple relation buf c₂).bind _).bind _
        rcases rawTuple relation buf c₂ with _ | ⟨key, c₃⟩
        · rfl
        · simp only [Option.bind_some]
          cases hk : I.key relation buf key with
          | none =>
            rcases readUint8 buf c₃ with _ | ⟨_, c₄⟩
            · rfl
            · show none = ((rawTuple relation buf c₄).bind _).bind _
              rcases rawTuple relation buf c₄ with _ | ⟨new, c₅⟩
              · rfl
              · simp only [Option.bind_some, pure_apply, Interp.message, hk]
                rfl
          | some k =>
            simp only [Option.map_some, Option.bind_some]
            rcases readUint8 buf c₃ with _ | ⟨_, c₄⟩
            · rfl
            · simp only [Option.bind_some]
              show _ = ((rawTuple relation buf c₄).bind _).bind _
              rcases rawTuple relation buf c₄ with _ | ⟨new, c₅⟩
              · rfl
              · simp only [Option.bind_some, pure_apply, Interp.message, hk]
                cases I.tuple relation none buf new <;> rfl
      · split
        · simp only [bind_apply, h.tuple]
          show _ = ((rawTuple relation buf c₂).bind _).bind _
          rcases rawTuple relation buf c₂ with _ | ⟨old, c₃⟩
          · rfl
          · simp only [Option.bind_some]
            cases ho : I.tuple relation none buf old with
            | none =>
              rcases readUint8 buf c₃ with _ | ⟨_, c₄⟩
              · rfl
              · show none = ((rawTuple relation buf c₄).bind _).bind _
                rcases rawTuple relation buf c₄ with _ | ⟨new, c₅⟩
                · rfl
                · simp only [Option.bind_some, pure_apply, Interp.message, ho]
                  rfl
            | some o =>
              simp only [Option.map_some, Option.bind_some]
              rcases readUint8 buf c₃ with _ | ⟨_, c₄⟩
              · rfl
              · simp only [Option.bind_some]
                show _ = ((rawTuple relation buf c₄).bind _).bind _
                rcases rawTuple relation buf c₄ with _ | ⟨new, c₅⟩
                · rfl
                · simp only [Option.bind_some, pure_apply, Interp.message, ho]
                  cases I.tuple relation (some o) buf new <;> rfl
        · split
          · simp only [bind_apply, h.tuple]
            show _ = ((rawTuple relation buf c₂).bind _).bind _
            rcases rawTuple relation buf c₂ with _ | ⟨new, c₃⟩
            · rfl
            · simp only [Option.bind_some, pure_apply, Interp.message]
              cases I.tuple relation none buf new <;> rfl
          · rfl

theorem msgDeleteWith_eq (h : Interprets r I) (c : Caches) (buf : Bytes) (cur : Cursor) :
    msgDeleteWith r c buf cur = (msgDeleteWith rawReaders c buf cur).bind fun p =>
      (I.message buf p.1).map fun m => (m, p.2) := by
  unfold msgDeleteWith
  simp only [bind_apply]
  rcases readRelation c buf cur with _ | ⟨relation, c₁⟩
  · rfl
  · simp only [Option.bind_some]
    rcases readUint8 buf c₁ with _ | ⟨subMsgKey, c₂⟩
    · rfl
    · simp only [Option.bind_some]
      split
      · simp only [bind_apply, h.key]
        show _ = ((rawTuple relation buf c₂).bind _).bind _
        rcases rawTuple relation buf c₂ with _ | ⟨key, c₃⟩
        · rfl
        · simp only [Option.bind_some, pure_apply, Interp.message]
          cases I.key relation buf key <;> rfl
      · split
        · simp only [bind_apply, h.tuple]
          show _ = ((rawTuple relation buf c₂).bind _).bind _
          rcases rawTuple relation buf c₂ with _ | ⟨old, c₃⟩
          · rfl
          · simp only [Option.bind_some, pure_apply, Interp.message]
            cases I.tuple relation none buf old <;> rfl
        · rfl

end Interprets

/-- object に読む解釈。 -/
def objectInterp (types : TypeParsers V) : Interp (Tuple V) (Tuple V) where
  key relation buf raw :=
    (interpFields types (fun _ _ => .undefined) buf 0 relation.columns raw.fields).map fun values =>
      keyOf relation (pair relation values)
  tuple relation fallback buf raw :=
    (interpFields types (fun _ column => fallbackByName fallback column.name) buf 0 relation.columns
      raw.fields).map (pair relation)

/-- 配列に読む解釈。負の個数は受け付けない。 -/
def arrayInterp (types : TypeParsers V) : Interp (List (Field V)) (List (Field V)) where
  key relation buf raw :=
    if raw.count < 0 then none
    else interpFields types (fun _ _ => .undefined) buf 0 relation.columns raw.fields
  tuple relation fallback buf raw :=
    if raw.count < 0 then none
    else
      interpFields types (fun i _ => fallbackByIndex fallback i) buf 0 relation.columns raw.fields

theorem readTuple_eq (types : TypeParsers V) (relation : MessageRelation)
    (fallback : Option (Tuple V)) (buf : Bytes) (c : Cursor) :
    readTuple types relation fallback buf c = (rawTuple relation buf c).bind fun p =>
      ((objectInterp types).tuple relation fallback buf p.1).map fun t => (t, p.2) := by
  unfold readTuple rawTuple
  rw [bind_apply, bind_apply]
  rcases readInt16 buf c with _ | ⟨nfields, c₁⟩
  · rfl
  · simp only [Option.bind_some, bind_apply]
    rw [readTupleFrom_eq types fallback buf _ 0]
    rcases rawFields nfields.toNat relation.columns buf c₁ with _ | ⟨fields, c₂⟩
    · rfl
    · simp [pure_apply, objectInterp, Option.map_map, Function.comp_def, pair]

theorem interprets_object (types : TypeParsers V) :
    Interprets (objectReaders types) (objectInterp types) where
  tuple := readTuple_eq types
  key relation buf c := by
    show (keyOf relation <$> readTuple types relation none : BinaryReader (Tuple V)) buf c = _
    rw [map_apply, readTuple_eq]
    rcases rawTuple relation buf c with _ | ⟨raw, c₁⟩
    · rfl
    · simp only [Option.bind_some, objectInterp, Option.map_map]
      rfl

theorem readTupleAsArray_eq (types : TypeParsers V) (relation : MessageRelation)
    (fallback : Option (List (Field V))) (buf : Bytes) (c : Cursor) :
    readTupleAsArray types relation fallback buf c = (rawTuple relation buf c).bind fun p =>
      ((arrayInterp types).tuple relation fallback buf p.1).map fun t => (t, p.2) := by
  unfold readTupleAsArray rawTuple
  rw [bind_apply, bind_apply]
  rcases readInt16 buf c with _ | ⟨nfields, c₁⟩
  · rfl
  · simp only [Option.bind_some, bind_apply]
    by_cases hneg : nfields < 0
    · rw [if_pos hneg]
      rcases rawFields nfields.toNat relation.columns buf c₁ with _ | ⟨fields, c₂⟩
      · rfl
      · simp [pure_apply, arrayInterp, hneg, BinaryReader.fail]
    · rw [if_neg hneg, readTupleAsArrayFrom_eq types fallback buf _ 0]
      rcases rawFields nfields.toNat relation.columns buf c₁ with _ | ⟨fields, c₂⟩
      · rfl
      · simp [pure_apply, arrayInterp, hneg]

theorem interprets_array (types : TypeParsers V) :
    Interprets (arrayReaders types) (arrayInterp types) where
  tuple := readTupleAsArray_eq types
  key relation := readTupleAsArray_eq types relation none

/-- 行を持つ message は、配置を読んでから解釈したものである。 -/
theorem readMessage_eq {r : RowReaders K T} {I : Interp K T} (h : Interprets r I) (c : Caches)
    (buf : Bytes) (cur : Cursor) :
    readMessage (msgInsertWith r) (msgUpdateWith r) (msgDeleteWith r) c buf cur =
      match rawMessage c buf cur with
      | some (raw, cur') => (I.message buf raw).map fun m => ((.row m, c), cur')
      | none =>
        (readUint8 buf cur).bind fun p =>
          if p.1 = 0x49 ∨ p.1 = 0x55 ∨ p.1 = 0x44 then none
          else (readPlain c p.1 buf p.2).map fun q => ((.plain q.1.1, q.1.2), q.2) := by
  unfold readMessage rawMessage
  rw [bind_apply, bind_apply]
  rcases readUint8 buf cur with _ | ⟨tag, c₁⟩
  · rfl
  · simp only [Option.bind_some]
    by_cases hi : tag = 0x49
    · rw [if_pos hi, if_pos hi, if_pos (.inl hi), map_apply, msgInsertWith_eq h]
      rcases msgInsertWith rawReaders c buf c₁ with _ | ⟨raw, c₂⟩
      · rfl
      · simp only [Option.bind_some, Option.map_map]
        rfl
    · rw [if_neg hi, if_neg hi]
      by_cases hu : tag = 0x55
      · rw [if_pos hu, if_pos hu, if_pos (.inr (.inl hu)), map_apply, msgUpdateWith_eq h]
        rcases msgUpdateWith rawReaders c buf c₁ with _ | ⟨raw, c₂⟩
        · rfl
        · simp only [Option.bind_some, Option.map_map]
          rfl
      · rw [if_neg hu, if_neg hu]
        by_cases hd : tag = 0x44
        · rw [if_pos hd, if_pos hd, if_pos (.inr (.inr hd)), map_apply, msgDeleteWith_eq h]
          rcases msgDeleteWith rawReaders c buf c₁ with _ | ⟨raw, c₂⟩
          · rfl
          · simp only [Option.bind_some, Option.map_map]
            rfl
        · rw [if_neg hd, if_neg hd, if_neg (by rintro (h | h | h); exacts [hi h, hu h, hd h]),
            map_apply]
          rfl

/-! ## 切り詰めた buffer -/

/-- 読むのは範囲を確かめる整数だけである。切り詰めた buffer では、その範囲が残るときにだけ同じ結果になる。 -/
structure Checked (m : BinaryReader α) : Prop where
  grows : ∀ {buf c a c'}, m buf c = some (a, c') → c.checked ≤ c'.checked
  take : ∀ {buf c k}, k ≤ buf.length → c.checked ≤ k →
    m (buf.take k) c = (m buf c).filter fun p => decide (p.2.checked ≤ k)

theorem Checked.pure (a : α) : Checked (pure a : BinaryReader α) where
  grows h := by cases h; exact Nat.le_refl _
  take _ hc := by
    rw [pure_apply, pure_apply, Option.filter_some, if_pos (decide_eq_true hc)]

theorem Checked.fail : Checked (BinaryReader.fail : BinaryReader α) := ⟨nofun, fun _ _ => rfl⟩

theorem Checked.ofOption (o : Option α) : Checked (BinaryReader.ofOption o) := by
  cases o with
  | none => exact Checked.fail
  | some a => exact Checked.pure a

theorem Checked.bind {x : BinaryReader α} {f : α → BinaryReader β} (hx : Checked x)
    (hf : ∀ a, Checked (f a)) : Checked (x >>= f) where
  grows h := by
    rw [bind_apply] at h
    obtain ⟨⟨a, c₁⟩, ha, hb⟩ := Option.bind_eq_some_iff.mp h
    exact (hx.grows ha).trans ((hf a).grows hb)
  take {buf c k} hk hc := by
    rw [bind_apply, bind_apply, hx.take hk hc]
    rcases hxa : x buf c with _ | ⟨a, c₁⟩
    · rfl
    · rw [Option.filter_some]
      by_cases hle : c₁.checked ≤ k
      · rw [if_pos (decide_eq_true hle), Option.bind_some, Option.bind_some]
        exact (hf a).take hk hle
      · rw [if_neg (by simpa using hle), Option.bind_none, Option.bind_some]
        -- 後の読み出しの範囲も残らない
        rcases hfb : f a buf c₁ with _ | ⟨b, c₂⟩
        · rfl
        · have := (hf a).grows hfb
          rw [Option.filter_some, if_neg]
          simp only [decide_eq_true_eq]
          omega

theorem Checked.map {x : BinaryReader α} (hx : Checked x) (f : α → β) : Checked (f <$> x) :=
  hx.bind fun a => Checked.pure (f a)

theorem checked_readBytes (size : Nat) : Checked (readBytes size) where
  grows h := by
    unfold readBytes at h
    split at h
    · cases h
      exact Nat.le_max_left _ _
    · cases h
  take {buf c k} hk hc := by
    unfold readBytes
    rw [List.length_take, Nat.min_eq_left hk]
    by_cases hin : 0 ≤ c.offset ∧ c.offset + size ≤ buf.length
    · rw [if_pos hin, Option.filter_some]
      by_cases hle : c.offset + size ≤ k
      · rw [if_pos ⟨hin.1, hle⟩, if_pos (decide_eq_true (Nat.max_le.mpr ⟨hc, by omega⟩))]
        congr 2
        rw [List.drop_take, List.take_take, Nat.min_eq_left (by omega)]
      · rw [if_neg fun h => hle h.2, if_neg]
        simp only [decide_eq_true_eq, Nat.max_le, not_and]
        omega
    · rw [if_neg hin, if_neg fun h => hin ⟨h.1, by omega⟩]
      rfl

theorem checked_readUint8 : Checked readUint8 := (checked_readBytes 1).map _

theorem checked_readInt16 : Checked readInt16 := (checked_readBytes 2).map _

theorem checked_readInt32 : Checked readInt32 := (checked_readBytes 4).map _

theorem checked_skip (size : Int) : Checked (skip size) where
  grows h := by cases h; exact Nat.le_refl _
  take _ hc := by
    unfold skip
    rw [Option.filter_some, if_pos (decide_eq_true hc)]

theorem checked_rawField : Checked rawField := by
  unfold rawField
  refine checked_readUint8.bind fun kind => ?_
  split
  · exact checked_readInt32.bind fun size => (checked_skip size).bind fun _ => .pure _
  · split
    · exact checked_readInt32.bind fun size => (checked_skip size).bind fun _ => .pure _
    · split
      · exact .pure _
      · split
        · exact .pure _
        · exact .fail

theorem checked_rawFields : ∀ (n : Nat) (columns : List RelationColumn),
    Checked (rawFields n columns)
  | 0, _ => Checked.pure _
  | _ + 1, [] => Checked.fail
  | n + 1, _ :: columns =>
    checked_rawField.bind fun _ => (checked_rawFields n columns).bind fun _ => .pure _

theorem checked_rawTuple (relation : MessageRelation) : Checked (rawTuple relation) :=
  checked_readInt16.bind fun _ => (checked_rawFields _ _).bind fun _ => .pure _

theorem checked_readRelation (c : Caches) : Checked (readRelation c) :=
  checked_readInt32.bind fun _ => .ofOption _

theorem checked_rawMessage (c : Caches) : Checked (rawMessage c) := by
  have htuple := checked_rawTuple
  have hinsert : Checked (msgInsertWith rawReaders c) :=
    (checked_readRelation c).bind fun relation => checked_readUint8.bind fun _ =>
      (htuple relation).bind fun _ => .pure _
  have hupdate : Checked (msgUpdateWith rawReaders c) := by
    refine (checked_readRelation c).bind fun relation => checked_readUint8.bind fun subMsgKey => ?_
    split
    · exact (htuple relation).bind fun _ => checked_readUint8.bind fun _ =>
        (htuple relation).bind fun _ => .pure _
    · split
      · exact (htuple relation).bind fun _ => checked_readUint8.bind fun _ =>
          (htuple relation).bind fun _ => .pure _
      · split
        · exact (htuple relation).bind fun _ => .pure _
        · exact .fail
  have hdelete : Checked (msgDeleteWith rawReaders c) := by
    refine (checked_readRelation c).bind fun relation => checked_readUint8.bind fun subMsgKey => ?_
    split
    · exact (htuple relation).bind fun _ => .pure _
    · split
      · exact (htuple relation).bind fun _ => .pure _
      · exact .fail
  refine checked_readUint8.bind fun tag => ?_
  split
  · exact hinsert
  · split
    · exact hupdate
    · split
      · exact hdelete
      · exact .fail

/-! ## 値の終わり -/

/-- 値はすでに読んだ整数の後に始まり、次に整数を読んだ範囲の中か、今の位置で終わる。 -/
structure Ends (fields : List RawField) (c : Cursor) : Prop where
  span : ∀ f ∈ fields, ∀ o s, f.span = some (o, s) →
    o ≤ c.checked ∧ (o + s < c.checked ∨ o + s = c.offset)
  last : c.offset ≤ c.checked ∨ ∃ f ∈ fields, ∃ o s, f.span = some (o, s) ∧ o + s = c.offset

/-- 整数を読んだ直後。どの値も、整数を読んだ範囲の中で終わる。 -/
structure Enclosed (fields : List RawField) (c : Cursor) : Prop where
  span : ∀ f ∈ fields, ∀ o s, f.span = some (o, s) → o ≤ c.checked ∧ o + s < c.checked
  offset : c.offset ≤ c.checked

theorem Enclosed.ends {fields : List RawField} {c : Cursor} (h : Enclosed fields c) :
    Ends fields c :=
  ⟨fun f hf o s hs => (h.span f hf o s hs).imp_right .inl, .inl h.offset⟩

theorem ends_init : Ends [] ⟨0, 0⟩ := ⟨nofun, .inl (Int.le_refl _)⟩

/-- 整数を読む。 -/
theorem Ends.read {fields : List RawField} {c c' : Cursor} (h : Ends fields c) {size : Nat}
    (hsize : 0 < size) {buf : Bytes} {f : Bytes → α} {a : α}
    (hr : (f <$> readBytes size : BinaryReader α) buf c = some (a, c')) : Enclosed fields c' := by
  rw [map_apply] at hr
  obtain ⟨⟨bytes, c₁⟩, hb, heq⟩ := Option.map_eq_some_iff.mp hr
  cases heq
  unfold readBytes at hb
  split at hb
  · next hin =>
    cases hb
    refine ⟨fun f hf o s hs => ?_, ?_⟩
    · obtain ⟨ho, hend⟩ := h.span f hf o s hs
      dsimp only
      omega
    · dsimp only
      omega
  · cases hb

/-- 値を飛ばす。 -/
theorem Enclosed.skip {fields : List RawField} {c : Cursor} (h : Enclosed fields c)
    {field : RawField} {size : Int} (hf : field.span = some (c.offset, size)) :
    Ends (fields ++ [field]) ⟨c.offset + size, c.checked⟩ := by
  refine ⟨fun f hmem o s hs => ?_, .inr ⟨field, by simp, c.offset, size, hf, rfl⟩⟩
  rcases List.mem_append.mp hmem with hmem | hmem
  · exact (h.span f hmem o s hs).imp_right .inl
  · obtain rfl := List.mem_singleton.mp hmem
    obtain ⟨rfl, rfl⟩ := Prod.mk.inj (Option.some.inj (hs.symm.trans hf))
    exact ⟨h.offset, .inr rfl⟩

/-- 値の無い列。 -/
theorem Ends.plain {fields : List RawField} {c : Cursor} (h : Ends fields c) {field : RawField}
    (hf : field.span = none) : Ends (fields ++ [field]) c := by
  refine ⟨fun f hmem o s hs => ?_, h.last.imp_right fun ⟨f, hmem, hrest⟩ =>
    ⟨f, List.mem_append_left _ hmem, hrest⟩⟩
  rcases List.mem_append.mp hmem with hmem | hmem
  · exact h.span f hmem o s hs
  · rw [List.mem_singleton.mp hmem, hf] at hs
    cases hs

theorem Ends.rawField {fields : List RawField} {c c' : Cursor} (h : Ends fields c) {buf : Bytes}
    {field : RawField} (hr : rawField buf c = some (field, c')) : Ends (fields ++ [field]) c' := by
  unfold Pgoutput.rawField at hr
  rw [bind_apply] at hr
  obtain ⟨⟨kind, c₁⟩, hkind, hr⟩ := Option.bind_eq_some_iff.mp hr
  have h₁ := (h.read (by decide) hkind).ends
  dsimp only at hr
  split at hr
  · rw [bind_apply] at hr
    obtain ⟨⟨size, c₂⟩, hsize, hr⟩ := Option.bind_eq_some_iff.mp hr
    have h₂ := h₁.read (by decide) hsize
    cases hr
    exact h₂.skip rfl
  · split at hr
    · rw [bind_apply] at hr
      obtain ⟨⟨size, c₂⟩, hsize, hr⟩ := Option.bind_eq_some_iff.mp hr
      have h₂ := h₁.read (by decide) hsize
      cases hr
      exact h₂.skip rfl
    · split at hr
      · cases hr
        exact h₁.plain rfl
      · split at hr
        · cases hr
          exact h₁.plain rfl
        · cases hr

theorem Ends.rawFields {buf : Bytes} {c' : Cursor} :
    ∀ {n : Nat} {columns : List RelationColumn} {fields rest : List RawField} {c : Cursor},
      Ends fields c → rawFields n columns buf c = some (rest, c') → Ends (fields ++ rest) c'
  | 0, _, fields, _, _, h, hr => by
    cases hr
    rw [List.append_nil]
    exact h
  | _ + 1, [], _, _, _, _, hr => by cases hr
  | n + 1, _ :: columns, fields, rest, c, h, hr => by
    rw [Pgoutput.rawFields, bind_apply] at hr
    obtain ⟨⟨field, c₁⟩, hfield, hr⟩ := Option.bind_eq_some_iff.mp hr
    rw [bind_apply] at hr
    obtain ⟨⟨tail, c₂⟩, htail, hr⟩ := Option.bind_eq_some_iff.mp hr
    cases hr
    have := Ends.rawFields (h.rawField hfield) htail
    rwa [List.append_assoc, List.singleton_append] at this

theorem Ends.rawTuple {fields : List RawField} {c c' : Cursor} (h : Ends fields c)
    {relation : MessageRelation} {buf : Bytes} {raw : RawTuple}
    (hr : rawTuple relation buf c = some (raw, c')) : Ends (fields ++ raw.fields) c' := by
  unfold Pgoutput.rawTuple at hr
  rw [bind_apply] at hr
  obtain ⟨⟨nfields, c₁⟩, hn, hr⟩ := Option.bind_eq_some_iff.mp hr
  rw [bind_apply] at hr
  obtain ⟨⟨rest, c₂⟩, hrest, hr⟩ := Option.bind_eq_some_iff.mp hr
  cases hr
  exact (h.read (by decide) hn).ends.rawFields hrest

/-- 読む順に並べた行。key があれば `old` は無い。 -/
def RowMessage.tuples {T : Type} : RowMessage T T → List T
  | .insert _ new => [new]
  | .update _ (some key) _ new => [key, new]
  | .update _ none (some old) new => [old, new]
  | .update _ none none new => [new]
  | .delete _ (some key) _ => [key]
  | .delete _ none (some old) => [old]
  | .delete _ none none => []

def RowMessage.relation {K T : Type} : RowMessage K T → MessageRelation
  | .insert relation _ => relation
  | .update relation _ _ _ => relation
  | .delete relation _ _ => relation

def rawFieldsOf (raw : RowMessage RawTuple RawTuple) : List RawField :=
  raw.tuples.flatMap RawTuple.fields

theorem ends_rawMessage {c : Caches} {buf : Bytes} {raw : RowMessage RawTuple RawTuple}
    {c' : Cursor} (hr : rawMessage c buf ⟨0, 0⟩ = some (raw, c')) : Ends (rawFieldsOf raw) c' := by
  unfold rawMessage at hr
  rw [bind_apply] at hr
  obtain ⟨⟨tag, c₁⟩, htag, hr⟩ := Option.bind_eq_some_iff.mp hr
  have h₁ := (ends_init.read (by decide) htag).ends
  -- relation を読む
  have hrelation : ∀ {relation c₂}, readRelation c buf c₁ = some (relation, c₂) → Ends [] c₂ := by
    intro relation c₂ h
    unfold readRelation at h
    rw [bind_apply] at h
    obtain ⟨⟨oid, c₃⟩, hoid, h⟩ := Option.bind_eq_some_iff.mp h
    have h₃ := (h₁.read (by decide) hoid).ends
    dsimp only at h
    cases ho : c.relations oid with
    | none => rw [ho] at h; cases h
    | some relation => rw [ho] at h; cases h; exact h₃
  dsimp only at hr
  split at hr
  · unfold msgInsertWith at hr
    simp only [bind_apply] at hr
    obtain ⟨⟨relation, c₂⟩, hrel, hr⟩ := Option.bind_eq_some_iff.mp hr
    obtain ⟨⟨_, c₃⟩, hkind, hr⟩ := Option.bind_eq_some_iff.mp hr
    obtain ⟨⟨new, c₄⟩, hnew, hr⟩ := Option.bind_eq_some_iff.mp hr
    cases hr
    have := ((hrelation hrel).read (by decide) hkind).ends.rawTuple hnew
    simpa [rawFieldsOf, RowMessage.tuples] using this
  · split at hr
    · unfold msgUpdateWith at hr
      simp only [bind_apply] at hr
      obtain ⟨⟨relation, c₂⟩, hrel, hr⟩ := Option.bind_eq_some_iff.mp hr
      obtain ⟨⟨subMsgKey, c₃⟩, hkind, hr⟩ := Option.bind_eq_some_iff.mp hr
      have h₃ := ((hrelation hrel).read (by decide) hkind).ends
      dsimp only at hr
      split at hr
      · simp only [bind_apply] at hr
        obtain ⟨⟨key, c₄⟩, hkey, hr⟩ := Option.bind_eq_some_iff.mp hr
        obtain ⟨⟨_, c₅⟩, hkind', hr⟩ := Option.bind_eq_some_iff.mp hr
        obtain ⟨⟨new, c₆⟩, hnew, hr⟩ := Option.bind_eq_some_iff.mp hr
        cases hr
        have := ((h₃.rawTuple hkey).read (by decide) hkind').ends.rawTuple hnew
        simpa [rawFieldsOf, RowMessage.tuples] using this
      · split at hr
        · simp only [bind_apply] at hr
          obtain ⟨⟨old, c₄⟩, hold, hr⟩ := Option.bind_eq_some_iff.mp hr
          obtain ⟨⟨_, c₅⟩, hkind', hr⟩ := Option.bind_eq_some_iff.mp hr
          obtain ⟨⟨new, c₆⟩, hnew, hr⟩ := Option.bind_eq_some_iff.mp hr
          cases hr
          have := ((h₃.rawTuple hold).read (by decide) hkind').ends.rawTuple hnew
          simpa [rawFieldsOf, RowMessage.tuples] using this
        · split at hr
          · simp only [bind_apply] at hr
            obtain ⟨⟨new, c₄⟩, hnew, hr⟩ := Option.bind_eq_some_iff.mp hr
            cases hr
            have := h₃.rawTuple hnew
            simpa [rawFieldsOf, RowMessage.tuples] using this
          · cases hr
    · split at hr
      · unfold msgDeleteWith at hr
        simp only [bind_apply] at hr
        obtain ⟨⟨relation, c₂⟩, hrel, hr⟩ := Option.bind_eq_some_iff.mp hr
        obtain ⟨⟨subMsgKey, c₃⟩, hkind, hr⟩ := Option.bind_eq_some_iff.mp hr
        have h₃ := ((hrelation hrel).read (by decide) hkind).ends
        dsimp only at hr
        split at hr
        · simp only [bind_apply] at hr
          obtain ⟨⟨key, c₄⟩, hkey, hr⟩ := Option.bind_eq_some_iff.mp hr
          cases hr
          have := h₃.rawTuple hkey
          simpa [rawFieldsOf, RowMessage.tuples] using this
        · split at hr
          · simp only [bind_apply] at hr
            obtain ⟨⟨old, c₄⟩, hold, hr⟩ := Option.bind_eq_some_iff.mp hr
            cases hr
            have := h₃.rawTuple hold
            simpa [rawFieldsOf, RowMessage.tuples] using this
          · cases hr
      · cases hr

end Replication.Pgoutput
