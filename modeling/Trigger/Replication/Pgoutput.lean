import Mathlib.Algebra.Group.Int.Defs
import Mathlib.Logic.Function.Basic
import Trigger.Infra.Record
import Trigger.Replication.Rows

/-!
# pgoutput の復号

`BinaryReader` と `PgoutputParser`。`parse` は行を列名を key とする object に、`parseArray` は配列に読む。
tag による分岐と message の形は二つの関数で同じなので、行の読み方（`RowReaders`）を引数とする一つの定義に
する。

整数は範囲の外を読むと例外になり、`read` は範囲の外を切り詰めるだけである。`BinaryReader` の位置には、整数を読んだ
最後の位置（`checked`）を記録する。これは code には無い。
-/

namespace Replication.Pgoutput

open Infra

/-! ## `BinaryReader` -/

abbrev Bytes := List UInt8

/-- 読む位置。負の長さの `read` で戻ることがある。 -/
structure Cursor where
  offset : Int
  /-- 整数として読んだ範囲の終わりの最大値。 -/
  checked : Nat
deriving DecidableEq

/-- 失敗（例外）は `none` である。 -/
abbrev BinaryReader (α : Type) := ReaderT Bytes (StateT Cursor Option) α

namespace BinaryReader

variable {α : Type}

def fail : BinaryReader α := fun _ _ => none

def ofOption : Option α → BinaryReader α
  | some a => pure a
  | none => fail

/-- `size` byte の整数を読む。範囲の外なら RangeError になる。 -/
def readBytes (size : Nat) : BinaryReader Bytes := fun buf c =>
  if 0 ≤ c.offset ∧ c.offset + size ≤ buf.length then
    some ((buf.drop c.offset.toNat).take size,
      ⟨c.offset + size, max c.checked (c.offset.toNat + size)⟩)
  else none

/-- big endian の値。 -/
def bigEndian (bytes : Bytes) : Nat := bytes.foldl (fun n b => n * 256 + b.toNat) 0

/-- 二の補数。 -/
def signed (bits n : Nat) : Int := if n < 2 ^ (bits - 1) then n else n - 2 ^ bits

def readUint8 : BinaryReader Nat := bigEndian <$> readBytes 1

def readInt16 : BinaryReader Int := (fun b => signed 16 (bigEndian b)) <$> readBytes 2

def readInt32 : BinaryReader Int := (fun b => signed 32 (bigEndian b)) <$> readBytes 4

def readUint32 : BinaryReader Nat := (fun v => (v % 2 ^ 32).toNat) <$> readInt32

def readUint64 : BinaryReader Nat := do
  let upper ← readUint32
  let lower ← readUint32
  return (upper <<< 32) ||| lower

/-- `subarray` の端。負の値は末尾から数える。 -/
def clamp (length : Nat) (i : Int) : Nat :=
  if i < 0 then (length + i).toNat else min i.toNat length

/-- `buf.subarray(start, end)`。 -/
def subarray (buf : Bytes) (start stop : Int) : Bytes :=
  (buf.drop (clamp buf.length start)).take (clamp buf.length stop - clamp buf.length start)

/-- `read(len)`。範囲を確かめない。 -/
def read (size : Int) : BinaryReader Bytes := fun buf c =>
  some (subarray buf c.offset (c.offset + size), ⟨c.offset + size, c.checked⟩)

end BinaryReader

/-! ### UTF-8 -/

/-- 復号の途中の文字。 -/
structure Utf8State where
  needed : Nat
  codePoint : Nat
  lower : Nat
  upper : Nat

def Utf8State.init : Utf8State := ⟨0, 0, 0x80, 0xBF⟩

/-- 不正な列に代わる文字。 -/
def replacement : Char := Char.ofNat 0xFFFD

/-- 文字の最初の byte。 -/
def utf8Start (b : Nat) (out : List Char) : Utf8State × List Char :=
  if b < 0x80 then (.init, out ++ [Char.ofNat b])
  else if 0xC2 ≤ b ∧ b ≤ 0xDF then (⟨1, b - 0xC0, 0x80, 0xBF⟩, out)
  else if 0xE0 ≤ b ∧ b ≤ 0xEF then
    (⟨2, b - 0xE0, if b = 0xE0 then 0xA0 else 0x80, if b = 0xED then 0x9F else 0xBF⟩, out)
  else if 0xF0 ≤ b ∧ b ≤ 0xF4 then
    (⟨3, b - 0xF0, if b = 0xF0 then 0x90 else 0x80, if b = 0xF4 then 0x8F else 0xBF⟩, out)
  else (.init, out ++ [replacement])

/-- 次の byte。続きの範囲に無ければ置き換えて、文字の最初として読み直す。 -/
def utf8Step (s : Utf8State × List Char) (byte : UInt8) : Utf8State × List Char :=
  let b := byte.toNat
  if s.1.needed = 0 then utf8Start b s.2
  else if s.1.lower ≤ b ∧ b ≤ s.1.upper then
    let codePoint := s.1.codePoint * 64 + (b - 0x80)
    if s.1.needed = 1 then (.init, s.2 ++ [Char.ofNat codePoint])
    else (⟨s.1.needed - 1, codePoint, 0x80, 0xBF⟩, s.2)
  else utf8Start b (s.2 ++ [replacement])

/-- `decodeText`。 -/
def decodeText (buf : Bytes) : String :=
  let s := buf.foldl utf8Step (Utf8State.init, [])
  String.ofList (if s.1.needed = 0 then s.2 else s.2 ++ [replacement])

namespace BinaryReader

/-- `0` で終わる文字列。ここまで `read` は使われないので、位置は負でない。 -/
def readString : BinaryReader String := fun buf c =>
  let rest := buf.drop c.offset.toNat
  let text := rest.takeWhile (· ≠ 0)
  if text.length < rest.length then
    some (decodeText text, ⟨c.offset + text.length + 1,
      max c.checked (c.offset.toNat + text.length + 1)⟩)
  else none

/-- LSN の文字列。`0/0` は `null` である。 -/
def readLsn : BinaryReader (Option String) := do
  let upper ← readUint32
  let lower ← readUint32
  if upper = 0 ∧ lower = 0 then return none
  else return some (padHex (hexText upper) ++ "/" ++ padHex (hexText lower))

def readTime : BinaryReader Nat := (· + 946684800000000) <$> readUint64

/-- `array(n, fn)`。負の `n` は空になる。 -/
def array {α : Type} (fn : BinaryReader α) : Nat → BinaryReader (List α)
  | 0 => pure []
  | n + 1 => do
    let a ← fn
    let rest ← array fn n
    return a :: rest

end BinaryReader

open BinaryReader

/-! ## message -/

structure RelationColumn where
  flags : Nat
  name : String
  typeOid : Int
  typeMod : Int
  typeSchema : Option String
  typeName : Option String
deriving DecidableEq

structure MessageRelation where
  relationOid : Int
  schema : String
  name : String
  replicaIdentity : String
  columns : List RelationColumn
  keyColumns : List String
deriving DecidableEq

/-- 列の値。`parsed` は列の型の parser の結果で、`null` になることもある。 -/
inductive Field (V : Type)
  | null
  | undefined
  | binary (bytes : Bytes)
  | parsed (value : V)
deriving DecidableEq

/-- 行を持つ message。`K` は key の行、`T` は `old` と `new` の行である。 -/
inductive RowMessage (K T : Type)
  | insert (relation : MessageRelation) (new : T)
  | update (relation : MessageRelation) (key : Option K) (old : Option T) (new : T)
  | delete (relation : MessageRelation) (key : Option K) (old : Option T)
deriving DecidableEq

/-- 行を持たない message。 -/
inductive PlainMessage
  | begin (commitLsn : Option String) (commitTime : Nat) (xid : Int)
  | origin (originLsn : Option String) (originName : String)
  | type (typeOid : Int) (typeSchema typeName : String)
  | relation (relation : MessageRelation)
  | truncate (cascade restartIdentity : Bool) (relations : List (Option MessageRelation))
  | message (flags : Nat) (transactional : Bool) (messageLsn : Option String) (text : String)
      (content : Bytes)
  | commit (flags : Nat) (commitLsn commitEndLsn : Option String) (commitTime : Nat)

inductive PgoutputMessage (K T : Type)
  | plain (message : PlainMessage)
  | row (message : RowMessage K T)

/-- `_typeCache` と `_relationCache`。 -/
structure Caches where
  types : Int → Option (String × String)
  relations : Int → Option MessageRelation

def Caches.empty : Caches := ⟨fun _ => none, fun _ => none⟩

/-- `types.getTypeParser(typeOid)`。例外は `none` である。 -/
abbrev TypeParsers (V : Type) := Int → String → Option (Field V)

variable {V K T : Type}

/-! ## 行 -/

/-- 列名を key とする object。 -/
abbrev Tuple (V : Type) := JsMap (Field V)

/-- 一つの列。`unchanged` は `u` の列の値である。 -/
def readField (types : TypeParsers V) (typeOid : Int) (unchanged : Field V) :
    BinaryReader (Field V) := do
  let kind ← readUint8
  if kind = 0x62 then
    let size ← readInt32
    let bytes ← read size
    return .binary bytes
  else if kind = 0x74 then
    let size ← readInt32
    let bytes ← read size
    ofOption (types typeOid (decodeText bytes))
  else if kind = 0x6e then return .null
  else if kind = 0x75 then return unchanged
  else fail

/-- `unchangedToastFallback?.[name]`。 -/
def fallbackByName (fallback : Option (Tuple V)) (name : String) : Field V :=
  ((fallback.bind fun old => old.get name)).getD .undefined

/-- `unchangedToastFallback?.[i]`。 -/
def fallbackByIndex (fallback : Option (List (Field V))) (i : Nat) : Field V :=
  ((fallback.bind fun old => old[i]?)).getD .undefined

/-- `readTuple` の `for` 文。列が足りなければ TypeError になる。 -/
def readTupleFrom (types : TypeParsers V) (fallback : Option (Tuple V)) :
    Nat → List RelationColumn → Tuple V → BinaryReader (Tuple V)
  | 0, _, tuple => pure tuple
  | _ + 1, [], _ => fail
  | n + 1, column :: columns, tuple => do
    let value ← readField types column.typeOid (fallbackByName fallback column.name)
    readTupleFrom types fallback n columns (tuple.set column.name value)

def readTuple (types : TypeParsers V) (relation : MessageRelation) (fallback : Option (Tuple V)) :
    BinaryReader (Tuple V) := do
  let nfields ← readInt16
  readTupleFrom types fallback nfields.toNat relation.columns []

/-- `readTupleAsArray` の `for` 文。`i` は列の番号である。 -/
def readTupleAsArrayFrom (types : TypeParsers V) (fallback : Option (List (Field V))) :
    Nat → Nat → List RelationColumn → BinaryReader (List (Field V))
  | 0, _, _ => pure []
  | _ + 1, _, [] => fail
  | n + 1, i, column :: columns => do
    let value ← readField types column.typeOid (fallbackByIndex fallback i)
    let rest ← readTupleAsArrayFrom types fallback n (i + 1) columns
    return value :: rest

/-- `new Array(nfields)` は負の長さを受け付けない。 -/
def readTupleAsArray (types : TypeParsers V) (relation : MessageRelation)
    (fallback : Option (List (Field V))) : BinaryReader (List (Field V)) := do
  let nfields ← readInt16
  if nfields < 0 then fail
  else readTupleAsArrayFrom types fallback nfields.toNat 0 relation.columns

/-- key の列だけを残し、`null` を `undefined` と読む。 -/
def keyOf (relation : MessageRelation) (tuple : Tuple V) : Tuple V :=
  relation.keyColumns.foldl
    (fun key k =>
      key.set k (match tuple.get k with
        | some .null => .undefined
        | some value => value
        | none => .undefined)) []

def readKeyTuple (types : TypeParsers V) (relation : MessageRelation) : BinaryReader (Tuple V) :=
  keyOf relation <$> readTuple types relation none

/-! ## 行を持つ message -/

/-- 行の読み方。 -/
structure RowReaders (K T : Type) where
  key : MessageRelation → BinaryReader K
  tuple : MessageRelation → Option T → BinaryReader T

/-- `_relationCache` にある relation。 -/
def readRelation (c : Caches) : BinaryReader MessageRelation := do
  let oid ← readInt32
  ofOption (c.relations oid)

def msgInsertWith (r : RowReaders K T) (c : Caches) : BinaryReader (RowMessage K T) := do
  let relation ← readRelation c
  let _ ← readUint8
  let new ← r.tuple relation none
  return .insert relation new

def msgUpdateWith (r : RowReaders K T) (c : Caches) : BinaryReader (RowMessage K T) := do
  let relation ← readRelation c
  let subMsgKey ← readUint8
  if subMsgKey = 0x4b then
    let key ← r.key relation
    let _ ← readUint8
    let new ← r.tuple relation none
    return .update relation (some key) none new
  else if subMsgKey = 0x4f then
    let old ← r.tuple relation none
    let _ ← readUint8
    let new ← r.tuple relation (some old)
    return .update relation none (some old) new
  else if subMsgKey = 0x4e then
    let new ← r.tuple relation none
    return .update relation none none new
  else fail

def msgDeleteWith (r : RowReaders K T) (c : Caches) : BinaryReader (RowMessage K T) := do
  let relation ← readRelation c
  let subMsgKey ← readUint8
  if subMsgKey = 0x4b then
    let key ← r.key relation
    return .delete relation (some key) none
  else if subMsgKey = 0x4f then
    let old ← r.tuple relation none
    return .delete relation none (some old)
  else fail

def objectReaders (types : TypeParsers V) : RowReaders (Tuple V) (Tuple V) :=
  ⟨readKeyTuple types, readTuple types⟩

def arrayReaders (types : TypeParsers V) : RowReaders (List (Field V)) (List (Field V)) :=
  ⟨fun relation => readTupleAsArray types relation none, readTupleAsArray types⟩

def msgInsert (types : TypeParsers V) (c : Caches) :
    BinaryReader (RowMessage (Tuple V) (Tuple V)) :=
  msgInsertWith (objectReaders types) c

def msgUpdate (types : TypeParsers V) (c : Caches) :
    BinaryReader (RowMessage (Tuple V) (Tuple V)) :=
  msgUpdateWith (objectReaders types) c

def msgDelete (types : TypeParsers V) (c : Caches) :
    BinaryReader (RowMessage (Tuple V) (Tuple V)) :=
  msgDeleteWith (objectReaders types) c

def msgInsertArray (types : TypeParsers V) (c : Caches) :
    BinaryReader (RowMessage (List (Field V)) (List (Field V))) :=
  msgInsertWith (arrayReaders types) c

def msgUpdateArray (types : TypeParsers V) (c : Caches) :
    BinaryReader (RowMessage (List (Field V)) (List (Field V))) :=
  msgUpdateWith (arrayReaders types) c

def msgDeleteArray (types : TypeParsers V) (c : Caches) :
    BinaryReader (RowMessage (List (Field V)) (List (Field V))) :=
  msgDeleteWith (arrayReaders types) c

/-! ## ほかの message -/

def msgBegin : BinaryReader PlainMessage := do
  let commitLsn ← readLsn
  let commitTime ← readTime
  let xid ← readInt32
  return .begin commitLsn commitTime xid

def msgOrigin : BinaryReader PlainMessage := do
  let originLsn ← readLsn
  let originName ← readString
  return .origin originLsn originName

def msgType : BinaryReader (Int × String × String) := do
  let typeOid ← readInt32
  let typeSchema ← readString
  let typeName ← readString
  return (typeOid, typeSchema, typeName)

def readRelationReplicaIdentity : BinaryReader String := do
  let ident ← readUint8
  if ident = 0x64 then return "default"
  else if ident = 0x6e then return "nothing"
  else if ident = 0x66 then return "full"
  else if ident = 0x69 then return "index"
  else fail

def readRelationColumn (c : Caches) : BinaryReader RelationColumn := do
  let flags ← readUint8
  let name ← readString
  let typeOid ← readInt32
  let typeMod ← readInt32
  return ⟨flags, name, typeOid, typeMod, (c.types typeOid).map Prod.fst,
    (c.types typeOid).map Prod.snd⟩

def msgRelation (c : Caches) : BinaryReader MessageRelation := do
  let relationOid ← readInt32
  let schema ← readString
  let name ← readString
  let replicaIdentity ← readRelationReplicaIdentity
  let ncolumns ← readInt16
  let columns ← array (readRelationColumn c) ncolumns.toNat
  let keyColumns := (columns.filter (·.flags % 2 = 1)).map (·.name)
  return ⟨relationOid, schema, name, replicaIdentity, columns, keyColumns⟩

def msgTruncate (c : Caches) : BinaryReader PlainMessage := do
  let nrels ← readInt32
  let flags ← readUint8
  let relations ← array (c.relations <$> readInt32) nrels.toNat
  return .truncate (flags % 2 = 1) (flags / 2 % 2 = 1) relations

def msgMessage : BinaryReader PlainMessage := do
  let flags ← readUint8
  let messageLsn ← readLsn
  let text ← readString
  let size ← readInt32
  let content ← read size
  return .message flags (flags % 2 = 1) messageLsn text content

def msgCommit : BinaryReader PlainMessage := do
  let flags ← readUint8
  let commitLsn ← readLsn
  let commitEndLsn ← readLsn
  let commitTime ← readTime
  return .commit flags commitLsn commitEndLsn commitTime

/-! ## `PgoutputParser` -/

/-- 行を持たない message と、その後の cache。 -/
def readPlain (c : Caches) (tag : Nat) : BinaryReader (PlainMessage × Caches) :=
  if tag = 0x42 then (·, c) <$> msgBegin
  else if tag = 0x4f then (·, c) <$> msgOrigin
  else if tag = 0x59 then
    (fun (oid, schema, name) =>
      (.type oid schema name,
        { c with types := Function.update c.types oid (some (schema, name)) }))
      <$> msgType
  else if tag = 0x52 then
    (fun relation =>
      (.relation relation,
        { c with relations := Function.update c.relations relation.relationOid (some relation) }))
      <$> msgRelation c
  else if tag = 0x54 then (·, c) <$> msgTruncate c
  else if tag = 0x4d then (·, c) <$> msgMessage
  else if tag = 0x43 then (·, c) <$> msgCommit
  else fail

/-- 三種類の行の message の読み方を引数とする `switch`。 -/
def readMessage (insert update delete : Caches → BinaryReader (RowMessage K T)) (c : Caches) :
    BinaryReader (PgoutputMessage K T × Caches) := do
  let tag ← readUint8
  if tag = 0x49 then (fun message => (.row message, c)) <$> insert c
  else if tag = 0x55 then (fun message => (.row message, c)) <$> update c
  else if tag = 0x44 then (fun message => (.row message, c)) <$> delete c
  else (fun p => (.plain p.1, p.2)) <$> readPlain c tag

/-- buffer 全体を読む。例外は `none` である。 -/
def runReader {α : Type} (m : BinaryReader α) (buf : Bytes) : Option α :=
  (m buf ⟨0, 0⟩).map Prod.fst

/-- `parse(buf)` の message と、その後の cache。 -/
def parse (types : TypeParsers V) (c : Caches) (buf : Bytes) :
    Option (PgoutputMessage (Tuple V) (Tuple V) × Caches) :=
  runReader (readMessage (msgInsert types) (msgUpdate types) (msgDelete types) c) buf

/-- `parseArray(buf)`。 -/
def parseArray (types : TypeParsers V) (c : Caches) (buf : Bytes) :
    Option (PgoutputMessage (List (Field V)) (List (Field V)) × Caches) :=
  runReader (readMessage (msgInsertArray types) (msgUpdateArray types) (msgDeleteArray types) c) buf

/-- 例外のとき、cache は変わらない。 -/
def cachesAfter {α : Type} (c : Caches) (result : Option (α × Caches)) : Caches :=
  (result.map Prod.snd).getD c

end Replication.Pgoutput
