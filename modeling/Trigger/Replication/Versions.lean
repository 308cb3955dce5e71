import Trigger.Replication.Durable

/-!
# backfill の版

`lsnToUInt64` は LSN の文字列を 16 進の数の組として読む。pgoutput の文字列については `Lsn` の値に一致する
（`lsnTextToUInt64_padded`）ので、版の順は LSN の順である。

`backfill` は現在時刻（ミリ秒）を LSN の上位 32 bit の位置に置く。2020 年より後の時刻は 32 bit に収まらないので、
作られた版は UInt64 の外にあり、どの LSN の版よりも大きい（`backfill_order_iff`）。
-/

namespace Replication

open Infra.Text

variable {J : Type}

/-! ## 16 進の文字列 -/

/-- 16 進の数字の値。 -/
def hexDigit? (c : Char) : Option Nat :=
  if '0' ≤ c ∧ c ≤ '9' then some (c.toNat - '0'.toNat)
  else if 'a' ≤ c ∧ c ≤ 'f' then some (c.toNat - 'a'.toNat + 10)
  else if 'A' ≤ c ∧ c ≤ 'F' then some (c.toNat - 'A'.toNat + 10)
  else none

/-- 数字の列を `n` に続けて読む。 -/
def readHex (n : Nat) : List Char → Option Nat
  | [] => some n
  | c :: cs => do
    let d ← hexDigit? c
    readHex (16 * n + d) cs

/-- `BigInt("0x" + s)`。数字の無い文字列と 16 進でない文字は SyntaxError になる。 -/
def bigIntHex (s : String) : Option Nat := if s = "" then none else readHex 0 s.toList

/-- 文字列を `/` で分けた先頭の二つ。 -/
def splitLsn (lsn : String) : Option (String × String) :=
  match lsn.toList.splitOn '/' with
  | seg :: off :: _ => some (String.ofList seg, String.ofList off)
  | _ => none

/-- `lsnToUInt64`。SyntaxError は `none` である。 -/
def lsnTextToUInt64 (lsn : String) : Option Nat := do
  let (seg, off) ← splitLsn lsn
  let seg ← bigIntHex seg
  let off ← bigIntHex off
  return (seg <<< 32) ||| off

/-! ## 数の文字列 -/

theorem readHex_append (n : Nat) (l r : List Char) :
    readHex n (l ++ r) = (readHex n l).bind (readHex · r) := by
  induction l generalizing n with
  | nil => rfl
  | cons c l ih =>
    rw [List.cons_append, readHex, readHex]
    rcases hexDigit? c with _ | d
    · rfl
    · exact ih _

theorem hexDigit?_digitChar : ∀ d < 16, hexDigit? (Nat.digitChar d).toUpper = some d := by decide

/-- `toString(16)` の数字を読むと元の数になる。 -/
theorem readHex_toDigits (n : Nat) :
    readHex 0 ((Nat.toDigits 16 n).map Char.toUpper) = some n := by
  induction n using Nat.strong_induction_on with
  | _ n ih =>
    rw [Nat.toDigits_eq_if (by decide)]
    split
    · next h => rw [List.map_singleton, readHex, hexDigit?_digitChar n h]; simp [readHex]
    · next h =>
      have hlt : n / 16 < n := Nat.div_lt_self (by omega) (by decide)
      have hmod : n % 16 < 16 := Nat.mod_lt n (by decide)
      rw [List.map_append, readHex_append, ih _ hlt, List.map_singleton]
      simp only [Option.bind_some, readHex, hexDigit?_digitChar _ hmod]
      have : 16 * (n / 16) + n % 16 = n := Nat.div_add_mod n 16
      simp [this]

theorem readHex_zeros (k : Nat) : readHex 0 (List.replicate k '0') = some 0 := by
  induction k with
  | zero => rfl
  | succ k ih => rw [List.replicate_succ]; exact ih

theorem bigIntHex_hexText (n : Nat) : bigIntHex (hexText n) = some n := by
  unfold bigIntHex hexText
  rw [if_neg, String.toList_ofList, readHex_toDigits]
  intro h
  have := congrArg String.toList h
  simp [Nat.toDigits_ne_nil] at this

theorem bigIntHex_padHex (n : Nat) : bigIntHex (padHex (hexText n)) = some n := by
  have h := bigIntHex_hexText n
  unfold bigIntHex at h ⊢
  split at h
  · cases h
  · next hne =>
    rw [if_neg, padHex, String.toList_append, String.toList_ofList, readHex_append, readHex_zeros]
    · exact h
    · intro hempty
      have := congrArg String.toList hempty
      simp only [padHex, String.toList_append, String.toList_empty, List.append_eq_nil_iff] at this
      exact hne (String.toList_inj.mp this.2)

/-! ## LSN の文字列 -/

theorem slash_notMem_hexText (n : Nat) : '/' ∉ (hexText n).toList := by
  intro hmem
  have hall : ∀ l m k, readHex m l = some k → '/' ∉ l := by
    intro l
    induction l with
    | nil => simp
    | cons c l ih =>
      intro m k h
      rw [readHex] at h
      rcases hd : hexDigit? c with _ | d
      · rw [hd] at h; cases h
      · rw [hd] at h
        rw [List.mem_cons, not_or]
        refine ⟨?_, ih _ _ h⟩
        rintro rfl
        cases hd
  refine hall _ 0 n ?_ hmem
  rw [hexText, String.toList_ofList, readHex_toDigits]

theorem slash_notMem_padHex (n : Nat) : '/' ∉ (padHex (hexText n)).toList := by
  rw [padHex, String.toList_append, String.toList_ofList, List.mem_append, not_or]
  refine ⟨fun h => ?_, slash_notMem_hexText n⟩
  exact absurd (List.eq_of_mem_replicate h) (by decide)

theorem splitLsn_append {seg off : String} (hseg : '/' ∉ seg.toList) (hoff : '/' ∉ off.toList) :
    splitLsn (seg ++ "/" ++ off) = some (seg, off) := by
  unfold splitLsn
  have hslash : ("/" : String).toList = ['/'] := rfl
  rw [String.toList_append, String.toList_append, hslash, List.append_assoc, List.singleton_append,
    List.splitOn_append_cons_self, List.splitOn_eq_singleton hseg, List.splitOn_eq_singleton hoff]
  simp

/-- pgoutput の文字列の版は、LSN の版である。 -/
theorem lsnTextToUInt64_padded (l : Lsn) : lsnTextToUInt64 l.padded = some (lsnToUInt64 l) := by
  unfold lsnTextToUInt64 Lsn.padded
  rw [splitLsn_append (slash_notMem_padHex _) (slash_notMem_padHex _)]
  simp [bigIntHex_padHex, lsnToUInt64]

theorem lsnToUInt64_lt (l : Lsn) : lsnToUInt64 l < 2 ^ 64 := by
  rw [lsnToUInt64_eq]
  have := l.upper.isLt
  have := l.lower.isLt
  omega

/-! ## backfill -/

/-- `backfill` が現在時刻から作る LSN。 -/
def syntheticLsn (now : Nat) : String := padHex (hexText now) ++ "/00000000"

/-- `backfill` が `#flushBatch` に渡す変更。 -/
def backfill (now : Nat) (runs : List (PostgresTaskRun J)) : Option (List (TaskRunInsert J)) :=
  (lsnTextToUInt64 (syntheticLsn now)).map fun baseVersion =>
    runs.mapIdx fun index run => ⟨baseVersion + index, run, .insert⟩

theorem lsnTextToUInt64_syntheticLsn (now : Nat) :
    lsnTextToUInt64 (syntheticLsn now) = some (now * 2 ^ 32) := by
  unfold lsnTextToUInt64 syntheticLsn
  have hslash : ("/00000000" : String) = "/" ++ "00000000" := rfl
  rw [hslash, ← String.append_assoc, splitLsn_append (slash_notMem_padHex now) (by decide)]
  have hzero : bigIntHex "00000000" = some 0 := by decide
  simp [bigIntHex_padHex, hzero, Nat.shiftLeft_eq]

/-- backfill された run の版は、時刻を 32 bit ずらした数から一つずつ増える。 -/
theorem mem_backfill {now : Nat} {runs : List (PostgresTaskRun J)} {items : List (TaskRunInsert J)}
    (h : backfill now runs = some items) {item : TaskRunInsert J} (hitem : item ∈ items) :
    ∃ index < runs.length, item.version = now * 2 ^ 32 + index := by
  rw [backfill, lsnTextToUInt64_syntheticLsn, Option.map_some, Option.some_inj] at h
  subst h
  obtain ⟨index, hlt, rfl⟩ := List.mem_mapIdx.mp hitem
  exact ⟨index, hlt, rfl⟩

theorem backfill_eq_nil {now : Nat} {runs : List (PostgresTaskRun J)}
    {items : List (TaskRunInsert J)} (h : backfill now runs = some items) :
    items = [] ↔ runs = [] := by
  rw [backfill, lsnTextToUInt64_syntheticLsn, Option.map_some, Option.some_inj] at h
  subst h
  simp

/-- 2020 年の始まり。 -/
def year2020 : Nat := 1577836800000

/-- backfill の版は UInt64 に収まる。 -/
def FitsUInt64 (items : List (TaskRunInsert J)) : Prop := ∀ item ∈ items, item.version < 2 ^ 64

/-- 後から commit された変更の版は、同じ run の backfill の版より大きい。 -/
def PrecedesCommit (items : List (TaskRunInsert J)) (commitEndLsn : Lsn) : Prop :=
  ∀ item ∈ items, ∀ change ∈ itemsOf commitEndLsn [⟨.update, item.run⟩], item.version < change.version

/-- **版の順は LSN の順であり、LSN の版は UInt64 に収まる。しかし 2020 年より後の backfill では、run が一つでも
あれば、版は UInt64 に収まらず、後から commit された変更の版より大きい。** -/
theorem backfill_order_iff :
    (∀ a b : Lsn, ∃ v w, lsnTextToUInt64 a.padded = some v ∧ lsnTextToUInt64 b.padded = some w ∧
      v < 2 ^ 64 ∧ (v < w ↔ a.upper < b.upper ∨ a.upper = b.upper ∧ a.lower < b.lower)) ∧
    ∀ now, year2020 ≤ now → ∀ runs : List (PostgresTaskRun J), ∃ items,
      backfill now runs = some items ∧ (FitsUInt64 items ↔ runs = []) ∧
        ∀ commitEndLsn, PrecedesCommit items commitEndLsn ↔ runs = [] := by
  refine ⟨fun a b => ⟨_, _, lsnTextToUInt64_padded a, lsnTextToUInt64_padded b, lsnToUInt64_lt a,
    lsnToUInt64_lt_iff⟩, fun now hnow runs => ?_⟩
  obtain ⟨items, hitems⟩ : ∃ items, backfill now runs = some items := by
    rw [backfill, lsnTextToUInt64_syntheticLsn]
    exact ⟨_, rfl⟩
  have hlarge : ∀ item ∈ items, 2 ^ 64 ≤ item.version := by
    intro item hitem
    obtain ⟨index, -, hversion⟩ := mem_backfill hitems hitem
    have : 1577836800000 ≤ now := hnow
    omega
  have hnil : (∀ item ∈ items, False) ↔ runs = [] := by
    rw [← backfill_eq_nil hitems, List.eq_nil_iff_forall_not_mem]
  refine ⟨items, hitems, ?_, fun commitEndLsn => ?_⟩
  · rw [← hnil]
    exact forall₂_congr fun item hitem => iff_false_intro (not_lt.mpr (hlarge item hitem))
  · rw [← hnil]
    refine forall₂_congr fun item hitem => iff_false_intro fun h => ?_
    have hlt := h _ List.mem_cons_self
    have hbound := hlarge item hitem
    have hreal := lsnToUInt64_lt commitEndLsn
    change item.version < lsnToUInt64 commitEndLsn at hlt
    omega

/-- 2024 年の始まり。 -/
def year2024 : Nat := 1704067200000

/-- 2024 年に backfill した一つの run の版は、UInt64 を超え、後の commit の版を超える。 -/
theorem backfill_order_year2024 :
    ∃ items, backfill year2024 [createdRun "a" (some "PRODUCTION") (some "org")] = some items ∧
      ¬ FitsUInt64 items ∧ ¬ PrecedesCommit items ⟨349, 1509949440⟩ := by
  obtain ⟨items, hitems, hfits, hlater⟩ := (backfill_order_iff (J := String)).2 year2024 (by decide)
    [createdRun "a" (some "PRODUCTION") (some "org")]
  exact ⟨items, hitems, fun h => List.cons_ne_nil _ _ (hfits.mp h),
    fun h => List.cons_ne_nil _ _ ((hlater _).mp h)⟩

/-- その版は `1704067200000 * 2 ^ 32` で、最大の LSN の版よりも大きい。 -/
theorem backfill_overflows :
    ∃ items, backfill year2024 [createdRun "a" (some "PRODUCTION") (some "org")] = some items ∧
      items.map (·.version) = [1704067200000 * 2 ^ 32] ∧ ¬ FitsUInt64 items ∧
        ¬ PrecedesCommit items ⟨4294967295, 4294967295⟩ := by
  refine ⟨_, by rw [backfill, lsnTextToUInt64_syntheticLsn]; rfl, rfl, fun h => ?_, fun h => ?_⟩
  · exact absurd (h _ List.mem_cons_self) (by decide)
  · exact absurd (h _ List.mem_cons_self _ List.mem_cons_self) (by decide)

end Replication
