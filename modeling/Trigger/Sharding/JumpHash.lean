import Mathlib.Algebra.Order.Floor.Semifield
import Mathlib.Data.Fin.VecNotation
import Mathlib.Data.Rat.Floor
import Trigger.RunQueue.Keys

/-!
# jump consistent hash

鍵の 8 byte を種とする乱数列で、候補 `j` を `numBuckets` に届くまで進め、届く直前の候補を bucket とする。

乱数は `2^64` で割った余りに 1 を足すので `2^64` になり得る。そのとき除数は `2^31 + 1` になり、候補が進まない
（`stall`）。停止は「二歩のうちには進む」ことから従い、一貫性は、停滞の前の列が乱数列を逆に辿って一つに
決まることから従う（`stallReach`）。

## 主な結果

* `shards_consistent` — 停止と範囲、bucket を一つ増やしたときの一貫性
* `jumpConsistentHash_moves_back` — bucket の個数が 32 bit を越えるときの反例
-/

namespace Sharding.JumpHash

open RunQueue (masterQueueKeyForShard)

/-! ## 乱数列と候補 -/

/-- 8 byte を big endian の整数として読む。 -/
def bytesToBigInt (bytes : Fin 8 → Fin 256) : ℕ :=
  let hi := (bytes 0).val * 2 ^ 24 + (bytes 1).val * 2 ^ 16 + (bytes 2).val * 2 ^ 8 + (bytes 3).val
  let lo := (bytes 4).val * 2 ^ 24 + (bytes 5).val * 2 ^ 16 + (bytes 6).val * 2 ^ 8 + (bytes 7).val
  hi <<< 32 + lo

/-- 線形合同法の一歩。余りを取った後に 1 を足すので、`2^64` になり得る。 -/
def nextKey (keyBigInt : ℕ) : ℕ := keyBigInt * 2862933555777941757 % 2 ^ 64 + 1

/-- 次の候補。倍精度の割り算は、正確な有理数の割り算と切り捨てとして扱う。 -/
def nextBucket (keyBigInt b : ℕ) : ℕ := (b + 1) * 1 <<< 31 / (keyBigInt >>> 33 + 1)

/-- `while (j < numBuckets)` の繰り返し。`fuel` が尽きたら `none` とする。 -/
def loop (numBuckets : ℕ) : ℕ → ℕ → ℤ → ℕ → Option ℤ
  | 0, _, _, _ => none
  | fuel + 1, keyBigInt, b, j =>
    if j < numBuckets then
      loop numBuckets fuel (nextKey keyBigInt) j (nextBucket (nextKey keyBigInt) j)
    else some b

def jumpConsistentHash (key : Fin 8 → Fin 256) (numBuckets : ℕ) : Option ℤ :=
  loop numBuckets (2 * numBuckets + 2) (bytesToBigInt key) (-1) 0

/-- `hash` は SHA-256 である。先頭の 8 byte だけを使う。 -/
def jumpHash (hash : String → Fin 32 → Fin 256) (key : String) (buckets : ℕ) : Option ℤ :=
  jumpConsistentHash (fun i => hash key (i.castLE (by decide))) buckets

def hashToShard (hash : String → Fin 32 → Fin 256) (queueId : String) (shardCount : ℕ) :
    Option ℤ :=
  jumpHash hash queueId shardCount

def masterQueueShardForEnvironment (hash : String → Fin 32 → Fin 256) (envId : String)
    (shardCount : ℕ) : Option ℤ :=
  jumpHash hash envId shardCount

def masterQueueKeyForEnvironment (hash : String → Fin 32 → Fin 256) (envId : String)
    (shardCount : ℕ) : Option String :=
  (masterQueueShardForEnvironment hash envId shardCount).map
    fun shard => masterQueueKeyForShard shard.toNat

theorem one_shiftLeft : (1 <<< 31 : ℕ) = 2147483648 := by decide

theorem nextBucket_eq (key b : ℕ) :
    nextBucket key b = (b + 1) * 2147483648 / (key / 2 ^ 33 + 1) := by
  unfold nextBucket
  rw [Nat.shiftRight_eq_div_pow, one_shiftLeft]

/-- 自然数の割り算は、有理数の商の切り捨てに等しい。 -/
theorem nextBucket_eq_floor (key b : ℕ) : (nextBucket key b : ℤ) =
    ⌊(((b + 1) * 1 <<< 31 : ℕ) : ℚ) / ((key >>> 33 + 1 : ℕ) : ℚ)⌋ := by
  rw [Rat.floor_natCast_div_natCast]
  rfl

theorem nextKey_le (key : ℕ) : nextKey key ≤ 2 ^ 64 := by
  unfold nextKey
  omega

theorem nextBucket_mono (key : ℕ) {b c : ℕ} (h : b ≤ c) : nextBucket key b ≤ nextBucket key c := by
  rw [nextBucket_eq, nextBucket_eq]
  exact Nat.div_le_div_right (by omega)

/-- 乱数が `2^64` でなければ、候補は一つ以上進む。 -/
theorem lt_nextBucket {key : ℕ} (hkey : key < 2 ^ 64) (b : ℕ) : b < nextBucket key b := by
  rw [nextBucket_eq]
  have hle : key / 2 ^ 33 + 1 ≤ 2147483648 := by omega
  exact (Nat.le_div_iff_mul_le (Nat.succ_pos _)).mpr (Nat.mul_le_mul_left _ hle)

theorem nextBucket_stall (b : ℕ) : nextBucket (2 ^ 64) b = (b + 1) * 2147483648 / 2147483649 := by
  rw [nextBucket_eq, show 2 ^ 64 / 2 ^ 33 + 1 = 2147483649 by decide]

/-- 乱数 `2^64` の次の乱数は 1 である。 -/
theorem nextKey_stall : nextKey (2 ^ 64) = 1 := by decide

theorem nextBucket_one (b : ℕ) : nextBucket 1 b = (b + 1) * 2147483648 := by
  rw [nextBucket_eq, show 1 / 2 ^ 33 + 1 = 1 by decide, Nat.div_one]

/-! ## 列としての繰り返し -/

/-- `i` 歩の後の乱数。 -/
def keyAt (key : ℕ) : ℕ → ℕ
  | 0 => key
  | i + 1 => nextKey (keyAt key i)

/-- `i` 歩の後の候補。 -/
def candidate (key : ℕ) : ℕ → ℕ
  | 0 => 0
  | i + 1 => nextBucket (keyAt key (i + 1)) (candidate key i)

variable {key n i : ℕ}

/-- 候補が `i + d + 1` 歩目で初めて届くなら、`i` 歩目からの繰り返しは `i + d` 歩目の候補を返す。 -/
theorem loop_candidate (d : ℕ) : ∀ (i fuel : ℕ) (b : ℤ), (∀ k ≤ d, candidate key (i + k) < n) →
    n ≤ candidate key (i + d + 1) → d + 2 ≤ fuel →
    loop n fuel (keyAt key i) b (candidate key i) = some (candidate key (i + d) : ℤ) := by
  induction d with
  | zero =>
    intro i _ b hbelow hreach hfuel
    obtain ⟨fuel, rfl⟩ := Nat.exists_eq_add_of_le' hfuel
    have hlt : candidate key i < n := hbelow 0 (Nat.le_refl 0)
    unfold loop
    rw [if_pos hlt]
    show loop n (fuel + 1) (keyAt key (i + 1)) _ (candidate key (i + 1)) = _
    unfold loop
    exact if_neg (Nat.not_lt.mpr hreach)
  | succ d ih =>
    intro i _ b hbelow hreach hfuel
    obtain ⟨fuel, rfl⟩ := Nat.exists_eq_add_of_le' hfuel
    have hlt : candidate key i < n := hbelow 0 (Nat.zero_le _)
    unfold loop
    rw [if_pos hlt]
    have hshift : ∀ k, i + 1 + k = i + (k + 1) := fun k => by omega
    rw [← hshift d]
    refine ih (i + 1) (fuel + (d + 2)) _ (fun k hk => ?_) ?_ (by omega)
    · rw [hshift]
      exact hbelow (k + 1) (Nat.succ_le_succ hk)
    · rw [show i + 1 + d + 1 = i + (d + 1) + 1 by omega]
      exact hreach

/-- 二歩のうちには候補が進む。停滞した歩の次の乱数は 1 で、候補は `2^31` 倍になる。 -/
theorem candidate_progress (key i : ℕ) :
    candidate key i < candidate key (i + 1) ∨ candidate key i < candidate key (i + 2) := by
  by_cases hkey : keyAt key (i + 1) = 2 ^ 64
  · right
    show _ < nextBucket (nextKey (keyAt key (i + 1))) (nextBucket (keyAt key (i + 1)) _)
    rw [hkey, nextKey_stall, nextBucket_one, nextBucket_stall]
    omega
  · left
    have hle : keyAt key (i + 1) ≤ 2 ^ 64 := nextKey_le _
    exact lt_nextBucket (by omega) _

theorem exists_candidate_ge (key : ℕ) : ∀ n, ∃ i ≤ 2 * n, n ≤ candidate key i
  | 0 => ⟨0, Nat.le_refl 0, Nat.zero_le _⟩
  | n + 1 => by
    obtain ⟨i, hi, hn⟩ := exists_candidate_ge key n
    rcases candidate_progress key i with h | h
    · exact ⟨i + 1, by omega, by omega⟩
    · exact ⟨i + 2, by omega, by omega⟩

/-- `n` に初めて届く歩の直前の候補。 -/
def IsBucket (key n b : ℕ) : Prop :=
  ∃ i, b = candidate key i ∧ (∀ k ≤ i, candidate key k < n) ∧ n ≤ candidate key (i + 1)

/-- `n` 個の bucket に対する繰り返しは、`n` に初めて届く歩の直前の候補を返して止まる。 -/
theorem loop_isBucket (key : ℕ) (hn : 1 ≤ n) :
    ∃ b : ℕ, loop n (2 * n + 2) key (-1) 0 = some (b : ℤ) ∧ IsBucket key n b := by
  obtain ⟨m, hm, hreach⟩ := exists_candidate_ge key n
  have hex : ∃ i, n ≤ candidate key i := ⟨m, hreach⟩
  have hfirst : n ≤ candidate key (Nat.find hex) := Nat.find_spec hex
  have hle : Nat.find hex ≤ 2 * n := Nat.le_trans (Nat.find_min' hex hreach) hm
  cases hf : Nat.find hex with
  | zero =>
    rw [hf] at hfirst
    exact absurd hfirst (by show ¬ n ≤ 0; omega)
  | succ i =>
    have hbelow : ∀ k ≤ i, candidate key k < n := fun k hk =>
      Nat.lt_of_not_le (Nat.find_min hex (by omega))
    rw [hf] at hfirst
    refine ⟨candidate key i, ?_, i, rfl, hbelow, hfirst⟩
    have hloop := loop_candidate i 0 (2 * n + 2) (-1)
      (fun k hk => by rw [Nat.zero_add]; exact hbelow k hk) (by rw [Nat.zero_add]; exact hfirst)
      (by omega)
    rw [Nat.zero_add] at hloop
    exact hloop

theorem IsBucket.lt {b : ℕ} (h : IsBucket key n b) : b < n := by
  obtain ⟨i, rfl, hbelow, -⟩ := h
  exact hbelow i (Nat.le_refl i)

/-- 初めて届く歩は一つなので、bucket も一つに決まる。 -/
theorem IsBucket.unique {b c : ℕ} (hb : IsBucket key n b) (hc : IsBucket key n c) : b = c := by
  obtain ⟨i, rfl, hi, hin⟩ := hb
  obtain ⟨k, rfl, hk, hkn⟩ := hc
  rcases Nat.lt_trichotomy i k with h | rfl | h
  · have := hk (i + 1) h
    omega
  · rfl
  · have := hi (k + 1) h
    omega

/-! ## 停滞 -/

/-- 乗数の `2^64` を法とする逆元。 -/
def inverse : ℕ := 16133697096952638549

/-- 乱数列を逆に一歩辿る。 -/
theorem key_mod_of_nextKey {key c : ℕ} (h : nextKey key = c) :
    key % 2 ^ 64 = (c - 1) * inverse % 2 ^ 64 := by
  have hc : key * 2862933555777941757 % 2 ^ 64 = c - 1 := by
    rw [← h]
    unfold nextKey
    rw [Nat.add_sub_cancel]
  have hinverse : 2862933555777941757 * inverse % 2 ^ 64 = 1 := by decide
  rw [← hc, Nat.mod_mul_mod, Nat.mul_assoc, Nat.mul_mod key, hinverse, Nat.mul_one, Nat.mod_mod]

/-- 停滞する乱数 `2^64` から、乱数列を逆に `m` 歩辿った値。 -/
def stallKey : ℕ → ℕ
  | 0 => 2 ^ 64
  | m + 1 => (stallKey m - 1) * inverse % 2 ^ 64

/-- 停滞の直前の `m` 個の乱数で、候補を `b` から進めた値。 -/
def stallReach : ℕ → ℕ → ℕ
  | 0, b => b
  | m + 1, b => stallReach m (nextBucket (stallKey (m + 1)) b)

theorem stallReach_succ (m b : ℕ) :
    stallReach (m + 1) b = stallReach m (nextBucket (stallKey (m + 1)) b) := by
  conv_lhs => unfold stallReach

theorem stallReach_mono {b c : ℕ} (m : ℕ) (h : b ≤ c) : stallReach m b ≤ stallReach m c := by
  induction m generalizing b c with
  | zero => exact h
  | succ m ih =>
    rw [stallReach_succ, stallReach_succ]
    exact ih (nextBucket_mono (stallKey (m + 1)) h)

theorem stallKey_pos : ∀ m ≤ 26, 0 < stallKey m := by decide +kernel

/-- `0` から始めて 25 歩以内に停滞するなら、停滞する候補は `2^31` 以下である。 -/
theorem stallReach_zero_le : ∀ m ≤ 25, stallReach m 0 ≤ 2147483648 := by decide +kernel

theorem stallReach_zero : stallReach 26 0 = 5483375903 := by decide +kernel

/-- 停滞の前の乱数は、逆に辿った値に限る。 -/
theorem keyAt_of_stall (hstall : keyAt key (i + 1) = 2 ^ 64) :
    ∀ m ≤ 26, m ≤ i → keyAt key (i + 1 - m) = stallKey m
  | 0, _, _ => hstall
  | m + 1, hm, hi => by
    have ih := keyAt_of_stall hstall m (by omega) (by omega)
    obtain ⟨k, rfl⟩ := Nat.exists_eq_add_of_le' hi
    rw [show k + (m + 1) + 1 - m = (k + 1) + 1 by omega] at ih
    rw [show k + (m + 1) + 1 - (m + 1) = k + 1 by omega]
    have hle : keyAt key (k + 1) ≤ 2 ^ 64 := nextKey_le _
    have hpos := stallKey_pos (m + 1) hm
    -- 余りが 0 でないので、乱数は `2^64` ではなく、余りそのものである
    have hmod : keyAt key (k + 1) % 2 ^ 64 = stallKey (m + 1) := key_mod_of_nextKey ih
    generalize stallKey (m + 1) = c at hpos hmod ⊢
    omega

theorem candidate_of_stall (hstall : keyAt key (i + 1) = 2 ^ 64) :
    ∀ m ≤ 26, m ≤ i → candidate key i = stallReach m (candidate key (i - m))
  | 0, _, _ => rfl
  | m + 1, hm, hi => by
    have ih := candidate_of_stall hstall m (by omega) (by omega)
    have hkey := keyAt_of_stall hstall (m + 1) hm hi
    obtain ⟨k, rfl⟩ := Nat.exists_eq_add_of_le' hi
    rw [show k + (m + 1) + 1 - (m + 1) = k + 1 by omega] at hkey
    rw [show k + (m + 1) - m = k + 1 by omega] at ih
    have hnext : candidate key (k + 1) = nextBucket (stallKey (m + 1)) (candidate key k) := by
      rw [← hkey]
      rfl
    rw [ih, hnext, Nat.add_sub_cancel]
    exact (stallReach_succ m _).symm

/-- **停滞する候補は、`2^31` 以下か、5483375903 以上である。** -/
theorem candidate_le_of_stall (hstall : keyAt key (i + 1) = 2 ^ 64)
    (hi : candidate key i < 5483375903) : candidate key i ≤ 2147483648 := by
  rcases Nat.lt_or_ge i 26 with hlt | hge
  · have h := candidate_of_stall hstall i (by omega) (Nat.le_refl i)
    rw [Nat.sub_self] at h
    rw [h]
    exact stallReach_zero_le i (by omega)
  · have h := candidate_of_stall hstall 26 (Nat.le_refl _) hge
    have hmono := stallReach_mono 26 (Nat.zero_le (candidate key (i - 26)))
    rw [stallReach_zero] at hmono
    omega

/-! ## 一貫性 -/

/--
bucket を一つ増やすと、同じ bucket に留まるか、増えた bucket に移る。候補がちょうど `n` のときに停滞しても、
`n` が `2^31` 以下なら候補は `n` のままで、次の歩で先へ進む。
-/
theorem IsBucket.succ {b : ℕ} (h : IsBucket key n b) (hn : n < 5483375903) :
    IsBucket key (n + 1) b ∨ IsBucket key (n + 1) n := by
  obtain ⟨i, rfl, hbelow, hreach⟩ := h
  rcases Nat.lt_or_ge n (candidate key (i + 1)) with hlt | hge
  · exact .inl ⟨i, rfl, fun k hk => Nat.lt_succ_of_lt (hbelow k hk), hlt⟩
  have heq : candidate key (i + 1) = n := Nat.le_antisymm hge hreach
  have hupto : ∀ k ≤ i + 1, candidate key k < n + 1 := fun k hk => by
    rcases Nat.lt_or_ge i k with h | h
    · rw [show k = i + 1 by omega, heq]
      exact Nat.lt_succ_self n
    · exact Nat.lt_succ_of_lt (hbelow k h)
  right
  by_cases hstall : keyAt key (i + 1 + 1) = 2 ^ 64
  · have hle := candidate_le_of_stall hstall (by omega)
    have hstay : candidate key (i + 2) = n := by
      show nextBucket (keyAt key (i + 1 + 1)) (candidate key (i + 1)) = n
      rw [hstall, heq, nextBucket_stall]
      omega
    refine ⟨i + 2, hstay.symm, fun k hk => ?_, ?_⟩
    · rcases Nat.lt_or_ge (i + 1) k with h | h
      · rw [show k = i + 2 by omega, hstay]
        exact Nat.lt_succ_self n
      · exact hupto k h
    · show _ ≤ nextBucket (nextKey (keyAt key (i + 1 + 1))) (candidate key (i + 2))
      rw [hstall, nextKey_stall, nextBucket_one, hstay]
      omega
  · have hle : keyAt key (i + 1 + 1) ≤ 2 ^ 64 := nextKey_le _
    refine ⟨i + 1, heq.symm, hupto, ?_⟩
    have hlt := lt_nextBucket (show keyAt key (i + 1 + 1) < 2 ^ 64 by omega) (candidate key (i + 1))
    rw [heq] at hlt
    show n + 1 ≤ nextBucket (keyAt key (i + 1 + 1)) (candidate key (i + 1))
    rw [heq]
    exact hlt

/-- 繰り返しは範囲内の bucket を返し、個数を一つ増やしても、留まるか増えた bucket に移る。 -/
theorem jumpConsistentHash_spec (bytes : Fin 8 → Fin 256) (hn : 1 ≤ n) :
    ∃ b : ℤ, jumpConsistentHash bytes n = some b ∧ 0 ≤ b ∧ b < n ∧
      (n < 5483375903 → jumpConsistentHash bytes (n + 1) = some b ∨
        jumpConsistentHash bytes (n + 1) = some (n : ℤ)) := by
  obtain ⟨b, hloop, hb⟩ := loop_isBucket (bytesToBigInt bytes) hn
  obtain ⟨c, hnext, hc⟩ := loop_isBucket (bytesToBigInt bytes) (Nat.le_succ_of_le hn)
  refine ⟨b, hloop, Int.natCast_nonneg b, Int.ofNat_lt.mpr hb.lt, fun hlt => ?_⟩
  rcases hb.succ hlt with h | h
  · rw [h.unique hc]
    exact .inl hnext
  · right
    rw [show jumpConsistentHash bytes (n + 1) = some (c : ℤ) from hnext, hc.unique h]

/--
**どの鍵と、一つ以上の bucket に対しても、繰り返しは停止して範囲内の bucket を返す。個数が 5483375903 未満なら、
一つ増やしたときの bucket は、元の bucket か増えた bucket である。queue と環境の master queue も、同じ shard に
留まるか、増えた shard に移る。**
-/
theorem shards_consistent (bytes : Fin 8 → Fin 256) (hash : String → Fin 32 → Fin 256)
    (id : String) (n : ℕ) (hn : 1 ≤ n) :
    (∃ b : ℤ, jumpConsistentHash bytes n = some b ∧ 0 ≤ b ∧ b < n ∧
      (n < 5483375903 → jumpConsistentHash bytes (n + 1) = some b ∨
        jumpConsistentHash bytes (n + 1) = some (n : ℤ))) ∧
    (n < 5483375903 → hashToShard hash id (n + 1) = hashToShard hash id n ∨
      hashToShard hash id (n + 1) = some (n : ℤ)) ∧
    (n < 5483375903 → masterQueueKeyForEnvironment hash id (n + 1) =
        masterQueueKeyForEnvironment hash id n ∨
      masterQueueKeyForEnvironment hash id (n + 1) = some (masterQueueKeyForShard n)) := by
  obtain ⟨b, hb, hle, hlt, hgrow⟩ := jumpConsistentHash_spec
    (fun i => hash id (i.castLE (by decide))) hn
  have hshard : n < 5483375903 → jumpHash hash id (n + 1) = jumpHash hash id n ∨
      jumpHash hash id (n + 1) = some (n : ℤ) := fun h => by
    have hnow : jumpHash hash id n = some b := hb
    rw [hnow]
    exact hgrow h
  refine ⟨jumpConsistentHash_spec bytes hn, hshard, fun h => ?_⟩
  unfold masterQueueKeyForEnvironment masterQueueShardForEnvironment
  rcases hshard h with h | h
  · rw [h]
    exact .inl rfl
  · rw [h]
    exact .inr rfl

theorem shards_consistent_three :
    (∃ b : ℤ, jumpConsistentHash ![0, 1, 2, 3, 4, 5, 6, 7] 3 = some b ∧ 0 ≤ b ∧ b < (3 : ℕ) ∧
      (3 < 5483375903 → jumpConsistentHash ![0, 1, 2, 3, 4, 5, 6, 7] (3 + 1) = some b ∨
        jumpConsistentHash ![0, 1, 2, 3, 4, 5, 6, 7] (3 + 1) = some ((3 : ℕ) : ℤ))) ∧
    (3 < 5483375903 → hashToShard (fun _ _ => 7) "queue" (3 + 1) =
        hashToShard (fun _ _ => 7) "queue" 3 ∨
      hashToShard (fun _ _ => 7) "queue" (3 + 1) = some ((3 : ℕ) : ℤ)) ∧
    (3 < 5483375903 → masterQueueKeyForEnvironment (fun _ _ => 7) "queue" (3 + 1) =
        masterQueueKeyForEnvironment (fun _ _ => 7) "queue" 3 ∨
      masterQueueKeyForEnvironment (fun _ _ => 7) "queue" (3 + 1) =
        some (masterQueueKeyForShard 3)) :=
  shards_consistent ![0, 1, 2, 3, 4, 5, 6, 7] (fun _ _ => 7) "queue" 3 (by decide)

/-- 整数として 16425429972543362397 を表す鍵。26 歩目の候補が 5483375903 で、27 歩目に停滞する。 -/
def stallingBytes : Fin 8 → Fin 256 := ![227, 242, 217, 136, 204, 128, 85, 93]

/-- 32 bit を越える個数では、停滞した歩が候補を小さくし、増やしていない bucket 5483375901 に移る。 -/
theorem jumpConsistentHash_moves_back :
    ¬ ∀ (bytes : Fin 8 → Fin 256) (n : ℕ), 1 ≤ n →
      jumpConsistentHash bytes (n + 1) = jumpConsistentHash bytes n ∨
        jumpConsistentHash bytes (n + 1) = some (n : ℤ) := by
  intro h
  have hfew : jumpConsistentHash stallingBytes 5483375903 = some 687563400 := by decide +kernel
  have hmore : jumpConsistentHash stallingBytes (5483375903 + 1) = some 5483375901 := by
    decide +kernel
  have hmove := h stallingBytes 5483375903 (by omega)
  rw [hfew, hmore] at hmove
  revert hmove
  decide

end Sharding.JumpHash
