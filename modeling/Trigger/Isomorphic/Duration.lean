import Mathlib.Algebra.Order.BigOperators.GroupWithZero.List
import Mathlib.Computability.RegularExpressions
import Trigger.Infra.Double
import Trigger.Infra.Text

/-!
# 期間の文字列

`1w2d3h4m5s` のような期間を読む二つの関数と、秒数を書く関数。受理は文字列全体の正規表現で決まるが、値は単位
ごとの最初の一致だけから計算するので、同じ単位が二度現れると後の分が落ちる。

## 主な結果

* `validPattern_iff` — 受理される文字列は、空でない区間（`Segment`）の列の連結である
* `firstMatch_text` — 単位ごとの検索は、その単位の最初の区間の数字を返す
* `duration_exact` — 値が区間の和になる条件
* `repeated_unit_dropped` — 和にならない文字列
-/

namespace Isomorphic.Duration

open Infra.Double Infra.Text RegularExpression

/-! ## 正規表現の組み合わせ -/

section Combinators

variable {α : Type} {P : RegularExpression α} {x : List α}

/-- 文字の列そのもの。 -/
def word (cs : List α) : RegularExpression α := (cs.map char).foldr (· * ·) 1

/-- いずれか一つ（`a|b`）。 -/
def oneOf (ps : List (RegularExpression α)) : RegularExpression α := ps.foldr (· + ·) 0

/-- 一回以上の繰り返し（`a+`）。 -/
def plus (P : RegularExpression α) : RegularExpression α := P * P.star

theorem mem_word (cs : List α) : x ∈ (word cs).matches' ↔ x = cs := by
  induction cs generalizing x with
  | nil => exact Iff.rfl
  | cons c cs ih =>
    show x ∈ (char c).matches' * (word cs).matches' ↔ _
    rw [Language.mem_mul]
    constructor
    · rintro ⟨a, ha, b, hb, rfl⟩
      rw [ih.mp hb, show a = [c] from ha]
      rfl
    · rintro rfl
      exact ⟨[c], rfl, cs, ih.mpr rfl, rfl⟩

theorem mem_oneOf (ps : List (RegularExpression α)) :
    x ∈ (oneOf ps).matches' ↔ ∃ P ∈ ps, x ∈ P.matches' := by
  induction ps with
  | nil => exact ⟨fun h => h.elim, fun ⟨_, h, _⟩ => absurd h List.not_mem_nil⟩
  | cons P ps ih =>
    show x ∈ P.matches' + (oneOf ps).matches' ↔ _
    rw [Language.mem_add, ih, List.exists_mem_cons_iff]

theorem mem_plus : x ∈ (plus P).matches' ↔
    ∃ L : List (List α), L ≠ [] ∧ x = L.flatten ∧ ∀ y ∈ L, y ∈ P.matches' := by
  show x ∈ P.matches' * P.star.matches' ↔ _
  rw [Language.mem_mul, matches'_star]
  constructor
  · rintro ⟨a, ha, b, hb, rfl⟩
    obtain ⟨L, rfl, hL⟩ := Language.mem_kstar.mp hb
    refine ⟨a :: L, List.cons_ne_nil a L, rfl, fun y hy => ?_⟩
    rcases List.mem_cons.mp hy with rfl | hy
    · exact ha
    · exact hL y hy
  · rintro ⟨L, hne, rfl, hL⟩
    cases L with
    | nil => exact absurd rfl hne
    | cons a L =>
      exact ⟨a, hL a List.mem_cons_self, L.flatten,
        Language.mem_kstar.mpr ⟨L, rfl, fun y hy => hL y (List.mem_cons_of_mem a hy)⟩, rfl⟩

end Combinators

/-! ## 期間を読む -/

inductive TimeUnit
  | w | d | h | m | s
  deriving DecidableEq

namespace TimeUnit

/-- 数字の後に続く文字（`(\d+)w`、`(\d+)(?:hr|h)` など）。 -/
def alternatives : TimeUnit → List (List Char)
  | w => [['w']]
  | d => [['d']]
  | h => [['h', 'r'], ['h']]
  | m => [['m']]
  | s => [['s']]

/-- ミリ秒にするために順に掛ける数。 -/
def factors : TimeUnit → List ℕ
  | w => [7, 24, 60, 60, 1000]
  | d => [24, 60, 60, 1000]
  | h => [60, 60, 1000]
  | m => [60, 1000]
  | s => [1000]

/-- 計算する順番。 -/
def all : List TimeUnit := [w, d, h, m, s]

def ms (u : TimeUnit) : ℕ := u.factors.prod

end TimeUnit

def digit : RegularExpression Char :=
  oneOf (['0', '1', '2', '3', '4', '5', '6', '7', '8', '9'].map char)

/-- `/^(\d+(?:w|d|hr|h|m|s))+$/` -/
def validPattern : RegularExpression Char :=
  plus (plus digit *
    oneOf [word ['w'], word ['d'], word ['h', 'r'], word ['h'], word ['m'], word ['s']])

/--
最初の一致の数字の部分（`duration.match(/(\d+)…/)`）。数字は貪欲に取る。短く取り直しても、次の文字は数字なので
一致しない。
-/
def firstMatch (alternatives : List (List Char)) : List Char → Option (List Char)
  | [] => none
  | c :: rest =>
    let digits := (c :: rest).takeWhile Char.isDigit
    if digits ≠ [] ∧
        alternatives.any (·.isPrefixOf ((c :: rest).dropWhile Char.isDigit)) = true then
      some digits
    else firstMatch alternatives rest

/-- 数字の列を数にする（`Number`）。 -/
def number (digits : List Char) : ℚ := toDouble (Nat.ofDigitChars 10 digits 0)

/-- 一つの単位について、一致があれば合計に足す。 -/
def addUnit (duration : String) (acc : ℚ × Bool) (u : TimeUnit) : ℚ × Bool :=
  match firstMatch u.alternatives duration.toList with
  | none => acc
  | some digits =>
    let amount := number digits
    if 0 ≤ amount then
      (toDouble (acc.1 + u.factors.foldl (fun (x : ℚ) (f : ℕ) => toDouble (x * f)) amount), true)
    else acc

/-- 二つの関数に共通の部分。弾く文字列には `none`、そうでなければ合計と、一致の有無を返す。 -/
def scan (duration : String) : Option (ℚ × Bool) :=
  if 100 < (utf16 duration).length then none
  else if ¬ validPattern.rmatch duration.toList then none
  else some (TimeUnit.all.foldl (addUnit duration) (0, false))

def parseNaturalLanguageDurationInMs (duration : String) : Option ℚ :=
  match scan duration with
  | none => none
  | some (totalMilliseconds, hasMatch) => if hasMatch then some totalMilliseconds else none

/-- `new Date(value)` の時刻。範囲を外れると無効（`none`）になる。 -/
def newDate (value : ℚ) : Option ℤ :=
  if |value| ≤ 8640000000000000 then some (if 0 ≤ value then ⌊value⌋ else ⌈value⌉) else none

/-- `now` は `Date.now()` である。 -/
def parseNaturalLanguageDurationAgo (now : ℤ) (duration : String) : Option (Option ℤ) :=
  match scan duration with
  | none => none
  | some (totalMilliseconds, hasMatch) =>
    if hasMatch then some (newDate (toDouble (now - totalMilliseconds))) else none

/-! ## 期間を書く -/

section Stringify

variable (largeText : ℤ → List Char)

/-- 数の文字列。`2^53` を越える数と負の数の書き方（`largeText`）は定めない。 -/
def numberText (v : ℤ) : List Char :=
  if 0 ≤ v ∧ v ≤ 2 ^ 53 then Nat.toDigits 10 v.toNat else largeText v

/-- 正の数の剰余（`%`）。 -/
def remainder (x y : ℚ) : ℚ := x - y * ⌊x / y⌋

def unitText : TimeUnit → List Char
  | .w => ['w']
  | .d => ['d']
  | .h => ['h']
  | .m => ['m']
  | .s => ['s']

/-- 各単位の値（`units`）。 -/
def units (seconds : ℚ) : List (TimeUnit × ℤ) :=
  [(.w, ⌊toDouble (seconds / 604800)⌋),
    (.d, ⌊toDouble (remainder seconds 604800 / 86400)⌋),
    (.h, ⌊toDouble (remainder seconds 86400 / 3600)⌋),
    (.m, ⌊toDouble (remainder seconds 3600 / 60)⌋),
    (.s, ⌊remainder seconds 60⌋)]

def stringifyDuration (seconds : ℚ) : Option String :=
  if seconds ≤ 0 then none
  else some (String.ofList (((units seconds).filter (·.2 ≠ 0)).flatMap
    fun entry => numberText largeText entry.2 ++ unitText entry.1))

end Stringify

/-! ## 区間 -/

/-- 区間の末尾の単位の綴り。時間には二つの綴りがある。 -/
inductive Suffix
  | w | d | hr | h | m | s
  deriving DecidableEq

namespace Suffix

def text : Suffix → List Char
  | w => ['w']
  | d => ['d']
  | hr => ['h', 'r']
  | h => ['h']
  | m => ['m']
  | s => ['s']

def unit : Suffix → TimeUnit
  | w => .w
  | d => .d
  | hr => .h
  | h => .h
  | m => .m
  | s => .s

/-- 綴りは空でなく、数字を含まない。 -/
theorem text_eq_cons (e : Suffix) :
    ∃ c tail, e.text = c :: tail ∧ c.isDigit = false ∧ ∀ d ∈ tail, d.isDigit = false := by
  cases e
  all_goals exact ⟨_, _, rfl, rfl, by simp⟩

/-- 単位の検索は、その単位の綴りにだけ一致する。 -/
theorem any_isPrefixOf (e : Suffix) (u : TimeUnit) (rest : List Char) :
    u.alternatives.any (·.isPrefixOf (e.text ++ rest)) = decide (e.unit = u) := by
  cases e <;> cases u <;> simp [TimeUnit.alternatives, text, unit, List.isPrefixOf]

end Suffix

/-- 数字と単位。 -/
structure Segment where
  digits : List Char
  suffix : Suffix
  digits_ne_nil : digits ≠ []
  isDigit_of_mem : ∀ c ∈ digits, c.isDigit = true

namespace Segment

def unit (seg : Segment) : TimeUnit := seg.suffix.unit

def text (seg : Segment) : List Char := seg.digits ++ seg.suffix.text

def value (seg : Segment) : ℕ := Nat.ofDigitChars 10 seg.digits 0

/-- 区間のミリ秒。 -/
def ms (seg : Segment) : ℕ := seg.value * seg.unit.ms

end Segment

/-- 区間の列の文字列。 -/
def text (segs : List Segment) : String := String.ofList (segs.flatMap Segment.text)

/-- 区間の和。 -/
def durationMs (segs : List Segment) : ℕ := (segs.map Segment.ms).sum

theorem toList_text (segs : List Segment) : (text segs).toList = segs.flatMap Segment.text :=
  String.toList_ofList

/-! ### 受理 -/

theorem toNat_of_isDigit {c : Char} (h : c.isDigit = true) : 48 ≤ c.toNat ∧ c.toNat ≤ 57 := by
  simpa [Char.isDigit, UInt32.le_iff_toNat_le] using h

theorem mem_digit (x : List Char) : x ∈ digit.matches' ↔ ∃ c, x = [c] ∧ c.isDigit = true := by
  unfold digit
  rw [mem_oneOf]
  constructor
  · rintro ⟨P, hP, hx⟩
    obtain ⟨c, hc, rfl⟩ := List.mem_map.mp hP
    refine ⟨c, hx, ?_⟩
    have hall : ∀ c ∈ ['0', '1', '2', '3', '4', '5', '6', '7', '8', '9'], c.isDigit = true := by
      simp
    exact hall c hc
  · rintro ⟨c, rfl, hc⟩
    refine ⟨char c, List.mem_map_of_mem ?_, rfl⟩
    have hbound := toNat_of_isDigit hc
    have hall : ∀ n ∈ List.range' 48 10, Char.ofNat n ∈
        ['0', '1', '2', '3', '4', '5', '6', '7', '8', '9'] := by decide
    rw [← Char.ofNat_toNat c]
    exact hall c.toNat (List.mem_range'_1.mpr ⟨hbound.1, by omega⟩)

theorem mem_plus_digit (x : List Char) :
    x ∈ (plus digit).matches' ↔ x ≠ [] ∧ ∀ c ∈ x, c.isDigit = true := by
  rw [mem_plus]
  constructor
  · rintro ⟨L, hne, rfl, hL⟩
    refine ⟨fun h => ?_, fun c hc => ?_⟩
    · cases L with
      | nil => exact hne rfl
      | cons y L =>
        obtain ⟨c, rfl, -⟩ := (mem_digit y).mp (hL y List.mem_cons_self)
        exact absurd h (List.cons_ne_nil c _)
    · obtain ⟨y, hy, hcy⟩ := List.mem_flatten.mp hc
      obtain ⟨e, rfl, he⟩ := (mem_digit y).mp (hL y hy)
      rw [List.mem_singleton.mp hcy]
      exact he
  · rintro ⟨hne, hx⟩
    refine ⟨x.map fun c => [c], by simpa using hne, ?_, fun y hy => ?_⟩
    · rw [← List.flatMap_def, List.flatMap_singleton']
    · obtain ⟨c, hc, rfl⟩ := List.mem_map.mp hy
      exact (mem_digit _).mpr ⟨c, rfl, hx c hc⟩

theorem mem_suffixes (x : List Char) :
    x ∈ (oneOf [word ['w'], word ['d'], word ['h', 'r'], word ['h'], word ['m'],
      word ['s']]).matches' ↔ ∃ e : Suffix, x = e.text := by
  rw [mem_oneOf]
  constructor
  · rintro ⟨P, hP, hx⟩
    simp only [List.mem_cons, List.not_mem_nil, or_false] at hP
    rcases hP with rfl | rfl | rfl | rfl | rfl | rfl
    · exact ⟨.w, (mem_word _).mp hx⟩
    · exact ⟨.d, (mem_word _).mp hx⟩
    · exact ⟨.hr, (mem_word _).mp hx⟩
    · exact ⟨.h, (mem_word _).mp hx⟩
    · exact ⟨.m, (mem_word _).mp hx⟩
    · exact ⟨.s, (mem_word _).mp hx⟩
  · rintro ⟨e, rfl⟩
    refine ⟨word e.text, ?_, (mem_word _).mpr rfl⟩
    cases e <;> simp [Suffix.text]

/-- **受理される文字列は、空でない区間の列の連結である。** -/
theorem validPattern_iff (duration : String) : validPattern.rmatch duration.toList = true ↔
    ∃ segs : List Segment, segs ≠ [] ∧ duration = text segs := by
  rw [rmatch_iff_matches', validPattern, mem_plus]
  have hsegment : ∀ y, y ∈ (plus digit * oneOf [word ['w'], word ['d'], word ['h', 'r'],
      word ['h'], word ['m'], word ['s']]).matches' ↔ y ∈ Set.range Segment.text := fun y => by
    rw [matches'_mul, Language.mem_mul]
    constructor
    · rintro ⟨a, ha, b, hb, rfl⟩
      obtain ⟨hne, hall⟩ := (mem_plus_digit a).mp ha
      obtain ⟨e, rfl⟩ := (mem_suffixes b).mp hb
      exact ⟨⟨a, e, hne, hall⟩, rfl⟩
    · rintro ⟨seg, rfl⟩
      exact ⟨_, (mem_plus_digit _).mpr ⟨seg.digits_ne_nil, seg.isDigit_of_mem⟩, _,
        (mem_suffixes _).mpr ⟨seg.suffix, rfl⟩, rfl⟩
  constructor
  · rintro ⟨L, hne, hflat, hL⟩
    obtain ⟨segs, rfl⟩ : L ∈ Set.range (List.map Segment.text) := by
      rw [Set.range_list_map]
      exact fun y hy => (hsegment y).mp (hL y hy)
    refine ⟨segs, fun h => hne (by rw [h]; rfl), String.toList_inj.mp ?_⟩
    rw [hflat, toList_text, List.flatMap_def]
  · rintro ⟨segs, hne, rfl⟩
    refine ⟨segs.map Segment.text, by simpa using hne, ?_, fun y hy => ?_⟩
    · rw [toList_text, List.flatMap_def]
    · obtain ⟨seg, -, rfl⟩ := List.mem_map.mp hy
      exact (hsegment _).mpr ⟨seg, rfl⟩

/-! ### 検索 -/

section FirstMatch

variable {alternatives : List (List Char)} {c : Char} (rest : List Char)

theorem firstMatch_skip (hc : c.isDigit = false) :
    firstMatch alternatives (c :: rest) = firstMatch alternatives rest := by
  rw [firstMatch, List.takeWhile_cons_of_neg (by rw [hc]; exact Bool.false_ne_true)]
  exact if_neg fun h => h.1 rfl

theorem firstMatch_skips : ∀ {cs : List Char}, (∀ c ∈ cs, c.isDigit = false) →
    firstMatch alternatives (cs ++ rest) = firstMatch alternatives rest
  | [], _ => rfl
  | c :: cs, hcs => by
    rw [List.cons_append, firstMatch_skip _ (hcs c List.mem_cons_self)]
    exact firstMatch_skips fun d hd => hcs d (List.mem_cons_of_mem c hd)

theorem takeWhile_digits {ds : List Char} (hds : ∀ d ∈ ds, d.isDigit = true)
    (hc : c.isDigit = false) : (ds ++ c :: rest).takeWhile Char.isDigit = ds := by
  rw [List.takeWhile_append_of_pos hds, List.takeWhile_cons_of_neg (by simp [hc]),
    List.append_nil]

theorem dropWhile_digits {ds : List Char} (hds : ∀ d ∈ ds, d.isDigit = true)
    (hc : c.isDigit = false) : (ds ++ c :: rest).dropWhile Char.isDigit = c :: rest := by
  rw [List.dropWhile_append_of_pos hds, List.dropWhile_cons_of_neg (by simp [hc])]

/-- 数字の後に続く文字が合えば、その数字を返す。 -/
theorem firstMatch_here {ds : List Char} (hne : ds ≠ []) (hds : ∀ d ∈ ds, d.isDigit = true)
    (hc : c.isDigit = false) (h : alternatives.any (·.isPrefixOf (c :: rest)) = true) :
    firstMatch alternatives (ds ++ c :: rest) = some ds := by
  have htake := takeWhile_digits rest hds hc
  have hdrop := dropWhile_digits rest hds hc
  cases ds with
  | nil => exact absurd rfl hne
  | cons d ds =>
    rw [List.cons_append] at htake hdrop ⊢
    rw [firstMatch, htake, hdrop]
    exact if_pos ⟨hne, h⟩

/-- 合わなければ、数字のどの接尾辞からも一致しない。 -/
theorem firstMatch_pass (hc : c.isDigit = false)
    (h : alternatives.any (·.isPrefixOf (c :: rest)) = false) :
    ∀ ds : List Char, (∀ d ∈ ds, d.isDigit = true) →
      firstMatch alternatives (ds ++ c :: rest) = firstMatch alternatives rest
  | [], _ => firstMatch_skip rest hc
  | d :: ds, hds => by
    have hdrop := dropWhile_digits rest hds hc
    rw [List.cons_append] at hdrop ⊢
    rw [firstMatch, hdrop, h]
    rw [if_neg fun h => Bool.false_ne_true h.2]
    exact firstMatch_pass hc h ds fun e he => hds e (List.mem_cons_of_mem d he)

end FirstMatch

/-- **単位の検索は、その単位の最初の区間の数字を返す。** -/
theorem firstMatch_text (u : TimeUnit) (segs : List Segment) :
    firstMatch u.alternatives (text segs).toList =
      (segs.find? fun seg => seg.unit = u).map Segment.digits := by
  rw [toList_text]
  induction segs with
  | nil => rfl
  | cons seg segs ih =>
    obtain ⟨c, tail, htext, hc, htail⟩ := seg.suffix.text_eq_cons
    have hany := seg.suffix.any_isPrefixOf u (segs.flatMap Segment.text)
    rw [htext, List.cons_append] at hany
    rw [List.flatMap_cons, Segment.text, List.append_assoc, htext, List.cons_append]
    by_cases hu : seg.unit = u
    · rw [firstMatch_here _ seg.digits_ne_nil seg.isDigit_of_mem hc
        (hany.trans (decide_eq_true hu))]
      have hfind : (seg :: segs).find? (fun seg => decide (seg.unit = u)) = some seg :=
        List.find?_cons_of_pos (decide_eq_true hu)
      rw [hfind]
      rfl
    · rw [firstMatch_pass _ hc (hany.trans (decide_eq_false hu)) _ seg.isDigit_of_mem]
      rw [firstMatch_skips _ htail, ih]
      rw [List.find?_cons_of_neg (by simpa using hu)]

/-! ## 合計 -/

/-- その単位の最初の区間のミリ秒。 -/
def firstMs (segs : List Segment) (u : TimeUnit) : ℕ :=
  ((segs.find? fun seg => seg.unit = u).map Segment.ms).getD 0

/-- 単位ごとの最初の区間の和。 -/
def firstSum (segs : List Segment) : ℕ := (TimeUnit.all.map (firstMs segs)).sum

/-- 計算の途中の量と和が、どれも 53 bit で書ける。 -/
structure Exact (segs : List Segment) : Prop where
  amounts : ∀ u, Representable (firstMs segs u)
  sums : ∀ us ∈ TimeUnit.all.inits, Representable (us.map (firstMs segs)).sum

/-- どの単位でも、二つ目からの区間の値は 0 である。 -/
def LaterZero (segs : List Segment) : Prop :=
  ∀ u ∈ TimeUnit.all, ∀ seg ∈ (segs.filter fun seg => seg.unit = u).tail, seg.value = 0

namespace TimeUnit

theorem mem_all (u : TimeUnit) : u ∈ all := by
  cases u <;> decide

theorem factors_pos (u : TimeUnit) : ∀ f ∈ u.factors, 0 < f := by
  cases u <;> decide

theorem ms_w : ms w = 604800000 := by decide

theorem ms_d : ms d = 86400000 := by decide

theorem ms_h : ms h = 3600000 := by decide

theorem ms_m : ms m = 60000 := by decide

theorem ms_s : ms s = 1000 := by decide

theorem ms_pos (u : TimeUnit) : 0 < u.ms := by
  cases u <;> decide

end TimeUnit

/-- 積が書けるなら、掛け算は途中でも丸まらない。 -/
theorem foldl_mul_exact : ∀ (fs : List ℕ) (n : ℕ), (∀ f ∈ fs, 0 < f) →
    Representable (n * fs.prod) →
    fs.foldl (fun (x : ℚ) (f : ℕ) => toDouble (x * f)) n = ((n * fs.prod : ℕ) : ℚ)
  | [], n, _, _ => by rw [List.foldl_nil, List.prod_nil, Nat.mul_one]
  | f :: fs, n, hpos, h => by
    rw [List.prod_cons, ← Nat.mul_assoc] at h
    have hrest : 0 < fs.prod :=
      List.prod_pos fun g hg => hpos g (List.mem_cons_of_mem f hg)
    rw [List.foldl_cons, ← Nat.cast_mul, toDouble_of_representable (representable_of_mul hrest h),
      foldl_mul_exact fs (n * f) (fun g hg => hpos g (List.mem_cons_of_mem f hg)) h,
      List.prod_cons, Nat.mul_assoc]

variable {segs : List Segment}

/-- 一つの単位を足す一歩。途中の和が書けるなら丸まらない。 -/
theorem addUnit_exact {u : TimeUnit} {total : ℕ} {b : Bool}
    (hamount : Representable (firstMs segs u)) (hsum : Representable (total + firstMs segs u)) :
    addUnit (text segs) (total, b) u =
      (((total + firstMs segs u : ℕ) : ℚ), b || segs.any fun seg => seg.unit = u) := by
  unfold addUnit
  rw [firstMatch_text]
  unfold firstMs at hamount hsum ⊢
  cases hfind : segs.find? fun seg => seg.unit = u with
  | none =>
    have hany : (segs.any fun seg => decide (seg.unit = u)) = false :=
      List.any_eq_false.mpr (List.find?_eq_none.mp hfind)
    rw [hany, Bool.or_false]
    rfl
  | some seg =>
    have hu : seg.unit = u := by
      simpa using List.find?_some hfind
    have hany : (segs.any fun seg => decide (seg.unit = u)) = true :=
      List.any_eq_true.mpr ⟨seg, List.mem_of_find?_eq_some hfind, decide_eq_true hu⟩
    rw [hfind] at hamount hsum
    have hms : seg.ms = seg.value * u.factors.prod := by rw [Segment.ms, hu, TimeUnit.ms]
    have hvalue : number seg.digits = (seg.value : ℚ) := by
      have hrep : Representable (seg.value * u.ms) := by
        rw [TimeUnit.ms, ← hms]
        exact hamount
      exact toDouble_of_representable (representable_of_mul (TimeUnit.ms_pos u) hrep)
    have hprod : u.factors.foldl (fun (x : ℚ) (f : ℕ) => toDouble (x * f)) (seg.value : ℚ) =
        (seg.ms : ℚ) := by
      rw [hms]
      exact foldl_mul_exact _ _ (TimeUnit.factors_pos u) (by rw [← hms]; exact hamount)
    rw [hany, Bool.or_true]
    show (if 0 ≤ number seg.digits then _ else _) = _
    rw [hvalue, if_pos (Nat.cast_nonneg _), hprod, ← Nat.cast_add]
    exact congrArg (·, true) (toDouble_of_representable hsum)

/-- 全部の単位を足した合計。 -/
theorem foldl_addUnit (h : Exact segs) : ∀ (us done : List TimeUnit), done ++ us = TimeUnit.all →
    ∀ b, us.foldl (addUnit (text segs)) ((((done.map (firstMs segs)).sum : ℕ) : ℚ), b) =
      ((firstSum segs : ℚ), b || us.any fun u => segs.any fun seg => seg.unit = u)
  | [], done, hall, b => by
    rw [List.append_nil] at hall
    rw [hall, List.foldl_nil, List.any_nil, Bool.or_false, firstSum]
  | u :: us, done, hall, b => by
    have hsum : ((done ++ [u]).map (firstMs segs)).sum =
        (done.map (firstMs segs)).sum + firstMs segs u := by
      rw [List.map_append, List.sum_append, List.map_singleton, List.sum_singleton]
    have hinit : done ++ [u] ∈ TimeUnit.all.inits := by
      rw [List.mem_inits, ← hall]
      exact ⟨us, by rw [List.append_assoc, List.singleton_append]⟩
    have hrep := h.sums _ hinit
    rw [hsum] at hrep
    rw [List.foldl_cons, addUnit_exact (h.amounts u) hrep, ← hsum,
      foldl_addUnit h us (done ++ [u]) (by rw [List.append_assoc, List.singleton_append, hall]),
      List.any_cons, Bool.or_assoc]

theorem scan_text (hne : segs ≠ []) (hlen : (utf16 (text segs)).length ≤ 100) (h : Exact segs) :
    scan (text segs) = some ((firstSum segs : ℚ), true) := by
  unfold scan
  rw [if_neg (Nat.not_lt.mpr hlen),
    if_neg (not_not.mpr ((validPattern_iff _).mpr ⟨segs, hne, rfl⟩))]
  have hfold := foldl_addUnit h TimeUnit.all [] rfl false
  have hany : (TimeUnit.all.any fun u => segs.any fun seg => seg.unit = u) = true := by
    obtain ⟨seg, hseg⟩ := List.exists_mem_of_ne_nil segs hne
    rw [List.any_eq_true]
    exact ⟨seg.unit, TimeUnit.mem_all _, List.any_eq_true.mpr ⟨seg, hseg, decide_eq_true rfl⟩⟩
  rw [hany, Bool.or_true] at hfold
  rw [← hfold]
  rfl

/-- 途中で丸まらなければ、値は単位ごとの最初の区間の和である。 -/
theorem parse_text (hne : segs ≠ []) (hlen : (utf16 (text segs)).length ≤ 100) (h : Exact segs) :
    parseNaturalLanguageDurationInMs (text segs) = some (firstSum segs : ℚ) := by
  unfold parseNaturalLanguageDurationInMs
  rw [scan_text hne hlen h]
  rfl

/-- その単位の区間の和。 -/
def unitSum (segs : List Segment) (u : TimeUnit) : ℕ :=
  ((segs.filter fun seg => seg.unit = u).map Segment.ms).sum

/-- その単位の、二つ目からの区間の和。 -/
def laterMs (segs : List Segment) (u : TimeUnit) : ℕ :=
  ((segs.filter fun seg => seg.unit = u).tail.map Segment.ms).sum

theorem unitSum_eq (segs : List Segment) (u : TimeUnit) :
    unitSum segs u = firstMs segs u + laterMs segs u := by
  unfold unitSum firstMs laterMs
  rw [← List.head?_filter]
  cases segs.filter fun seg => seg.unit = u with
  | nil => rfl
  | cons seg rest => rfl

theorem unitSum_cons (seg : Segment) (segs : List Segment) (u : TimeUnit) :
    unitSum (seg :: segs) u = (if seg.unit = u then seg.ms else 0) + unitSum segs u := by
  unfold unitSum
  by_cases hu : seg.unit = u
  · rw [List.filter_cons_of_pos (by simpa using hu), if_pos hu]
    rfl
  · rw [List.filter_cons_of_neg (by simpa using hu), if_neg hu, Nat.zero_add]

/-- 区間の和は、最初の区間の和と、後の区間の和である。 -/
theorem durationMs_eq (segs : List Segment) :
    durationMs segs = firstSum segs + (TimeUnit.all.map (laterMs segs)).sum := by
  have hall : durationMs segs = (TimeUnit.all.map (unitSum segs)).sum := by
    induction segs with
    | nil => rfl
    | cons seg segs ih =>
      have hone : (TimeUnit.all.map fun u => if seg.unit = u then seg.ms else 0).sum = seg.ms := by
        cases seg.unit <;> simp [TimeUnit.all]
      rw [List.map_congr_left fun u _ => unitSum_cons seg segs u, List.sum_map_add, hone, ← ih]
      rfl
  rw [hall, List.map_congr_left fun u _ => unitSum_eq segs u, List.sum_map_add]
  rfl

/-- 後の区間の和が 0 なのは、後の区間の値がどれも 0 のときに限る。 -/
theorem sum_laterMs_eq_zero_iff (segs : List Segment) :
    (TimeUnit.all.map (laterMs segs)).sum = 0 ↔ LaterZero segs := by
  rw [List.sum_eq_zero_iff, List.forall_mem_map]
  refine forall₂_congr fun u _ => ?_
  rw [laterMs, List.sum_eq_zero_iff, List.forall_mem_map]
  refine forall₂_congr fun seg _ => ?_
  rw [Segment.ms, Nat.mul_eq_zero, or_iff_left (TimeUnit.ms_pos _).ne']

/-- 和が `2^53` 以下なら、計算の途中で丸まらない。 -/
theorem exact_of_le (h : durationMs segs ≤ 2 ^ 53) : Exact segs := by
  have hfirst : firstSum segs ≤ 2 ^ 53 := by
    rw [durationMs_eq] at h
    omega
  have hinit : ∀ us ∈ TimeUnit.all.inits, (us.map (firstMs segs)).sum ≤ firstSum segs :=
    fun us hus => by
      obtain ⟨rest, hrest⟩ := (List.mem_inits _ _).mp hus
      rw [firstSum, ← hrest, List.map_append, List.sum_append]
      exact Nat.le_add_right _ _
  refine ⟨fun u => representable_of_le ?_, fun us hus =>
    representable_of_le (Nat.le_trans (hinit us hus) hfirst)⟩
  have hmem : firstMs segs u ∈ TimeUnit.all.map (firstMs segs) :=
    List.mem_map_of_mem (TimeUnit.mem_all u)
  exact Nat.le_trans (List.le_sum_of_mem hmem) hfirst

/-! ## 書いて読む -/

/-- 自然数の秒数の、各単位の値。 -/
def parts (s : ℕ) : List (TimeUnit × ℕ) :=
  [(.w, s / 604800), (.d, s % 604800 / 86400), (.h, s % 86400 / 3600), (.m, s % 3600 / 60),
    (.s, s % 60)]

theorem remainder_natCast (a b : ℕ) : remainder a b = ((a % b : ℕ) : ℚ) := by
  have hdiv : (a : ℚ) = b * (a / b : ℕ) + (a % b : ℕ) := by
    exact_mod_cast (Nat.div_add_mod a b).symm
  have hfloor : ⌊(a : ℚ) / b⌋ = ((a / b : ℕ) : ℤ) := Rat.floor_natCast_div_natCast a b
  rw [remainder, hfloor, Int.cast_natCast]
  linarith

theorem units_natCast {s : ℕ} (hs : s < 2 ^ 53) :
    units s = (parts s).map fun entry => (entry.1, (entry.2 : ℤ)) := by
  have hmod : ∀ b, s % b < 2 ^ 53 := fun b => Nat.lt_of_le_of_lt (Nat.mod_le s b) hs
  have hw := floor_toDouble_div hs (show 0 < 604800 by omega)
  have hd := floor_toDouble_div (hmod 604800) (show 0 < 86400 by omega)
  have hh := floor_toDouble_div (hmod 86400) (show 0 < 3600 by omega)
  have hm := floor_toDouble_div (hmod 3600) (show 0 < 60 by omega)
  have hr := remainder_natCast s
  have hsec : ⌊remainder (s : ℚ) ((60 : ℕ) : ℚ)⌋ = ((s % 60 : ℕ) : ℤ) := by
    rw [hr 60]
    exact Int.floor_natCast _
  rw [← hr] at hd hh hm
  simp only [Nat.cast_ofNat] at hw hd hh hm hsec
  rw [units, hw, hd, hh, hm, hsec]
  rfl

/-- 単位の綴り。時間は `h` と書く。 -/
def suffixOf : TimeUnit → Suffix
  | .w => .w
  | .d => .d
  | .h => .h
  | .m => .m
  | .s => .s

theorem unit_suffixOf (u : TimeUnit) : (suffixOf u).unit = u := by
  cases u <;> rfl

theorem text_suffixOf (u : TimeUnit) : (suffixOf u).text = unitText u := by
  cases u <;> rfl

/-- 単位と値を書いた区間。 -/
def ofPart (entry : TimeUnit × ℕ) : Segment where
  digits := Nat.toDigits 10 entry.2
  suffix := suffixOf entry.1
  digits_ne_nil := Nat.toDigits_ne_nil
  isDigit_of_mem _ hc := Nat.isDigit_of_mem_toDigits (by decide) (by decide) hc

theorem unit_ofPart (entry : TimeUnit × ℕ) : (ofPart entry).unit = entry.1 := unit_suffixOf _

theorem ms_ofPart (entry : TimeUnit × ℕ) : (ofPart entry).ms = entry.2 * entry.1.ms := by
  rw [Segment.ms, unit_ofPart]
  exact congrArg (· * _) Nat.ofDigitChars_ten_toDigits

/-- 0 でない値を書いた区間の列。 -/
def ofParts (ps : List (TimeUnit × ℕ)) : List Segment := (ps.filter (·.2 ≠ 0)).map ofPart

theorem stringify_natCast (largeText : ℤ → List Char) {s : ℕ} (hpos : 0 < s) (hs : s < 2 ^ 53) :
    stringifyDuration largeText s = some (text (ofParts (parts s))) := by
  have hneg : ¬ (s : ℚ) ≤ 0 := not_le.mpr (by exact_mod_cast hpos)
  have hsmall : ∀ entry ∈ parts s, entry.2 ≤ 2 ^ 53 := fun entry he => by
    simp only [parts, List.mem_cons, List.not_mem_nil, or_false] at he
    rcases he with rfl | rfl | rfl | rfl | rfl <;> dsimp only <;> omega
  unfold stringifyDuration
  rw [if_neg hneg, units_natCast hs, List.filter_map, List.flatMap_map]
  unfold text ofParts
  rw [List.flatMap_map]
  have hfilter : (parts s).filter ((fun x : TimeUnit × ℤ => decide (x.2 ≠ 0)) ∘
      fun entry => (entry.1, (entry.2 : ℤ))) = (parts s).filter (·.2 ≠ 0) :=
    List.filter_congr fun entry _ => by simp
  rw [hfilter]
  refine congrArg (fun l => some (String.ofList l)) (List.flatMap_congr fun entry he => ?_)
  have hle := hsmall entry (List.mem_of_mem_filter he)
  have hrange : (0 : ℤ) ≤ entry.2 ∧ (entry.2 : ℤ) ≤ 2 ^ 53 := by
    constructor
    · exact Int.natCast_nonneg _
    · exact_mod_cast hle
  rw [numberText, if_pos hrange, Int.toNat_natCast, Segment.text, ← text_suffixOf]
  rfl

theorem firstMs_eq_zero {u : TimeUnit} : ∀ {ps : List (TimeUnit × ℕ)},
    (∀ entry ∈ ps, entry.1 ≠ u) → firstMs (ofParts ps) u = 0 := by
  intro ps h
  have hnone : (ofParts ps).find? (fun seg => seg.unit = u) = none := by
    rw [List.find?_eq_none]
    intro seg hseg
    obtain ⟨entry, he, rfl⟩ := List.mem_map.mp hseg
    rw [unit_ofPart]
    exact fun hu => h entry (List.mem_of_mem_filter he) (of_decide_eq_true hu)
  rw [firstMs, hnone]
  rfl

/-- 単位が重ならなければ、各単位の最初の区間は、その単位の値を書いたものである。 -/
theorem firstMs_ofParts : ∀ {ps : List (TimeUnit × ℕ)}, (ps.map Prod.fst).Nodup →
    ∀ entry ∈ ps, firstMs (ofParts ps) entry.1 = entry.2 * entry.1.ms
  | p :: ps, hnodup, entry, he => by
    rw [List.map_cons, List.nodup_cons] at hnodup
    obtain ⟨hfresh, hnodup⟩ := hnodup
    have hother : ∀ e ∈ ps, e.1 ≠ p.1 := fun e he' heq =>
      hfresh (heq ▸ List.mem_map_of_mem he')
    by_cases hzero : p.2 = 0
    · have hskip : ofParts (p :: ps) = ofParts ps := by
        unfold ofParts
        rw [List.filter_cons_of_neg (by simpa using hzero)]
      rw [hskip]
      rcases List.mem_cons.mp he with rfl | he
      · rw [firstMs_eq_zero hother, hzero, Nat.zero_mul]
      · exact firstMs_ofParts hnodup entry he
    · have hcons : ofParts (p :: ps) = ofPart p :: ofParts ps := by
        unfold ofParts
        rw [List.filter_cons_of_pos (by simpa using hzero)]
        rfl
      rw [hcons]
      rcases List.mem_cons.mp he with rfl | he
      · have hfind : (ofPart entry :: ofParts ps).find? (fun seg => seg.unit = entry.1) =
            some (ofPart entry) := List.find?_cons_of_pos (decide_eq_true (unit_ofPart entry))
        rw [firstMs, hfind, ← ms_ofPart]
        rfl
      · rw [← firstMs_ofParts hnodup entry he, firstMs, firstMs, List.find?_cons_of_neg]
        rw [unit_ofPart]
        exact fun h => hother entry he (of_decide_eq_true h).symm

/-- 秒数の各単位の値は、それより小さい単位を切り捨てた秒数の和である。 -/
theorem firstMs_parts (s : ℕ) :
    firstMs (ofParts (parts s)) .w = 1000 * (s - s % 604800) ∧
    firstMs (ofParts (parts s)) .d = 1000 * (s % 604800 - s % 86400) ∧
    firstMs (ofParts (parts s)) .h = 1000 * (s % 86400 - s % 3600) ∧
    firstMs (ofParts (parts s)) .m = 1000 * (s % 3600 - s % 60) ∧
    firstMs (ofParts (parts s)) .s = 1000 * (s % 60) := by
  have hnodup : ((parts s).map Prod.fst).Nodup := by
    show [TimeUnit.w, .d, .h, .m, .s].Nodup
    decide
  have h := firstMs_ofParts hnodup
  have hw : firstMs (ofParts (parts s)) .w = s / 604800 * TimeUnit.ms .w :=
    h (.w, s / 604800) (by simp [parts])
  have hd : firstMs (ofParts (parts s)) .d = s % 604800 / 86400 * TimeUnit.ms .d :=
    h (.d, s % 604800 / 86400) (by simp [parts])
  have hh : firstMs (ofParts (parts s)) .h = s % 86400 / 3600 * TimeUnit.ms .h :=
    h (.h, s % 86400 / 3600) (by simp [parts])
  have hm : firstMs (ofParts (parts s)) .m = s % 3600 / 60 * TimeUnit.ms .m :=
    h (.m, s % 3600 / 60) (by simp [parts])
  have hs : firstMs (ofParts (parts s)) .s = s % 60 * TimeUnit.ms .s :=
    h (.s, s % 60) (by simp [parts])
  rw [TimeUnit.ms_w] at hw
  rw [TimeUnit.ms_d] at hd
  rw [TimeUnit.ms_h] at hh
  rw [TimeUnit.ms_m] at hm
  rw [TimeUnit.ms_s] at hs
  refine ⟨?_, ?_, ?_, ?_, ?_⟩ <;> omega

/-- 書いた秒数を読む計算は、切り捨てた秒数のミリ秒が書ければ途中で丸まらない。 -/
theorem exact_ofParts {s : ℕ}
    (h : ∀ b ∈ [604800, 86400, 3600, 60, 1], Representable (1000 * (s - s % b))) :
    Exact (ofParts (parts s)) := by
  obtain ⟨hw, hd, hh, hm, hs⟩ := firstMs_parts s
  have hrep : ∀ {b n}, b ∈ [604800, 86400, 3600, 60, 1] → n = 1000 * (s - s % b) →
      Representable n := fun hb heq => heq ▸ h _ hb
  constructor
  · intro u
    cases u with
    | w => exact hw ▸ h 604800 (by decide)
    | d => exact representable_of_le (by omega)
    | h => exact representable_of_le (by omega)
    | m => exact representable_of_le (by omega)
    | s => exact representable_of_le (by omega)
  · intro us hus
    simp only [TimeUnit.all, List.inits, List.map_cons, List.map_nil, List.mem_cons,
      List.not_mem_nil, or_false] at hus
    rcases hus with rfl | rfl | rfl | rfl | rfl | rfl
    · exact representable_of_le (Nat.zero_le _)
    all_goals
      simp only [List.map_cons, List.map_nil, List.sum_cons, List.sum_nil, hw, hd, hh, hm, hs]
    · exact hrep (show 604800 ∈ _ by decide) (by omega)
    · exact hrep (show 86400 ∈ _ by decide) (by omega)
    · exact hrep (show 3600 ∈ _ by decide) (by omega)
    · exact hrep (show 60 ∈ _ by decide) (by omega)
    · exact hrep (show 1 ∈ _ by decide) (by omega)

theorem firstSum_ofParts (s : ℕ) : firstSum (ofParts (parts s)) = 1000 * s := by
  obtain ⟨hw, hd, hh, hm, hs⟩ := firstMs_parts s
  simp only [firstSum, TimeUnit.all, List.map_cons, List.map_nil, List.sum_cons, List.sum_nil,
    hw, hd, hh, hm, hs]
  omega

/-- 基本多言語面の文字だけなら、長さは文字の個数である。 -/
theorem length_utf16 : ∀ l : List Char, (∀ c ∈ l, c.toNat < 0x10000) →
    (utf16 (String.ofList l)).length = l.length := by
  intro l hl
  rw [utf16, String.toList_ofList, List.length_flatMap]
  have hone : ∀ c ∈ l, (if c.toNat < 0x10000 then [c.toNat]
      else [0xd800 + (c.toNat - 0x10000) / 0x400, 0xdc00 + (c.toNat - 0x10000) % 0x400]).length =
        1 := fun c hc => by
    rw [if_pos (hl c hc)]
    rfl
  rw [List.map_congr_left hone, List.map_const', List.sum_replicate, smul_eq_mul, Nat.mul_one]

theorem Segment.toNat_lt (seg : Segment) : ∀ c ∈ seg.text, c.toNat < 0x10000 := by
  intro c hc
  rcases List.mem_append.mp hc with hc | hc
  · have hdigit := toNat_of_isDigit (seg.isDigit_of_mem c hc)
    omega
  · have hall : ∀ e : Suffix, ∀ c ∈ e.text, c.toNat < 0x10000 := fun e => by
      cases e <;> simp [Suffix.text]
    exact hall _ c hc

/-- 書いた秒数は 100 文字に収まる。 -/
theorem length_ofParts {s : ℕ} (hs : s < 2 ^ 53) :
    (utf16 (text (ofParts (parts s)))).length ≤ 100 := by
  have hdigits : ∀ entry ∈ parts s, (ofPart entry).text.length ≤ 17 := fun entry he => by
    have hsmall : entry.2 < 10 ^ 16 := by
      simp only [parts, List.mem_cons, List.not_mem_nil, or_false] at he
      rcases he with rfl | rfl | rfl | rfl | rfl <;> dsimp only <;> omega
    have hlen : (Nat.toDigits 10 entry.2).length ≤ 16 :=
      (Nat.length_toDigits_le_iff (by decide) (by decide)).mpr hsmall
    have hsuffix : ∀ u, (suffixOf u).text.length = 1 := fun u => by cases u <;> rfl
    rw [Segment.text, List.length_append, show (ofPart entry).suffix = suffixOf entry.1 from rfl,
      hsuffix]
    exact Nat.succ_le_succ hlen
  rw [text, length_utf16 _ fun c hc => by
    obtain ⟨seg, -, hc⟩ := List.mem_flatMap.mp hc
    exact seg.toNat_lt c hc]
  have hcount : (ofParts (parts s)).length ≤ 5 := by
    rw [ofParts, List.length_map]
    exact List.length_filter_le _ _
  have hsum : ((ofParts (parts s)).map fun seg => seg.text.length).sum ≤
      (ofParts (parts s)).length * 17 := by
    rw [← smul_eq_mul, ← List.length_map]
    refine List.sum_le_card_nsmul _ _ fun n hn => ?_
    obtain ⟨seg, hseg, rfl⟩ := List.mem_map.mp hn
    obtain ⟨entry, he, rfl⟩ := List.mem_map.mp hseg
    exact hdigits entry (List.mem_of_mem_filter he)
  rw [List.length_flatMap]
  omega

theorem parse_stringify (largeText : ℤ → List Char) {s : ℕ} (hpos : 0 < s) (hs : s < 2 ^ 53)
    (h : ∀ b ∈ [604800, 86400, 3600, 60, 1], Representable (1000 * (s - s % b))) :
    (stringifyDuration largeText s).bind parseNaturalLanguageDurationInMs =
      some ((1000 * s : ℕ) : ℚ) := by
  have hne : ofParts (parts s) ≠ [] := fun hnil => by
    have hsum := firstSum_ofParts s
    rw [hnil] at hsum
    have hzero : firstSum [] = 0 := rfl
    omega
  rw [stringify_natCast largeText hpos hs, Option.bind_some,
    parse_text hne (length_ofParts hs) (exact_ofParts h), firstSum_ofParts]

theorem scan_eq_none {duration : String}
    (h : ¬ ∃ segs : List Segment, segs ≠ [] ∧ duration = text segs ∧
      (utf16 duration).length ≤ 100) : scan duration = none := by
  unfold scan
  by_cases hlen : 100 < (utf16 duration).length
  · exact if_pos hlen
  · rw [if_neg hlen]
    refine if_pos fun hvalid => h ?_
    obtain ⟨segs, hne, rfl⟩ := (validPattern_iff duration).mp hvalid
    exact ⟨segs, hne, rfl, Nat.not_lt.mp hlen⟩

/--
**区間の列の文字列は、計算が途中で丸まらない限り、どの単位も二つ目からの区間の値が 0 のときに限って、区間の和を
返す。過去の時刻は同じ量を使い、ほかの文字列は値を返さず、書いた秒数を読むと元のミリ秒に戻る。**
-/
theorem duration_exact (largeText : ℤ → List Char) (now : ℤ) (duration : String) :
    (∀ segs : List Segment, segs ≠ [] → duration = text segs → (utf16 duration).length ≤ 100 →
      Exact segs → (parseNaturalLanguageDurationInMs duration = some (durationMs segs : ℚ) ↔
        LaterZero segs)) ∧
    parseNaturalLanguageDurationAgo now duration =
      (parseNaturalLanguageDurationInMs duration).map (fun ms => newDate (toDouble (now - ms))) ∧
    ((¬ ∃ segs : List Segment, segs ≠ [] ∧ duration = text segs ∧
      (utf16 duration).length ≤ 100) → parseNaturalLanguageDurationInMs duration = none) ∧
    ∀ s : ℕ, 0 < s → s < 2 ^ 53 →
      (∀ b ∈ [604800, 86400, 3600, 60, 1], Representable (1000 * (s - s % b))) →
      (stringifyDuration largeText s).bind parseNaturalLanguageDurationInMs =
        some ((1000 * s : ℕ) : ℚ) := by
  refine ⟨fun segs hne hd hlen hexact => ?_, ?_, fun h => ?_, fun s hpos hs h => ?_⟩
  · subst hd
    rw [parse_text hne hlen hexact, Option.some_inj, Nat.cast_inj, durationMs_eq,
      ← sum_laterMs_eq_zero_iff]
    omega
  · unfold parseNaturalLanguageDurationAgo parseNaturalLanguageDurationInMs
    cases scan duration with
    | none => rfl
    | some result =>
      obtain ⟨total, hasMatch⟩ := result
      cases hasMatch <;> rfl
  · unfold parseNaturalLanguageDurationInMs
    rw [scan_eq_none h]
  · exact parse_stringify largeText hpos hs h

/-- `1h30m` の区間。 -/
def hourAndHalf : List Segment :=
  [⟨['1'], .h, by simp, by simp⟩, ⟨['3', '0'], .m, by simp, by simp⟩]

theorem duration_exact_hourAndHalf :
    parseNaturalLanguageDurationInMs (text hourAndHalf) = some (durationMs hourAndHalf : ℚ) ∧
    parseNaturalLanguageDurationInMs "" = none ∧
    (stringifyDuration (fun _ => []) (3661 : ℕ)).bind parseNaturalLanguageDurationInMs =
      some ((1000 * 3661 : ℕ) : ℚ) := by
  have hsum : durationMs hourAndHalf = 5400000 := by decide
  have hexact : Exact hourAndHalf := exact_of_le (by rw [hsum]; norm_num)
  have hlater : LaterZero hourAndHalf := by
    unfold LaterZero
    decide
  refine ⟨((duration_exact (fun _ => []) 0 _).1 hourAndHalf (List.cons_ne_nil _ _) rfl (by decide)
      hexact).mpr hlater, (duration_exact (fun _ => []) 0 "").2.2.1 ?_,
    (duration_exact (fun _ => []) 0 "").2.2.2 3661 (by norm_num) (by norm_num) fun b _ =>
      representable_of_le (by omega)⟩
  rintro ⟨segs, hne, htext, -⟩
  cases segs with
  | nil => exact hne rfl
  | cons seg segs =>
    have hnil : (text (seg :: segs)).toList = [] := by
      rw [← htext]
      rfl
    rw [toList_text, List.flatMap_cons, Segment.text, List.append_assoc] at hnil
    exact seg.digits_ne_nil (List.append_eq_nil_iff.mp hnil).1

/-- `1h1h` の区間。 -/
def twoHours : List Segment :=
  [⟨['1'], .h, by simp, by simp⟩, ⟨['1'], .h, by simp, by simp⟩]

/-- 一時間を二つ並べると、二つ目が落ちて一時間になる。 -/
theorem repeated_unit_dropped : ¬ ∀ segs : List Segment, segs ≠ [] →
    (utf16 (text segs)).length ≤ 100 →
      parseNaturalLanguageDurationInMs (text segs) = some (durationMs segs : ℚ) := by
  intro h
  have hsum : durationMs twoHours = 7200000 := by decide
  have hfirst : firstSum twoHours = 3600000 := by decide
  have hexact : Exact twoHours := exact_of_le (by rw [hsum]; norm_num)
  have hlen : (utf16 (text twoHours)).length ≤ 100 := by decide
  have hne : twoHours ≠ [] := List.cons_ne_nil _ _
  have hparse := h twoHours hne hlen
  rw [parse_text hne hlen hexact, hsum, hfirst, Option.some_inj, Nat.cast_inj] at hparse
  omega

end Isomorphic.Duration
