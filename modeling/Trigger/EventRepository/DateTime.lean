import Mathlib.Algebra.Group.Nat.Defs
import Mathlib.Data.List.DropRight
import Mathlib.Data.Int.Notation

/-!
# ClickHouse の DateTime64

`convertClickhouseDateTime64ToJsDate` と `convertClickhouseDateTime64ToNanosecondsEpoch`。前者は、よくある形を
正規表現を使わずに決まった位置から読む。どちらの経路も時差を読まず、速い経路は小数点の後の三文字を、数字で
あるかを見ずに読む。`Date` の時刻は、数でないとき `none` である。
-/

namespace EventRepository

/-! ## JavaScript の文字列と Date -/

/-- `trim` と `Number` が取り除く文字。 -/
def isWhiteSpace (c : Char) : Bool :=
  c.toNat ∈ [0x09, 0x0a, 0x0b, 0x0c, 0x0d, 0x20, 0xa0, 0x1680, 0x2028, 0x2029, 0x202f, 0x205f,
    0x3000, 0xfeff] ∨ 0x2000 ≤ c.toNat ∧ c.toNat ≤ 0x200a

/-- `s.trim()`。 -/
def trim (s : List Char) : List Char := (s.dropWhile isWhiteSpace).rdropWhile isWhiteSpace

/-- 数字の列の値。 -/
def ofDigits (s : List Char) : ℕ := s.foldl (fun n c => n * 10 + (c.toNat - '0'.toNat)) 0

/-- `Number(s)`。渡る文字列は小数点・指数・`0x` を含まず、符号から始まらない。`none` は NaN である。 -/
def toNumber (s : List Char) : Option ℕ :=
  if (trim s).all Char.isDigit then some (ofDigits (trim s)) else none

/-- `s.padEnd(n, "0")`。 -/
def padEnd (n : ℕ) (s : List Char) : List Char := s ++ List.replicate (n - s.length) '0'

/-- `s.substring(i, j)`。 -/
def substring (i j : ℕ) (s : List Char) : List Char := (s.take j).drop i

/-- 1970 年からその年の初めまでの日数。 -/
def dayFromYear (y : ℤ) : ℤ :=
  365 * (y - 1970) + (y - 1969) / 4 - (y - 1901) / 100 + (y - 1601) / 400

def isLeapYear (y : ℤ) : Bool := y % 4 = 0 ∧ (y % 100 ≠ 0 ∨ y % 400 = 0)

/-- 年の初めから月の初めまでの日数。 -/
def dayFromMonth (leap : Bool) (month : ℕ) : ℤ :=
  [0, 31, 59, 90, 120, 151, 181, 212, 243, 273, 304, 334].getD month 0 +
    if leap ∧ 2 ≤ month then 1 else 0

/-- `Date.UTC`。99 までの年は 1900 年代であり、範囲を越えた月や日は繰り上がる。 -/
def dateUTC (year : ℕ) (month : ℤ) (day hour minute second ms : ℕ) : ℤ :=
  let fullYear : ℤ := if year ≤ 99 then 1900 + year else year
  let y := fullYear + month / 12
  let date := dayFromYear y + dayFromMonth (isLeapYear y) (month % 12).toNat + (day - 1)
  (((date * 24 + hour) * 60 + minute) * 60 + second) * 1000 + ms

/-! ## 正規表現 -/

/-- `CLICKHOUSE_DATETIME_REGEX` の組。時差は、正の向きか、時、分である。 -/
structure DateTimeMatch where
  year : List Char
  month : List Char
  day : List Char
  hour : List Char
  minute : List Char
  second : List Char
  fraction : List Char
  offset : Option (Bool × List Char × List Char)
deriving DecidableEq

/-- `(?:\\.(\\d{1,9}))?`。 -/
def matchFraction : List Char → List Char × List Char
  | '.' :: rest =>
    let digits := (rest.takeWhile Char.isDigit).take 9
    if digits.isEmpty then ([], '.' :: rest) else (digits, rest.drop digits.length)
  | rest => ([], rest)

/-- `([+-])(\\d{2}):?(\\d{2})`。 -/
def matchOffset (sign : Char) (h₁ h₂ m₁ m₂ : Char) : Option (Bool × List Char × List Char) :=
  if (sign = '+' ∨ sign = '-') ∧ [h₁, h₂, m₁, m₂].all Char.isDigit then
    some (sign == '+', [h₁, h₂], [m₁, m₂])
  else none

/-- `(?:Z|([+-])(\\d{2}):?(\\d{2}))?$`。 -/
def matchSuffix : List Char → Option (Option (Bool × List Char × List Char))
  | [] => some none
  | ['Z'] => some none
  | [sign, h₁, h₂, m₁, m₂] => (matchOffset sign h₁ h₂ m₁ m₂).map some
  | [sign, h₁, h₂, ':', m₁, m₂] => (matchOffset sign h₁ h₂ m₁ m₂).map some
  | _ => none

/-- `CLICKHOUSE_DATETIME_REGEX.exec(s)`。 -/
def exec : List Char → Option DateTimeMatch
  | y₁ :: y₂ :: y₃ :: y₄ :: '-' :: o₁ :: o₂ :: '-' :: d₁ :: d₂ :: sep :: h₁ :: h₂ :: ':' ::
      m₁ :: m₂ :: ':' :: s₁ :: s₂ :: rest =>
    if [y₁, y₂, y₃, y₄, o₁, o₂, d₁, d₂, h₁, h₂, m₁, m₂, s₁, s₂].all Char.isDigit ∧
        (sep = ' ' ∨ sep = 'T') then
      (matchSuffix (matchFraction rest).2).map fun offset =>
        ⟨[y₁, y₂, y₃, y₄], [o₁, o₂], [d₁, d₂], [h₁, h₂], [m₁, m₂], [s₁, s₂], (matchFraction rest).1,
          offset⟩
    else none
  | _ => none

namespace DateTimeMatch

/-- `Number(fraction.padEnd(9, "0"))`。 -/
def nsWithinSecond (m : DateTimeMatch) : ℕ := ofDigits (padEnd 9 m.fraction)

def msPart (m : DateTimeMatch) : ℕ := m.nsWithinSecond / 1000000

/-- 組から読んだ時刻。時差は読まない。 -/
def utc (m : DateTimeMatch) (ms : ℕ) : ℤ :=
  dateUTC (ofDigits m.year) (ofDigits m.month - 1) (ofDigits m.day) (ofDigits m.hour)
    (ofDigits m.minute) (ofDigits m.second) ms

/-- 符号のついた時差（分）。 -/
def offsetMinutes (m : DateTimeMatch) : ℤ :=
  match m.offset with
  | some (positive, h, min) => (if positive then 1 else -1) * (ofDigits h * 60 + ofDigits min)
  | none => 0

end DateTimeMatch

/-! ## 二つの変換 -/

def invalidDateTime (date : List Char) : String :=
  "Invalid ClickHouse DateTime64 string: \"" ++ String.ofList date ++ "\""

/-- ナノ秒への変換。 -/
def convertClickhouseDateTime64ToNanosecondsEpoch (date : List Char) : Except String ℤ :=
  match exec (trim date) with
  | none => .error (invalidDateTime date)
  | some m =>
    let leftoverNs := m.nsWithinSecond - m.msPart * 1000000
    let msEpoch := m.utc m.msPart - m.offsetMinutes * 60000
    .ok (msEpoch * 1000000 + leftoverNs)

/-- よくある形か。 -/
def isCommonFormat (date : List Char) : Bool :=
  19 ≤ date.length ∧ date[4]? = some '-' ∧ date[7]? = some '-' ∧ date[10]? = some ' '

/-- 速い経路の、秒より下の部分。 -/
def fastMilliseconds (date : List Char) : Option ℕ :=
  if 20 < date.length ∧ date[19]? = some '.' then
    toNumber (padEnd 3 (substring 20 (min 23 date.length) date))
  else some 0

/-- `Date` への変換の結果の時刻。 -/
def convertClickhouseDateTime64ToJsDate (date : List Char) : Except String (Option ℤ) :=
  if isCommonFormat date then
    .ok do
      let year ← toNumber (substring 0 4 date)
      let month ← toNumber (substring 5 7 date)
      let day ← toNumber (substring 8 10 date)
      let hour ← toNumber (substring 11 13 date)
      let minute ← toNumber (substring 14 16 date)
      let second ← toNumber (substring 17 19 date)
      let ms ← fastMilliseconds date
      some (dateUTC year (month - 1) day hour minute second ms)
  else
    match exec (trim date) with
    | none => .error (invalidDateTime date)
    | some m => .ok (some (m.utc m.msPart))

/-! ## 数字の列 -/

theorem isDigit_toNat {c : Char} (h : c.isDigit = true) : 48 ≤ c.toNat ∧ c.toNat ≤ 57 := by
  unfold Char.isDigit at h
  rw [Bool.and_eq_true, decide_eq_true_eq, decide_eq_true_eq] at h
  exact ⟨UInt32.le_iff_toNat_le.mp h.1, UInt32.le_iff_toNat_le.mp h.2⟩

theorem not_whiteSpace_of_isDigit {c : Char} (h : c.isDigit = true) : isWhiteSpace c = false := by
  obtain ⟨hlow, hhigh⟩ := isDigit_toNat h
  unfold isWhiteSpace
  rw [decide_eq_false_iff_not]
  rintro (hmem | hrange)
  · simp only [List.mem_cons, List.not_mem_nil, or_false] at hmem
    omega
  · omega

theorem ofDigits_append (a b : List Char) :
    ofDigits (a ++ b) = ofDigits a * 10 ^ b.length + ofDigits b := by
  unfold ofDigits
  rw [List.foldl_append]
  generalize a.foldl (fun n c => n * 10 + (c.toNat - '0'.toNat)) 0 = n
  induction b generalizing n with
  | nil => simp
  | cons c b ih =>
    rw [List.foldl_cons, List.foldl_cons, ih, ih (0 * 10 + (c.toNat - '0'.toNat)), List.length_cons,
      Nat.pow_succ, Nat.add_mul, Nat.zero_mul, Nat.zero_add]
    rw [Nat.mul_assoc, Nat.mul_comm 10, Nat.add_assoc]

theorem ofDigits_lt {s : List Char} (h : s.all Char.isDigit = true) :
    ofDigits s < 10 ^ s.length := by
  induction s using List.reverseRecOn with
  | nil => decide
  | append_singleton s c ih =>
    rw [List.all_append, Bool.and_eq_true] at h
    have hc := isDigit_toNat (List.all_eq_true.mp h.2 c List.mem_cons_self)
    have hs := ih h.1
    have hone : ofDigits [c] = c.toNat - 48 := by
      show 0 * 10 + (c.toNat - 48) = _
      omega
    rw [ofDigits_append, List.length_append, List.length_singleton, Nat.pow_succ, hone]
    omega

theorem trim_of_forall {s : List Char} (h : ∀ c ∈ s, isWhiteSpace c = false) : trim s = s := by
  have hdrop : s.dropWhile isWhiteSpace = s := by
    cases s with
    | nil => rfl
    | cons c s => exact List.dropWhile_cons_of_neg (by rw [h c List.mem_cons_self]; decide)
  unfold trim
  rw [hdrop, List.rdropWhile_eq_self_iff]
  intro hne
  rw [h _ (List.getLast_mem hne)]
  decide

theorem toNumber_of_digits {s : List Char} (h : s.all Char.isDigit = true) :
    toNumber s = some (ofDigits s) := by
  have htrim : trim s = s :=
    trim_of_forall fun c hc => not_whiteSpace_of_isDigit (List.all_eq_true.mp h c hc)
  unfold toNumber
  rw [htrim, if_pos h]

/-- 前後の空白を除いた残りが元の文字列の中にある。 -/
theorem exists_trim (date : List Char) : ∃ lead trail, date = lead ++ trim date ++ trail ∧
    (∀ c ∈ lead, isWhiteSpace c = true) ∧ ∀ c ∈ trail, isWhiteSpace c = true := by
  refine ⟨date.takeWhile isWhiteSpace, (date.dropWhile isWhiteSpace).rtakeWhile isWhiteSpace, ?_,
    fun c hc => List.mem_takeWhile_imp hc, fun c hc => List.mem_rtakeWhile_imp hc⟩
  unfold trim
  rw [List.append_assoc, List.rdropWhile_append_rtakeWhile, List.takeWhile_append_dropWhile]

/-! ## 秒より下の部分 -/

/-- 小数点の後の三文字が、数字だけか、0 の後に空白の続く三文字である。 -/
def Legible (window : List Char) : Prop :=
  window.all Char.isDigit = true ∨
    window.length = 3 ∧ (window.dropWhile (· = '0')).all isWhiteSpace = true

instance (window : List Char) : Decidable (Legible window) := inferInstanceAs (Decidable (_ ∨ _))

/-- 九桁に揃えた小数のミリ秒の部分は、はじめの三桁である。 -/
theorem msPart_of_three (a b c : Char) {more : List Char} (hmore : more.all Char.isDigit = true)
    (hlength : more.length ≤ 6) :
    ofDigits (padEnd 9 (a :: b :: c :: more)) / 1000000 = ofDigits [a, b, c] := by
  have hsplit : padEnd 9 (a :: b :: c :: more) = [a, b, c] ++ padEnd 6 more := by
    unfold padEnd
    rw [List.length_cons, List.length_cons, List.length_cons,
      show 9 - (more.length + 1 + 1 + 1) = 6 - more.length by omega]
    rfl
  have hpad : (padEnd 6 more).length = 6 := by
    unfold padEnd
    rw [List.length_append, List.length_replicate]
    omega
  have hdigits : (padEnd 6 more).all Char.isDigit = true := by
    unfold padEnd
    rw [List.all_append, hmore, List.all_replicate]
    simp
  have hlt := ofDigits_lt hdigits
  rw [hpad] at hlt
  rw [hsplit, ofDigits_append, hpad]
  omega

theorem msPart_of_two (a b : Char) :
    ofDigits (padEnd 9 [a, b]) / 1000000 = ofDigits [a, b, '0'] :=
  @msPart_of_three a b '0' (List.replicate 6 '0') (by decide) (by decide)

theorem msPart_of_one (a : Char) : ofDigits (padEnd 9 [a]) / 1000000 = ofDigits [a, '0', '0'] :=
  @msPart_of_three a '0' '0' (List.replicate 6 '0') (by decide) (by decide)

theorem isWhiteSpace_ne_digit {c : Char} (h : isWhiteSpace c = true) : c.isDigit = false := by
  by_contra hdigit
  rw [not_whiteSpace_of_isDigit (Bool.not_eq_false _ ▸ hdigit)] at h
  cases h

/-- 数字でない文字が先頭と末尾の間にあれば、数ではない。 -/
theorem toNumber_of_mem {s : List Char} {c : Char} (h : c ∈ trim s) (hc : c.isDigit = false) :
    toNumber s = none := by
  unfold toNumber
  rw [if_neg]
  intro hall
  rw [List.all_eq_true.mp hall c h] at hc
  cases hc

theorem eq_zero_iff {a : Char} : a = '0' ↔ a.toNat = 48 :=
  ⟨fun h => h ▸ rfl, fun h => Char.toNat_inj.mp h⟩

/-- 一桁の後に数字でない文字の続く窓。 -/
theorem legible_one {a x y : Char} (ha : a.isDigit = true) (hx : x.isDigit = false) :
    toNumber [a, x, y] = some (ofDigits [a, '0', '0']) ↔ Legible [a, x, y] := by
  have hspace : isWhiteSpace a = false := not_whiteSpace_of_isDigit ha
  have hx0 : x ≠ '0' := by
    rintro rfl
    cases hx
  have hlegible : Legible [a, x, y] ↔ a = '0' ∧ isWhiteSpace x = true ∧ isWhiteSpace y = true := by
    by_cases h0 : a = '0'
    · simp [Legible, h0, hx, hx0]
    · simp [Legible, h0, hx, hspace]
  rw [hlegible]
  by_cases hys : isWhiteSpace y = true
  · by_cases hxs : isWhiteSpace x = true
    · have htrim : trim [a, x, y] = [a] := by
        simp [trim, List.rdropWhile, hspace, hxs, hys]
      have hvalue : toNumber [a, x, y] = some (ofDigits [a]) := by
        unfold toNumber
        rw [htrim, if_pos (by simp [ha])]
      rw [hvalue, Option.some_inj, eq_zero_iff]
      obtain ⟨hlow, -⟩ := isDigit_toNat ha
      have h1 : ofDigits [a] = a.toNat - 48 := by
        show 0 * 10 + (a.toNat - 48) = _
        omega
      have h3 : ofDigits [a, '0', '0'] = (a.toNat - 48) * 100 := by
        show ((0 * 10 + (a.toNat - 48)) * 10 + 0) * 10 + 0 = _
        omega
      rw [h1, h3]
      exact ⟨fun h => ⟨by omega, hxs, hys⟩, fun h => by omega⟩
    · have hmem : x ∈ trim [a, x, y] := by
        simp [trim, List.rdropWhile, hspace, hxs, hys]
      rw [toNumber_of_mem hmem hx]
      exact ⟨fun h => (by cases h), fun h => absurd h.2.1 hxs⟩
  · have hmem : x ∈ trim [a, x, y] := by
      simp [trim, List.rdropWhile, hspace, hys]
    rw [toNumber_of_mem hmem hx]
    exact ⟨fun h => (by cases h), fun h => absurd h.2.2 hys⟩

/-- 二桁の後に数字でない文字の続く窓。 -/
theorem legible_two {a b x : Char} (ha : a.isDigit = true) (hb : b.isDigit = true)
    (hx : x.isDigit = false) :
    toNumber [a, b, x] = some (ofDigits [a, b, '0']) ↔ Legible [a, b, x] := by
  have hsa : isWhiteSpace a = false := not_whiteSpace_of_isDigit ha
  have hsb : isWhiteSpace b = false := not_whiteSpace_of_isDigit hb
  have hx0 : x ≠ '0' := by
    rintro rfl
    cases hx
  have hlegible : Legible [a, b, x] ↔ a = '0' ∧ b = '0' ∧ isWhiteSpace x = true := by
    by_cases h0 : a = '0'
    · by_cases h1 : b = '0'
      · simp [Legible, h0, h1, hx, hx0]
      · simp [Legible, h0, h1, hx, hsb]
    · simp [Legible, h0, hx, hsa]
  rw [hlegible]
  by_cases hxs : isWhiteSpace x = true
  · have htrim : trim [a, b, x] = [a, b] := by
      simp [trim, List.rdropWhile, hsa, hsb, hxs]
    have hvalue : toNumber [a, b, x] = some (ofDigits [a, b]) := by
      unfold toNumber
      rw [htrim, if_pos (by simp [ha, hb])]
    rw [hvalue, Option.some_inj, eq_zero_iff, eq_zero_iff]
    obtain ⟨hla, -⟩ := isDigit_toNat ha
    obtain ⟨hlb, -⟩ := isDigit_toNat hb
    have h2 : ofDigits [a, b] = (a.toNat - 48) * 10 + (b.toNat - 48) := by
      show (0 * 10 + (a.toNat - 48)) * 10 + (b.toNat - 48) = _
      omega
    have h3 : ofDigits [a, b, '0'] = ((a.toNat - 48) * 10 + (b.toNat - 48)) * 10 := by
      show ((0 * 10 + (a.toNat - 48)) * 10 + (b.toNat - 48)) * 10 + 0 = _
      omega
    rw [h2, h3]
    exact ⟨fun h => ⟨by omega, by omega, hxs⟩, fun h => by omega⟩
  · have hmem : x ∈ trim [a, b, x] := by
      simp [trim, List.rdropWhile, hsa, hxs]
    rw [toNumber_of_mem hmem hx]
    exact ⟨fun h => (by cases h), fun h => absurd h.2.2 hxs⟩

/--
小数点の後に桁が続き、その後に数字でない文字が来るとき、三文字から読んだミリ秒が正しいのは、窓が
`Legible` なときに限る。
-/
theorem legible_iff {digits after : List Char} (hne : digits ≠ [])
    (hdigits : digits.all Char.isDigit = true) (hlength : digits.length ≤ 9)
    (hafter : ∀ c ∈ after.head?, c.isDigit = false) :
    toNumber (padEnd 3 ((digits ++ after).take 3)) = some (ofDigits (padEnd 9 digits) / 1000000) ↔
      Legible ((digits ++ after).take 3) := by
  -- 三文字の窓に入る桁の数で分ける
  match digits, hne with
  | [a], _ =>
    have ha : a.isDigit = true := List.all_eq_true.mp hdigits a List.mem_cons_self
    rw [msPart_of_one]
    match after with
    | [] =>
      refine ⟨fun _ => .inl hdigits, fun _ => toNumber_of_digits ?_⟩
      simp [padEnd, ha]
    | [x] =>
      have hx : x.isDigit = false := hafter x rfl
      have hmem : x ∈ trim [a, x, '0'] := by
        simp [trim, List.rdropWhile, not_whiteSpace_of_isDigit ha,
          not_whiteSpace_of_isDigit (c := '0') rfl]
      refine ⟨fun h => ?_, fun h => ?_⟩
      · have hnone : toNumber [a, x, '0'] = none := toNumber_of_mem hmem hx
        rw [show padEnd 3 (List.take 3 ([a] ++ [x])) = [a, x, '0'] from rfl, hnone] at h
        cases h
      · rcases h with hall | ⟨hthree, -⟩
        · rw [List.all_eq_true.mp hall x (by simp)] at hx
          cases hx
        · cases hthree
    | x :: y :: rest => exact legible_one ha (hafter x rfl)
  | [a, b], _ =>
    have ha : a.isDigit = true := List.all_eq_true.mp hdigits a List.mem_cons_self
    have hb : b.isDigit = true := List.all_eq_true.mp hdigits b (by simp)
    rw [msPart_of_two]
    match after with
    | [] =>
      refine ⟨fun _ => .inl hdigits, fun _ => toNumber_of_digits ?_⟩
      simp [padEnd, ha, hb]
    | x :: rest => exact legible_two ha hb (hafter x rfl)
  | a :: b :: c :: more, _ =>
    have hthree : [a, b, c].all Char.isDigit = true := by
      simp only [List.all_cons, Bool.and_eq_true] at hdigits
      simp [hdigits.1, hdigits.2.1, hdigits.2.2.1]
    have hmore : more.all Char.isDigit = true := by
      simp only [List.all_cons, Bool.and_eq_true] at hdigits
      exact hdigits.2.2.2
    have hsix : more.length ≤ 6 := by
      simp only [List.length_cons] at hlength
      omega
    rw [msPart_of_three a b c hmore hsix]
    exact ⟨fun _ => .inl hthree, fun _ => toNumber_of_digits hthree⟩

theorem toNumber_lt {window : List Char} (hlength : window.length ≤ 3) {ms : ℕ}
    (h : toNumber (padEnd 3 window) = some ms) : ms < 1000 := by
  unfold toNumber at h
  split at h
  · next hall =>
    have hlt := ofDigits_lt hall
    have htrim : (trim (padEnd 3 window)).length ≤ 3 := by
      have hsub : (trim (padEnd 3 window)).length ≤ (padEnd 3 window).length :=
        ((List.rdropWhile_prefix _ _).length_le).trans (List.dropWhile_suffix _).length_le
      unfold padEnd at hsub ⊢
      rw [List.length_append, List.length_replicate] at hsub
      omega
    rw [← Option.some.inj h]
    exact hlt.trans_le (Nat.pow_le_pow_right (by decide) htrim)
  · cases h

/-! ## 経路の比較 -/

/-- 正規表現に合う文字列の形。 -/
theorem exec_eq_some {s : List Char} {m : DateTimeMatch} (h : exec s = some m) :
    ∃ y₁ y₂ y₃ y₄ o₁ o₂ d₁ d₂ sep h₁ h₂ m₁ m₂ s₁ s₂ rest,
      s = y₁ :: y₂ :: y₃ :: y₄ :: '-' :: o₁ :: o₂ :: '-' :: d₁ :: d₂ :: sep :: h₁ :: h₂ :: ':' ::
        m₁ :: m₂ :: ':' :: s₁ :: s₂ :: rest ∧
      [y₁, y₂, y₃, y₄, o₁, o₂, d₁, d₂, h₁, h₂, m₁, m₂, s₁, s₂].all Char.isDigit = true ∧
      ∃ offset, matchSuffix (matchFraction rest).2 = some offset ∧
        m = ⟨[y₁, y₂, y₃, y₄], [o₁, o₂], [d₁, d₂], [h₁, h₂], [m₁, m₂], [s₁, s₂],
          (matchFraction rest).1, offset⟩ := by
  unfold exec at h
  split at h
  · split at h
    · next hdigits =>
      obtain ⟨offset, hsuffix, hm⟩ := Option.map_eq_some_iff.mp h
      exact ⟨_, _, _, _, _, _, _, _, _, _, _, _, _, _, _, _, rfl, hdigits.1, offset, hsuffix,
        hm.symm⟩
    · cases h
  · cases h

/-- 組に合う末尾は数字で始まらない。 -/
theorem matchSuffix_head {s : List Char} {offset : Option (Bool × List Char × List Char)}
    (h : matchSuffix s = some offset) : ∀ c ∈ s.head?, c.isDigit = false ∧ c ≠ '.' := by
  have hsign : ∀ {sign h₁ h₂ m₁ m₂ : Char} {r : Bool × List Char × List Char},
      matchOffset sign h₁ h₂ m₁ m₂ = some r → sign.isDigit = false ∧ sign ≠ '.' := by
    intro sign h₁ h₂ m₁ m₂ r hr
    unfold matchOffset at hr
    split at hr
    · next hcond =>
      rcases hcond.1 with rfl | rfl
      · decide
      · decide
    · cases hr
  intro c hc
  unfold matchSuffix at h
  split at h
  · cases hc
  · cases Option.some.inj hc
    decide
  · obtain ⟨r, hr, -⟩ := Option.map_eq_some_iff.mp h
    cases Option.some.inj hc
    exact hsign hr
  · obtain ⟨r, hr, -⟩ := Option.map_eq_some_iff.mp h
    cases Option.some.inj hc
    exact hsign hr
  · cases h

/-- 小数の組は、小数点と一桁から九桁までの数字か、何も読まないかである。 -/
theorem matchFraction_cases (rest : List Char) :
    (rest = '.' :: (matchFraction rest).1 ++ (matchFraction rest).2 ∧ (matchFraction rest).1 ≠ [] ∧
        (matchFraction rest).1.all Char.isDigit = true ∧ (matchFraction rest).1.length ≤ 9) ∨
      matchFraction rest = ([], rest) := by
  unfold matchFraction
  split
  · next rest =>
    dsimp only
    split
    · exact .inr rfl
    · next hne =>
      refine .inl ⟨?_, by simpa using hne, ?_, ?_⟩
      · have hprefix : (rest.takeWhile Char.isDigit).take 9 <+: rest :=
          (List.take_prefix _ _).trans (List.takeWhile_prefix _)
        rw [List.cons_append]
        congr 1
        exact (List.prefix_iff_eq_append.mp hprefix).symm
      · exact List.all_eq_true.mpr fun c hc => List.mem_takeWhile_imp (List.mem_of_mem_take hc)
      · rw [List.length_take]
        exact Nat.min_le_left _ _
  · exact .inr rfl

/-- 小数点の後に読む窓が `Legible` か、小数点が無い。 -/
def LegibleFraction (date : List Char) : Prop :=
  date[19]? = some '.' → Legible ((date.drop 20).take 3)

/-- 速い経路のミリ秒。 -/
theorem fastMilliseconds_spec {rest trail : List Char}
    {offset : Option (Bool × List Char × List Char)}
    (hsuffix : matchSuffix (matchFraction rest).2 = some offset)
    (htrail : ∀ c ∈ trail, isWhiteSpace c = true) (head : List Char) (hhead : head.length = 19) :
    (fastMilliseconds (head ++ (rest ++ trail)) =
        some (ofDigits (padEnd 9 (matchFraction rest).1) / 1000000) ↔
      LegibleFraction (head ++ (rest ++ trail))) ∧
      ∀ ms, fastMilliseconds (head ++ (rest ++ trail)) = some ms → ms < 1000 := by
  have hget : (head ++ (rest ++ trail))[19]? = (rest ++ trail).head? := by
    rw [List.getElem?_append_right (by omega), hhead, Nat.sub_self, List.head?_eq_getElem?]
  have hafter : ∀ c ∈ ((matchFraction rest).2 ++ trail).head?, c.isDigit = false ∧ c ≠ '.' := by
    intro c hc
    rcases hsuf : (matchFraction rest).2 with _ | ⟨d, more⟩
    · rw [hsuf, List.nil_append] at hc
      have hspace := htrail c (List.mem_of_mem_head? hc)
      exact ⟨isWhiteSpace_ne_digit hspace, by rintro rfl; cases hspace⟩
    · rw [hsuf] at hc hsuffix
      exact matchSuffix_head hsuffix c hc
  unfold LegibleFraction fastMilliseconds
  rw [hget]
  rcases matchFraction_cases rest with ⟨hrest, hne, hdigits, hnine⟩ | hnone
  · -- 小数がある
    obtain ⟨d, digits, hfraction⟩ := List.exists_cons_of_ne_nil hne
    have hdot : (rest ++ trail).head? = some '.' := by rw [hrest]; rfl
    have hdrop : (head ++ (rest ++ trail)).drop 20 =
        (matchFraction rest).1 ++ ((matchFraction rest).2 ++ trail) := by
      rw [List.drop_append, List.drop_eq_nil_of_le (by omega), hhead]
      conv_lhs => rw [hrest]
      rw [List.nil_append, List.cons_append, List.cons_append, List.append_assoc]
      rfl
    have hlong : 20 < (head ++ (rest ++ trail)).length := by
      rw [List.length_append, hhead, hrest, hfraction]
      simp only [List.cons_append, List.length_cons, List.length_append]
      omega
    have hwindow : substring 20 (min 23 (head ++ (rest ++ trail)).length)
        (head ++ (rest ++ trail)) = ((head ++ (rest ++ trail)).drop 20).take 3 := by
      unfold substring
      rw [← List.take_take, List.take_length, List.take_drop]
    rw [if_pos ⟨hlong, hdot⟩, hwindow, hdrop]
    have hiff := legible_iff hne hdigits hnine fun c hc => (hafter c hc).1
    refine ⟨hiff.trans ⟨fun h _ => h, fun h => h hdot⟩, fun ms hms => toNumber_lt ?_ hms⟩
    rw [List.length_take]
    exact Nat.min_le_left _ _
  · -- 小数が無い
    rw [hnone] at hafter ⊢
    have hdot : (rest ++ trail).head? ≠ some '.' := fun h => (hafter '.' h).2 rfl
    rw [if_neg fun h => hdot h.2]
    have hzero : ofDigits (padEnd 9 []) / 1000000 = 0 := by decide
    exact ⟨⟨fun _ h => absurd h hdot, fun _ => congrArg some hzero.symm⟩, fun ms hms => by
      rw [← Option.some.inj hms]
      decide⟩

theorem dateUTC_ms (year : ℕ) (month : ℤ) (day hour minute second ms : ℕ) :
    dateUTC year month day hour minute second ms =
      dateUTC year month day hour minute second 0 + ms := by
  unfold dateUTC
  simp

/-- よくある形の文字列は、空白で始まらない。 -/
theorem lead_eq_nil {lead tail : List Char} {y₁ y₂ y₃ y₄ : Char}
    (hlead : ∀ c ∈ lead, isWhiteSpace c = true)
    (hdigits : ∀ c ∈ [y₁, y₂, y₃, y₄], c.isDigit = true)
    (hfast : (lead ++ (y₁ :: y₂ :: y₃ :: y₄ :: tail))[4]? = some '-') : lead = [] := by
  have hdash : ∀ c ∈ [y₁, y₂, y₃, y₄], some c ≠ some '-' := by
    rintro c hc h
    have := hdigits c hc
    rw [Option.some.inj h] at this
    cases this
  match lead with
  | [] => rfl
  | [_] => exact absurd hfast (hdash y₄ (by simp))
  | [_, _] => exact absurd hfast (hdash y₃ (by simp))
  | [_, _, _] => exact absurd hfast (hdash y₂ (by simp))
  | [_, _, _, _] => exact absurd hfast (hdash y₁ (by simp))
  | _ :: _ :: _ :: _ :: c :: more =>
    have hspace := hlead c (by simp)
    rw [show c = '-' from Option.some.inj hfast] at hspace
    cases hspace

/-- 速い経路が読む時刻。 -/
theorem fast_eq {y₁ y₂ y₃ y₄ o₁ o₂ d₁ d₂ sep h₁ h₂ m₁ m₂ s₁ s₂ : Char} {tail : List Char}
    {m : DateTimeMatch} (hdigits : [y₁, y₂, y₃, y₄, o₁, o₂, d₁, d₂, h₁, h₂, m₁, m₂, s₁, s₂].all
      Char.isDigit = true)
    (hm : m.year = [y₁, y₂, y₃, y₄] ∧ m.month = [o₁, o₂] ∧ m.day = [d₁, d₂] ∧ m.hour = [h₁, h₂] ∧
      m.minute = [m₁, m₂] ∧ m.second = [s₁, s₂]) {date : List Char}
    (hdate : date = [y₁, y₂, y₃, y₄, '-', o₁, o₂, '-', d₁, d₂, sep, h₁, h₂, ':', m₁, m₂, ':', s₁,
      s₂] ++ tail) (hfast : isCommonFormat date = true) :
    convertClickhouseDateTime64ToJsDate date = .ok ((fastMilliseconds date).map m.utc) := by
  have hnumber : ∀ s : List Char, (∀ c ∈ s, c ∈ [y₁, y₂, y₃, y₄, o₁, o₂, d₁, d₂, h₁, h₂, m₁, m₂,
      s₁, s₂]) → toNumber s = some (ofDigits s) := fun s hs =>
    toNumber_of_digits (List.all_eq_true.mpr fun c hc => List.all_eq_true.mp hdigits c (hs c hc))
  obtain ⟨hyear, hmonth, hday, hhour, hminute, hsecond⟩ := hm
  unfold convertClickhouseDateTime64ToJsDate
  rw [if_pos hfast]
  have hyear' : substring 0 4 date = [y₁, y₂, y₃, y₄] := by rw [hdate]; rfl
  have hmonth' : substring 5 7 date = [o₁, o₂] := by rw [hdate]; rfl
  have hday' : substring 8 10 date = [d₁, d₂] := by rw [hdate]; rfl
  have hhour' : substring 11 13 date = [h₁, h₂] := by rw [hdate]; rfl
  have hminute' : substring 14 16 date = [m₁, m₂] := by rw [hdate]; rfl
  have hsecond' : substring 17 19 date = [s₁, s₂] := by rw [hdate]; rfl
  rw [hyear', hmonth', hday', hhour', hminute', hsecond', hnumber _ (by simp), hnumber _ (by simp),
    hnumber _ (by simp), hnumber _ (by simp), hnumber _ (by simp), hnumber _ (by simp)]
  unfold DateTimeMatch.utc
  rw [hyear, hmonth, hday, hhour, hminute, hsecond]
  rcases fastMilliseconds date with _ | ms
  · rfl
  · rfl

theorem msPart_lt {m : DateTimeMatch} (hlength : m.fraction.length ≤ 9)
    (hdigits : m.fraction.all Char.isDigit = true) : m.msPart < 1000 := by
  have hlt := ofDigits_lt (s := padEnd 9 m.fraction) (by
    unfold padEnd
    rw [List.all_append, hdigits, List.all_replicate]
    simp)
  unfold padEnd at hlt
  rw [List.length_append, List.length_replicate, Nat.add_sub_cancel' hlength] at hlt
  unfold DateTimeMatch.msPart DateTimeMatch.nsWithinSecond padEnd
  omega

/-- ナノ秒への変換の、ミリ秒への切り捨て。 -/
theorem nanoseconds_floor {date : List Char} {m : DateTimeMatch} (hm : exec (trim date) = some m) :
    (convertClickhouseDateTime64ToNanosecondsEpoch date).map (fun ns => some (ns / 1000000)) =
      .ok (some (m.utc m.msPart - m.offsetMinutes * 60000)) := by
  unfold convertClickhouseDateTime64ToNanosecondsEpoch
  rw [hm]
  have hleft : m.nsWithinSecond - m.msPart * 1000000 < 1000000 := by
    unfold DateTimeMatch.msPart
    omega
  show Except.ok (some (((m.utc m.msPart - m.offsetMinutes * 60000) * 1000000 +
    ((m.nsWithinSecond - m.msPart * 1000000 : ℕ) : ℤ)) / 1000000)) = _
  rw [show ((m.utc m.msPart - m.offsetMinutes * 60000) * 1000000 +
    ((m.nsWithinSecond - m.msPart * 1000000 : ℕ) : ℤ)) / 1000000 =
      m.utc m.msPart - m.offsetMinutes * 60000 by omega]

/--
**正規表現に合う文字列の `Date` がナノ秒の時刻の切り捨てと一致するのは、時差が零で、よくある形として読まれる
ときには小数点の後の三文字が `Legible` な場合に限る。**
-/
theorem jsDate_agrees_iff (date : List Char) (m : DateTimeMatch) (hm : exec (trim date) = some m) :
    convertClickhouseDateTime64ToJsDate date =
        (convertClickhouseDateTime64ToNanosecondsEpoch date).map (fun ns => some (ns / 1000000)) ↔
      m.offsetMinutes = 0 ∧ (isCommonFormat date = true → LegibleFraction date) := by
  rw [nanoseconds_floor hm]
  by_cases hfast : isCommonFormat date = true
  · obtain ⟨lead, trail, hdate, hlead, htrail⟩ := exists_trim date
    obtain ⟨y₁, y₂, y₃, y₄, o₁, o₂, d₁, d₂, sep, h₁, h₂, m₁, m₂, s₁, s₂, rest, hcore, hdigits,
      offset, hsuffix, hparts⟩ := exec_eq_some hm
    -- 空白で始まらないので、位置は組の位置である
    have hnil : lead = [] := by
      have hdash : date[4]? = some '-' := (of_decide_eq_true hfast).2.1
      rw [hdate, hcore, List.append_assoc] at hdash
      exact lead_eq_nil hlead
        (fun c hc => List.all_eq_true.mp hdigits c (by simp at hc ⊢; tauto)) hdash
    rw [hnil, List.nil_append, hcore] at hdate
    have hsplit : date = [y₁, y₂, y₃, y₄, '-', o₁, o₂, '-', d₁, d₂, sep, h₁, h₂, ':', m₁, m₂, ':',
        s₁, s₂] ++ (rest ++ trail) := hdate
    have hfraction : m.fraction = (matchFraction rest).1 := by rw [hparts]
    obtain ⟨hiff, hlt⟩ := fastMilliseconds_spec hsuffix htrail [y₁, y₂, y₃, y₄, '-', o₁, o₂, '-',
      d₁, d₂, sep, h₁, h₂, ':', m₁, m₂, ':', s₁, s₂] rfl
    rw [← hsplit, ← hfraction] at hiff
    rw [← hsplit] at hlt
    have hms : m.msPart < 1000 := by
      rcases matchFraction_cases rest with ⟨-, -, hall, hnine⟩ | hnone
      · exact msPart_lt (hfraction ▸ hnine) (hfraction ▸ hall)
      · have hempty : m.fraction = [] := by rw [hfraction, hnone]
        exact msPart_lt (hempty ▸ Nat.zero_le 9) (hempty ▸ rfl)
    rw [fast_eq (m := m) hdigits (by rw [hparts]; exact ⟨rfl, rfl, rfl, rfl, rfl, rfl⟩) hsplit
      hfast]
    have hutc : ∀ ms, m.utc ms = m.utc 0 + ms := fun ms => dateUTC_ms _ _ _ _ _ _ ms
    have hvalue : m.msPart = ofDigits (padEnd 9 m.fraction) / 1000000 := rfl
    rw [← hvalue] at hiff
    constructor
    · intro h
      obtain ⟨ms, hread, hsame⟩ := Option.map_eq_some_iff.mp (Except.ok.inj h)
      have hbound := hlt ms hread
      rw [hutc ms, hutc m.msPart] at hsame
      have heq : m.offsetMinutes = 0 ∧ ms = m.msPart := by omega
      exact ⟨heq.1, fun _ => hiff.mp (heq.2 ▸ hread)⟩
    · rintro ⟨hoffset, hlegible⟩
      rw [hiff.mpr (hlegible hfast), hoffset]
      simp
  · unfold convertClickhouseDateTime64ToJsDate
    rw [if_neg hfast, hm]
    refine ⟨fun h => ?_, fun h => ?_⟩
    · have hsame := Option.some.inj (Except.ok.inj h)
      exact ⟨by omega, fun hcommon => absurd hcommon hfast⟩
    · rw [h.1]
      simp

/-- 2025 年 9 月 23 日 12 時 32 分 46.130 秒。 -/
def sampleMatch : DateTimeMatch :=
  ⟨"2025".toList, "09".toList, "23".toList, "12".toList, "32".toList, "46".toList, "130".toList,
    none⟩

/-- 三桁の小数と `Z` を持つ時刻は一致する。 -/
theorem jsDate_agrees_milliseconds :
    convertClickhouseDateTime64ToJsDate "2025-09-23 12:32:46.130Z".toList =
        (convertClickhouseDateTime64ToNanosecondsEpoch "2025-09-23 12:32:46.130Z".toList).map
          (fun ns => some (ns / 1000000)) ↔
      sampleMatch.offsetMinutes = 0 ∧ (isCommonFormat "2025-09-23 12:32:46.130Z".toList = true →
        LegibleFraction "2025-09-23 12:32:46.130Z".toList) :=
  jsDate_agrees_iff "2025-09-23 12:32:46.130Z".toList sampleMatch (by decide +kernel)

/-- 時差のある時刻と、一桁の小数の後に `Z` のある時刻は食い違う。 -/
theorem jsDate_differs :
    convertClickhouseDateTime64ToJsDate "2025-09-23 12:32:46+02:00".toList ≠
        (convertClickhouseDateTime64ToNanosecondsEpoch "2025-09-23 12:32:46+02:00".toList).map
          (fun ns => some (ns / 1000000)) ∧
      convertClickhouseDateTime64ToJsDate "2025-09-23 12:32:46.1Z".toList ≠
        (convertClickhouseDateTime64ToNanosecondsEpoch "2025-09-23 12:32:46.1Z".toList).map
          (fun ns => some (ns / 1000000)) := by
  refine ⟨fun h => ?_, fun h => ?_⟩
  · revert h
    decide +kernel
  · revert h
    decide +kernel

end EventRepository
