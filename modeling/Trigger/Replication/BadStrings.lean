import Trigger.Infra.JsonText
import Trigger.Infra.Text

/-!
# 壊れた文字列の検出

`detectBadJsonStrings.ts`。本文の `\u` を順に訪れ、前後の六文字だけを見て、対になっていない surrogate の
escape があるかどうかを判定する。

走査は、小文字の 16 進しか認めず、下位の surrogate を `\udc` と `\udd` に限り、逆斜線が escape されて
いるかどうかを見ない。
-/

namespace Replication.BadStrings

open Infra.JsonText
open Infra.Text (utf16)

/-! ## 走査 -/

/-- `/[0-9a-f]/`。 -/
def lowerHex (c : Nat) : Bool := isDigit c || ('a'.toNat ≤ c && c ≤ 'f'.toNat)

/-- `/[89ab]/`。 -/
def isHighThird (c : Nat) : Bool :=
  c == '8'.toNat || c == '9'.toNat || c == 'a'.toNat || c == 'b'.toNat

/-- `/[cd]/`。 -/
def isLowThird (c : Nat) : Bool := c == 'c'.toNat || c == 'd'.toNat

def occursAt (s : List Nat) (i : Nat) : Bool :=
  s[i]? == some backslash && s[i + 1]? == some 'u'.toNat

/-- `jsonString.indexOf("\\u", start)`。 -/
def indexOf (s : List Nat) (start : Nat) : Option Nat :=
  (List.range' start (s.length - start)).find? (occursAt s)

/-- `i` からの六文字が `\ud` と `third` と二桁である。 -/
def surrogateAt (third : Nat → Bool) (s : List Nat) (i : Nat) : Bool :=
  s[i]? == some backslash && s[i + 1]? == some 'u'.toNat && s[i + 2]? == some 'd'.toNat &&
    s[i + 3]?.any third && s[i + 4]?.any lowerHex && s[i + 5]?.any lowerHex

/-- ループの本体が `true` を返す。 -/
def badAt (s : List Nat) (idx : Nat) : Bool :=
  s[idx + 1]? == some 'u'.toNat && s[idx + 2]? == some 'd'.toNat &&
    (s[idx + 3]?.any isHighThird && s[idx + 4]?.any lowerHex && s[idx + 5]?.any lowerHex &&
        (decide (s.length < idx + 12) || !surrogateAt isLowThird s (idx + 6)) ||
      s[idx + 3]?.any isLowThird && s[idx + 4]?.any lowerHex && s[idx + 5]?.any lowerHex &&
        (decide (idx < 6) || !surrogateAt isHighThird s (idx - 6)))

/-- `while` のループ。一回ごとに `idx` は二つ以上進む。 -/
def scan (s : List Nat) : Nat → Option Nat → Bool
  | 0, _ => false
  | _, none => false
  | fuel + 1, some idx =>
    if s.length ≤ idx + 5 then false
    else badAt s idx || scan s fuel (indexOf s (idx + 2))

/-- `detectBadJsonStrings`。 -/
def detectBadJsonStrings (s : List Nat) : Bool := scan s s.length (indexOf s 0)

theorem occursAt_iff {s : List Nat} {i : Nat} :
    occursAt s i = true ↔ s[i]? = some backslash ∧ s[i + 1]? = some 'u'.toNat := by
  simp [occursAt]

/-- 走査は、読み切れるすべての `\u` を訪れる。 -/
theorem scan_iff {s : List Nat} {fuel start : Nat} (hfuel : s.length ≤ fuel + start) :
    scan s fuel (indexOf s start) = true ↔
      ∃ i, start ≤ i ∧ i + 6 ≤ s.length ∧ occursAt s i = true ∧ badAt s i = true := by
  induction fuel generalizing start with
  | zero =>
    have hfalse : scan s 0 (indexOf s start) = false := rfl
    rw [hfalse]
    refine ⟨fun h => (by cases h), ?_⟩
    rintro ⟨i, hi, hlen, -⟩
    omega
  | succ fuel ih =>
    cases hidx : indexOf s start with
    | none =>
      have hfalse : scan s (fuel + 1) none = false := rfl
      rw [hfalse]
      refine ⟨fun h => (by cases h), ?_⟩
      rintro ⟨i, hi, hlen, hocc, -⟩
      have hnone := List.find?_eq_none.mp hidx i (by simp only [List.mem_range'_1]; omega)
      exact absurd hocc hnone
    | some idx =>
      obtain ⟨hocc, hmem, hmin⟩ := List.find?_range'_eq_some.mp hidx
      rw [List.mem_range'_1] at hmem
      have hfirst : ∀ i, start ≤ i → occursAt s i = true → idx ≤ i := by
        intro i hi h
        by_contra hlt
        have hno := hmin i hi (by omega)
        rw [h] at hno
        cases hno
      rw [scan]
      by_cases hend : s.length ≤ idx + 5
      · rw [if_pos hend]
        refine ⟨fun h => (by cases h), ?_⟩
        rintro ⟨i, hi, hlen, h, -⟩
        have := hfirst i hi h
        omega
      · rw [if_neg hend, Bool.or_eq_true, ih (by omega)]
        constructor
        · rintro (hbad | ⟨i, hi, h⟩)
          · exact ⟨idx, by omega, by omega, hocc, hbad⟩
          · exact ⟨i, by omega, h⟩
        · rintro ⟨i, hi, hlen, h, hbad⟩
          have hle := hfirst i hi h
          rcases Nat.lt_or_ge i (idx + 2) with hlt | hge
          · -- 隣の位置は `u` なので `\u` は始まらない
            rcases Nat.lt_or_ge i (idx + 1) with heq | heq
            · obtain rfl : i = idx := by omega
              exact .inl hbad
            · obtain rfl : i = idx + 1 := by omega
              rw [occursAt_iff] at hocc h
              have hboth := h.1.symm.trans hocc.2
              exact absurd (Option.some.inj hboth) (by decide)
          · exact .inr ⟨i, hge, hlen, h, hbad⟩

/-! ## 前後の列で見た判定 -/

/-- 列の先頭の六文字が、surrogate の escape と読める。 -/
def reads (third : Nat → Bool) : List Nat → Bool
  | a :: b :: c :: x :: y :: z :: _ =>
    a == backslash && b == 'u'.toNat && c == 'd'.toNat && third x && lowerHex y && lowerHex z
  | _ => false

def lastSix (l : List Nat) : List Nat := l.drop (l.length - 6)

/-- `before` と `after` の境目で、ループの本体が `true` を返す。 -/
def Fires (before after : List Nat) : Prop :=
  reads isHighThird after = true ∧ reads isLowThird (after.drop 6) = false ∨
    reads isLowThird after = true ∧ reads isHighThird (lastSix before) = false

theorem six_of_reads {third : Nat → Bool} {l : List Nat} (h : reads third l = true) :
    ∃ x y z rest, l = backslash :: 'u'.toNat :: 'd'.toNat :: x :: y :: z :: rest ∧
      third x = true ∧ lowerHex y = true ∧ lowerHex z = true := by
  unfold reads at h
  split at h
  · next a b c x y z rest =>
    simp only [Bool.and_eq_true, beq_iff_eq] at h
    obtain ⟨⟨⟨⟨⟨rfl, rfl⟩, rfl⟩, hx⟩, hy⟩, hz⟩ := h
    exact ⟨x, y, z, rest, rfl, hx, hy, hz⟩
  · cases h

theorem reads_of_length_lt {third : Nat → Bool} {l : List Nat} (h : l.length < 6) :
    reads third l = false := by
  rw [Bool.eq_false_iff]
  intro hr
  obtain ⟨x, y, z, rest, rfl, -⟩ := six_of_reads hr
  simp only [List.length_cons] at h
  omega

theorem reads_append {third : Nat → Bool} {l : List Nat} (h : 6 ≤ l.length) (tail : List Nat) :
    reads third (l ++ tail) = reads third l := by
  match l, h with
  | _ :: _ :: _ :: _ :: _ :: _ :: _, _ => rfl

theorem surrogateAt_append {third : Nat → Bool} (before after : List Nat) :
    surrogateAt third (before ++ after) before.length = reads third after := by
  have hget : ∀ k, (before ++ after)[before.length + k]? = after[k]? := by
    intro k
    rw [List.getElem?_append_right (by omega), Nat.add_sub_cancel_left]
  unfold surrogateAt
  rw [show (before ++ after)[before.length]? = after[0]? from hget 0, hget, hget, hget, hget, hget]
  match after with
  | [] | [_] | [_, _] | [_, _, _] | [_, _, _, _] | [_, _, _, _, _] => simp [reads]
  | a :: b :: c :: x :: y :: z :: rest => simp [reads]

/-- 後ろの六文字の検査。長さの検査は `reads` に含まれる。 -/
theorem next_check (before after : List Nat) (h : 6 ≤ after.length) :
    (decide ((before ++ after).length < before.length + 12) ||
      !surrogateAt isLowThird (before ++ after) (before.length + 6)) =
        !reads isLowThird (after.drop 6) := by
  have hsplit : before ++ after = (before ++ after.take 6) ++ after.drop 6 := by
    rw [List.append_assoc, List.take_append_drop]
  have hlen : before.length + 6 = (before ++ after.take 6).length := by
    rw [List.length_append, List.length_take]
    omega
  rw [show surrogateAt isLowThird (before ++ after) (before.length + 6) =
    reads isLowThird (after.drop 6) by rw [hlen, hsplit, surrogateAt_append]]
  by_cases hshort : (before ++ after).length < before.length + 12
  · have hfalse : reads isLowThird (after.drop 6) = false := by
      refine reads_of_length_lt ?_
      rw [List.length_append] at hshort
      rw [List.length_drop]
      omega
    rw [hfalse, decide_eq_true hshort]
    rfl
  · rw [decide_eq_false hshort, Bool.false_or]

/-- 前の六文字の検査。 -/
theorem previous_check (before after : List Nat) :
    (decide (before.length < 6) ||
      !surrogateAt isHighThird (before ++ after) (before.length - 6)) =
        !reads isHighThird (lastSix before) := by
  by_cases hshort : before.length < 6
  · rw [decide_eq_true hshort, reads_of_length_lt (by rw [lastSix, List.length_drop]; omega)]
    rfl
  · have hcheck := @surrogateAt_append isHighThird (before.take (before.length - 6))
      (lastSix before ++ after)
    have hsplit : before.take (before.length - 6) ++ (lastSix before ++ after) =
        before ++ after := by
      rw [← List.append_assoc, lastSix, List.take_append_drop]
    have hlen : (before.take (before.length - 6)).length = before.length - 6 := by
      rw [List.length_take]
      omega
    rw [hsplit, hlen, reads_append (by rw [lastSix, List.length_drop]; omega)] at hcheck
    rw [decide_eq_false hshort, Bool.false_or, hcheck]

/-- ループの本体の判定は、境目の前後の列だけから決まる。 -/
theorem badAt_iff {before after : List Nat} (hlen : 6 ≤ after.length)
    (hocc : occursAt (before ++ after) before.length = true) :
    badAt (before ++ after) before.length = true ↔ Fires before after := by
  have hget : ∀ k, (before ++ after)[before.length + k]? = after[k]? := by
    intro k
    rw [List.getElem?_append_right (by omega), Nat.add_sub_cancel_left]
  rw [occursAt_iff, show (before ++ after)[before.length]? = after[0]? from hget 0, hget] at hocc
  unfold badAt
  rw [next_check before after hlen, previous_check before after]
  simp only [hget]
  match after, hlen with
  | a :: b :: c :: x :: y :: z :: rest, _ =>
    obtain ⟨ha, hb⟩ := hocc
    cases Option.some.inj ha
    cases Option.some.inj hb
    have hreads : ∀ third, reads third (backslash :: 'u'.toNat :: c :: x :: y :: z :: rest) =
        (c == 'd'.toNat && third x && lowerHex y && lowerHex z) := by
      intro third
      simp only [reads, beq_self_eq_true, Bool.true_and]
    unfold Fires
    rw [hreads, hreads]
    simp only [List.getElem?_cons_succ, List.getElem?_cons_zero, Option.any_some,
      Option.some_beq_some, beq_self_eq_true, Bool.true_and]
    cases c == 'd'.toNat <;> simp [and_assoc]

/-- **走査は、どこかの境目で判定が真になるときに限り `true` を返す。** -/
theorem detectBadJsonStrings_iff (s : List Nat) :
    detectBadJsonStrings s = true ↔ ∃ before after, s = before ++ after ∧ Fires before after := by
  rw [detectBadJsonStrings, scan_iff (by omega)]
  constructor
  · rintro ⟨i, -, hlen, hocc, hbad⟩
    have htake : (s.take i).length = i := by
      rw [List.length_take]
      omega
    have hsplit : s = s.take i ++ s.drop i := (List.take_append_drop i s).symm
    refine ⟨s.take i, s.drop i, hsplit, (badAt_iff ?_ ?_).mp ?_⟩
    · rw [List.length_drop]
      omega
    · rw [← hsplit, htake]
      exact hocc
    · rw [← hsplit, htake]
      exact hbad
  · rintro ⟨before, after, rfl, hfires⟩
    have hread : ∃ third, reads third after = true := by
      rcases hfires with h | h
      · exact ⟨_, h.1⟩
      · exact ⟨_, h.1⟩
    obtain ⟨third, hread⟩ := hread
    obtain ⟨x, y, z, rest, rfl, -⟩ := six_of_reads hread
    have hocc : occursAt (before ++ backslash :: 'u'.toNat :: 'd'.toNat :: x :: y :: z :: rest)
        before.length = true := by
      rw [occursAt_iff, List.getElem?_append_right (by omega),
        List.getElem?_append_right (by omega), Nat.sub_self, Nat.add_sub_cancel_left]
      exact ⟨rfl, rfl⟩
    refine ⟨before.length, by omega, ?_, hocc, (badAt_iff ?_ hocc).mpr hfires⟩
    · simp only [List.length_append, List.length_cons]
      omega
    · simp only [List.length_cons]
      omega

/-! ## 片で見た判定 -/

/-- escape の四桁が、走査に surrogate と読まれる。 -/
def seen (third : Nat → Bool) (e : UnicodeEscape) : Bool :=
  e.first.1 == 'd'.toNat && third e.second.1 && lowerHex e.third.1 && lowerHex e.fourth.1

def seenHigh (e : UnicodeEscape) : Bool := seen isHighThird e

def seenLow (e : UnicodeEscape) : Bool := seen isLowThird e

/-- 片の列の綴り。 -/
def textOf (l : List Piece) : List Nat := l.flatMap Piece.text

/-- 走査に見える。下位なら、直前の六文字が上位の escape と読めてはならない。 -/
def Visible (pre : List Piece) (e : UnicodeEscape) : Prop :=
  seenHigh e = true ∨
    seenLow e = true ∧ reads isHighThird (lastSix (textOf pre)) = false

/-- 走査に見える、対になっていない surrogate がある。 -/
def VisibleLone (j : Text) : Prop :=
  ∃ pre e post, j.pieces = pre ++ Piece.unicode e :: post ∧ Lone pre e post ∧ Visible pre e

/-- 走査に見えない、対になっていない surrogate がある。大文字の桁を含むか、下位で
`\ude`・`\udf` に始まるか、escape された逆斜線に続く綴りと対にされている。 -/
def Overlooked (j : Text) : Prop :=
  ∃ pre e post, j.pieces = pre ++ Piece.unicode e :: post ∧ Lone pre e post ∧ ¬Visible pre e

/-- 対の一方だけが走査に見える。 -/
def HalfSeenPair (j : Text) : Prop :=
  ∃ pre e e' post, j.pieces = pre ++ Piece.unicode e :: .unicode e' :: post ∧ e.IsHigh ∧ e'.IsLow ∧
    seenHigh e ≠ seenLow e'

/-- escape された逆斜線とその後ろが、対になっていない surrogate の escape と読める。 -/
def EscapedBackslash (j : Text) : Prop :=
  ∃ pre h post, j.pieces = pre ++ Piece.escape backslash h :: post ∧
    (reads isHighThird (backslash :: textOf post) = true ∧
        reads isLowThird ((textOf post).drop 5) = false ∨
      reads isLowThird (backslash :: textOf post) = true)

/-- 走査が、壊れていないところを壊れていると読む。 -/
def Misread (j : Text) : Prop := HalfSeenPair j ∨ EscapedBackslash j

theorem hexDigit_value_lt (d : HexDigit) : d.value < 16 := by
  obtain ⟨c, hc⟩ := d
  unfold HexDigit.value
  simp only [isHexDigit, isDigit, Bool.or_eq_true, Bool.and_eq_true, decide_eq_true_eq] at hc ⊢
  simp only [Char.reduceToNat] at hc ⊢
  split
  · omega
  · split <;> omega

theorem value_of_seen {e : UnicodeEscape} {third : Nat → Bool}
    (h : seen third e = true) :
    third e.second.1 = true ∧ 0xD000 + 256 * e.second.value ≤ e.value ∧
      e.value < 0xD000 + 256 * (e.second.value + 1) := by
  unfold seen at h
  simp only [Bool.and_eq_true, beq_iff_eq] at h
  obtain ⟨⟨⟨hfirst, hsecond⟩, -⟩, -⟩ := h
  have hd : e.first.value = 13 := by
    unfold HexDigit.value
    rw [hfirst]
    rfl
  have h3 := hexDigit_value_lt e.third
  have h4 := hexDigit_value_lt e.fourth
  refine ⟨hsecond, ?_, ?_⟩ <;> simp only [UnicodeEscape.value, hd] <;> omega

theorem isHigh_of_seenHigh {e : UnicodeEscape} (h : seenHigh e = true) :
    e.IsHigh := by
  obtain ⟨hthird, hle, hlt⟩ := value_of_seen h
  simp only [isHighThird, Bool.or_eq_true, beq_iff_eq, Char.reduceToNat] at hthird
  have hvalue : 8 ≤ e.second.value ∧ e.second.value ≤ 11 := by
    unfold HexDigit.value
    rcases hthird with ((h | h) | h) | h <;> rw [h] <;> decide
  unfold UnicodeEscape.IsHigh
  omega

theorem isLow_of_seenLow {e : UnicodeEscape} (h : seenLow e = true) : e.IsLow := by
  obtain ⟨hthird, hle, hlt⟩ := value_of_seen h
  simp only [isLowThird, Bool.or_eq_true, beq_iff_eq, Char.reduceToNat] at hthird
  have hvalue : 12 ≤ e.second.value ∧ e.second.value ≤ 13 := by
    unfold HexDigit.value
    rcases hthird with h | h <;> rw [h] <;> decide
  unfold UnicodeEscape.IsLow
  omega

theorem not_isLow_of_isHigh {e : UnicodeEscape} (h : e.IsHigh) : ¬e.IsLow := fun hlow => by
  have := h.2
  have := hlow.1
  omega

theorem reads_unicode (third : Nat → Bool) (e : UnicodeEscape) (tail : List Nat) :
    reads third ((Piece.unicode e).text ++ tail) = seen third e := by
  simp [Piece.text, UnicodeEscape.digits, reads, seen]

theorem u_ne_backslash : 'u'.toNat ≠ backslash := by decide

theorem escapable_ne_u {c : Nat} (h : c ∈ escapable) : c ≠ 'u'.toNat := by
  rintro rfl
  exact absurd h (by decide)

theorem hexDigit_ne_backslash (d : HexDigit) : d.1 ≠ backslash := by
  obtain ⟨c, hc⟩ := d
  rintro rfl
  exact absurd hc (by decide)

/-- 片の境目から surrogate の escape と読めるなら、その片は `\uXXXX` である。 -/
theorem head_of_reads {third : Nat → Bool} {l : List Piece} (h : reads third (textOf l) = true) :
    ∃ e, l.head? = some (.unicode e) ∧ seen third e = true := by
  obtain ⟨x, y, z, rest, htext, -⟩ := six_of_reads h
  cases l with
  | nil => cases htext
  | cons p l =>
    rw [textOf, List.flatMap_cons] at htext
    cases p with
    | raw c hc => exact absurd (List.cons.inj htext).1 hc
    | escape c hc =>
      exact absurd (List.cons.inj (List.cons.inj htext).2).1 (escapable_ne_u hc)
    | unicode e =>
      refine ⟨e, rfl, ?_⟩
      rw [textOf, List.flatMap_cons, reads_unicode] at h
      exact h

theorem lastSix_append {l six : List Nat} (h : six.length = 6) : lastSix (l ++ six) = six := by
  rw [lastSix, List.length_append, h, Nat.add_sub_cancel, List.drop_left]

theorem lastSix_unicode {pre : List Piece} {e : UnicodeEscape}
    (h : pre.getLast? = some (.unicode e)) :
    reads isHighThird (lastSix (textOf pre)) = seenHigh e := by
  obtain ⟨l, rfl⟩ := List.getLast?_eq_some_iff.mp h
  have htext : textOf (l ++ [Piece.unicode e]) = textOf l ++ (Piece.unicode e).text := by
    simp [textOf]
  rw [htext, lastSix_append rfl]
  have hreads := reads_unicode isHighThird e []
  rwa [List.append_nil] at hreads

/-- 逆斜線で終わる六文字は、escape と読めない。 -/
theorem lastSix_backslash (l : List Nat) :
    reads isHighThird (lastSix (l ++ [backslash])) = false := by
  rw [Bool.eq_false_iff]
  intro h
  obtain ⟨x, y, z, rest, hsix, -, -, hz⟩ := six_of_reads h
  have hlen : (lastSix (l ++ [backslash])).length ≤ 6 := by
    rw [lastSix, List.length_drop]
    omega
  have hrest : rest = [] := by
    rw [hsix] at hlen
    simp only [List.length_cons] at hlen
    exact List.eq_nil_of_length_eq_zero (by omega)
  subst hrest
  have hlast : (lastSix (l ++ [backslash])).getLast? = some backslash := by
    rw [lastSix, List.getLast?_drop, if_neg, List.getLast?_concat]
    rw [List.length_append, List.length_singleton]
    omega
  rw [hsix] at hlast
  have hzb : z = backslash := by simpa using hlast
  rw [hzb] at hz
  cases hz

/-- 本文の境目の判定は、`\uXXXX` の手前か、escape された逆斜線の途中でしか真にならない。 -/
theorem fires_cases {l : List Piece} {before after : List Nat} (h : textOf l = before ++ after)
    (hfires : Fires before after) :
    (∃ pre e post, l = pre ++ Piece.unicode e :: post ∧ before = textOf pre ∧
        after = (Piece.unicode e).text ++ textOf post) ∨
      ∃ pre hb post, l = pre ++ Piece.escape backslash hb :: post ∧
        before = textOf pre ++ [backslash] ∧ after = backslash :: textOf post := by
  have hread : ∃ third, reads third after = true := by
    rcases hfires with h | h
    · exact ⟨_, h.1⟩
    · exact ⟨_, h.1⟩
  obtain ⟨third, hread⟩ := hread
  obtain ⟨x, y, z, rest, rfl, -⟩ := six_of_reads hread
  obtain ⟨pre, p, post, front, back, rfl, hp, rfl, hafter⟩ := flatMap_eq_append_cons.mp h
  cases p with
  | raw c hc =>
    cases front with
    | nil => exact absurd (List.cons.inj hp).1 hc
    | cons a front => simp [Piece.text] at hp
  | escape c hc =>
    cases front with
    | nil =>
      -- 逆斜線の次は `u` でない
      obtain rfl : [c] = back := (List.cons.inj hp).2
      exact absurd (List.cons.inj hafter).1.symm (escapable_ne_u hc)
    | cons a front =>
      obtain ⟨ha, htail⟩ := List.cons.inj hp
      cases front with
      | nil =>
        obtain ⟨hcb, hback⟩ := List.cons.inj (show [c] = backslash :: back from htail)
        subst hcb hback
        rw [← ha]
        exact .inr ⟨pre, hc, post, rfl, rfl, by rw [hafter]; rfl⟩
      | cons b front =>
        have hlen := congrArg List.length hp
        simp [Piece.text] at hlen
  | unicode e =>
    cases front with
    | nil =>
      refine .inl ⟨pre, e, post, rfl, by rw [List.append_nil]; rfl, ?_⟩
      rw [hafter, ← List.cons_append, ← List.nil_append (backslash :: back), ← hp]
      rfl
    | cons a front =>
      -- 逆斜線は片の先頭にしかない
      have hmem : backslash ∈ 'u'.toNat :: e.digits := by
        rw [(List.cons.inj hp).2]
        simp
      simp only [UnicodeEscape.digits, List.mem_cons, List.not_mem_nil, or_false] at hmem
      rcases hmem with h | h | h | h | h
      · exact absurd h.symm u_ne_backslash
      all_goals exact absurd h.symm (hexDigit_ne_backslash _)

/-- `\uXXXX` の手前での判定。 -/
theorem fires_unicode {pre post : List Piece} {e : UnicodeEscape} :
    Fires (textOf pre) ((Piece.unicode e).text ++ textOf post) ↔
      seenHigh e = true ∧ reads isLowThird (textOf post) = false ∨
        seenLow e = true ∧ reads isHighThird (lastSix (textOf pre)) = false := by
  unfold Fires
  rw [reads_unicode, reads_unicode]
  exact Iff.rfl

/-- escape された逆斜線の途中での判定。 -/
theorem fires_backslash {pre post : List Piece} :
    Fires (textOf pre ++ [backslash]) (backslash :: textOf post) ↔
      reads isHighThird (backslash :: textOf post) = true ∧
          reads isLowThird ((textOf post).drop 5) = false ∨
        reads isLowThird (backslash :: textOf post) = true := by
  unfold Fires
  rw [lastSix_backslash, List.drop_succ_cons]
  simp

theorem detect_iff (j : Text) :
    detectBadJsonStrings j.units = true ↔ VisibleLone j ∨ Misread j := by
  rw [detectBadJsonStrings_iff]
  constructor
  · rintro ⟨before, after, h, hfires⟩
    rcases fires_cases h hfires with ⟨pre, e, post, hl, rfl, rfl⟩ | ⟨pre, hb, post, hl, rfl, rfl⟩
    · rcases fires_unicode.mp hfires with ⟨hhigh, hnext⟩ | ⟨hlow, hprev⟩
      · -- 次が正しい後半なら読み違い、そうでなければ孤立である
        by_cases hpair : ∃ e', post.head? = some (.unicode e') ∧ e'.IsLow
        · obtain ⟨e', hhead, hisLow⟩ := hpair
          obtain ⟨rest, rfl⟩ := List.head?_eq_some_iff.mp hhead
          refine .inr (.inl ⟨pre, e, e', rest, hl, isHigh_of_seenHigh hhigh, hisLow, ?_⟩)
          rw [textOf, List.flatMap_cons, reads_unicode] at hnext
          rw [hhigh, show seenLow e' = false from hnext]
          decide
        · refine .inl ⟨pre, e, post, hl, .inl ⟨isHigh_of_seenHigh hhigh, ?_⟩, .inl hhigh⟩
          exact fun e' hhead hisLow => hpair ⟨e', hhead, hisLow⟩
      · by_cases hpair : ∃ e', pre.getLast? = some (.unicode e') ∧ e'.IsHigh
        · obtain ⟨e', hlast, hisHigh⟩ := hpair
          rw [lastSix_unicode hlast] at hprev
          obtain ⟨front, rfl⟩ := List.getLast?_eq_some_iff.mp hlast
          rw [List.append_assoc, List.singleton_append] at hl
          refine .inr (.inl ⟨front, e', e, post, hl, hisHigh, isLow_of_seenLow hlow, ?_⟩)
          rw [hlow, hprev]
          decide
        · refine .inl ⟨pre, e, post, hl, .inr ⟨isLow_of_seenLow hlow, ?_⟩, .inr ⟨hlow, hprev⟩⟩
          exact fun e' hlast hisHigh => hpair ⟨e', hlast, hisHigh⟩
    · exact .inr (.inr ⟨pre, hb, post, hl, fires_backslash.mp hfires⟩)
  · -- 逆向き: どの種類でも、検査が止まる場所を挙げる
    have hsplit : ∀ {pre e post}, j.pieces = pre ++ Piece.unicode e :: post →
        j.units = textOf pre ++ ((Piece.unicode e).text ++ textOf post) := by
      intro pre e post hl
      simp [Text.units, hl, textOf]
    rintro (⟨pre, e, post, hl, hlone, hvisible⟩ | ⟨pre, e, e', post, hl, hhigh, hlow, hne⟩ |
      ⟨pre, hb, post, hl, h⟩)
    · refine ⟨_, _, hsplit hl, fires_unicode.mpr ?_⟩
      rcases hvisible with hseen | hseen
      · refine .inl ⟨hseen, ?_⟩
        rw [Bool.eq_false_iff]
        intro hnext
        obtain ⟨e', hhead, hseen'⟩ := head_of_reads hnext
        rcases hlone with ⟨-, hlone⟩ | ⟨hlow, -⟩
        · exact hlone e' hhead (isLow_of_seenLow hseen')
        · exact not_isLow_of_isHigh (isHigh_of_seenHigh hseen) hlow
      · exact .inr hseen
    · cases hs : seenHigh e with
      | true =>
        refine ⟨_, _, hsplit hl, fires_unicode.mpr (.inl ⟨hs, ?_⟩)⟩
        rw [textOf, List.flatMap_cons, reads_unicode]
        cases hs' : seenLow e' with
        | true => exact absurd (hs.trans hs'.symm) hne
        | false => exact hs'
      | false =>
        have hl' : j.pieces = (pre ++ [Piece.unicode e]) ++ Piece.unicode e' :: post := by
          rw [hl]
          simp
        refine ⟨_, _, hsplit hl', fires_unicode.mpr (.inr ⟨?_, ?_⟩)⟩
        · cases hs' : seenLow e' with
          | true => rfl
          | false => exact absurd (hs.trans hs'.symm) hne
        · rw [lastSix_unicode List.getLast?_concat]
          exact hs
    · refine ⟨textOf pre ++ [backslash], backslash :: textOf post, ?_, fires_backslash.mpr h⟩
      simp [Text.units, hl, textOf, Piece.text]

theorem hasLoneSurrogate_iff_visible (j : Text) :
    j.HasLoneSurrogate ↔ VisibleLone j ∨ Overlooked j := by
  rw [Text.hasLoneSurrogate_iff]
  constructor
  · rintro ⟨pre, e, post, hl, hlone⟩
    by_cases hvisible : Visible pre e
    · exact .inl ⟨pre, e, post, hl, hlone, hvisible⟩
    · exact .inr ⟨pre, e, post, hl, hlone, hvisible⟩
  · rintro (⟨pre, e, post, hl, hlone, -⟩ | ⟨pre, e, post, hl, hlone, -⟩)
    · exact ⟨pre, e, post, hl, hlone⟩
    · exact ⟨pre, e, post, hl, hlone⟩

/-- **検出が正しいのは、見える surrogate があるか、読み違いと見落としがともに有るか、ともに無いときに
限る。** -/
theorem detect_correct_iff (j : Text) :
    (detectBadJsonStrings j.units = true ↔ j.HasLoneSurrogate) ↔
      VisibleLone j ∨ (Misread j ↔ Overlooked j) := by
  rw [detect_iff, hasLoneSurrogate_iff_visible]
  by_cases hv : VisibleLone j
  · exact ⟨fun _ => .inl hv, fun _ => ⟨fun _ => .inl hv, fun _ => .inl hv⟩⟩
  · simp only [hv, false_or]

/-! ## 例 -/

def rawPieces (s : String) (h : backslash ∉ s.toList.map Char.toNat) : List Piece :=
  (s.toList.map Char.toNat).pmap Piece.raw fun _ hc heq => h (heq ▸ hc)

def escapeD83D : UnicodeEscape :=
  ⟨⟨'d'.toNat, by decide⟩, ⟨'8'.toNat, by decide⟩, ⟨'3'.toNat, by decide⟩, ⟨'d'.toNat, by decide⟩⟩

def escapeDE00 : UnicodeEscape :=
  ⟨⟨'d'.toNat, by decide⟩, ⟨'e'.toNat, by decide⟩, ⟨'0'.toNat, by decide⟩, ⟨'0'.toNat, by decide⟩⟩

/-- 大文字で書いた `\uD83D`。 -/
def upperD83D : UnicodeEscape :=
  ⟨⟨'D'.toNat, by decide⟩, ⟨'8'.toNat, by decide⟩, ⟨'3'.toNat, by decide⟩, ⟨'D'.toNat, by decide⟩⟩

/-- 上位だけを大文字で書いた本文。 -/
def upperText : Text := .ofString [.unicode upperD83D] (by simp [Piece.InString])

/-- 絵文字の対を escape した本文。 -/
def emojiText : Text :=
  .ofString [.unicode escapeD83D, .unicode escapeDE00] (by simp [Piece.InString])

/-- 逆斜線を escape した本文。 -/
def backslashText : Text :=
  .ofString (.escape backslash (by decide) :: rawPieces "ud83d" (by decide))
    (by simp [Piece.InString, rawPieces, quote])

/-- 大文字の surrogate は見落とされ、正しい対と escape された逆斜線は壊れていると読まれる。 -/
theorem detect_wrong :
    (upperText.units = utf16 "\"\\uD83D\"" ∧ upperText.HasLoneSurrogate ∧
      detectBadJsonStrings upperText.units = false) ∧
    (emojiText.units = utf16 "\"\\ud83d\\ude00\"" ∧ ¬emojiText.HasLoneSurrogate ∧
      detectBadJsonStrings emojiText.units = true) ∧
    (backslashText.units = utf16 "\"\\\\ud83d\"" ∧ ¬backslashText.HasLoneSurrogate ∧
      detectBadJsonStrings backslashText.units = true) := by
  refine ⟨⟨by decide, ?_, by decide⟩, ⟨by decide, ?_, by decide⟩, ⟨by decide, ?_, by decide⟩⟩
  · exact ⟨_, _, List.mem_singleton_self _, [], upperD83D, [], rfl,
      .inl ⟨by decide, fun _ h => by cases h⟩⟩
  · rintro ⟨chars, h, hmem, pre, e, post, rfl, hlone⟩
    injection List.mem_singleton.mp hmem with hchars
    match pre, hchars with
    | [], hchars =>
      obtain ⟨he, rfl⟩ := List.cons.inj hchars
      cases he
      rcases hlone with ⟨-, hlone⟩ | ⟨hlow, -⟩
      · exact hlone escapeDE00 rfl (by decide)
      · exact absurd hlow (by decide)
    | [p], hchars =>
      obtain ⟨rfl, htail⟩ := List.cons.inj hchars
      obtain ⟨he, rfl⟩ := List.cons.inj
        (show .unicode e :: post = [Piece.unicode escapeDE00] from htail)
      cases he
      rcases hlone with ⟨hhigh, -⟩ | ⟨-, hlone⟩
      · exact absurd hhigh (by decide)
      · exact hlone escapeD83D rfl (by decide)
    | p :: q :: pre, hchars =>
      have hlen := congrArg List.length hchars
      simp at hlen
  · rintro ⟨chars, h, hmem, pre, e, post, rfl, -⟩
    injection List.mem_singleton.mp hmem with hchars
    have he : Piece.unicode e ∈
        Piece.escape backslash (by decide) :: rawPieces "ud83d" (by decide) := by
      rw [← hchars]
      simp
    simp [rawPieces] at he

end Replication.BadStrings
