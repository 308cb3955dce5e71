import Mathlib.Computability.Language
import Trigger.Infra.Replace
import Trigger.Tsql.Escape

/-!
# 文字列 literal と引用した識別子の往復

`escape.ts` の `escapeTSQLString`・`escapeTSQLIdentifier` と、`parse_string.ts` の
`parseStringLiteralText`。

escape は一文字ずつの一回の走査だが、読む側は二文字の並びの置換を十一回順に適用する。backslash の直後に
`b f r n t 0 a v` のどれかが来る文字列では、二重にした backslash の二つ目がその文字と並びを作り、先に置き換わる。

## 主な結果

* `parse_quote_iff` — 読み戻せる文字列
* `quote_mem_quotedRule_iff` — 字句として受理される文字列
* `literals_exact` — 二つを合わせたもの
* `backslash_n_is_lost` / `backquote_not_lexed` — 戻らない文字列と、受理されない識別子
-/

namespace Tsql

open Infra.Replace

/-! ## escape -/

/-- `escapeCharsMap`。backslash の後ろに置く文字を返す。 -/
def escapeCharsMap : Char → Option Char
  | '\x08' => some 'b'
  | '\x0c' => some 'f'
  | '\r' => some 'r'
  | '\n' => some 'n'
  | '\t' => some 't'
  | '\x00' => some '0'
  | '\x07' => some 'a'
  | '\x0b' => some 'v'
  | '\\' => some '\\'
  | _ => none

/-- `singlequoteEscapeCharsMap` と `backquoteEscapeCharsMap`。引用符 `q` を加える。 -/
def quoteEscapeCharsMap (q c : Char) : Option Char := if c = q then some q else escapeCharsMap c

/-- 一文字の escape（`map[c] || c`）。 -/
def quoteEscape (q c : Char) : List Char :=
  match quoteEscapeCharsMap q c with
  | some e => ['\\', e]
  | none => [c]

/-- 一文字ずつ escape して引用符で囲む。 -/
def quote (q : Char) (value : String) : String :=
  String.ofList (q :: value.toList.flatMap (quoteEscape q) ++ [q])

def escapeParamClickhouse (value : String) : String := quote '\'' value

/-- `escapeTSQLString` の文字列の場合。 -/
def escapeTSQLString (value : String) : String := escapeParamClickhouse value

/-- `/^[A-Za-z_$][A-Za-z0-9_$]*$/`。 -/
def isBareTSQLIdentifier : List Char → Bool
  | [] => false
  | c :: rest =>
    (isIdentifierStart c || c == '$') && rest.all fun d => isIdentifierChar d || d == '$'

/-- `escapeTSQLIdentifier` の文字列の場合。 -/
def escapeTSQLIdentifier (identifier : String) : Except PrintError String :=
  if '%' ∈ identifier.toList then
    .error (.query ("The TSQL identifier \"" ++ identifier ++
      "\" is not permitted as it contains the \"%\" character"))
  else if isBareTSQLIdentifier identifier.toList then .ok identifier
  else .ok (quote '`' identifier)

/-! ## 読む側 -/

/-- backslash との並びと、その置き換え。この順に適用する。 -/
def commonEscapes : List (Char × List Char) :=
  [('b', ['\x08']), ('f', ['\x0c']), ('r', ['\r']), ('n', ['\n']), ('t', ['\t']), ('0', []),
    ('a', ['\x07']), ('v', ['\x0b']), ('\\', ['\\'])]

def replaceCommonEscapeCharacters (text : List Char) : List Char :=
  commonEscapes.foldl (fun text e => replacePair '\\' e.1 e.2 text) text

/-- 前後の一文字を落とし、二重の引用符と、backslash の付いた引用符を戻す。 -/
def unquote (opening : Char) (text : List Char) : List Char :=
  replacePair '\\' opening [opening] (replacePair opening opening [opening] text.tail.dropLast)

/-- 囲みの種類ごとの（開く文字、閉じる文字）。この順に調べる。 -/
def quoteKinds : List (Char × Char) := [('\'', '\''), ('"', '"'), ('`', '`'), ('\x7b', '\x7d')]

/-- `SyntaxError` の本文を誤りとする。 -/
def parseStringLiteralText (text : String) : Except String String :=
  match quoteKinds.find? fun k =>
      text.toList.head? == some k.1 && text.toList.getLast? == some k.2 with
  | some k => .ok (String.ofList (replaceCommonEscapeCharacters (unquote k.1 text.toList)))
  | none => .error ("Invalid string literal, must start and end with the same quote type: " ++ text)

/-- `visitIdentifier` が識別子の token の文字列を名前にする部分。 -/
def visitIdentifier (text : String) : Except String String :=
  if 2 ≤ text.toList.length ∧
      ((text.toList.head? = some '`' ∧ text.toList.getLast? = some '`') ∨
        (text.toList.head? = some '"' ∧ text.toList.getLast? = some '"')) then
    parseStringLiteralText text
  else .ok text

/-! ## 字句の規則 -/

/-- `ESCAPE_CHAR_COMMON` の二文字目。英字は大文字と小文字を区別しない。 -/
def commonEscapeChars : List Char :=
  ['b', 'B', 'f', 'F', 'r', 'R', 'n', 'N', 't', 'T', '0', 'a', 'A', 'v', 'V', '\\']

/-- 引用符 `q` の中の一区切り。`escaped` は backslash を付けて書ける引用符である。 -/
def quotedItem (q escaped : Char) : Language Char :=
  {x | (∃ c, c ≠ '\\' ∧ c ≠ q ∧ x = [c]) ∨ (∃ c ∈ commonEscapeChars, x = ['\\', c]) ∨
    x = ['\\', escaped] ∨ x = [q, q]}

/-- 引用符 `q` で囲んだ字句。 -/
def quotedRule (q escaped : Char) : Language Char :=
  {x | ∃ body ∈ KStar.kstar (quotedItem q escaped), x = q :: body ++ [q]}

/-- `STRING_LITERAL` -/
def stringLiteral : Language Char := quotedRule '\'' '\''

/-- `IDENTIFIER`。backquote の規則が許すのは、backslash の付いた一重の引用符である。 -/
def identifierToken : Language Char :=
  {x | isBareTSQLIdentifier x = true ∨ x ∈ quotedRule '`' '\'' ∨ x ∈ quotedRule '"' '"'}

/-! ## 置換の途中の形 -/

/-- `remaining` の並びだけがまだ escape されている一文字。 -/
def escapedAs (remaining : List Char) (c : Char) : List Char :=
  match escapeCharsMap c with
  | some e => if e ∈ remaining then ['\\', e] else [c]
  | none => [c]

/-- 英字と数字の並びの置き換え。最後の backslash の置き換えを除いたものである。 -/
def letterEscapes : List (Char × List Char) := commonEscapes.dropLast

/-- backslash の直後に来ると、先に置き換わる文字。 -/
def escapeLetters : List Char := letterEscapes.map Prod.fst

/-- backslash の直後に `b f r n t 0 a v` のどれかが来る。 -/
def BadPair (s : List Char) : Prop := ∃ x ∈ escapeLetters, ['\\', x] <:+: s

variable {q x : Char} {rep s : List Char}

theorem unescape_escapeCharsMap {c e : Char} (h : escapeCharsMap c = some e) :
    unescapeChar e = some c := by
  unfold escapeCharsMap at h
  split at h <;> cases h <;> rfl

theorem escapeCharsMap_eq_backslash {c : Char} (h : escapeCharsMap c = some '\\') : c = '\\' :=
  (Option.some.inj (unescape_escapeCharsMap h)).symm

/-- NUL を除けば、並びの置き換えは元の文字に戻す。 -/
theorem letterEscapes_spec {e : Char × List Char} (he : e ∈ letterEscapes) {c : Char}
    (hc : c ≠ '\x00') (h : escapeCharsMap c = some e.1) : e.2 = [c] := by
  have hback := unescape_escapeCharsMap h
  simp only [letterEscapes, commonEscapes, List.dropLast, List.mem_cons, List.not_mem_nil,
    or_false] at he
  rcases he with rfl | rfl | rfl | rfl | rfl | rfl | rfl | rfl
  all_goals obtain rfl := Option.some.inj hback
  case inr.inr.inr.inr.inr.inl => exact absurd rfl hc
  all_goals rfl

/-- escape に使う文字は、それ自身は escape されない。 -/
theorem escapeCharsMap_letter : ∀ x ∈ escapeLetters, escapeCharsMap x = none := by
  intro x hx
  simp only [escapeLetters, letterEscapes, commonEscapes, List.dropLast, List.map_cons,
    List.map_nil, List.mem_cons, List.not_mem_nil, or_false] at hx
  rcases hx with rfl | rfl | rfl | rfl | rfl | rfl | rfl | rfl <;> rfl

theorem escapeLetters_ne : '\\' ∉ escapeLetters := by
  simp [escapeLetters, letterEscapes, commonEscapes]

/--
一つの並びの置換は、その並びの形の文字だけを変える。二重の backslash の直後に並びの二文字目が来ないことが
要る。
-/
theorem replacePair_flatMap {u v : Char → List Char} (hx : x ≠ '\\') :
    ∀ s : List Char,
    (∀ c ∈ s, (c ≠ '\\' ∧ u c = [c] ∧ v c = [c]) ∨
      (∃ e, e ≠ '\\' ∧ u c = ['\\', e] ∧ v c = if e = x then rep else ['\\', e]) ∨
      (c = '\\' ∧ u c = ['\\', '\\'] ∧ v c = ['\\', '\\'])) →
    (∀ front rest, s = front ++ '\\' :: rest → (rest.flatMap u).head? ≠ some x) →
    replacePair '\\' x rep (s.flatMap u) = s.flatMap v
  | [], _, _ => rfl
  | c :: s, hunit, hadj => by
    have ih := replacePair_flatMap hx s (fun d hd => hunit d (List.mem_cons_of_mem c hd))
      fun front rest hs => hadj (c :: front) rest (by rw [hs]; rfl)
    rw [List.flatMap_cons, List.flatMap_cons]
    rcases hunit c List.mem_cons_self with ⟨hc, hu, hv⟩ | ⟨e, he, hu, hv⟩ | ⟨rfl, hu, hv⟩
    · rw [hu, hv, ← ih]
      exact replacePair_cons_of_ne hc
    · rw [hu, hv, ← ih]
      by_cases hex : e = x
      · rw [if_pos hex, hex]
        exact replacePair_match
      · rw [if_neg hex]
        show replacePair '\\' x rep ('\\' :: e :: s.flatMap u) = _
        rw [replacePair_cons_of_head (by simpa using hex), replacePair_cons_of_ne he]
        rfl
    · rw [hu, hv, ← ih]
      show replacePair '\\' x rep ('\\' :: '\\' :: s.flatMap u) = _
      rw [replacePair_cons_of_head (by simpa using hx.symm),
        replacePair_cons_of_head (hadj [] s rfl)]
      rfl

/-- 一文字を escape したものの先頭は、backslash か元の文字である。 -/
theorem head?_escapedAs (remaining : List Char) (s : List Char) :
    (s.flatMap (escapedAs remaining)).head? = some x → x = '\\' ∨ s.head? = some x := by
  intro h
  cases s with
  | nil => cases h
  | cons c s =>
    rw [List.flatMap_cons] at h
    unfold escapedAs at h
    split at h
    · split at h
      · exact .inl (Option.some.inj h).symm
      · exact .inr h
    · exact .inr h

theorem infix_of_eq {front rest : List Char} (hs : s = front ++ '\\' :: rest)
    (hhead : rest.head? = some x) : ['\\', x] <:+: s := by
  cases rest with
  | nil => cases hhead
  | cons d rest =>
    obtain rfl := Option.some.inj hhead
    exact ⟨front, rest, by rw [hs]; simp⟩

/-- 一つの英字の並びの置換。 -/
theorem replacePair_letter {remaining : List Char} (hx : x ≠ '\\') (hfresh : x ∉ remaining)
    (hslash : '\\' ∈ remaining) (hrep : ∀ c ∈ s, escapeCharsMap c = some x → rep = [c])
    (hbad : ¬ ['\\', x] <:+: s) :
    replacePair '\\' x rep (s.flatMap (escapedAs (x :: remaining))) =
      s.flatMap (escapedAs remaining) := by
  refine replacePair_flatMap hx s (fun c hc => ?_) fun front rest hs hhead => ?_
  · unfold escapedAs
    cases he : escapeCharsMap c with
    | none =>
      refine .inl ⟨?_, rfl, rfl⟩
      rintro rfl
      cases he
    | some e =>
      by_cases hslashes : e = '\\'
      · rw [hslashes] at he ⊢
        obtain rfl := escapeCharsMap_eq_backslash he
        exact .inr (.inr ⟨rfl, if_pos (List.mem_cons_of_mem x hslash), if_pos hslash⟩)
      · by_cases hex : e = x
        · refine .inr (.inl ⟨e, hslashes, if_pos (by rw [hex]; exact List.mem_cons_self), ?_⟩)
          rw [if_pos hex, hrep c hc (by rw [he, hex])]
          exact if_neg (by rw [hex]; exact hfresh)
        · by_cases hmem : e ∈ remaining
          · refine .inr (.inl ⟨e, hslashes, if_pos (List.mem_cons_of_mem x hmem), ?_⟩)
            rw [if_neg hex]
            exact if_pos hmem
          · refine .inl ⟨?_, if_neg ?_, if_neg hmem⟩
            · rintro rfl
              exact hslashes (Option.some.inj he).symm
            · rw [List.mem_cons]
              exact fun h => h.elim hex hmem
  · rcases head?_escapedAs _ _ hhead with h | h
    · exact hx h
    · exact hbad (infix_of_eq hs h)

/-- 英字の並びを全て置き換えると、二重の backslash だけが残る。 -/
theorem foldl_letters (hnul : '\x00' ∉ s) (hgood : ¬ BadPair s) :
    ∀ L : List (Char × List Char), (∀ e ∈ L, e ∈ letterEscapes) → (L.map Prod.fst).Nodup →
      L.foldl (fun text e => replacePair '\\' e.1 e.2 text)
        (s.flatMap (escapedAs (L.map Prod.fst ++ ['\\']))) = s.flatMap (escapedAs ['\\'])
  | [], _, _ => rfl
  | e :: L, hL, hnodup => by
    rw [List.map_cons, List.nodup_cons] at hnodup
    have he := hL e List.mem_cons_self
    have hletter : e.1 ∈ escapeLetters := List.mem_map_of_mem he
    have hne : e.1 ≠ '\\' := fun h => escapeLetters_ne (h ▸ hletter)
    rw [List.foldl_cons, List.map_cons, List.cons_append, replacePair_letter hne]
    · exact foldl_letters hnul hgood L (fun d hd => hL d (List.mem_cons_of_mem e hd)) hnodup.2
    · rw [List.mem_append, List.mem_singleton]
      exact fun h => h.elim hnodup.1 hne
    · exact List.mem_append_right _ (List.mem_singleton.mpr rfl)
    · exact fun c hc h => letterEscapes_spec he (fun hz => hnul (hz ▸ hc)) h
    · exact fun h => hgood ⟨e.1, hletter, h⟩

/-- 最後に、二重の backslash を戻す。 -/
theorem replacePair_backslash : ∀ s : List Char,
    replacePair '\\' '\\' ['\\'] (s.flatMap (escapedAs ['\\'])) = s
  | [] => rfl
  | c :: s => by
    have ih := replacePair_backslash s
    rw [List.flatMap_cons]
    by_cases hc : c = '\\'
    · subst hc
      show replacePair '\\' '\\' ['\\'] ('\\' :: '\\' :: s.flatMap _) = _
      rw [replacePair_match, ih]
      rfl
    · have hunit : escapedAs ['\\'] c = [c] := by
        unfold escapedAs
        cases he : escapeCharsMap c with
        | none => rfl
        | some e =>
          refine if_neg fun hmem => hc (escapeCharsMap_eq_backslash ?_)
          rw [he, List.mem_singleton.mp hmem]
      rw [hunit, List.singleton_append, replacePair_cons_of_ne hc, ih]

/-! ## 引用符 -/

/-- 引用符として使える文字。ほかの escape に現れない。 -/
structure IsQuote (q : Char) : Prop where
  unescaped : escapeCharsMap q = none
  notEscape : q ∉ commonEscapeChars

theorem isQuote_single : IsQuote '\'' := ⟨rfl, by simp [commonEscapeChars]⟩

theorem isQuote_backquote : IsQuote '`' := ⟨rfl, by simp [commonEscapeChars]⟩

theorem IsQuote.ne_backslash (hq : IsQuote q) : q ≠ '\\' := by
  rintro rfl
  exact absurd hq.unescaped (Option.some_ne_none _)

/-- escape に使う文字は、`ESCAPE_CHAR_COMMON` の二文字目である。 -/
theorem mem_commonEscapeChars {c e : Char} (h : escapeCharsMap c = some e) :
    e ∈ commonEscapeChars := by
  unfold escapeCharsMap at h
  split at h <;> cases h <;> simp [commonEscapeChars]

/-- 一文字の escape は、引用符、ほかの escape される文字、そのままの文字のどれかである。 -/
theorem quoteEscape_cases (q c : Char) :
    (c = q ∧ quoteEscape q c = ['\\', q]) ∨
    (c ≠ q ∧ ∃ e, escapeCharsMap c = some e ∧ quoteEscape q c = ['\\', e]) ∨
    (c ≠ q ∧ c ≠ '\\' ∧ escapeCharsMap c = none ∧ quoteEscape q c = [c]) := by
  unfold quoteEscape quoteEscapeCharsMap
  by_cases hc : c = q
  · rw [if_pos hc]
    exact .inl ⟨hc, rfl⟩
  · rw [if_neg hc]
    cases he : escapeCharsMap c with
    | some e => exact .inr (.inl ⟨hc, e, rfl, rfl⟩)
    | none =>
      refine .inr (.inr ⟨hc, ?_, rfl, rfl⟩)
      rintro rfl
      cases he

/-- escape した文字列の中に、引用符は並ばない。 -/
theorem replacePair_quotes (hq : IsQuote q) : ∀ s : List Char,
    replacePair q q [q] (s.flatMap (quoteEscape q)) = s.flatMap (quoteEscape q) ∧
      (s.flatMap (quoteEscape q)).head? ≠ some q
  | [] => ⟨rfl, fun h => by cases h⟩
  | c :: s => by
    obtain ⟨ih, hhead⟩ := replacePair_quotes hq s
    rw [List.flatMap_cons]
    rcases quoteEscape_cases q c with ⟨-, hu⟩ | ⟨-, e, he, hu⟩ | ⟨hc, -, -, hu⟩
    · rw [hu]
      refine ⟨?_, fun h => hq.ne_backslash (Option.some.inj h).symm⟩
      show replacePair q q [q] ('\\' :: q :: s.flatMap _) = _
      rw [replacePair_cons_of_ne hq.ne_backslash.symm, replacePair_cons_of_head hhead, ih]
      rfl
    · have hne : e ≠ q := fun h => hq.notEscape (h ▸ mem_commonEscapeChars he)
      rw [hu]
      refine ⟨?_, fun h => hq.ne_backslash (Option.some.inj h).symm⟩
      show replacePair q q [q] ('\\' :: e :: s.flatMap _) = _
      rw [replacePair_cons_of_ne hq.ne_backslash.symm, replacePair_cons_of_ne hne, ih]
      rfl
    · rw [hu, List.singleton_append, replacePair_cons_of_ne hc, ih]
      exact ⟨rfl, fun h => hc (Option.some.inj h)⟩

/-- 全ての escape の並び。 -/
def allEscapes : List Char := escapeLetters ++ ['\\']

theorem mem_allEscapes {c e : Char} (h : escapeCharsMap c = some e) : e ∈ allEscapes := by
  unfold escapeCharsMap at h
  split at h <;> cases h <;> simp [allEscapes, escapeLetters, letterEscapes, commonEscapes]

/-- 囲みを外し、引用符だけを戻した文字列。 -/
theorem unquote_quote (hq : IsQuote q) (s : String) :
    unquote q (quote q s).toList = s.toList.flatMap (escapedAs allEscapes) := by
  have hbody : (quote q s).toList.tail.dropLast = s.toList.flatMap (quoteEscape q) := by
    rw [quote, String.toList_ofList, List.cons_append, List.tail_cons, List.dropLast_concat]
  rw [unquote, hbody, (replacePair_quotes hq _).1]
  refine replacePair_flatMap hq.ne_backslash _ (fun c _ => ?_) fun front rest _ =>
    (replacePair_quotes hq rest).2
  rcases quoteEscape_cases q c with ⟨rfl, hu⟩ | ⟨hc, e, he, hu⟩ | ⟨-, hslash, he, hu⟩
  · refine .inr (.inl ⟨c, hq.ne_backslash, hu, ?_⟩)
    rw [if_pos rfl, escapedAs, hq.unescaped]
  · have hv : escapedAs allEscapes c = ['\\', e] := by
      rw [escapedAs, he]
      exact if_pos (mem_allEscapes he)
    by_cases hslash : e = '\\'
    · rw [hslash] at he hu hv
      exact .inr (.inr ⟨escapeCharsMap_eq_backslash he, hu, hv⟩)
    · refine .inr (.inl ⟨e, hslash, hu, ?_⟩)
      have hne : e ≠ q := fun h => hq.notEscape (h ▸ mem_commonEscapeChars he)
      rw [hv, if_neg hne]
  · exact .inl ⟨hslash, hu, by rw [escapedAs, he]⟩

theorem replaceCommonEscapeCharacters_eq (text : List Char) :
    replaceCommonEscapeCharacters text = replacePair '\\' '\\' ['\\']
      (letterEscapes.foldl (fun text e => replacePair '\\' e.1 e.2 text) text) := rfl

/-- 悪い並びが無ければ、元の文字列に戻る。 -/
theorem decode_of_good (hnul : '\x00' ∉ s) (hgood : ¬ BadPair s) :
    replaceCommonEscapeCharacters (s.flatMap (escapedAs allEscapes)) = s := by
  rw [replaceCommonEscapeCharacters_eq]
  have hfold := foldl_letters hnul hgood letterEscapes (fun _ he => he)
    (by simp [letterEscapes, commonEscapes])
  rw [show allEscapes = letterEscapes.map Prod.fst ++ ['\\'] from rfl, hfold,
    replacePair_backslash]

/-! ## 戻らない文字列 -/

/-- 並びの置換は、後ろの文字を増やさない。 -/
theorem count_foldl_le (hx : x ≠ '\\') : ∀ (L : List (Char × List Char)) (text : List Char),
    (∀ e ∈ L, x ∉ e.2) →
      (L.foldl (fun text e => replacePair '\\' e.1 e.2 text) text).count x ≤ text.count x
  | [], _, _ => Nat.le_refl _
  | e :: L, text, h => by
    have ih := count_foldl_le hx L (replacePair '\\' e.1 e.2 text)
      fun d hd => h d (List.mem_cons_of_mem e hd)
    refine Nat.le_trans ih ?_
    have hrep := h e List.mem_cons_self
    by_cases hex : x = e.1
    · rw [hex] at hx hrep ⊢
      have := count_replacePair_self hx hrep text
      omega
    · exact Nat.le_of_eq (count_replacePair_of_ne hx hex hrep text)

/-- 英字の並びの置換は、その英字を並びの個数だけ減らす。 -/
theorem count_foldl_add_le (hx : x ≠ '\\') : ∀ (L : List (Char × List Char)) (text : List Char),
    (∀ e ∈ L, x ∉ e.2 ∧ e.1 ≠ '\\') → x ∈ L.map Prod.fst →
      (L.foldl (fun text e => replacePair '\\' e.1 e.2 text) text).count x +
        adjacent '\\' x text ≤ text.count x
  | e :: L, text, h, hmem => by
    obtain ⟨hrep, hne⟩ := h e List.mem_cons_self
    rw [List.foldl_cons]
    by_cases hex : x = e.1
    · have hle := count_foldl_le hx L (replacePair '\\' e.1 e.2 text)
        fun d hd => (h d (List.mem_cons_of_mem e hd)).1
      rw [hex] at hx hrep hle ⊢
      have := count_replacePair_self hx hrep text
      omega
    · have ih := count_foldl_add_le hx L (replacePair '\\' e.1 e.2 text)
        (fun d hd => h d (List.mem_cons_of_mem e hd))
        ((List.mem_cons.mp hmem).resolve_left hex)
      have hcount := count_replacePair_of_ne hx hex hrep text
      have hadj := adjacent_le_replacePair e.2 hx hex hne text
      omega

/-- escape は、英字を並びの個数の差だけ増やす。 -/
theorem count_escaped_le (hx : x ∈ escapeLetters) : ∀ s : List Char,
    (s.flatMap (escapedAs allEscapes)).count x + adjacent '\\' x s ≤
      s.count x + adjacent '\\' x (s.flatMap (escapedAs allEscapes))
  | [] => Nat.le_refl _
  | c :: s => by
    have ih := count_escaped_le hx s
    have hxs : x ≠ '\\' := fun h => escapeLetters_ne (h ▸ hx)
    have hplain : escapedAs allEscapes x = [x] := by rw [escapedAs, escapeCharsMap_letter x hx]
    rw [List.flatMap_cons]
    cases he : escapeCharsMap c with
    | none =>
      have hu : escapedAs allEscapes c = [c] := by rw [escapedAs, he]
      have hc : c ≠ '\\' := by
        rintro rfl
        cases he
      rw [hu, List.singleton_append, adjacent_cons_of_ne hc, adjacent_cons_of_ne hc,
        List.count_cons, List.count_cons]
      omega
    | some e =>
      have hu : escapedAs allEscapes c = ['\\', e] := by
        rw [escapedAs, he]
        exact if_pos (mem_allEscapes he)
      have hcx : c ≠ x := by
        rintro rfl
        rw [escapeCharsMap_letter c hx] at he
        cases he
      rw [hu, List.cons_append, List.singleton_append, List.count_cons_of_ne hcx,
        List.count_cons_of_ne hxs.symm]
      by_cases hslash : e = '\\'
      · -- 二重の backslash の二つ目は、次の文字と元と同じ並びを作る
        rw [hslash] at he ⊢
        obtain rfl := escapeCharsMap_eq_backslash he
        rw [List.count_cons_of_ne hxs.symm]
        have hadj : adjacent '\\' x ('\\' :: s) +
            adjacent '\\' x (s.flatMap (escapedAs allEscapes)) ≤
              adjacent '\\' x ('\\' :: s.flatMap (escapedAs allEscapes)) + adjacent '\\' x s := by
          cases s with
          | nil => exact Nat.le_refl _
          | cons d s =>
            by_cases hd : d = x
            · rw [hd, List.flatMap_cons, hplain, List.singleton_append, adjacent_match hxs,
                adjacent_match hxs, adjacent_cons_of_ne hxs, adjacent_cons_of_ne hxs]
              omega
            · rw [adjacent, if_neg fun h => hd h.2, Nat.zero_add]
              have hle : adjacent '\\' x ((d :: s).flatMap (escapedAs allEscapes)) ≤ adjacent '\\' x
                  ('\\' :: (d :: s).flatMap (escapedAs allEscapes)) := adjacent_le_cons _ _
              omega
        have hle : adjacent '\\' x ('\\' :: s.flatMap (escapedAs allEscapes)) ≤ adjacent '\\' x
            ('\\' :: '\\' :: s.flatMap (escapedAs allEscapes)) := adjacent_le_cons _ _
        omega
      · have hc : c ≠ '\\' := fun h => hslash (by
          rw [h] at he
          exact (Option.some.inj he).symm)
        rw [adjacent_cons_of_ne hc]
        by_cases hex : e = x
        · rw [hex, List.count_cons_self, adjacent_match hxs]
          omega
        · rw [List.count_cons_of_ne hex, adjacent, if_neg fun h => hex h.2, Nat.zero_add,
            adjacent_cons_of_ne hslash]
          omega

/-- 悪い並びがあれば、読み戻した文字列はその英字が足りない。 -/
theorem decode_of_bad (hbad : BadPair s) :
    replaceCommonEscapeCharacters (s.flatMap (escapedAs allEscapes)) ≠ s := by
  obtain ⟨x, hx, hinfix⟩ := hbad
  have hxs : x ≠ '\\' := fun h => escapeLetters_ne (h ▸ hx)
  have hpos := (adjacent_pos_iff s).mpr hinfix
  have hreps : ∀ e ∈ letterEscapes, x ∉ e.2 ∧ e.1 ≠ '\\' := fun e he => by
    refine ⟨fun hmem => ?_, fun h => escapeLetters_ne (h ▸ List.mem_map_of_mem he)⟩
    have hall : ∀ x ∈ escapeLetters, ∀ e ∈ letterEscapes, x ∉ e.2 := by
      simp [escapeLetters, letterEscapes, commonEscapes]
    exact hall x hx e he hmem
  have hfold := count_foldl_add_le hxs letterEscapes (s.flatMap (escapedAs allEscapes)) hreps hx
  have hescape := count_escaped_le hx s
  have hlast : (replaceCommonEscapeCharacters (s.flatMap (escapedAs allEscapes))).count x ≤
      (letterEscapes.foldl (fun text e => replacePair '\\' e.1 e.2 text)
        (s.flatMap (escapedAs allEscapes))).count x :=
    count_foldl_le hxs [('\\', ['\\'])] _ (by simpa using hxs)
  intro heq
  rw [heq] at hlast
  omega

/-! ## 往復 -/

theorem quote_toList (q : Char) (s : String) :
    (quote q s).toList = q :: s.toList.flatMap (quoteEscape q) ++ [q] := String.toList_ofList

theorem head?_quote (q : Char) (s : String) : (quote q s).toList.head? = some q := by
  rw [quote_toList]
  rfl

theorem getLast?_quote (q : Char) (s : String) : (quote q s).toList.getLast? = some q := by
  rw [quote_toList]
  exact List.getLast?_concat

theorem parse_quote (hq : (q, q) ∈ quoteKinds) (s : String) :
    parseStringLiteralText (quote q s) =
      .ok (String.ofList (replaceCommonEscapeCharacters (unquote q (quote q s).toList))) := by
  have hfind : (quoteKinds.find? fun k => (quote q s).toList.head? == some k.1 &&
      (quote q s).toList.getLast? == some k.2) = some (q, q) := by
    rw [head?_quote, getLast?_quote]
    simp only [quoteKinds, List.mem_cons, Prod.mk.injEq, List.not_mem_nil, or_false] at hq
    rcases hq with ⟨rfl, -⟩ | ⟨rfl, -⟩ | ⟨rfl, -⟩ | ⟨rfl, h⟩
    · rfl
    · rfl
    · rfl
    · exact absurd h (by decide)
  rw [parseStringLiteralText, hfind]

/-- **NUL を含まない文字列が読み戻せるのは、backslash の直後に置き換わる文字が来ないときに限る。** -/
theorem parse_quote_iff (hq : IsQuote q) (hkind : (q, q) ∈ quoteKinds) (s : String)
    (hnul : '\x00' ∉ s.toList) :
    parseStringLiteralText (quote q s) = .ok s ↔ ¬ BadPair s.toList := by
  rw [parse_quote hkind, unquote_quote hq, Except.ok.injEq, ← String.toList_inj,
    String.toList_ofList]
  exact ⟨fun h hbad => decode_of_bad hbad h, decode_of_good hnul⟩

theorem visitIdentifier_quote (s : String) :
    visitIdentifier (quote '`' s) = parseStringLiteralText (quote '`' s) := by
  refine if_pos ⟨?_, .inl ⟨head?_quote _ _, getLast?_quote _ _⟩⟩
  rw [quote_toList, List.length_append, List.length_cons, List.length_singleton]
  omega

/-! ## 字句 -/

variable {escaped : Char}

/-- 一区切りは空でなく、先頭が文字列の escape の先頭と合えば、その全体と合う。 -/
theorem item_eq_quoteEscape (hq : IsQuote q) {c : Char} {y tail rest : List Char}
    (hy : y ∈ quotedItem q escaped) (h : y ++ tail = quoteEscape q c ++ rest) :
    y = quoteEscape q c := by
  rcases quoteEscape_cases q c with ⟨-, hu⟩ | ⟨-, e, -, hu⟩ | ⟨hc, hslash, -, hu⟩
  all_goals
    rw [hu] at h ⊢
    rcases hy with ⟨d, hd, hdq, rfl⟩ | ⟨d, -, rfl⟩ | rfl | rfl
  all_goals
    injection h with hhead htail
  · exact absurd hhead hd
  · injection htail with hsecond
    rw [hsecond]
  · injection htail with hsecond
    rw [hsecond]
  · exact absurd hhead hq.ne_backslash
  · exact absurd hhead hd
  · injection htail with hsecond
    rw [hsecond]
  · injection htail with hsecond
    rw [hsecond]
  · exact absurd hhead hq.ne_backslash
  · rw [hhead]
  · exact absurd hhead.symm hslash
  · exact absurd hhead.symm hslash
  · exact absurd hhead.symm hc

/-- escape した文字列が区切りの列であることは、一文字ずつの escape が区切りであることに等しい。 -/
theorem flatMap_mem_kstar_iff (hq : IsQuote q) : ∀ s : List Char,
    s.flatMap (quoteEscape q) ∈ KStar.kstar (quotedItem q escaped) ↔
      ∀ c ∈ s, quoteEscape q c ∈ quotedItem q escaped
  | [] => ⟨fun _ c hc => absurd hc List.not_mem_nil, fun _ => Language.nil_mem_kstar _⟩
  | c :: s => by
    have ih := flatMap_mem_kstar_iff hq s
    rw [List.forall_mem_cons, ← ih, List.flatMap_cons]
    constructor
    · intro h
      obtain ⟨L, hflat, hL⟩ := Language.mem_kstar.mp h
      cases L with
      | nil =>
        rcases quoteEscape_cases q c with ⟨-, hu⟩ | ⟨-, e, -, hu⟩ | ⟨-, -, -, hu⟩
        all_goals
          rw [hu] at hflat
          exact absurd hflat (List.cons_ne_nil _ _)
      | cons y L =>
        rw [List.flatten_cons] at hflat
        have hy := hL y List.mem_cons_self
        have heq := item_eq_quoteEscape hq hy hflat.symm
        rw [heq] at hy hflat
        refine ⟨hy, Language.mem_kstar.mpr ⟨L, List.append_cancel_left hflat, fun z hz => ?_⟩⟩
        exact hL z (List.mem_cons_of_mem y hz)
    · rintro ⟨hc, hs⟩
      obtain ⟨L, hflat, hL⟩ := Language.mem_kstar.mp hs
      refine Language.mem_kstar.mpr ⟨quoteEscape q c :: L, by rw [hflat]; rfl, fun y hy => ?_⟩
      rcases List.mem_cons.mp hy with rfl | hy
      · exact hc
      · exact hL y hy

/-- 規則が許さない escape は、規則と違う引用符の escape だけである。 -/
theorem quoteEscape_mem_item_iff (hq : IsQuote q) (c : Char) :
    quoteEscape q c ∈ quotedItem q escaped ↔ (c = q → q = escaped) := by
  rcases quoteEscape_cases q c with ⟨hc, hu⟩ | ⟨hc, e, he, hu⟩ | ⟨hc, hslash, -, hu⟩
  · rw [hu]
    refine ⟨?_, fun h => .inr (.inr (.inl (by rw [h hc])))⟩
    rintro (⟨d, -, -, h⟩ | ⟨d, hd, h⟩ | h | h) -
    · injection h with _ h
      cases h
    · injection h with _ h
      injection h with h
      exact absurd (h ▸ hd) hq.notEscape
    · injection h with _ h
      injection h
    · injection h with h
      exact absurd h.symm hq.ne_backslash
  · exact ⟨fun _ h => absurd h hc, fun _ => .inr (.inl ⟨e, mem_commonEscapeChars he, hu⟩)⟩
  · exact ⟨fun _ h => absurd h hc, fun _ => .inl ⟨c, hslash, hc, hu⟩⟩

/-- **escape した文字列が一つの字句になるのは、引用符の escape が規則にあるか、引用符を含まないときに限る。** -/
theorem quote_mem_quotedRule_iff (hq : IsQuote q) (s : String) :
    (quote q s).toList ∈ quotedRule q escaped ↔ (q ∈ s.toList → q = escaped) := by
  have hbody : (quote q s).toList ∈ quotedRule q escaped ↔
      s.toList.flatMap (quoteEscape q) ∈ KStar.kstar (quotedItem q escaped) := by
    rw [quote_toList]
    constructor
    · rintro ⟨body, hbody, h⟩
      injection h with _ h
      rw [List.append_cancel_right h]
      exact hbody
    · exact fun h => ⟨_, h, rfl⟩
  rw [hbody, flatMap_mem_kstar_iff hq]
  constructor
  · exact fun h hmem => (quoteEscape_mem_item_iff hq q).mp (h q hmem) rfl
  · exact fun h c hc => (quoteEscape_mem_item_iff hq c).mpr fun heq => h (heq ▸ hc)

theorem quote_mem_identifierToken_iff (s : String) :
    (quote '`' s).toList ∈ identifierToken ↔ '`' ∉ s.toList := by
  have hrule : (quote '`' s).toList ∈ quotedRule '`' '\'' ↔ '`' ∉ s.toList := by
    rw [quote_mem_quotedRule_iff isQuote_backquote]
    exact ⟨fun h hmem => absurd (h hmem) (by decide), fun h hmem => absurd hmem h⟩
  rw [← hrule]
  refine ⟨?_, fun h => .inr (.inl h)⟩
  rintro (h | h | ⟨body, -, h⟩)
  · rw [quote_toList] at h
    exact absurd h (by simp [isBareTSQLIdentifier, isIdentifierStart])
  · exact h
  · rw [quote_toList] at h
    injection h with h
    exact absurd h (by decide)

/--
**NUL を含まない文字列の literal は必ず一つの字句になり、読み戻せるのは悪い並びが無いときに限る。引用された識別子が
一つの字句として読み戻せるのは、悪い並びも backquote も無いときに限る。**
-/
theorem literals_exact (s : String) (hnul : '\x00' ∉ s.toList) :
    (((escapeTSQLString s).toList ∈ stringLiteral ∧
        parseStringLiteralText (escapeTSQLString s) = .ok s) ↔ ¬ BadPair s.toList) ∧
    ∀ text, escapeTSQLIdentifier s = .ok text → isBareTSQLIdentifier s.toList = false →
      ((text.toList ∈ identifierToken ∧ visitIdentifier text = .ok s) ↔
        ¬ BadPair s.toList ∧ '`' ∉ s.toList) := by
  constructor
  · rw [← parse_quote_iff isQuote_single (by simp [quoteKinds]) s hnul]
    exact and_iff_right ((quote_mem_quotedRule_iff isQuote_single s).mpr fun _ => rfl)
  · intro text htext hbare
    unfold escapeTSQLIdentifier at htext
    split at htext
    · cases htext
    · rw [hbare, if_neg Bool.false_ne_true] at htext
      obtain rfl := Except.ok.inj htext
      rw [quote_mem_identifierToken_iff, visitIdentifier_quote,
        parse_quote_iff isQuote_backquote (by simp [quoteKinds]) s hnul, and_comm]

theorem literals_exact_quoted :
    (((escapeTSQLString "it's").toList ∈ stringLiteral ∧
        parseStringLiteralText (escapeTSQLString "it's") = .ok "it's") ↔
      ¬ BadPair "it's".toList) ∧
    ∀ text, escapeTSQLIdentifier "it's" = .ok text →
      isBareTSQLIdentifier "it's".toList = false →
      ((text.toList ∈ identifierToken ∧ visitIdentifier text = .ok "it's") ↔
        ¬ BadPair "it's".toList ∧ '`' ∉ "it's".toList) :=
  literals_exact "it's" (by simp)

/-- backslash の後ろの `n` は、改行として読まれる。backquote を含む識別子は字句にならない。 -/
theorem backslash_n_is_lost :
    (¬ ∀ s : String, '\x00' ∉ s.toList →
      parseStringLiteralText (escapeTSQLString s) = .ok s) ∧
    ¬ ∀ s text, '\x00' ∉ s.toList → escapeTSQLIdentifier s = .ok text →
      isBareTSQLIdentifier s.toList = false →
        text.toList ∈ identifierToken ∧ visitIdentifier text = .ok s := by
  constructor
  · intro h
    have hback := h "\\n" (by simp)
    have hlost : parseStringLiteralText (escapeTSQLString "\\n") = .ok "\\\n" := by decide
    rw [hlost] at hback
    exact absurd (Except.ok.inj hback) (by decide)
  · intro h
    obtain ⟨hlex, -⟩ := h "`" (quote '`' "`") (by simp) (by rfl) (by rfl)
    exact (quote_mem_identifierToken_iff "`").mp hlex (by simp)

end Tsql
