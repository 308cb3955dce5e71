import Mathlib.Data.List.Basic

/-!
# JSON の本文

UTF-16 の code unit の列としての JSON の本文。字句の列に文法を課したものを本文とし、文字列の中身は文字・
escape・`\uXXXX` の列（`Piece`）として読む。文字列の外は、逆斜線を含まない文字だけである。

* `Infra.JsonText.Text` — 文法に合う本文
* `Infra.JsonText.Lone` — 対になっていない surrogate の escape
-/

namespace Infra.JsonText

/-! ## 列の分割 -/

/-- 連結した列の一要素は、どれか一つの成分の一要素である。 -/
theorem flatMap_eq_append_cons {α β : Type} {f : α → List β} {l : List α} {before after : List β}
    {b : β} : l.flatMap f = before ++ b :: after ↔ ∃ l₁ a l₂ p q, l = l₁ ++ a :: l₂ ∧
      f a = p ++ b :: q ∧ before = l₁.flatMap f ++ p ∧ after = q ++ l₂.flatMap f := by
  constructor
  · intro h
    induction l generalizing before with
    | nil => simp at h
    | cons x rest ih =>
      rw [List.flatMap_cons, List.append_eq_append_iff] at h
      rcases h with ⟨r, hbefore, hrest⟩ | ⟨r, hx, hr⟩
      · obtain ⟨l₁, a, l₂, p, q, rfl, ha, rfl, hafter⟩ := ih hrest
        exact ⟨x :: l₁, a, l₂, p, q, rfl, ha, by rw [hbefore]; simp, hafter⟩
      · cases r with
        | nil =>
          obtain ⟨l₁, a, l₂, p, q, rfl, ha, hp, hafter⟩ := @ih [] hr.symm
          refine ⟨x :: l₁, a, l₂, p, q, rfl, ha, ?_, hafter⟩
          rw [List.append_nil] at hx
          rw [List.flatMap_cons, List.append_assoc, ← hp, List.append_nil, hx]
        | cons c r =>
          obtain ⟨rfl, rfl⟩ := List.cons.inj hr
          exact ⟨[], x, rest, before, r, rfl, hx, rfl, rfl⟩
  · rintro ⟨l₁, a, l₂, p, q, rfl, ha, rfl, rfl⟩
    simp [ha]

/-! ## 文字列の中身 -/

def backslash : Nat := '\\'.toNat

def quote : Nat := '"'.toNat

def isDigit (c : Nat) : Bool := '0'.toNat ≤ c && c ≤ '9'.toNat

def isHexDigit (c : Nat) : Bool :=
  isDigit c || ('a'.toNat ≤ c && c ≤ 'f'.toNat) || ('A'.toNat ≤ c && c ≤ 'F'.toNat)

/-- 16 進の一桁。大文字でも小文字でもよい。 -/
abbrev HexDigit := { c : Nat // isHexDigit c = true }

def HexDigit.value (d : HexDigit) : Nat :=
  if d.1 ≤ '9'.toNat then d.1 - '0'.toNat
  else if d.1 ≤ 'F'.toNat then d.1 - 'A'.toNat + 10
  else d.1 - 'a'.toNat + 10

/-- `\uXXXX` の四桁。 -/
structure UnicodeEscape where
  first : HexDigit
  second : HexDigit
  third : HexDigit
  fourth : HexDigit

namespace UnicodeEscape

def digits (e : UnicodeEscape) : List Nat := [e.first.1, e.second.1, e.third.1, e.fourth.1]

def value (e : UnicodeEscape) : Nat :=
  4096 * e.first.value + 256 * e.second.value + 16 * e.third.value + e.fourth.value

def IsHigh (e : UnicodeEscape) : Prop := 0xD800 ≤ e.value ∧ e.value < 0xDC00

def IsLow (e : UnicodeEscape) : Prop := 0xDC00 ≤ e.value ∧ e.value < 0xE000

instance (e : UnicodeEscape) : Decidable e.IsHigh := inferInstanceAs (Decidable (_ ∧ _))

instance (e : UnicodeEscape) : Decidable e.IsLow := inferInstanceAs (Decidable (_ ∧ _))

end UnicodeEscape

/-- 逆斜線の次に置ける文字。 -/
def escapable : List Nat := ['"', '\\', '/', 'b', 'f', 'n', 'r', 't'].map Char.toNat

/-- 本文の一片。 -/
inductive Piece
  | raw (c : Nat) (h : c ≠ backslash)
  | escape (c : Nat) (h : c ∈ escapable)
  | unicode (e : UnicodeEscape)

namespace Piece

def text : Piece → List Nat
  | raw c _ => [c]
  | escape c _ => [backslash, c]
  | unicode e => backslash :: 'u'.toNat :: e.digits

/-- 文字列の中に置ける。 -/
def InString : Piece → Prop
  | raw c _ => 32 ≤ c ∧ c ≠ quote
  | _ => True

end Piece

/-- 対になっていない surrogate。`pre` と `post` は前後の中身である。 -/
def Lone (pre : List Piece) (e : UnicodeEscape) (post : List Piece) : Prop :=
  e.IsHigh ∧ (∀ e', post.head? = some (.unicode e') → ¬e'.IsLow) ∨
    e.IsLow ∧ ∀ e', pre.getLast? = some (.unicode e') → ¬e'.IsHigh

/-! ## 字句 -/

def IsDigits (l : List Nat) : Prop := l ≠ [] ∧ ∀ c ∈ l, isDigit c = true

/-- 数の綴り。 -/
def IsNumber (l : List Nat) : Prop :=
  ∃ sign int frac exp : List Nat, l = sign ++ int ++ frac ++ exp ∧
    sign ∈ [[], ['-'.toNat]] ∧
    (IsDigits int ∧ (int.head? = some '0'.toNat → int.length = 1)) ∧
    (frac = [] ∨ ∃ ds, IsDigits ds ∧ frac = '.'.toNat :: ds) ∧
    (exp = [] ∨ ∃ e s ds, e ∈ ['e'.toNat, 'E'.toNat] ∧ s ∈ [[], ['+'.toNat], ['-'.toNat]] ∧
      IsDigits ds ∧ exp = e :: s ++ ds)

/-- 文字列の外の字句の綴り。 -/
inductive IsPlain : List Nat → Prop
  | space {c : Nat} (h : c ∈ [' ', '\t', '\n', '\r'].map Char.toNat) : IsPlain [c]
  | symbol {c : Nat} (h : c ∈ ['[', ']', '\x7b', '\x7d', ',', ':'].map Char.toNat) : IsPlain [c]
  | literal {w : String} (h : w ∈ ["null", "true", "false"]) : IsPlain (w.toList.map Char.toNat)
  | number {l : List Nat} (h : IsNumber l) : IsPlain l

theorem IsDigits.ne_backslash {l : List Nat} (h : IsDigits l) {c : Nat} (hc : c ∈ l) :
    c ≠ backslash := by
  rintro rfl
  exact absurd (h.2 _ hc) (by decide)

theorem IsNumber.ne_backslash {l : List Nat} (h : IsNumber l) {c : Nat} (hc : c ∈ l) :
    c ≠ backslash := by
  obtain ⟨sign, int, frac, exp, rfl, hsign, hint, hfrac, hexp⟩ := h
  simp only [List.mem_append] at hc
  rcases hc with ((hc | hc) | hc) | hc
  · simp only [List.mem_cons, List.not_mem_nil, or_false] at hsign
    rcases hsign with rfl | rfl
    · cases hc
    · rw [List.mem_singleton.mp hc]
      decide
  · exact hint.1.ne_backslash hc
  · rcases hfrac with rfl | ⟨ds, hds, rfl⟩
    · cases hc
    · rcases List.mem_cons.mp hc with rfl | hc
      · decide
      · exact hds.ne_backslash hc
  · rcases hexp with rfl | ⟨e, s, ds, he, hs, hds, rfl⟩
    · cases hc
    · rcases List.mem_append.mp hc with hc | hc
      · rcases List.mem_cons.mp hc with rfl | hc
        · simp only [List.mem_cons, List.not_mem_nil, or_false] at he
          rcases he with rfl | rfl <;> decide
        · simp only [List.mem_cons, List.not_mem_nil, or_false] at hs
          rcases hs with rfl | rfl | rfl
          · cases hc
          · rw [List.mem_singleton.mp hc]
            decide
          · rw [List.mem_singleton.mp hc]
            decide
      · exact hds.ne_backslash hc

theorem IsPlain.ne_backslash {l : List Nat} (h : IsPlain l) : ∀ c ∈ l, c ≠ backslash := by
  intro c hc
  cases h with
  | space h =>
    rw [List.mem_singleton.mp hc]
    rintro rfl
    exact absurd h (by decide)
  | symbol h =>
    rw [List.mem_singleton.mp hc]
    rintro rfl
    exact absurd h (by decide)
  | literal h =>
    rintro rfl
    simp only [List.mem_cons, List.not_mem_nil, or_false] at h
    rcases h with rfl | rfl | rfl <;> exact absurd hc (by decide)
  | number h => exact h.ne_backslash hc

/-- 字句。 -/
inductive Token
  | plain (l : List Nat) (h : IsPlain l)
  | string (chars : List Piece) (h : ∀ p ∈ chars, p.InString)

/-- 文字列を囲む引用符。 -/
def quotePiece : Piece := .raw quote (by decide)

def Token.pieces : Token → List Piece
  | plain l h => l.pmap Piece.raw h.ne_backslash
  | string chars _ => quotePiece :: chars ++ [quotePiece]

/-! ## 文法 -/

def symbol (c : Char) (h : c.toNat ∈ ['[', ']', '\x7b', '\x7d', ',', ':'].map Char.toNat) : Token :=
  .plain [c.toNat] (.symbol h)

/-- 空白の列。 -/
def IsSpaces (ts : List Token) : Prop :=
  ∀ t ∈ ts, ∃ c h, t = .plain [c] (.space h)

mutual
/-- 空白で囲んだ値。 -/
inductive IsElement : List Token → Prop
  | intro {before ts after : List Token} (hb : IsSpaces before) (h : IsValue ts)
      (ha : IsSpaces after) : IsElement (before ++ ts ++ after)

inductive IsValue : List Token → Prop
  | literal {w : String} (h : w ∈ ["null", "true", "false"]) : IsValue [.plain _ (.literal h)]
  | number {l : List Nat} (h : IsNumber l) : IsValue [.plain l (.number h)]
  | string {chars : List Piece} (h : ∀ p ∈ chars, p.InString) : IsValue [.string chars h]
  | emptyArray {ts : List Token} (h : IsSpaces ts) :
      IsValue (symbol '[' (by decide) :: ts ++ [symbol ']' (by decide)])
  | array {ts : List Token} (h : IsElements ts) :
      IsValue (symbol '[' (by decide) :: ts ++ [symbol ']' (by decide)])
  | emptyObject {ts : List Token} (h : IsSpaces ts) :
      IsValue (symbol '\x7b' (by decide) :: ts ++ [symbol '\x7d' (by decide)])
  | object {ts : List Token} (h : IsMembers ts) :
      IsValue (symbol '\x7b' (by decide) :: ts ++ [symbol '\x7d' (by decide)])

inductive IsElements : List Token → Prop
  | one {ts : List Token} (h : IsElement ts) : IsElements ts
  | cons {ts rest : List Token} (h : IsElement ts) (hr : IsElements rest) :
      IsElements (ts ++ symbol ',' (by decide) :: rest)

inductive IsMembers : List Token → Prop
  | one {ts : List Token} (h : IsMember ts) : IsMembers ts
  | cons {ts rest : List Token} (h : IsMember ts) (hr : IsMembers rest) :
      IsMembers (ts ++ symbol ',' (by decide) :: rest)

inductive IsMember : List Token → Prop
  | intro {before after ts : List Token} {key : List Piece} (hb : IsSpaces before)
      (hk : ∀ p ∈ key, p.InString) (ha : IsSpaces after) (h : IsElement ts) :
      IsMember (before ++ .string key hk :: after ++ symbol ':' (by decide) :: ts)
end

/-- 文法に合う本文。 -/
structure Text where
  tokens : List Token
  grammar : IsElement tokens

namespace Text

/-- 一つの文字列だけの本文。 -/
def ofString (chars : List Piece) (h : ∀ p ∈ chars, p.InString) : Text where
  tokens := [.string chars h]
  grammar := @IsElement.intro [] [.string chars h] [] (fun _ h => by cases h) (.string h)
    (fun _ h => by cases h)

def pieces (j : Text) : List Piece := j.tokens.flatMap Token.pieces

/-- code unit の列。 -/
def units (j : Text) : List Nat := j.pieces.flatMap Piece.text

/-- ある文字列が、対になっていない surrogate の escape を含む。 -/
def HasLoneSurrogate (j : Text) : Prop :=
  ∃ chars h, Token.string chars h ∈ j.tokens ∧
    ∃ pre e post, chars = pre ++ Piece.unicode e :: post ∧ Lone pre e post

/-- 引用符が隔てるので、対かどうかは本文の片の列だけから決まる。 -/
theorem hasLoneSurrogate_iff {j : Text} : j.HasLoneSurrogate ↔
    ∃ pre e post, j.pieces = pre ++ Piece.unicode e :: post ∧ Lone pre e post := by
  -- 前後の片を見ても、引用符より外は見えない
  have hlast : ∀ (l pre : List Piece) (e : UnicodeEscape),
      (l ++ quotePiece :: pre).getLast? = some (.unicode e) ↔
        pre.getLast? = some (.unicode e) := by
    intro l pre e
    rcases List.eq_nil_or_concat' pre with rfl | ⟨pre, p, rfl⟩
    · simp [quotePiece]
    · rw [show l ++ quotePiece :: (pre ++ [p]) = (l ++ quotePiece :: pre) ++ [p] by simp,
        List.getLast?_concat, List.getLast?_concat]
  have hhead : ∀ (post l : List Piece) (e : UnicodeEscape),
      (post ++ quotePiece :: l).head? = some (.unicode e) ↔
        post.head? = some (.unicode e) := by
    intro post l e
    cases post with
    | nil => simp [quotePiece]
    | cons p post => simp
  constructor
  · rintro ⟨chars, h, hmem, pre, e, post, rfl, hlone⟩
    obtain ⟨l₁, l₂, htokens⟩ := List.append_of_mem hmem
    refine ⟨l₁.flatMap Token.pieces ++ quotePiece :: pre, e,
      post ++ quotePiece :: l₂.flatMap Token.pieces, ?_, ?_⟩
    · simp [pieces, htokens, Token.pieces]
    · simpa only [Lone, hlast, hhead] using hlone
  · rintro ⟨pre, e, post, hpieces, hlone⟩
    obtain ⟨l₁, t, l₂, p, q, htokens, ht, rfl, rfl⟩ := flatMap_eq_append_cons.mp hpieces
    -- 文字列の外の token に escape は無い
    cases t with
    | plain l h =>
      have hmem : Piece.unicode e ∈ l.pmap Piece.raw h.ne_backslash := by
        rw [show l.pmap Piece.raw h.ne_backslash = p ++ Piece.unicode e :: q from ht]
        simp
      obtain ⟨c, hc, heq⟩ := List.mem_pmap.mp hmem
      cases heq
    | string chars h =>
      have hsplit : ∃ pre' post', p = quotePiece :: pre' ∧ q = post' ++ [quotePiece] ∧
          chars = pre' ++ Piece.unicode e :: post' := by
        cases p with
        | nil => cases ht
        | cons a p =>
          obtain ⟨rfl, htail⟩ := List.cons.inj ht
          replace htail : chars ++ [quotePiece] = p ++ Piece.unicode e :: q := htail
          rcases List.eq_nil_or_concat' q with rfl | ⟨q, b, rfl⟩
          · have hend := congrArg List.getLast? htail
            simp [quotePiece] at hend
          · have hcat : chars ++ [quotePiece] = (p ++ Piece.unicode e :: q) ++ [b] := by
              rw [htail]
              simp
            obtain ⟨rfl, hb⟩ := List.append_inj' hcat rfl
            exact ⟨p, q, rfl, by rw [List.cons.inj hb |>.1], rfl⟩
      obtain ⟨pre', post', rfl, rfl, rfl⟩ := hsplit
      refine ⟨_, h, by rw [htokens]; simp, pre', e, post', rfl, ?_⟩
      rw [List.append_assoc] at hlone
      simpa only [Lone, hlast, List.singleton_append, hhead] using hlone

end Text

end Infra.JsonText
