import Trigger.Tsql.Syntax

/-!
# 例外と識別子の escape

`errors.ts` の例外と、`escape.ts` の `escapeClickHouseIdentifier`・`getClickHouseType`。

識別子は `[A-Za-z_][A-Za-z0-9_]*` ならそのまま、そうでなければ backquote で囲んで出力する。
ClickHouse の字句解析（`lexIdentifier`）は、その出力を一つの識別子として読み、元の文字列に戻す
（`lexIdentifier_escape`）。
-/

namespace Tsql

/-! ## 例外 -/

/-- printer が投げる例外。`outOfFuel` は模型だけのもので、source には無い。 -/
inductive PrintError
  | query (message : String)
  | notImplemented (message : String)
  | impossibleAst (message : String)
  | error (message : String)
  | typeError
  | outOfFuel
deriving DecidableEq

/-! ## 識別子 -/

def isIdentifierStart (c : Char) : Bool := c.isAlpha || c == '_'

def isIdentifierChar (c : Char) : Bool := c.isAlphanum || c == '_'

/-- `/^[A-Za-z_][A-Za-z0-9_]*$/`。 -/
def isBareIdentifier : List Char → Bool
  | [] => false
  | c :: rest => isIdentifierStart c && rest.all isIdentifierChar

/-- `backquoteEscapeCharsMap`。backslash の後ろに置く一文字を返す。 -/
def backquoteEscape : Char → Option Char
  | '\x08' => some 'b'
  | '\x0c' => some 'f'
  | '\r' => some 'r'
  | '\n' => some 'n'
  | '\t' => some 't'
  | '\x00' => some '0'
  | '\x07' => some 'a'
  | '\x0b' => some 'v'
  | '\\' => some '\\'
  | '`' => some '`'
  | _ => none

def escapeChar (c : Char) : List Char :=
  match backquoteEscape c with
  | some e => ['\\', e]
  | none => [c]

/-- escape した識別子の文字列。 -/
def identifierText (s : String) : String :=
  if isBareIdentifier s.toList then s
  else String.ofList ('`' :: s.toList.flatMap escapeChar ++ ['`'])

/-- `escapeClickHouseIdentifier`。`%` を含む識別子は受け付けない。 -/
def escapeClickHouseIdentifier (s : String) : Except PrintError String :=
  if '%' ∈ s.toList then
    .error (.query ("The identifier \"" ++ s ++
      "\" is not permitted as it contains the \"%\" character"))
  else .ok (identifierText s)

/-! ## ClickHouse の字句解析 -/

/-- backslash に続く一文字が表す文字。 -/
def unescapeChar : Char → Option Char
  | 'b' => some '\x08'
  | 'f' => some '\x0c'
  | 'r' => some '\r'
  | 'n' => some '\n'
  | 't' => some '\t'
  | '0' => some '\x00'
  | 'a' => some '\x07'
  | 'v' => some '\x0b'
  | '\\' => some '\\'
  | '`' => some '`'
  | _ => none

/-- backquote の中を閉じる backquote まで読み、値と残りを返す。 -/
def lexQuoted : List Char → Option (List Char × List Char)
  | [] => none
  | '`' :: rest => some ([], rest)
  | '\\' :: c :: rest =>
    match unescapeChar c, lexQuoted rest with
    | some d, some (value, rest') => some (d :: value, rest')
    | _, _ => none
  | c :: rest => (lexQuoted rest).map fun r => (c :: r.1, r.2)

/-- 先頭の識別子を読み、値と残りを返す。 -/
def lexIdentifier : List Char → Option (List Char × List Char)
  | [] => none
  | '`' :: rest => lexQuoted rest
  | c :: rest =>
    if isIdentifierStart c then
      some (c :: rest.takeWhile isIdentifierChar, rest.dropWhile isIdentifierChar)
    else none

theorem unescape_backquoteEscape {c e : Char} (h : backquoteEscape c = some e) :
    unescapeChar e = some c := by
  unfold backquoteEscape at h
  split at h <;> cases h <;> rfl

theorem lexQuoted_escapeChar (c : Char) (rest : List Char) :
    lexQuoted (escapeChar c ++ rest) = (lexQuoted rest).map fun r => (c :: r.1, r.2) := by
  unfold escapeChar
  cases h : backquoteEscape c with
  | some e =>
    simp only [List.cons_append, List.nil_append]
    rw [lexQuoted, unescape_backquoteEscape h]
    cases lexQuoted rest <;> rfl
  | none =>
    -- escape されない文字は backquote でも backslash でもない
    have hb : c ≠ '`' := by rintro rfl; simp [backquoteEscape] at h
    have hs : c ≠ '\\' := by rintro rfl; simp [backquoteEscape] at h
    simp only [List.cons_append, List.nil_append]
    rw [lexQuoted]
    · intro hc; exact hb hc
    · intro d r hc; exact absurd hc hs

theorem lexQuoted_escape (l rest : List Char) :
    lexQuoted (l.flatMap escapeChar ++ '`' :: rest) = some (l, rest) := by
  induction l with
  | nil => rfl
  | cons c l ih =>
    rw [List.flatMap_cons, List.append_assoc, lexQuoted_escapeChar, ih]
    rfl

/-- 識別子の直後に来て、識別子を延ばさない文字列。 -/
def EndsIdentifier (rest : List Char) : Prop := ∀ c, rest.head? = some c → isIdentifierChar c = false

theorem takeWhile_append_of_ends {p : Char → Bool} {l rest : List Char} (hl : l.all p = true)
    (hr : ∀ c, rest.head? = some c → p c = false) :
    (l ++ rest).takeWhile p = l ∧ (l ++ rest).dropWhile p = rest := by
  have hall : ∀ a ∈ l, p a = true := List.all_eq_true.mp hl
  rw [List.takeWhile_append_of_pos hall, List.dropWhile_append_of_pos hall]
  cases rest with
  | nil => simp
  | cons c rest =>
    have := hr c rfl
    simp [this]

/-- **escape した識別子は一つの識別子として読まれ、値は元の文字列である。** -/
theorem lexIdentifier_identifierText (s : String) {rest : List Char} (hr : EndsIdentifier rest) :
    lexIdentifier ((identifierText s).toList ++ rest) = some (s.toList, rest) := by
  unfold identifierText
  split
  · next h =>
    cases hs : s.toList with
    | nil => simp [hs, isBareIdentifier] at h
    | cons c l =>
      rw [hs] at h
      simp only [isBareIdentifier, Bool.and_eq_true] at h
      obtain ⟨hc, hl⟩ := h
      have hq : c ≠ '`' := by rintro rfl; simp [isIdentifierStart] at hc
      obtain ⟨ht, hd⟩ := takeWhile_append_of_ends hl hr
      rw [List.cons_append, lexIdentifier, if_pos hc, ht, hd]
      intro h'
      exact hq h'
  · rw [String.toList_ofList, List.cons_append, List.cons_append, List.append_assoc, lexIdentifier]
    exact lexQuoted_escape s.toList rest

/-! ## placeholder の型 -/

/-- `getClickHouseType`。 -/
def getClickHouseType : Value → String
  | .null => "Nullable(String)"
  | .string _ => "String"
  | .bool _ => "UInt8"
  | .number (.int n) => if 2147483647 < n ∨ n < -2147483648 then "Int64" else "Int32"
  | .number _ => "Float64"
  | .other type _ => type

end Tsql
