import Mathlib.Data.List.Infix

/-!
# Redis の glob

`SCAN` 系の `MATCH` が使う照合。`*` は任意の列（`:` も越える）、`?` は一文字、`[…]` は文字の類、`\` は次の
文字をそのまま表す。pattern を token に読み（`parse`）、token の列を文字列に照合する（`matchTokens`）。

特別な文字を含まない部分（`Literal`）は、そのままの文字列にだけ当たる（`parse_literal_append`・
`matchTokens_lits`）。
-/

namespace Infra.Glob

/-- pattern の要素。`chars` は `[…]` で、文字の範囲の並びである。 -/
inductive Token
  | star
  | any
  | lit (c : Char)
  | chars (negated : Bool) (ranges : List (Char × Char))
deriving DecidableEq

/-! ## pattern の読み取り -/

/-- `[…]` の中か外かを状態として、pattern を左から読む。閉じない `[…]` は終わりで閉じる。 -/
def parseFrom : Option (Bool × List (Char × Char)) → List Char → List Token
  | none, [] => []
  | none, '*' :: p => .star :: parseFrom none p
  | none, '?' :: p => .any :: parseFrom none p
  | none, '\\' :: c :: p => .lit c :: parseFrom none p
  | none, '[' :: '^' :: p => parseFrom (some (true, [])) p
  | none, '[' :: p => parseFrom (some (false, [])) p
  | none, c :: p => .lit c :: parseFrom none p
  | some (n, rs), [] => [.chars n rs]
  | some (n, rs), '\\' :: c :: p => parseFrom (some (n, (c, c) :: rs)) p
  | some (n, rs), ']' :: p => .chars n rs :: parseFrom none p
  | some (n, rs), a :: '-' :: b :: p =>
    parseFrom (some (n, (if a ≤ b then (a, b) else (b, a)) :: rs)) p
  | some (n, rs), c :: p => parseFrom (some (n, (c, c) :: rs)) p

/-- pattern を token の列に読む。 -/
def parse (pattern : String) : List Token := parseFrom none pattern.toList

/-! ## 照合 -/

/-- 文字が `[…]` に当たる。 -/
def inChars (negated : Bool) (ranges : List (Char × Char)) (c : Char) : Bool :=
  (ranges.any fun r => r.1 ≤ c && c ≤ r.2) != negated

/-- token の列を文字列全体に照合する。 -/
def matchTokens : List Token → List Char → Bool
  | [], s => s.isEmpty
  | .star :: ts, s => s.tails.any (matchTokens ts)
  | .any :: ts, s =>
    match s with
    | [] => false
    | _ :: s => matchTokens ts s
  | .lit c :: ts, s =>
    match s with
    | [] => false
    | d :: s => c = d && matchTokens ts s
  | .chars n rs :: ts, s =>
    match s with
    | [] => false
    | d :: s => inChars n rs d && matchTokens ts s

/-- glob の照合。 -/
def globMatch (pattern s : String) : Bool := matchTokens (parse pattern) s.toList

/-! ## 規則 -/

variable {ts : List Token} {s : List Char}

theorem matchTokens_star :
    matchTokens (.star :: ts) s = true ↔ ∃ t r, s = t ++ r ∧ matchTokens ts r = true := by
  rw [matchTokens, List.any_eq_true]
  constructor
  · rintro ⟨r, hr, hmatch⟩
    obtain ⟨t, rfl⟩ := (List.mem_tails _ _).mp hr
    exact ⟨t, r, rfl, hmatch⟩
  · rintro ⟨t, r, rfl, hmatch⟩
    exact ⟨r, (List.mem_tails _ _).mpr (List.suffix_append t r), hmatch⟩

/-- 文字の列は、その列で始まる文字列にだけ当たる。 -/
theorem matchTokens_lits (l : List Char) :
    matchTokens (l.map .lit ++ ts) s = true ↔ ∃ r, s = l ++ r ∧ matchTokens ts r = true := by
  induction l generalizing s with
  | nil => simp
  | cons c l ih =>
    cases s with
    | nil => simp [matchTokens]
    | cons d s =>
      simp only [List.map_cons, List.cons_append, matchTokens, Bool.and_eq_true, decide_eq_true_eq,
        ih, List.cons.injEq]
      constructor
      · rintro ⟨rfl, r, rfl, hmatch⟩
        exact ⟨r, ⟨rfl, rfl⟩, hmatch⟩
      · rintro ⟨r, ⟨rfl, rfl⟩, hmatch⟩
        exact ⟨rfl, r, rfl, hmatch⟩

/-- 最後の `*` には何でも当たる。 -/
theorem matchTokens_last_star : matchTokens [.star] s = true :=
  matchTokens_star.mpr ⟨s, [], (List.append_nil s).symm, rfl⟩

/-! ## 特別な文字の無い部分 -/

/-- pattern の中で自分自身だけを表す文字。 -/
def isLiteral (c : Char) : Bool := c ≠ '*' && c ≠ '?' && c ≠ '[' && c ≠ '\\'

/-- 特別な文字を含まない。 -/
def Literal (s : String) : Prop := ∀ c ∈ s.toList, isLiteral c = true

instance (s : String) : Decidable (Literal s) := List.decidableBAll _ s.toList

theorem Literal.append {s t : String} (hs : Literal s) (ht : Literal t) : Literal (s ++ t) := by
  unfold Literal
  rw [String.toList_append]
  exact List.forall_mem_append.mpr ⟨hs, ht⟩

theorem parseFrom_literal_cons {c : Char} (h : isLiteral c = true) (p : List Char) :
    parseFrom none (c :: p) = .lit c :: parseFrom none p := by
  simp only [isLiteral, Bool.and_eq_true, decide_eq_true_eq, ne_eq] at h
  obtain ⟨⟨⟨hstar, hany⟩, hopen⟩, hescape⟩ := h
  rw [parseFrom.eq_def]
  split <;> simp_all

theorem parseFrom_literal_append {l : List Char} (h : ∀ c ∈ l, isLiteral c = true) (p : List Char) :
    parseFrom none (l ++ p) = l.map .lit ++ parseFrom none p := by
  induction l with
  | nil => rfl
  | cons c l ih =>
    obtain ⟨hc, hl⟩ := List.forall_mem_cons.mp h
    rw [List.cons_append, parseFrom_literal_cons hc, ih hl]
    rfl

end Infra.Glob
