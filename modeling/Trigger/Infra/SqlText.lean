import Mathlib.Data.List.Basic

/-!
# SQL の真偽式を文字列から読む

PostgreSQL の字句と、列・文字列・配列の比較を `AND`・`OR`・`NOT` でつないだ式。注釈、数、関数の呼び出し、型変換は読まない。

字句は一文字ずつ状態を変えて読む。文字列の連結は状態の連結になるので（`lexFrom_append`）、埋め込まれた文字列が literal の中に
留まるかどうかを、その文字列だけから言える（`lexFrom_text`）。

* `Infra.SqlText.lex` — 字句
* `Infra.SqlText.parse` — 式
* `Infra.SqlText.eval` — 三値の評価。型の合わない比較は失敗する
-/

namespace Infra.SqlText

abbrev Text := List Char

/-! ## 字句 -/

inductive Token
  /-- 小文字にした裸の語。 -/
  | word (name : Text)
  /-- `"` で囲んだ識別子。 -/
  | ident (name : Text)
  /-- `'` で囲んだ文字列。 -/
  | text (value : Text)
  | symbol (op : Text)
  | lparen
  | rparen
  | lbracket
  | rbracket
  | comma
deriving DecidableEq

/-- 読みかけの字句。`…Quote` は、囲みの文字を一つ読んだところである。 -/
inductive Mode
  | start
  | word (acc : Text)
  | symbol (acc : Text)
  | ident (acc : Text)
  | identQuote (acc : Text)
  | text (acc : Text)
  | textQuote (acc : Text)
  | failed
deriving DecidableEq

/-- `tokens` は逆順である。 -/
structure Lexer where
  mode : Mode
  tokens : List Token
deriving DecidableEq

def isSpace (c : Char) : Bool := c == ' ' || c == '\t' || c == '\n' || c == '\r'

def isWordStart (c : Char) : Bool := c.isAlpha || c == '_'

def isWordChar (c : Char) : Bool := c.isAlphanum || c == '_' || c == '$'

def isSymbolChar (c : Char) : Bool := "+*<>=~!@#%^&|?".toList.contains c

/-- 字句の始まり。 -/
def startStep (tokens : List Token) (c : Char) : Lexer :=
  if isSpace c then ⟨.start, tokens⟩
  else if c = '"' then ⟨.ident [], tokens⟩
  else if c = '\'' then ⟨.text [], tokens⟩
  else if c = '(' then ⟨.start, .lparen :: tokens⟩
  else if c = ')' then ⟨.start, .rparen :: tokens⟩
  else if c = '[' then ⟨.start, .lbracket :: tokens⟩
  else if c = ']' then ⟨.start, .rbracket :: tokens⟩
  else if c = ',' then ⟨.start, .comma :: tokens⟩
  else if isWordStart c then ⟨.word [c.toLower], tokens⟩
  else if isSymbolChar c then ⟨.symbol [c], tokens⟩
  else ⟨.failed, tokens⟩

def lexStep (l : Lexer) (c : Char) : Lexer :=
  match l.mode with
  | .start => startStep l.tokens c
  | .word acc =>
    if isWordChar c then ⟨.word (acc ++ [c.toLower]), l.tokens⟩
    else startStep (.word acc :: l.tokens) c
  | .symbol acc =>
    if isSymbolChar c then ⟨.symbol (acc ++ [c]), l.tokens⟩
    else startStep (.symbol acc :: l.tokens) c
  | .ident acc => if c = '"' then ⟨.identQuote acc, l.tokens⟩ else ⟨.ident (acc ++ [c]), l.tokens⟩
  | .identQuote acc =>
    if c = '"' then ⟨.ident (acc ++ ['"']), l.tokens⟩ else startStep (.ident acc :: l.tokens) c
  | .text acc => if c = '\'' then ⟨.textQuote acc, l.tokens⟩ else ⟨.text (acc ++ [c]), l.tokens⟩
  | .textQuote acc =>
    if c = '\'' then ⟨.text (acc ++ ['\'']), l.tokens⟩ else startStep (.text acc :: l.tokens) c
  | .failed => l

def lexFrom (l : Lexer) (s : Text) : Lexer := s.foldl lexStep l

/-- 終わりの字句。閉じていない囲みは失敗である。 -/
def finish (l : Lexer) : Option (List Token) :=
  match l.mode with
  | .start => some l.tokens.reverse
  | .word acc => some (.word acc :: l.tokens).reverse
  | .symbol acc => some (.symbol acc :: l.tokens).reverse
  | .identQuote acc => some (.ident acc :: l.tokens).reverse
  | .textQuote acc => some (.text acc :: l.tokens).reverse
  | .ident _ | .text _ | .failed => none

def lex (s : Text) : Option (List Token) := finish (lexFrom ⟨.start, []⟩ s)

theorem lexFrom_append (l : Lexer) (s t : Text) :
    lexFrom l (s ++ t) = lexFrom (lexFrom l s) t := List.foldl_append

/-- `'` の無い文字列は、literal の中に留まる。 -/
theorem lexFrom_text {s : Text} (h : '\'' ∉ s) (acc : Text) (tokens : List Token) :
    lexFrom ⟨.text acc, tokens⟩ s = ⟨.text (acc ++ s), tokens⟩ := by
  induction s generalizing acc with
  | nil => rw [List.append_nil]; rfl
  | cons c s ih =>
    have hc : '\'' ≠ c := fun heq => h (heq ▸ List.mem_cons_self)
    have hs : '\'' ∉ s := fun hmem => h (List.mem_cons_of_mem c hmem)
    have hstep : lexStep ⟨.text acc, tokens⟩ c = ⟨.text (acc ++ [c]), tokens⟩ := if_neg (Ne.symm hc)
    rw [lexFrom, List.foldl_cons, hstep]
    refine (ih hs _).trans ?_
    rw [List.append_assoc, List.singleton_append]

/-! ## 式 -/

inductive Expr
  | column (name : Text)
  | text (value : Text)
  | array (values : List Text)
  | compare (op : Text) (left right : Expr)
  | not (e : Expr)
  | and (left right : Expr)
  | or (left right : Expr)
deriving DecidableEq

/-- `ARRAY[…]` の中の文字列の並び。 -/
def parseItems : List Token → Option (List Text × List Token)
  | .text v :: .comma :: rest => (parseItems rest).map fun p => (v :: p.1, p.2)
  | .text v :: .rbracket :: rest => some ([v], rest)
  | _ => none

mutual

/-- `OR` でつないだ式。`fuel` は再帰の深さの上限である。 -/
def parseOr : Nat → List Token → Option (Expr × List Token)
  | 0, _ => none
  | n + 1, ts =>
    (parseAnd n ts).bind fun p =>
      match p.2 with
      | .word ['o', 'r'] :: rest => (parseOr n rest).map fun q => (.or p.1 q.1, q.2)
      | rest => some (p.1, rest)

def parseAnd : Nat → List Token → Option (Expr × List Token)
  | 0, _ => none
  | n + 1, ts =>
    (parseNot n ts).bind fun p =>
      match p.2 with
      | .word ['a', 'n', 'd'] :: rest => (parseAnd n rest).map fun q => (.and p.1 q.1, q.2)
      | rest => some (p.1, rest)

def parseNot : Nat → List Token → Option (Expr × List Token)
  | 0, _ => none
  | n + 1, .word ['n', 'o', 't'] :: rest => (parseNot n rest).map fun p => (.not p.1, p.2)
  | n + 1, ts => parseComparison n ts

/-- 比較は一つだけである。 -/
def parseComparison : Nat → List Token → Option (Expr × List Token)
  | 0, _ => none
  | n + 1, ts =>
    (parsePrimary n ts).bind fun p =>
      match p.2 with
      | .symbol op :: rest => (parsePrimary n rest).map fun q => (.compare op p.1 q.1, q.2)
      | rest => some (p.1, rest)

def parsePrimary : Nat → List Token → Option (Expr × List Token)
  | 0, _ => none
  | _ + 1, .text v :: rest => some (.text v, rest)
  | _ + 1, .ident name :: rest => some (.column name, rest)
  | _ + 1, .word ['a', 'r', 'r', 'a', 'y'] :: .lbracket :: rest =>
    (parseItems rest).map fun p => (.array p.1, p.2)
  | _ + 1, .word name :: rest => some (.column name, rest)
  | n + 1, .lparen :: rest =>
    (parseOr n rest).bind fun p =>
      match p.2 with
      | .rparen :: rest => some (p.1, rest)
      | _ => none
  | _ + 1, _ => none

end

/-- 字句が残れば読めない。 -/
def parse (s : Text) : Option Expr :=
  (lex s).bind fun ts =>
    match parseOr (5 * ts.length + 5) ts with
    | some (e, []) => some e
    | _ => none

/-- 閉じた配列の literal。 -/
theorem parseItems_texts (rest : List Token) : ∀ (value : Text) (values : List Text),
    parseItems (Token.text value :: values.flatMap (fun v => [Token.comma, .text v]) ++
      .rbracket :: rest) = some (value :: values, rest)
  | _, [] => rfl
  | value, v :: values => by
    have ih := parseItems_texts rest v values
    rw [List.flatMap_cons]
    show (parseItems
      (Token.text v :: values.flatMap (fun v => [Token.comma, .text v]) ++
        .rbracket :: rest)).map _ = _
    rw [ih]
    rfl

/-! ## 評価 -/

inductive Value
  | null
  | bool (b : Bool)
  | text (value : Text)
  | time (t : Int)
  | texts (values : List Text)
deriving DecidableEq

/-- 三値の真偽。 -/
def Value.truth : Value → Option (Option Bool)
  | .null => some none
  | .bool b => some (some b)
  | _ => none

def ofTruth : Option Bool → Value
  | none => .null
  | some b => .bool b

def truthAnd : Option Bool → Option Bool → Option Bool
  | some false, _ | _, some false => some false
  | some true, some true => some true
  | _, _ => none

def truthOr : Option Bool → Option Bool → Option Bool
  | some true, _ | _, some true => some true
  | some false, some false => some false
  | _, _ => none

section Eval

variable (timestamp : Text → Option Int) (row : Text → Option Value)

/-- 時刻と比べる文字列は、時刻に直す。 -/
def coerce : Value → Value → Option (Value × Value)
  | .time t, .text s => (timestamp s).map fun u => (.time t, .time u)
  | .text s, .time t => (timestamp s).map fun u => (.time u, .time t)
  | a, b => some (a, b)

/-- 比較。知らない演算子と型の合わない値は失敗する。 -/
def compareValues (op : Text) : Value → Value → Option Value
  | .null, _ | _, .null => some .null
  | .text a, .text b => if op = ['='] then some (.bool (a = b)) else none
  | .time a, .time b =>
    if op = ['='] then some (.bool (a = b))
    else if op = ['>'] then some (.bool (b < a))
    else if op = ['<'] then some (.bool (a < b))
    else none
  | .texts a, .texts b => if op = ['@', '>'] then some (.bool (b.all a.contains)) else none
  | _, _ => none

def eval : Expr → Option Value
  | .column name => row name
  | .text v => some (.text v)
  | .array vs => some (.texts vs)
  | .compare op l r =>
    (eval l).bind fun a => (eval r).bind fun b =>
      (coerce timestamp a b).bind fun p => compareValues op p.1 p.2
  | .not e => (eval e).bind fun a => a.truth.map fun t => ofTruth (t.map not)
  | .and l r =>
    (eval l).bind fun a => (eval r).bind fun b =>
      a.truth.bind fun t => b.truth.map fun u => ofTruth (truthAnd t u)
  | .or l r =>
    (eval l).bind fun a => (eval r).bind fun b =>
      a.truth.bind fun t => b.truth.map fun u => ofTruth (truthOr t u)

/-- 行が、文字列で書かれた条件を満たす。 -/
def Satisfies (s : Text) : Prop :=
  (parse s).bind (eval timestamp row) = some (.bool true)

instance (s : Text) : Decidable (Satisfies timestamp row s) :=
  inferInstanceAs (Decidable (_ = _))

end Eval

variable {timestamp : Text → Option Int} {row : Text → Option Value}

theorem truth_eq_true_iff {a : Value} : a.truth = some (some true) ↔ a = .bool true := by
  cases a <;> simp [Value.truth]

theorem ofTruth_eq_true_iff {t : Option Bool} : ofTruth t = .bool true ↔ t = some true := by
  cases t <;> simp [ofTruth]

theorem truthAnd_eq_true_iff {t u : Option Bool} :
    truthAnd t u = some true ↔ t = some true ∧ u = some true := by
  rcases t with _ | _ | _ <;> rcases u with _ | _ | _ <;> simp [truthAnd]

/-- 両方が真のときにだけ、`AND` は真である。 -/
theorem eval_and_iff {l r : Expr} : eval timestamp row (.and l r) = some (.bool true) ↔
    eval timestamp row l = some (.bool true) ∧ eval timestamp row r = some (.bool true) := by
  rw [eval]
  simp only [Option.bind_eq_some_iff, Option.map_eq_some_iff, ofTruth_eq_true_iff]
  constructor
  · rintro ⟨a, ha, b, hb, t, ht, u, hu, hand⟩
    obtain ⟨rfl, rfl⟩ := truthAnd_eq_true_iff.mp hand
    exact ⟨ha.trans (congrArg some (truth_eq_true_iff.mp ht)),
      hb.trans (congrArg some (truth_eq_true_iff.mp hu))⟩
  · rintro ⟨hl, hr⟩
    exact ⟨_, hl, _, hr, some true, rfl, some true, rfl, rfl⟩

/-! ## `AND` でつないだ比較 -/

/-- 一つの比較の文字列。後の空白で字句が閉じ、残りの字句に触れずに読まれる。 -/
structure Reads (s : Text) (ts : List Token) (e : Expr) : Prop where
  closes : ∀ acc, lexStep (lexFrom ⟨.start, acc⟩ s) ' ' = ⟨.start, ts.reverse ++ acc⟩
  ends : ∀ acc, finish (lexFrom ⟨.start, acc⟩ s) = some (acc.reverse ++ ts)
  parses : ∀ n rest, parseNot (n + 3) (ts ++ rest) = some (e, rest)

theorem Reads.of_eq {s t : Text} {ts : List Token} {e : Expr} (h : s = t) (hr : Reads t ts e) :
    Reads s ts e := h ▸ hr

/-- `clauses.join(" AND ")`。 -/
def joinAnd : List Text → Text
  | [] => []
  | [s] => s
  | s :: t :: rest => s ++ " AND ".toList ++ joinAnd (t :: rest)

def joinTokens : List (List Token) → List Token
  | [] => []
  | [ts] => ts
  | ts :: us :: rest => ts ++ .word ['a', 'n', 'd'] :: joinTokens (us :: rest)

def conjunction (e : Expr) : List Expr → Expr
  | [] => e
  | e' :: es => .and e (conjunction e' es)

/-- 文字列、字句、式の組。 -/
abbrev Clause := Text × List Token × Expr

theorem lex_joinAnd : ∀ (c : Clause) (cs : List Clause),
    (∀ c' ∈ c :: cs, Reads c'.1 c'.2.1 c'.2.2) → ∀ acc,
    finish (lexFrom ⟨.start, acc⟩ (joinAnd ((c :: cs).map Prod.fst))) =
      some (acc.reverse ++ joinTokens ((c :: cs).map fun c => c.2.1))
  | c, [], h, acc => (h c List.mem_cons_self).ends acc
  | c, c' :: cs, h, acc => by
    have hc := (h c List.mem_cons_self).closes acc
    have hsep : lexFrom (lexFrom ⟨.start, acc⟩ c.1) " AND ".toList =
        ⟨.start, .word ['a', 'n', 'd'] :: (c.2.1.reverse ++ acc)⟩ := by
      show List.foldl lexStep (lexStep (lexFrom ⟨.start, acc⟩ c.1) ' ') ['A', 'N', 'D', ' '] = _
      rw [hc]
      rfl
    have ih := lex_joinAnd c' cs (fun d hd => h d (List.mem_cons_of_mem c hd))
      (.word ['a', 'n', 'd'] :: (c.2.1.reverse ++ acc))
    show finish (lexFrom ⟨.start, acc⟩ (c.1 ++ " AND ".toList ++ _)) = _
    rw [lexFrom_append, lexFrom_append, hsep]
    refine ih.trans ?_
    simp only [List.reverse_cons, List.reverse_append, List.reverse_reverse, List.append_assoc,
      List.singleton_append]
    rfl

theorem parseAnd_joinTokens : ∀ (c : Clause) (cs : List Clause) (n : Nat),
    (∀ c' ∈ c :: cs, Reads c'.1 c'.2.1 c'.2.2) →
    parseAnd (n + cs.length + 4) (joinTokens ((c :: cs).map fun c => c.2.1)) =
      some (conjunction c.2.2 (cs.map fun c => c.2.2), [])
  | c, [], n, h => by
    have hc := (h c List.mem_cons_self).parses n []
    rw [List.append_nil] at hc
    show (parseNot (n + 3) c.2.1).bind _ = _
    rw [hc]
    rfl
  | c, c' :: cs, n, h => by
    have hc := (h c List.mem_cons_self).parses (n + cs.length + 1)
      (.word ['a', 'n', 'd'] :: joinTokens ((c' :: cs).map fun c => c.2.1))
    have ih := parseAnd_joinTokens c' cs n fun d hd => h d (List.mem_cons_of_mem c hd)
    show (parseNot (n + cs.length + 4) (c.2.1 ++ .word ['a', 'n', 'd'] ::
      joinTokens ((c' :: cs).map fun c => c.2.1))).bind _ = _
    rw [hc]
    show (parseAnd (n + cs.length + 4) (joinTokens ((c' :: cs).map fun c => c.2.1))).map _ = _
    rw [ih]
    rfl

theorem length_joinTokens : ∀ (ts : List Token) (rest : List (List Token)),
    rest.length ≤ (joinTokens (ts :: rest)).length
  | _, [] => Nat.zero_le _
  | ts, us :: rest => by
    have := length_joinTokens us rest
    rw [joinTokens, List.length_append, List.length_cons, List.length_cons]
    omega

/-- つないだ文字列は、比較の連言として読まれる。 -/
theorem parse_joinAnd {c : Clause} {cs : List Clause}
    (h : ∀ c' ∈ c :: cs, Reads c'.1 c'.2.1 c'.2.2) :
    parse (joinAnd ((c :: cs).map Prod.fst)) =
      some (conjunction c.2.2 (cs.map fun c => c.2.2)) := by
  have hlex : lex (joinAnd ((c :: cs).map Prod.fst)) = _ := lex_joinAnd c cs h []
  have hlength := length_joinTokens c.2.1 (cs.map fun c => c.2.1)
  rw [List.length_map] at hlength
  rw [parse, hlex, List.reverse_nil, List.nil_append, Option.bind_some]
  -- `parseOr` は連言を一つ読んで終わる
  obtain ⟨n, hn⟩ : ∃ n, 5 * (joinTokens ((c :: cs).map fun c => c.2.1)).length + 5 =
      n + cs.length + 4 + 1 :=
    ⟨5 * (joinTokens ((c :: cs).map fun c => c.2.1)).length - cs.length, by
      rw [List.map_cons]
      omega⟩
  rw [hn, parseOr, parseAnd_joinTokens c cs n h]
  rfl

theorem eval_conjunction_iff : ∀ {e : Expr} {es : List Expr},
    eval timestamp row (conjunction e es) = some (.bool true) ↔
      ∀ e' ∈ e :: es, eval timestamp row e' = some (.bool true)
  | e, [] => by rw [conjunction, List.forall_mem_singleton]
  | e, e' :: es => by
    rw [conjunction, eval_and_iff, eval_conjunction_iff]
    exact (List.forall_mem_cons (p := fun e => eval timestamp row e = some (.bool true))).symm

/-- つないだ条件を満たすのは、どの比較も満たす行である。 -/
theorem satisfies_joinAnd_iff {c : Clause} {cs : List Clause}
    (h : ∀ c' ∈ c :: cs, Reads c'.1 c'.2.1 c'.2.2) :
    Satisfies timestamp row (joinAnd ((c :: cs).map Prod.fst)) ↔
      ∀ c' ∈ c :: cs, eval timestamp row c'.2.2 = some (.bool true) := by
  rw [Satisfies, parse_joinAnd h, Option.bind_some, eval_conjunction_iff]
  exact List.forall_mem_map (f := fun c : Clause => c.2.2) (l := c :: cs)

end Infra.SqlText
