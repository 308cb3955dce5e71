import Trigger.Tsql.Frame

/-!
# 利用者の文字列と escape

印字される SQL は、固定の語、schema の文字列、許可表の関数名、数、placeholder、escape した識別子の連結である
（`Escaped`）。ただし `visitWindowFunction` は関数名をそのまま書く。converter は quote した識別子も関数名として
受け取るので、`[A-Za-z_][A-Za-z0-9_]*` でない名前の window 関数が印字されると、その文字列がそのまま SQL に
現れる（`print_escaped`、`window_function_injected`）。
-/

namespace Tsql

open Infra

/-! ## 印字してよい文字列 -/

/-- `join_type` を作る語。 -/
def joinWords : List String :=
  ["ALL", "ANY", "ASOF", "INNER", "LEFT", "RIGHT", "OUTER", "SEMI", "ANTI", "FULL", "CROSS"]

/-- converter が作る `join_type`。 -/
def JoinText (k : String) : Prop :=
  ∃ words : List String, (∀ w ∈ words, w ∈ joinWords) ∧ k = joinWith " " (words ++ ["JOIN"])

/-- 印字してよい断片。そのまま書かれる文字列は、escape しても変わらない識別子に限る。 -/
def Piece.Safe (ctx : PrinterContext) : Piece → Prop
  | .keyword s => s ∈ keywords ∨ JoinText s
  | .schema s => SchemaText ctx s
  | .function s => s ∈ allowedFunctionNames
  | .number _ | .param _ _ | .identifier _ => True
  | .verbatim s => identifierText s = s

/-- 木の節が書く固定の語。 -/
def punctuation : List String :=
  ["and(", "or(", "not(", ", ", ")", "WITH ", "SELECT ", "FROM ", "", "PREWHERE ", "WHERE ",
    "GROUP BY ", "HAVING ", "WINDOW ", "ORDER BY ", "LIMIT ", "WITH TIES", "OFFSET "]

/-- 印字してよい断片と固定の語をつないだ文字列。集合演算では両端の空白を除く。 -/
inductive Written (ctx : PrinterContext) : String → Prop
  | empty : Written ctx ""
  | piece {p : Piece} : p.Safe ctx → Written ctx p.text
  | word {s : String} : s ∈ punctuation → Written ctx s
  | append {s t : String} : Written ctx s → Written ctx t → Written ctx (s ++ t)
  | trim {s : String} : Written ctx s → Written ctx (trimText s)

/-- 利用者の文字列が escape されずに現れることはない。 -/
structure Escaped (ctx : PrinterContext) (t : Sql) : Prop where
  text : Written ctx t.render
  pieces : ∀ p ∈ t.pieces, p.Safe ctx

/-! ## 構文木の条件 -/

/-- converter が作りうる節。 -/
def Expr.Convertible : Expr → Prop
  | .selectQuery q => ∀ j ∈ q.selectFrom, ∀ k, j.joinType = some k → JoinText k
  | .windowFrame f => f.frameType.isSome
  | _ => True

/-- window 関数の名前は、escape の要らない識別子である。 -/
def Expr.BareWindow : Expr → Prop
  | .windowFunction name _ _ _ _ => isBareIdentifier name.toList
  | _ => True

/-! ## 文字列の連結 -/

variable {ctx : PrinterContext}

theorem written_concat {l : List String} (h : ∀ s ∈ l, Written ctx s) : Written ctx (concat l) := by
  induction l with
  | nil => exact .empty
  | cons s l ih =>
    exact .append (h s List.mem_cons_self) (ih fun s hs => h s (List.mem_cons_of_mem _ hs))

theorem written_joinWith {sep : String} (hsep : Written ctx sep) :
    ∀ {l : List String}, (∀ s ∈ l, Written ctx s) → Written ctx (joinWith sep l)
  | [], _ => .empty
  | [s], h => h s List.mem_cons_self
  | s :: _ :: _, h =>
    .append (.append (h s List.mem_cons_self) hsep)
      (written_joinWith hsep fun s hs => h s (List.mem_cons_of_mem _ hs))

theorem clause_keyword_mem (c : Clause) : c.keyword ∈ punctuation := by
  cases c <;> decide

/-- `and(…)` のように括った並び。 -/
theorem escaped_listed {name : String} (hname : name ∈ punctuation) {l : List Sql}
    (h : ∀ t ∈ l, Escaped ctx t) :
    Written ctx (name ++ joinWith ", " (l.map Sql.render) ++ ")") := by
  have hall : ∀ s ∈ l.map Sql.render, Written ctx s := by
    intro s hs
    obtain ⟨t, ht, rfl⟩ := List.mem_map.mp hs
    exact (h t ht).text
  exact .append (.append (.word hname) (written_joinWith (.word (by decide)) hall))
    (.word (by decide))

theorem pieces_flatMap_safe {l : List Sql} (h : ∀ t ∈ l, Escaped ctx t) :
    ∀ p ∈ l.flatMap Sql.pieces, p.Safe ctx := by
  intro p hp
  obtain ⟨t, ht, hp⟩ := List.mem_flatMap.mp hp
  exact (h t ht).pieces p hp

theorem closed_escaped (ctx : PrinterContext) : Closed (Piece.Safe ctx) (Escaped ctx) where
  text {p} hp := by
    refine ⟨.piece hp, fun p' hp' => ?_⟩
    obtain rfl : p' = p := by simpa [Sql.pieces] using hp'
    exact hp
  seq {l} h := by
    refine ⟨?_, by simpa [Sql.pieces] using pieces_flatMap_safe h⟩
    rw [Sql.render, Sql.renderAll_eq]
    refine written_concat fun s hs => ?_
    obtain ⟨t, ht, rfl⟩ := List.mem_map.mp hs
    exact (h t ht).text
  and {l} h := by
    refine ⟨?_, by simpa [Sql.pieces] using pieces_flatMap_safe h⟩
    rw [Sql.render, Sql.renderAll_eq]
    exact escaped_listed (by decide) h
  or {l} h := by
    refine ⟨?_, by simpa [Sql.pieces] using pieces_flatMap_safe h⟩
    rw [Sql.render, Sql.renderAll_eq]
    exact escaped_listed (by decide) h
  not {t} h := by
    refine ⟨?_, by simpa [Sql.pieces] using h.pieces⟩
    rw [Sql.render]
    exact .append (.append (.word (by decide)) h.text) (.word (by decide))
  clause {c t} h := by
    refine ⟨?_, by simpa [Sql.pieces] using h.pieces⟩
    rw [Sql.render]
    exact .append (.word (clause_keyword_mem c)) h.text
  trim {t} h := by
    refine ⟨?_, by simpa [Sql.pieces] using h.pieces⟩
    rw [Sql.render]
    exact .trim h.text

/-! ## printer が作る構文木 -/

/-- 節ごとの条件。 -/
def Expr.Plain (e : Expr) : Prop := e.Convertible ∧ e.BareWindow

theorem Expr.all_leaf {p : Expr → Prop} {e : Expr} (h : p e) (hc : e.children = []) : e.All p :=
  Expr.all_iff.mpr ⟨h, fun c hmem => by rw [hc] at hmem; cases hmem⟩

mutual
theorem all_mapStrings (f : String → String) : ∀ {e : Expr}, e.All Expr.Plain →
    (mapStrings f e).All Expr.Plain := by
  intro e h
  unfold mapStrings
  split
  · exact Expr.all_leaf ⟨trivial, trivial⟩ rfl
  · next es =>
    exact Expr.all_iff.mpr ⟨⟨trivial, trivial⟩, all_mapStringsAll f fun e he => h.child he⟩
  · next es =>
    exact Expr.all_iff.mpr ⟨⟨trivial, trivial⟩, all_mapStringsAll f fun e he => h.child he⟩
  · exact h

theorem all_mapStringsAll (f : String → String) : ∀ {es : List Expr},
    (∀ e ∈ es, e.All Expr.Plain) → ∀ e ∈ mapStringsAll f es, e.All Expr.Plain := by
  intro es h
  cases es with
  | nil => exact fun _ he => by cases he
  | cons e es =>
    rw [mapStringsAll, List.forall_mem_cons]
    exact ⟨all_mapStrings f (h e List.mem_cons_self),
      all_mapStringsAll f fun e he => h e (List.mem_cons_of_mem _ he)⟩
end

theorem all_createValueExpression (v : ConditionValue) :
    (createValueExpression v).All Expr.Plain := by
  cases v with
  | date time =>
    refine Expr.all_iff.mpr ⟨⟨trivial, trivial⟩, List.forall_mem_cons.mpr ⟨?_,
      List.forall_mem_singleton.mpr ?_⟩⟩
    · exact Expr.all_leaf ⟨trivial, trivial⟩ rfl
    · exact Expr.all_leaf ⟨trivial, trivial⟩ rfl
  | string s => exact Expr.all_leaf ⟨trivial, trivial⟩ rfl
  | number x => exact Expr.all_leaf ⟨trivial, trivial⟩ rfl

theorem all_guardField (column tableAlias : String) :
    (guardField column tableAlias).All Expr.Plain := by
  unfold guardField
  split
  · exact Expr.all_leaf ⟨trivial, trivial⟩ rfl
  · exact Expr.all_leaf ⟨trivial, trivial⟩ rfl

theorem all_compare {op : CompareOp} {left right : Expr} (hl : left.All Expr.Plain)
    (hr : right.All Expr.Plain) : (Expr.compare op left right).All Expr.Plain :=
  Expr.all_iff.mpr ⟨⟨trivial, trivial⟩,
    List.forall_mem_cons.mpr ⟨hl, List.forall_mem_singleton.mpr hr⟩⟩

/-- guard は window 関数も SELECT 文も含まない。 -/
theorem all_enforcedGuards {t : TableSchema} {a : String} {g : Expr}
    (hg : g ∈ enforcedGuards ctx t a) : g.All Expr.Plain := by
  rcases List.mem_append.mp hg with hg | hg
  · obtain ⟨c, -, hg⟩ := List.mem_filterMap.mp hg
    obtain ⟨condition, -, hg⟩ := Option.bind_eq_some_iff.mp hg
    split at hg
    · cases hg
      cases condition with
      | between low high =>
        refine Expr.all_iff.mpr ⟨⟨trivial, trivial⟩, List.forall_mem_cons.mpr ⟨?_,
          List.forall_mem_cons.mpr ⟨?_, List.forall_mem_singleton.mpr ?_⟩⟩⟩
        · exact all_guardField _ _
        · exact all_createValueExpression _
        · exact all_createValueExpression _
      | «in» values =>
        refine all_compare (all_guardField _ _) (Expr.all_iff.mpr ⟨⟨trivial, trivial⟩, ?_⟩)
        intro e he
        obtain ⟨v, -, rfl⟩ := List.mem_map.mp he
        exact all_createValueExpression v
      | compare op value => exact all_compare (all_guardField _ _) (all_createValueExpression _)
    · cases hg
  · obtain ⟨filter, -, rfl⟩ := List.mem_map.mp hg
    exact all_compare (Expr.all_leaf ⟨trivial, trivial⟩ rfl) (Expr.all_leaf ⟨trivial, trivial⟩ rfl)

/-- 許可表で見つかる関数の名前。 -/
theorem functionPiece_safe {f : FunctionMeta} {name : String}
    (h : findFunction ctx.toLowerCase aggregations name = some f ∨
      findFunction ctx.toLowerCase clickhouseFunctions name = some f) :
    (functionPiece f).Safe ctx := by
  unfold functionPiece
  split
  · next ch hch =>
    show ch ∈ allowedFunctionNames
    rw [allowedFunctionNames, List.filterMap_append, List.mem_append]
    rcases h with h | h
    · exact .inr (findFunction_mem h hch)
    · exact .inl (findFunction_mem h hch)
  · show identifierText "undefined" = "undefined"
    decide

theorem emission_plain (ctx : PrinterContext) :
    Emission ctx (fun e => e.All Expr.Plain) (Piece.Safe ctx) where
  child h hc := h.child hc
  and h := Expr.all_iff.mpr ⟨⟨trivial, trivial⟩, h⟩
  constant _ := Expr.all_leaf ⟨trivial, trivial⟩ rfl
  mapStrings f _ h := all_mapStrings f h
  guard _ := fun {_ _} hg => all_enforcedGuards hg
  keyword k hk := .inl hk
  schema h := h
  number _ := trivial
  param _ _ := trivial
  identifier _ := trivial
  function _ h := functionPiece_safe h
  frameType {f} h := by
    have hsome : f.frameType.isSome := h.self.1
    obtain ⟨type, htype⟩ := Option.isSome_iff_exists.mp hsome
    rw [htype]
    refine Or.inl ?_
    cases type <;> decide
  windowFunction {name _ _ _ _} h := by
    have hbare : isBareIdentifier name.toList := h.self.2
    exact if_pos hbare
  joinType {q} h := by
    intro j hj k hk
    have hconvertible : ∀ j ∈ q.selectFrom, ∀ k, j.joinType = some k → JoinText k := h.self.1
    exact .inr (hconvertible j hj k hk)

/-! ## window 関数 -/

/-- escape しても変わらないのは、escape の要らない識別子だけである。 -/
theorem identifierText_eq_iff (s : String) :
    identifierText s = s ↔ isBareIdentifier s.toList := by
  constructor
  · intro h
    by_contra hno
    have hlonger : ∀ l : List Char, l.length ≤ (l.flatMap escapeChar).length := by
      intro l
      induction l with
      | nil => exact Nat.le_refl _
      | cons c l ih =>
        have hone : 1 ≤ (escapeChar c).length := by
          unfold escapeChar
          split <;> simp
        rw [List.flatMap_cons, List.length_append, List.length_cons]
        omega
    rw [identifierText, if_neg hno] at h
    have hlength := congrArg (fun t : String => t.toList.length) h
    simp only [String.toList_ofList, List.length_cons, List.length_append, List.length_nil]
      at hlength
    have := hlonger s.toList
    omega
  · intro h
    exact if_pos h

/-- 木に記録された window 関数の名前は、そのまま断片になっている。 -/
def NamesWindows (t : Sql) : Prop :=
  ∀ x ∈ t.nodes, ∀ name args exprs o w, x.1 = .windowFunction name args exprs o w →
    .verbatim name ∈ t.pieces

theorem namesWindows_list {l : List Sql} (h : ∀ t ∈ l, NamesWindows t) :
    ∀ x ∈ l.flatMap Sql.nodes, ∀ name args exprs o w, x.1 = .windowFunction name args exprs o w →
      .verbatim name ∈ l.flatMap Sql.pieces := by
  intro x hx name args exprs o w hname
  obtain ⟨t, ht, hx⟩ := List.mem_flatMap.mp hx
  exact List.mem_flatMap.mpr ⟨t, ht, h t ht x hx name args exprs o w hname⟩

theorem closed_namesWindows : Closed (fun _ => True) NamesWindows where
  text _ := fun x hx => by cases hx
  seq h := by
    unfold NamesWindows
    rw [Sql.nodes, Sql.pieces, Sql.nodesAll_eq, Sql.piecesAll_eq]
    exact namesWindows_list h
  and h := by
    unfold NamesWindows
    rw [Sql.nodes, Sql.pieces, Sql.nodesAll_eq, Sql.piecesAll_eq]
    exact namesWindows_list h
  or h := by
    unfold NamesWindows
    rw [Sql.nodes, Sql.pieces, Sql.nodesAll_eq, Sql.piecesAll_eq]
    exact namesWindows_list h
  not h := h
  clause h := h
  trim h := h

/-- window 関数の印字は、名前をそのまま書く。 -/
theorem visitNode_windowFunction {visit : Expr → M Sql} {name : String} {args exprs : List Expr}
    {o : Option String} {w : Option WindowExpr} {s s' : PrinterState} {t : Sql}
    (h : visitNode ctx visit (.windowFunction name args exprs o w) s = .ok (t, s')) :
    .verbatim name ∈ t.pieces := by
  obtain ⟨_, _, hget, h⟩ := StateE.bind_eq_ok.mp h
  obtain ⟨ts, hts, rfl⟩ := StateE.map_eq_ok.mp h
  have hname : .text (.verbatim name) ∈ visitWindowFunction name args o w := by
    unfold visitWindowFunction
    dsimp only
    split
    · simp
    · split <;> simp
  have hmem : Sql.text (.verbatim name) ∈ ts := runTemplate_text hname hts
  rw [Sql.pieces, Sql.piecesAll_eq]
  exact List.mem_flatMap.mpr ⟨_, hmem, List.mem_singleton_self _⟩

theorem visit_namesWindows (ctx : PrinterContext) (n : Nat) (e : Expr) :
    Keeps ctx NamesWindows (visit ctx n e) := by
  refine visit_keeps (emission_trivial ctx) closed_namesWindows
    (fun n e s t s' _ _ _ hvisit ht => ?_) n e trivial
  intro x hx name args exprs o w hname
  rcases List.mem_cons.mp hx with rfl | hx
  · dsimp only at hname
    subst hname
    show .verbatim name ∈ t.pieces
    exact visitNode_windowFunction hvisit
  · exact ht x hx name args exprs o w hname

/-! ## 印字全体 -/

/--
**window 関数の名前がどれも escape の要らない識別子なら、印字された SQL は固定の語、schema の文字列、許可表の
関数名、数、placeholder、escape した識別子の連結である。そうでない名前の window 関数が印字されると、そうならない。
escape した識別子は一つの識別子として読まれ、値は元の文字列である。**
-/
theorem print_escaped (ctx : PrinterContext) (fuel : Nat) {e : Expr} {r : PrintResult}
    (hconvertible : e.All Expr.Convertible) (h : print ctx fuel e = .ok r) :
    (e.All Expr.BareWindow → Escaped ctx r.sql) ∧
      (∀ x ∈ r.sql.nodes, ∀ name args exprs o w, x.1 = .windowFunction name args exprs o w →
        ¬ isBareIdentifier name.toList → ¬ Escaped ctx r.sql) ∧
      ∀ s text rest, escapeClickHouseIdentifier s = .ok text → EndsIdentifier rest →
        lexIdentifier (text.toList ++ rest) = some (s.toList, rest) := by
  unfold print at h
  split at h
  · cases h
  · next sql s' hvisit =>
    cases h
    have hscoped : Scoped ctx {} := fun _ hp => by cases hp
    refine ⟨fun hbare => ?_, fun x hx name args exprs o w hname hno hescaped => ?_, ?_⟩
    · have hplain : e.All Expr.Plain := fun e' hreach => ⟨hconvertible e' hreach, hbare e' hreach⟩
      exact (visit_keeps (emission_plain ctx) (closed_escaped ctx)
        (fun _ _ _ _ _ _ _ _ _ ht => ⟨ht.text, ht.pieces⟩) fuel e hplain _ _ _ hscoped hvisit).2
    · have hverbatim : .verbatim name ∈ sql.pieces :=
        (visit_namesWindows ctx fuel e _ _ _ hscoped hvisit).2 x hx name args exprs o w hname
      exact hno ((identifierText_eq_iff name).mp (hescaped.pieces _ hverbatim))
    · intro s text rest htext hrest
      unfold escapeClickHouseIdentifier at htext
      split at htext
      · cases htext
      · cases htext
        exact lexIdentifier_identifierText s hrest

/-- `SELECT name() OVER w`。 -/
def windowSample (name : String) : Expr :=
  .selectQuery { select := [.windowFunction name [] [] (some "w") none] }

theorem windowSample_all {p : Expr → Prop} {name : String} (hquery : p (windowSample name))
    (hwindow : p (.windowFunction name [] [] (some "w") none)) : (windowSample name).All p := by
  have hchildren : (windowSample name).children = [.windowFunction name [] [] (some "w") none] := rfl
  refine Expr.all_iff.mpr ⟨hquery, ?_⟩
  rw [hchildren, List.forall_mem_singleton]
  exact Expr.all_leaf hwindow rfl

theorem windowSample_convertible (name : String) : (windowSample name).All Expr.Convertible :=
  windowSample_all (fun j hj => by cases hj) trivial

/-- `SELECT rank() OVER w` は安全に印字される。 -/
theorem print_escaped_rank : ∃ r, print emptyContext 3 (windowSample "rank") = .ok r ∧
    r.sql.render = "SELECT rank() OVER w LIMIT 10000" ∧ Escaped emptyContext r.sql := by
  refine ⟨_, rfl, by decide +kernel, ?_⟩
  have hbare : isBareIdentifier "rank".toList := by decide
  exact (print_escaped emptyContext 3 (windowSample_convertible "rank") rfl).1
    (windowSample_all trivial hbare)

/-- quote した関数名は、そのまま SQL の一部になる。 -/
theorem window_function_injected :
    (windowSample "sleep(3) FROM t; --").All Expr.Convertible ∧
      ∃ r, print emptyContext 3 (windowSample "sleep(3) FROM t; --") = .ok r ∧
        r.sql.render = "SELECT sleep(3) FROM t; --() OVER w LIMIT 10000" ∧
        ¬ Escaped emptyContext r.sql := by
  refine ⟨windowSample_convertible _, _, rfl, by decide +kernel, fun h => ?_⟩
  have hsafe : identifierText "sleep(3) FROM t; --" = "sleep(3) FROM t; --" :=
    h.pieces (.verbatim "sleep(3) FROM t; --") (by decide +kernel)
  revert hsafe
  decide

end Tsql
