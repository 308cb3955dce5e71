import Trigger.Tsql.Converter

/-!
# 論理構造の保存

`visitAnd`・`visitOr`・`visitNot` の出力の真理値は、構文木の真理値（`Expr.boolValue`）に等しい。定数を
落とす最適化は、`1` と印字された operand が真、`0` と印字された operand が偽であること（`Literal`）から
正しい。

一方、変換は AND と OR の operand を区別せずに平らにするので、parse tree との一致は、混ざった入れ子が
無いとき（`ColumnExpr.Unmixed`）に限って言える。
-/

namespace Tsql

open Infra

/-! ## 出力に残る断片 -/

theorem mem_concat {c : Char} {l : List String} {x : String} (hx : x ∈ l) (hc : c ∈ x.toList) :
    c ∈ (concat l).toList := by
  induction l with
  | nil => cases hx
  | cons y l ih =>
    rw [concat, String.toList_append, List.mem_append]
    rcases List.mem_cons.mp hx with rfl | hx
    · exact .inl hc
    · exact .inr (ih hx)

theorem runTemplate_text {visit : Expr → M Sql} {p : Piece} {tmpl : Template}
    (h : .text p ∈ tmpl) {s s' : PrinterState} {ts : List Sql}
    (hr : runTemplate visit tmpl s = .ok (ts, s')) : Sql.text p ∈ ts := by
  induction tmpl generalizing s ts with
  | nil => cases h
  | cons a rest ih =>
    obtain ⟨t, s₁, ha, hr⟩ := StateE.bind_eq_ok.mp hr
    obtain ⟨us, s₂, hrest, hp⟩ := StateE.bind_eq_ok.mp hr
    obtain ⟨rfl, rfl⟩ := StateE.pure_eq_ok.mp hp
    rcases List.mem_cons.mp h with rfl | h
    · obtain ⟨rfl, rfl⟩ := StateE.pure_eq_ok.mp ha
      exact List.mem_cons_self
    · exact List.mem_cons_of_mem _ (ih h hrest)

theorem runTemplate_fail {visit : Expr → M Sql} {err : PrintError} {tmpl : Template}
    (h : .fail err ∈ tmpl) {s s' : PrinterState} {ts : List Sql} :
    runTemplate visit tmpl s ≠ .ok (ts, s') := by
  induction tmpl generalizing s s' ts with
  | nil => cases h
  | cons a rest ih =>
    intro hr
    obtain ⟨t, s₁, ha, hr⟩ := StateE.bind_eq_ok.mp hr
    obtain ⟨us, s₂, hrest, -⟩ := StateE.bind_eq_ok.mp hr
    rcases List.mem_cons.mp h with rfl | h
    · cases ha
    · exact ih h hrest

/-- 雛形に書かれた固定の文字列は、出力の文字列に現れる。 -/
theorem mem_render_of_run {visit : Expr → M Sql} {k : String} {tmpl : Template} {c : Char}
    (h : .text (.keyword k) ∈ tmpl) (hc : c ∈ k.toList) {s s' : PrinterState} {t : Sql}
    (hr : run visit tmpl s = .ok (t, s')) : c ∈ t.render.toList := by
  obtain ⟨ts, hts, rfl⟩ := StateE.map_eq_ok.mp hr
  have hmem := runTemplate_text h hts
  rw [Sql.render, Sql.renderAll_eq]
  exact mem_concat (List.mem_map_of_mem (f := Sql.render) hmem) hc

/-! ## 印字された定数 -/

/-- `1` と印字されたものは真、`0` と印字されたものは偽である。 -/
def Literal (v : Expr → Sql → Bool) (t : Sql) : Prop :=
  (t.render = "1" → t.truth v = true) ∧ (t.render = "0" → t.truth v = false)

/-- 数字でない文字を含む出力は、定数ではない。 -/
theorem render_ne_of_mem {t : Sql} {c : Char} (hc : c ∈ t.render.toList) (h1 : c ≠ '1')
    (h0 : c ≠ '0') : t.render ≠ "1" ∧ t.render ≠ "0" := by
  constructor
  · intro h
    rw [h] at hc
    exact h1 (List.mem_singleton.mp hc)
  · intro h
    rw [h] at hc
    exact h0 (List.mem_singleton.mp hc)

theorem literal_of_mem {v : Expr → Sql → Bool} {t : Sql} {c : Char} (hc : c ∈ t.render.toList)
    (h1 : c ≠ '1') (h0 : c ≠ '0') : Literal v t :=
  ⟨fun h => absurd h (render_ne_of_mem hc h1 h0).1, fun h => absurd h (render_ne_of_mem hc h1 h0).2⟩

theorem literal_bit (v : Expr → Sql → Bool) (b : Bool) : Literal v (.kw (bit b)) := by
  cases b with
  | true => exact ⟨fun _ => rfl, fun h => absurd h (by decide)⟩
  | false => exact ⟨fun h => absurd h (by decide), fun _ => rfl⟩

theorem truth_bit (v : Expr → Sql → Bool) (b : Bool) : (Sql.kw (bit b)).truth v = b := by
  cases b <;> rfl

/-- `b` と印字されたものの真理値は `b` である。 -/
theorem Literal.truth_eq {v : Expr → Sql → Bool} {t : Sql} (h : Literal v t) {b : Bool}
    (hb : t.render = bit b) : t.truth v = b := by
  cases b with
  | true => exact h.1 hb
  | false => exact h.2 hb

/-- 論理演算の出力は括弧で閉じるので、定数ではない。 -/
theorem literal_and (v : Expr → Sql → Bool) (l : List Sql) : Literal v (.and l) :=
  literal_of_mem (c := ')') (by simp [Sql.render]) (by decide) (by decide)

theorem literal_or (v : Expr → Sql → Bool) (l : List Sql) : Literal v (.or l) :=
  literal_of_mem (c := ')') (by simp [Sql.render]) (by decide) (by decide)

theorem literal_not (v : Expr → Sql → Bool) (t : Sql) : Literal v (.not t) :=
  literal_of_mem (c := ')') (by simp [Sql.render]) (by decide) (by decide)

/-! ## 論理演算のループ -/

section Loops

variable {visit : Expr → M Sql} {v : Expr → Sql → Bool} {f : Expr → Bool}

/-- `e` を印字したものの真理値は `f e` である。 -/
def Prints (visit : Expr → M Sql) (v : Expr → Sql → Bool) (f : Expr → Bool) (e : Expr) : Prop :=
  ∀ s t s', visit e s = .ok (t, s') → t.truth v = f e ∧ Literal v t

/-- 残した出力をまとめたもの。 -/
theorem truth_connective (conj : Bool) (acc : List Sql) :
    ((if conj then Sql.and acc else .or acc).truth v = conj ↔ ∀ u ∈ acc, u.truth v = conj) ∧
      Literal v (if conj then Sql.and acc else .or acc) := by
  cases conj with
  | true =>
    simp only [if_true]
    exact ⟨by simp [Sql.truth], literal_and v acc⟩
  | false =>
    simp only [Bool.false_eq_true, if_false]
    exact ⟨by simp [Sql.truth], literal_or v acc⟩

/-- ループの出力が `conj` であるのは、残した出力も残りの operand もすべて `conj` のときである。 -/
theorem connectiveLoop_truth {conj : Bool} {es : List Expr} (hes : ∀ e ∈ es, Prints visit v f e) :
    ∀ {acc : List Sql} {s s' : PrinterState} {t : Sql}, (∀ u ∈ acc, Literal v u) →
    connectiveLoop visit conj es acc s = .ok (t, s') →
    (t.truth v = conj ↔ (∀ u ∈ acc, u.truth v = conj) ∧ ∀ e ∈ es, f e = conj) ∧ Literal v t := by
  induction es with
  | nil =>
    intro acc s s' t hacc h
    match acc with
    | [] =>
      obtain ⟨rfl, -⟩ := StateE.pure_eq_ok.mp h
      exact ⟨by simp [truth_bit], literal_bit v conj⟩
    | [u] =>
      obtain ⟨rfl, -⟩ := StateE.pure_eq_ok.mp h
      exact ⟨by simp, hacc _ List.mem_cons_self⟩
    | u :: u' :: rest =>
      obtain ⟨rfl, -⟩ := StateE.pure_eq_ok.mp h
      obtain ⟨htruth, hlit⟩ := truth_connective (v := v) conj (u :: u' :: rest)
      exact ⟨by simpa using htruth, hlit⟩
  | cons e rest ih =>
    intro acc s s' t hacc h
    obtain ⟨printed, s₁, he, h⟩ := StateE.bind_eq_ok.mp h
    obtain ⟨htruth, hlit⟩ := hes e List.mem_cons_self s printed s₁ he
    have hrest : ∀ e ∈ rest, Prints visit v f e := fun e' he' =>
      hes e' (List.mem_cons_of_mem _ he')
    split at h
    · next h0 =>
      -- 短絡。この operand だけで全体の値が決まる
      obtain ⟨rfl, -⟩ := StateE.pure_eq_ok.mp h
      have hfe : f e = !conj := by rw [← htruth]; exact hlit.truth_eq h0
      exact ⟨by simp [truth_bit, hfe], literal_bit v _⟩
    · split at h
      · next h1 =>
        have hfe : f e = conj := by rw [← htruth]; exact hlit.truth_eq h1
        obtain ⟨heq, hl⟩ := ih hrest hacc h
        exact ⟨by rw [heq]; simp [hfe], hl⟩
      · have hacc' : ∀ u ∈ acc ++ [printed], Literal v u := by
          intro u hu
          rcases List.mem_append.mp hu with hu | hu
          · exact hacc u hu
          · rw [List.mem_singleton.mp hu]; exact hlit
        obtain ⟨heq, hl⟩ := ih hrest hacc' h
        refine ⟨?_, hl⟩
        rw [heq, List.forall_mem_append, List.forall_mem_singleton, List.forall_mem_cons, htruth,
          and_assoc]

theorem visitConnective_truth {conj : Bool} {es : List Expr}
    (hes : ∀ e ∈ es, Prints visit v f e) {s s' : PrinterState} {t : Sql}
    (h : visitConnective visit conj es s = .ok (t, s')) :
    (t.truth v = conj ↔ ∀ e ∈ es, f e = conj) ∧ Literal v t := by
  match es with
  | [e] =>
    obtain ⟨htruth, hlit⟩ := hes e List.mem_cons_self s t s' h
    exact ⟨by simp [htruth], hlit⟩
  | [] => simpa using connectiveLoop_truth hes (fun _ h => by cases h) h
  | _ :: _ :: _ => simpa using connectiveLoop_truth hes (fun _ h => by cases h) h

end Loops

/-! ## 構文木の真理値 -/

mutual
/-- 構文木の真理値。論理演算でも論理定数でもない節の値は `w` が与える。 -/
def Expr.boolValue (w : Expr → Bool) : Expr → Bool
  | .and es => Expr.boolAll w es
  | .or es => Expr.boolAny w es
  | .not e => !e.boolValue w
  | .constant (.bool b) => b
  | e => w e

def Expr.boolAll (w : Expr → Bool) : List Expr → Bool
  | [] => true
  | e :: rest => e.boolValue w && Expr.boolAll w rest

def Expr.boolAny (w : Expr → Bool) : List Expr → Bool
  | [] => false
  | e :: rest => e.boolValue w || Expr.boolAny w rest
end

theorem Expr.boolAll_eq (w : Expr → Bool) (es : List Expr) :
    Expr.boolAll w es = es.all (Expr.boolValue w) := by
  induction es with
  | nil => rfl
  | cons e es ih => rw [Expr.boolAll, ih]; rfl

theorem Expr.boolAny_eq (w : Expr → Bool) (es : List Expr) :
    Expr.boolAny w es = es.any (Expr.boolValue w) := by
  induction es with
  | nil => rfl
  | cons e es ih => rw [Expr.boolAny, ih]; rfl

/-- 節への割り当て。論理定数には自分の値を与える。 -/
def assign (w : Expr → Bool) : Expr → Sql → Bool
  | .constant (.bool b), _ => b
  | e, _ => w e

/-- atom として印字される節。 -/
def Expr.IsAtom : Expr → Prop
  | .compare .. | .between .. | .tuple _ | .array _ | .constant (.bool _) => True
  | _ => False

mutual
/-- 論理演算の葉がすべて atom である。 -/
def Expr.AtomLeaves : Expr → Prop
  | .and es | .or es => Expr.AtomLeavesAll es
  | .not e => e.AtomLeaves
  | e => e.IsAtom

def Expr.AtomLeavesAll : List Expr → Prop
  | [] => True
  | e :: rest => e.AtomLeaves ∧ Expr.AtomLeavesAll rest
end

theorem Expr.atomLeavesAll_iff (es : List Expr) :
    Expr.AtomLeavesAll es ↔ ∀ e ∈ es, e.AtomLeaves := by
  induction es with
  | nil => simp [Expr.AtomLeavesAll]
  | cons e es ih => simp [Expr.AtomLeavesAll, ih]

/-! ## atom の印字 -/

/-- 比較の雛形は、閉じ括弧を印字するか、例外で終わる。 -/
theorem visitCompareOperation_closes (ctx : PrinterContext) (s : PrinterState) (op : CompareOp)
    (left right : Expr) :
    (∃ k, ')' ∈ k.toList ∧ Atom.text (.keyword k) ∈ visitCompareOperation ctx s op left right) ∨
      ∃ err, Atom.fail err ∈ visitCompareOperation ctx s op left right := by
  have hcall : ∀ before l middle r after, ')' ∈ after.toList →
      ∃ k, ')' ∈ k.toList ∧ Atom.text (.keyword k) ∈ compareCall before l middle r after :=
    fun before l middle r after h => ⟨after, h, by simp [compareCall, kw]⟩
  have hnull : ∀ equalsName nullName side column,
      ∃ k, ')' ∈ k.toList ∧
        Atom.text (.keyword k) ∈ compareNull equalsName nullName side column := by
    intro equalsName nullName side column
    refine ⟨")", by decide, ?_⟩
    unfold compareNull
    split <;> simp [kw]
  unfold visitCompareOperation
  cases op with
  | eq | notEq =>
    refine .inl ?_
    dsimp only
    split
    · exact hnull _ _ _ _
    · split
      · exact hnull _ _ _ _
      · exact hcall _ _ _ _ _ (by decide)
  | inCohort | notInCohort => exact .inr ⟨_, List.mem_append_right _ List.mem_cons_self⟩
  | _ => exact .inl (hcall _ _ _ _ _ (by decide))

/-- atom の出力は、論理定数を除いて、数字でない文字を含む。 -/
theorem atom_literal {ctx : PrinterContext} {fuel : Nat} {e : Expr} (he : e.IsAtom)
    (w : Expr → Bool) {s s' : PrinterState} {t : Sql}
    (h : visitNode ctx (visit ctx fuel) e s = .ok (t, s')) : Literal (assign w) (.node e t) := by
  have hmem : ∀ {tmpl : Template} {k : String} {c : Char}, Atom.text (.keyword k) ∈ tmpl →
      c ∈ k.toList → c ≠ '1' → c ≠ '0' → run (visit ctx fuel) tmpl s = .ok (t, s') →
      Literal (assign w) (.node e t) := by
    intro tmpl k c hk hc h1 h0 hr
    exact literal_of_mem (by rw [Sql.render]; exact mem_render_of_run hk hc hr) h1 h0
  cases e with
  | compare op left right =>
    obtain ⟨_, _, hs, h⟩ := StateE.bind_eq_ok.mp h
    obtain ⟨rfl, rfl⟩ := StateE.get_eq_ok.mp hs
    rcases visitCompareOperation_closes ctx s op left right with ⟨k, hk, hmemk⟩ | ⟨err, herr⟩
    · exact hmem hmemk hk (by decide) (by decide) h
    · obtain ⟨ts, hts, -⟩ := StateE.map_eq_ok.mp h
      exact absurd hts (runTemplate_fail herr)
  | between e low high negated =>
    obtain ⟨_, _, hs, h⟩ := StateE.bind_eq_ok.mp h
    obtain ⟨rfl, rfl⟩ := StateE.get_eq_ok.mp hs
    refine hmem (k := " BETWEEN ") (c := ' ') ?_ (by decide) (by decide) (by decide) h
    simp [exprTemplate, visitBetweenExpr, kw]
  | tuple es =>
    obtain ⟨_, _, hs, h⟩ := StateE.bind_eq_ok.mp h
    obtain ⟨rfl, rfl⟩ := StateE.get_eq_ok.mp hs
    refine hmem (k := ")") (c := ')') ?_ (by decide) (by decide) (by decide) h
    simp [exprTemplate, visitTuple, kw]
  | array es =>
    obtain ⟨_, _, hs, h⟩ := StateE.bind_eq_ok.mp h
    obtain ⟨rfl, rfl⟩ := StateE.get_eq_ok.mp hs
    refine hmem (k := "]") (c := ']') ?_ (by decide) (by decide) (by decide) h
    simp [exprTemplate, visitArray, kw]
  | constant value =>
    cases value with
    | bool b =>
      obtain ⟨_, _, hs, h⟩ := StateE.bind_eq_ok.mp h
      obtain ⟨rfl, rfl⟩ := StateE.get_eq_ok.mp hs
      cases b with
      | true =>
        cases h
        exact ⟨fun _ => rfl, fun h => absurd h (by decide)⟩
      | false =>
        cases h
        exact ⟨fun h => absurd h (by decide), fun _ => rfl⟩
    | _ => exact absurd he id
  | _ => exact absurd he id

/-! ## 構文木の印字 -/

/-- 節があれば、stack に積んで振り分け、stack を戻す。 -/
theorem visit_succ {ctx : PrinterContext} {fuel : Nat} {e : Expr} (he : e ≠ .absent) :
    visit ctx (fuel + 1) e =
      (modify (fun s => { s with stack := e :: s.stack }) >>= fun _ =>
        visitNode ctx (visit ctx fuel) e >>= fun response =>
          modify (fun s => { s with stack := s.stack.tail }) >>= fun _ =>
            pure (.node e response)) := by
  cases e <;> first | rfl | exact absurd rfl he

theorem visit_succ_eq_ok {ctx : PrinterContext} {fuel : Nat} {e : Expr} (he : e ≠ .absent)
    {s s' : PrinterState} {t : Sql} (h : visit ctx (fuel + 1) e s = .ok (t, s')) :
    ∃ u s₁, visitNode ctx (visit ctx fuel) e { s with stack := e :: s.stack } = .ok (u, s₁) ∧
      t = .node e u ∧ s' = { s₁ with stack := s₁.stack.tail } := by
  rw [visit_succ he] at h
  obtain ⟨_, s₀, hpush, h⟩ := StateE.bind_eq_ok.mp h
  rw [StateE.modify_eq_ok] at hpush
  subst hpush
  obtain ⟨u, s₁, hu, h⟩ := StateE.bind_eq_ok.mp h
  obtain ⟨_, s₂, hpop, h⟩ := StateE.bind_eq_ok.mp h
  rw [StateE.modify_eq_ok] at hpop
  subst hpop
  obtain ⟨rfl, rfl⟩ := StateE.pure_eq_ok.mp h
  exact ⟨u, s₁, hu, rfl, rfl⟩

/-- 論理演算の葉が atom なら、印字したものの真理値は構文木の真理値である。 -/
theorem visit_truth (ctx : PrinterContext) (w : Expr → Bool) (fuel : Nat) :
    ∀ e : Expr, e.AtomLeaves → Prints (visit ctx fuel) (assign w) (Expr.boolValue w) e := by
  induction fuel with
  | zero => intro e _ s t s' h; cases h
  | succ fuel ih =>
    intro e he s t s' h
    have hne : e ≠ .absent := by rintro rfl; exact he
    obtain ⟨u, s₁, hu, rfl, -⟩ := visit_succ_eq_ok hne h
    have hoperands : ∀ es : List Expr, Expr.AtomLeavesAll es →
        ∀ e ∈ es, Prints (visit ctx fuel) (assign w) (Expr.boolValue w) e := fun es hes e hmem =>
      ih e ((Expr.atomLeavesAll_iff es).mp hes e hmem)
    cases e with
    | and es =>
      obtain ⟨htruth, hlit⟩ := visitConnective_truth (hoperands es he) hu
      refine ⟨?_, hlit⟩
      show u.truth (assign w) = Expr.boolAll w es
      rw [Expr.boolAll_eq, Bool.eq_iff_iff, List.all_eq_true]
      exact htruth
    | or es =>
      obtain ⟨htruth, hlit⟩ := visitConnective_truth (hoperands es he) hu
      refine ⟨?_, hlit⟩
      show u.truth (assign w) = Expr.boolAny w es
      have hfalse : u.truth (assign w) = false ↔ es.any (Expr.boolValue w) = false := by
        rw [htruth]
        simp
      rw [Expr.boolAny_eq, Bool.eq_iff_iff]
      exact not_iff_not.mp (by simpa using hfalse)
    | not e =>
      obtain ⟨r, hr, rfl⟩ := StateE.map_eq_ok.mp hu
      obtain ⟨htruth, -⟩ := ih e he _ r s₁ hr
      refine ⟨?_, literal_not _ r⟩
      show (!r.truth (assign w)) = !e.boolValue w
      rw [htruth]
    | constant value =>
      refine ⟨?_, atom_literal he w hu⟩
      cases value with
      | bool b => rfl
      | _ => exact absurd he id
    | compare | between | tuple | array => exact ⟨rfl, atom_literal he w hu⟩
    | _ => exact absurd he id

/-! ## 変換 -/

theorem ColumnExpr.convert_core : ∀ e : ColumnExpr, e.core.convert = e.convert
  | .parens e => ColumnExpr.convert_core e
  | .and .. | .or .. | .not _ | .compare .. | .between .. | .isNull .. | .tuple _ | .array _
  | .bool _ | .other _ => rfl

theorem ColumnExpr.core_ne_parens : ∀ e e' : ColumnExpr, e.core ≠ .parens e'
  | .parens e, e' => ColumnExpr.core_ne_parens e e'
  | .and .., _ | .or .., _ | .not _, _ | .compare .., _ | .between .., _ | .isNull .., _
  | .tuple _, _ | .array _, _ | .bool _, _ | .other _, _ => nofun

/-- AND に取り込まれる operand は、And か、`exprs` を持たない節である。 -/
theorem ColumnExpr.AndOperand.cases {e : ColumnExpr} (h : e.AndOperand) :
    (∃ es, e.convert = .and es) ∨ e.convert.exprs? = none := by
  rw [← ColumnExpr.convert_core]
  unfold ColumnExpr.AndOperand at h
  cases hc : e.core with
  | and left right => exact .inl ⟨_, rfl⟩
  | parens e' => exact absurd hc (ColumnExpr.core_ne_parens e e')
  | other e' => rw [hc] at h; exact .inr h
  | or | tuple | array => rw [hc] at h; exact absurd h id
  | _ => exact .inr rfl

/-- OR に取り込まれる operand は、Or か、`exprs` を持たない節である。 -/
theorem ColumnExpr.OrOperand.cases {e : ColumnExpr} (h : e.OrOperand) :
    (∃ es, e.convert = .or es) ∨ e.convert.exprs? = none := by
  rw [← ColumnExpr.convert_core]
  unfold ColumnExpr.OrOperand at h
  cases hc : e.core with
  | or left right => exact .inl ⟨_, rfl⟩
  | parens e' => exact absurd hc (ColumnExpr.core_ne_parens e e')
  | other e' => rw [hc] at h; exact .inr h
  | and | tuple | array => rw [hc] at h; exact absurd h id
  | _ => exact .inr rfl

theorem Expr.operands_eq {e : Expr} (h : e.exprs? = none) : e.operands = [e] := by
  unfold Expr.operands
  rw [h]
  rfl

theorem ColumnExpr.AndOperand.all {e : ColumnExpr} (h : e.AndOperand) (w : Expr → Bool) :
    e.convert.operands.all (Expr.boolValue w) = e.convert.boolValue w := by
  rcases h.cases with ⟨es, hes⟩ | hnone
  · rw [hes, Expr.boolValue, Expr.boolAll_eq]
    rfl
  · rw [Expr.operands_eq hnone]
    simp

theorem ColumnExpr.OrOperand.any {e : ColumnExpr} (h : e.OrOperand) (w : Expr → Bool) :
    e.convert.operands.any (Expr.boolValue w) = e.convert.boolValue w := by
  rcases h.cases with ⟨es, hes⟩ | hnone
  · rw [hes, Expr.boolValue, Expr.boolAny_eq]
    rfl
  · rw [Expr.operands_eq hnone]
    simp

/-- 混ざった入れ子が無ければ、変換は真理値を保つ。 -/
theorem ColumnExpr.boolValue_convert (w : Expr → Bool) :
    ∀ p : ColumnExpr, p.IsCondition → p.Unmixed → p.convert.boolValue w = p.eval w
  | .and left right, hp, ⟨hl, hr, hul, hur⟩ => by
    rw [ColumnExpr.convert, Expr.boolValue, Expr.boolAll_eq, List.all_append, hl.all, hr.all,
      ColumnExpr.boolValue_convert w left hp.1 hul, ColumnExpr.boolValue_convert w right hp.2 hur]
    rfl
  | .or left right, hp, ⟨hl, hr, hul, hur⟩ => by
    rw [ColumnExpr.convert, Expr.boolValue, Expr.boolAny_eq, List.any_append, hl.any, hr.any,
      ColumnExpr.boolValue_convert w left hp.1 hul, ColumnExpr.boolValue_convert w right hp.2 hur]
    rfl
  | .not e, hp, hu => by
    rw [ColumnExpr.convert, Expr.boolValue, ColumnExpr.boolValue_convert w e hp hu]
    rfl
  | .parens e, hp, hu => ColumnExpr.boolValue_convert w e hp hu
  | .compare .., _, _ | .between .., _, _ | .isNull .., _, _ | .tuple _, _, _ | .array _, _, _
  | .bool _, _, _ => rfl

/-- 取り込まれた operand の葉も atom である。 -/
theorem atomLeaves_operands {e : Expr} (he : e.AtomLeaves)
    (h : (∃ es, e = .and es ∨ e = .or es) ∨ e.exprs? = none) : ∀ o ∈ e.operands, o.AtomLeaves := by
  rcases h with ⟨es, rfl | rfl⟩ | hnone
  · exact (Expr.atomLeavesAll_iff es).mp he
  · exact (Expr.atomLeavesAll_iff es).mp he
  · rw [Expr.operands_eq hnone]
    simpa using he

theorem ColumnExpr.atomLeaves_convert :
    ∀ p : ColumnExpr, p.IsCondition → p.Unmixed → p.convert.AtomLeaves
  | .and left right, hp, ⟨hl, hr, hul, hur⟩ => by
    have hleft := atomLeaves_operands (ColumnExpr.atomLeaves_convert left hp.1 hul)
      (hl.cases.imp_left fun ⟨es, h⟩ => ⟨es, .inl h⟩)
    have hright := atomLeaves_operands (ColumnExpr.atomLeaves_convert right hp.2 hur)
      (hr.cases.imp_left fun ⟨es, h⟩ => ⟨es, .inl h⟩)
    exact (Expr.atomLeavesAll_iff _).mpr (List.forall_mem_append.mpr ⟨hleft, hright⟩)
  | .or left right, hp, ⟨hl, hr, hul, hur⟩ => by
    have hleft := atomLeaves_operands (ColumnExpr.atomLeaves_convert left hp.1 hul)
      (hl.cases.imp_left fun ⟨es, h⟩ => ⟨es, .inr h⟩)
    have hright := atomLeaves_operands (ColumnExpr.atomLeaves_convert right hp.2 hur)
      (hr.cases.imp_left fun ⟨es, h⟩ => ⟨es, .inr h⟩)
    exact (Expr.atomLeavesAll_iff _).mpr (List.forall_mem_append.mpr ⟨hleft, hright⟩)
  | .not e, hp, hu => ColumnExpr.atomLeaves_convert e hp hu
  | .parens e, hp, hu => ColumnExpr.atomLeaves_convert e hp hu
  | .compare .., _, _ | .between .., _, _ | .isNull .., _, _ | .tuple _, _, _ | .array _, _, _
  | .bool _, _, _ => trivial

/-- **混ざった入れ子の無い条件は、印字しても真理値が変わらない。** 印字が成功すれば、出力の真理値は
parse tree の真理値である。 -/
theorem printed_condition_truth (ctx : PrinterContext) (fuel : Nat) (p : ColumnExpr)
    (hp : p.IsCondition) (hu : p.Unmixed) {s s' : PrinterState} {t : Sql}
    (h : visit ctx fuel p.convert s = .ok (t, s')) (w : Expr → Bool) :
    t.truth (assign w) = p.eval w := by
  rw [← ColumnExpr.boolValue_convert w p hp hu]
  exact (visit_truth ctx w fuel p.convert (ColumnExpr.atomLeaves_convert p hp hu) s t s' h).1

/-! ## 平らにする変換の誤り -/

/-- 数の等式 `n = n`。 -/
def numberEquation (n : Nat) : ColumnExpr :=
  .compare .eq (.other (.constant (.number (.int n)))) (.other (.constant (.number (.int n))))

/-- table を持たない context。 -/
def emptyContext : PrinterContext := { tables := Infra.Record.empty, toLowerCase := id }

/-- `1 = 1 AND (2 = 2 AND NOT (3 = 3 OR TRUE))`。 -/
def unmixedSample : ColumnExpr :=
  .and (numberEquation 1)
    (.parens (.and (numberEquation 2) (.not (.parens (.or (numberEquation 3) (.bool true))))))

theorem printed_condition_truth_sample :
    ∃ t s', visit emptyContext 9 unmixedSample.convert {} = .ok (t, s') ∧
      t.render = "and(equals(1, 1), equals(2, 2), not(1))" ∧
      ∀ w, t.truth (assign w) = unmixedSample.eval w :=
  ⟨_, _, rfl, by decide +kernel, printed_condition_truth emptyContext 9 unmixedSample
    (by simp [unmixedSample, ColumnExpr.IsCondition, numberEquation, ColumnExpr.IsAtom])
    (by simp [unmixedSample, ColumnExpr.Unmixed, ColumnExpr.AndOperand, ColumnExpr.OrOperand,
      ColumnExpr.core, numberEquation]) rfl⟩

/-- `1 = 1 OR 2 = 2 AND 3 = 3`。 -/
def mixedSample : ColumnExpr :=
  .or (numberEquation 1) (.and (numberEquation 2) (numberEquation 3))

/-- 二番目の比較だけが真である割り当て。 -/
def onlySecond : Expr → Bool
  | .compare _ (.constant (.number n)) _ => n = .int 2
  | _ => false

/-- `or(…, …, …)` と印字され、二番目だけが真のとき値が変わる。 -/
theorem printed_condition_differs :
    mixedSample.IsCondition ∧
      ∃ t s', visit emptyContext 9 mixedSample.convert {} = .ok (t, s') ∧
        t.render = "or(equals(1, 1), equals(2, 2), equals(3, 3))" ∧
        ∃ w, t.truth (assign w) ≠ mixedSample.eval w :=
  ⟨by simp [mixedSample, ColumnExpr.IsCondition, numberEquation, ColumnExpr.IsAtom],
    _, _, rfl, by decide +kernel, onlySecond, by decide⟩

end Tsql
