import Mathlib.Data.List.Basic

/-!
# 例外の後も状態の残る計算

`async` の method は、途中で例外を投げても、それまでの書き込みを取り消さない。これを `ExceptT ε (StateM σ)` で表し、
事前条件 `pre`、正常に終わったときの事後条件 `post`、例外で終わったときの条件 `fail` の組を扱う。
-/

namespace Infra

/-- 例外 `ε` を投げても状態 `σ` の残る計算。 -/
abbrev Task (σ ε : Type) := ExceptT ε (StateM σ)

variable {σ ε α β γ : Type}

/-- 結果と、終わりの状態。 -/
def Task.result (m : Task σ ε α) (s : σ) : Except ε α × σ := m.run.run s

@[simp] theorem Task.result_pure (a : α) (s : σ) : (pure a : Task σ ε α).result s = (.ok a, s) := rfl

theorem Task.result_bind (x : Task σ ε α) (f : α → Task σ ε β) (s : σ) :
    (x >>= f).result s =
      match x.result s with
      | (.ok a, s') => (f a).result s'
      | (.error e, s') => (.error e, s') := by
  show (ExceptT.bindCont f (x.result s).1).run (x.result s).2 = _
  rcases x.result s with ⟨_ | a, s'⟩ <;> rfl

/-- `pre` から始めた `m` は、正常に終われば `post`、例外で終われば `fail` になる。 -/
def Triple (pre : σ → Prop) (m : Task σ ε α) (post : α → σ → Prop) (fail : σ → Prop) : Prop :=
  ∀ s, pre s →
    match m.result s with
    | (.ok a, s') => post a s'
    | (.error _, s') => fail s'

namespace Triple

variable {pre fail : σ → Prop} {post : α → σ → Prop} {post₂ : β → σ → Prop}

theorem pure {a : α} (h : ∀ s, pre s → post a s) : Triple pre (pure a : Task σ ε α) post fail := h

theorem throw {e : ε} (h : ∀ s, pre s → fail s) : Triple pre (throw e : Task σ ε α) post fail := h

theorem bind {x : Task σ ε α} {f : α → Task σ ε β} (hx : Triple pre x post fail)
    (hf : ∀ a, Triple (post a) (f a) post₂ fail) : Triple pre (x >>= f) post₂ fail := by
  intro s hs
  have hx := hx s hs
  rw [Task.result_bind]
  rcases hr : x.result s with ⟨_ | a, s'⟩ <;> rw [hr] at hx
  · exact hx
  · exact hf a s' hx

/-- 事前条件を、ここから先で使うものに置き換える。 -/
theorem strengthen (pre' : σ → Prop) {m : Task σ ε α} (hpre : ∀ s, pre s → pre' s)
    (h : Triple pre' m post fail) : Triple pre m post fail := fun s hs => h s (hpre s hs)

theorem get : Triple pre (get : Task σ ε σ) (fun a s => a = s ∧ pre s) fail := fun _ hs => ⟨rfl, hs⟩

theorem modify {post : σ → Prop} {g : σ → σ} (h : ∀ s, pre s → post (g s)) :
    Triple pre (modify g : Task σ ε PUnit) (fun _ => post) fail := h

theorem ite {p : Prop} [Decidable p] {x y : Task σ ε α} (hx : p → Triple pre x post fail)
    (hy : ¬ p → Triple pre y post fail) : Triple pre (if p then x else y) post fail := by
  split
  · next h => exact hx h
  · next h => exact hy h

/-- 続ける各計算が同じ条件を保てば、全体も保つ。 -/
theorem mapM {f : γ → Task σ ε α} {l : List γ}
    (hf : ∀ c ∈ l, Triple pre (f c) (fun _ => pre) fail) :
    Triple pre (l.mapM f) (fun _ => pre) fail := by
  induction l with
  | nil =>
    rw [List.mapM_nil]
    exact pure fun _ hs => hs
  | cons c l ih =>
    rw [List.mapM_cons]
    refine bind (hf c List.mem_cons_self) fun a => ?_
    refine bind (ih fun c' hc' => hf c' (List.mem_cons_of_mem _ hc')) fun as => ?_
    exact pure fun _ hs => hs

/-- 例外も正常な終わりも同じ条件になる計算は、状態だけを見ればよい。 -/
theorem result_snd {m : Task σ ε α} (h : Triple pre m (fun _ => fail) fail) {s : σ} (hs : pre s) :
    fail (m.result s).2 := by
  have h := h s hs
  rcases hr : m.result s with ⟨_ | a, s'⟩ <;> rw [hr] at h <;> exact h

end Triple

end Infra
