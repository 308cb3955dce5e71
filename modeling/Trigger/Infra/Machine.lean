import Mathlib.Logic.Basic

/-!
# label 付き状態機械の実行

一歩を関数 `step` で表した状態機械について、実行の全体に関する性質を一歩の性質から導く規則を集める。

* `Along.invariant` — 一歩ごとの条件の下で保たれる述語は、実行の後にも成り立つ
* `throughout_of_along` — 同じ仮定から、途中のどの状態でも成り立つ
* `throughout_iff_along` — 一歩が述語を保つのが条件と同値なら、実行全体でも同値である
* `forever_iff_along` — `P` になった後の状態がずっと `R` で結ばれることと、一歩ごとの条件の同値
* `until_of_along` — 決まった一歩が来るまで `K` が続き、その一歩が `R` をもたらす
-/

namespace Infra.Machine

variable {σ ℓ : Type} (step : σ → ℓ → σ)

/-- label の列を順に実行した状態。 -/
def exec (s : σ) (ls : List ℓ) : σ := ls.foldl step s

/-- 列のどの一歩も、その直前の状態で条件 `C` を満たす。 -/
def Along (C : σ → ℓ → Prop) : σ → List ℓ → Prop
  | _, [] => True
  | s, l :: ls => C s l ∧ Along C (step s l) ls

/-- 最初の状態と、各一歩の後の状態がすべて `K` を満たす。 -/
def Throughout (K : σ → Prop) : σ → List ℓ → Prop
  | s, [] => K s
  | s, l :: ls => K s ∧ Throughout K (step s l) ls

instance decidableAlong {C : σ → ℓ → Prop} [∀ s l, Decidable (C s l)] :
    ∀ (s : σ) (ls : List ℓ), Decidable (Along step C s ls)
  | _, [] => isTrue trivial
  | s, l :: ls => @instDecidableAnd _ _ _ (decidableAlong (step s l) ls)

instance decidableThroughout {K : σ → Prop} [DecidablePred K] :
    ∀ (s : σ) (ls : List ℓ), Decidable (Throughout step K s ls)
  | s, [] => inferInstanceAs (Decidable (K s))
  | s, l :: ls => @instDecidableAnd _ _ _ (decidableThroughout (step s l) ls)

variable {step} {s : σ} {C : σ → ℓ → Prop} {I K : σ → Prop}

@[simp] theorem exec_nil : exec step s [] = s := rfl

@[simp] theorem exec_cons (l : ℓ) (ls : List ℓ) : exec step s (l :: ls) = exec step (step s l) ls :=
  rfl

theorem exec_append (ls ls' : List ℓ) : exec step s (ls ++ ls') = exec step (exec step s ls) ls' :=
  List.foldl_append

theorem Along.append {ls ls' : List ℓ} : Along step C s (ls ++ ls') ↔
    Along step C s ls ∧ Along step C (exec step s ls) ls' := by
  induction ls generalizing s with
  | nil => exact ⟨fun h => ⟨trivial, h⟩, fun h => h.2⟩
  | cons l ls ih =>
    rw [List.cons_append]
    refine ⟨fun h => ?_, fun h => ⟨h.1.1, ih.mpr ⟨h.1.2, h.2⟩⟩⟩
    obtain ⟨hfirst, hrest⟩ := ih.mp h.2
    exact ⟨⟨h.1, hfirst⟩, hrest⟩

theorem Along.mono {C' : σ → ℓ → Prop} (hC : ∀ s l, C s l → C' s l) :
    ∀ {s : σ} {ls : List ℓ}, Along step C s ls → Along step C' s ls
  | _, [], _ => trivial
  | _, _ :: _, h => ⟨hC _ _ h.1, Along.mono hC h.2⟩

/-- label だけで決まる条件。 -/
theorem Along.of_mem : ∀ {s : σ} {ls : List ℓ}, (∀ l ∈ ls, ∀ s, C s l) → Along step C s ls
  | _, [], _ => trivial
  | s, l :: _, h =>
    ⟨h l List.mem_cons_self s, Along.of_mem fun l' hl' => h l' (List.mem_cons_of_mem l hl')⟩

theorem Along.and {C' : σ → ℓ → Prop} :
    ∀ {s : σ} {ls : List ℓ}, Along step C s ls → Along step C' s ls →
      Along step (fun s l => C s l ∧ C' s l) s ls
  | _, [], _, _ => trivial
  | _, _ :: _, h, h' => ⟨⟨h.1, h'.1⟩, Along.and h.2 h'.2⟩

theorem Throughout.last {ls : List ℓ} (h : Throughout step K s ls) : K (exec step s ls) := by
  induction ls generalizing s with
  | nil => exact h
  | cons l ls ih => exact ih h.2

theorem Throughout.mono {K' : σ → Prop} (hK : ∀ s, K s → K' s) :
    ∀ {s : σ} {ls : List ℓ}, Throughout step K s ls → Throughout step K' s ls
  | _, [], h => hK _ h
  | _, _ :: _, h => ⟨hK _ h.1, Throughout.mono hK h.2⟩

/-- 条件の下で一歩が述語を保つなら、途中のどの状態でも述語が成り立つ。 -/
theorem throughout_of_along (hstep : ∀ s l, I s → C s l → I (step s l)) :
    ∀ {s : σ} {ls : List ℓ}, I s → Along step C s ls → Throughout step I s ls
  | _, [], hs, _ => hs
  | _, _ :: _, hs, h => ⟨hs, throughout_of_along hstep (hstep _ _ hs h.1) h.2⟩

theorem Along.invariant (hstep : ∀ s l, I s → C s l → I (step s l)) {ls : List ℓ} (hs : I s)
    (h : Along step C s ls) : I (exec step s ls) := (throughout_of_along hstep hs h).last

/-- 不変条件と一歩の条件から言えることは、どの一歩についても言える。 -/
theorem Along.of_invariant {D : σ → ℓ → Prop} (hstep : ∀ s l, I s → C s l → I (step s l))
    (hD : ∀ s l, I s → C s l → D s l) :
    ∀ {s : σ} {ls : List ℓ}, I s → Along step C s ls → Along step D s ls
  | _, [], _, _ => trivial
  | s, l :: _, hs, h => ⟨hD s l hs h.1, Along.of_invariant hstep hD (hstep s l hs h.1) h.2⟩

/-- 無条件に保たれる述語。 -/
theorem throughout_of_step (hstep : ∀ s l, I s → I (step s l)) :
    ∀ {s : σ} {ls : List ℓ}, I s → Throughout step I s ls
  | _, [], hs => hs
  | _, _ :: _, hs => ⟨hs, throughout_of_step hstep (hstep _ _ hs)⟩

theorem exec_invariant (hstep : ∀ s l, I s → I (step s l)) {ls : List ℓ} (hs : I s) :
    I (exec step s ls) := (throughout_of_step hstep hs).last

/--
前提 `D` の下で、`I` は一歩で保たれ、`I` と `K` の下では一歩が `K` を保つことと条件 `C` が同値だとする。
このとき、どの一歩も前提を満たす実行では、`K` が実行の間ずっと成り立つことと、どの一歩も `C` を満たすことは同値である。
-/
theorem throughout_iff_along_of {D : σ → ℓ → Prop} (hI : ∀ s l, I s → D s l → I (step s l))
    (hstep : ∀ s l, I s → D s l → K s → (K (step s l) ↔ C s l)) :
    ∀ {s : σ} {ls : List ℓ}, Along step D s ls → I s → K s →
      (Throughout step K s ls ↔ Along step C s ls)
  | _, [], _, _, hk => ⟨fun _ => trivial, fun _ => hk⟩
  | s, l :: ls, hd, hi, hk => by
    constructor
    · intro h
      have hnext : K (step s l) := by
        cases ls with
        | nil => exact h.2
        | cons => exact h.2.1
      refine ⟨(hstep s l hi hd.1 hk).mp hnext, ?_⟩
      exact (throughout_iff_along_of hI hstep hd.2 (hI s l hi hd.1) hnext).mp h.2
    · intro h
      have hnext : K (step s l) := (hstep s l hi hd.1 hk).mpr h.1
      refine ⟨hk, ?_⟩
      exact (throughout_iff_along_of hI hstep hd.2 (hI s l hi hd.1) hnext).mpr h.2

/-- 前提の要らない形。 -/
theorem throughout_iff_along (hI : ∀ s l, I s → I (step s l))
    (hstep : ∀ s l, I s → K s → (K (step s l) ↔ C s l)) {ls : List ℓ} (hi : I s) (hk : K s) :
    Throughout step K s ls ↔ Along step C s ls :=
  throughout_iff_along_of (D := fun _ _ => True) (fun s l hs _ => hI s l hs)
    (fun s l hs _ => hstep s l hs) (Along.of_mem fun _ _ _ => trivial) hi hk

/-! ## 一度起きたことが続く -/

/-- 実行の途中で `P` になった状態と、それより後のどの状態も `R` で結ばれる。 -/
def Forever (step : σ → ℓ → σ) (P : σ → Prop) (R : σ → σ → Prop) (s : σ) (ls : List ℓ) : Prop :=
  ∀ pre mid post, ls = pre ++ mid ++ post → P (exec step s pre) →
    R (exec step s pre) (exec step s (pre ++ mid))

section Forever

variable {P : σ → Prop} {R : σ → σ → Prop}

theorem Forever.tail {l : ℓ} {ls : List ℓ} (h : Forever step P R s (l :: ls)) :
    Forever step P R (step s l) ls := by
  intro pre mid post hls hp
  subst hls
  exact h (l :: pre) mid post rfl hp

theorem Forever.head {l : ℓ} {ls : List ℓ} (h : Forever step P R s (l :: ls)) (hp : P s) :
    R s (step s l) := h [] [l] ls rfl hp

/-- 条件の下の一歩が `R` を満たすなら、`P` の状態から先の実行も `R` を満たす。 -/
theorem Along.related (hrefl : ∀ s, I s → P s → R s s) (htrans : ∀ {a b c}, R a b → R b c → R a c)
    (hP : ∀ {a b}, R a b → P a → P b) (hI : ∀ s l, I s → (P s → C s l) → I (step s l))
    (hstep : ∀ s l, I s → P s → C s l → R s (step s l)) :
    ∀ {s : σ} {ls : List ℓ}, I s → P s → Along step (fun s l => P s → C s l) s ls →
      R s (exec step s ls)
  | s, [], hi, hp, _ => hrefl s hi hp
  | s, l :: _, hi, hp, h => by
    have hfirst : R s (step s l) := hstep s l hi hp (h.1 hp)
    exact htrans hfirst
      (Along.related hrefl htrans hP hI hstep (hI s l hi h.1) (hP hfirst hp) h.2)

/--
`P` の状態からの一歩が `R` を満たすことと条件 `C` が同値なら、`P` になった後ずっと `R` が続くことと、
`P` の状態からのどの一歩も `C` を満たすことは同値である。不変条件 `I` は条件の下で保たれればよい。
-/
theorem forever_iff_along (hrefl : ∀ s, I s → P s → R s s) (htrans : ∀ {a b c}, R a b → R b c → R a c)
    (hP : ∀ {a b}, R a b → P a → P b) (hI : ∀ s l, I s → (P s → C s l) → I (step s l))
    (hstep : ∀ s l, I s → P s → (R s (step s l) ↔ C s l)) {ls : List ℓ} (hs : I s) :
    Forever step P R s ls ↔ Along step (fun s l => P s → C s l) s ls := by
  constructor
  · intro h
    induction ls generalizing s with
    | nil => trivial
    | cons l ls ih =>
      have hfirst : P s → C s l := fun hp => (hstep s l hs hp).mp (h.head hp)
      exact ⟨hfirst, ih (hI s l hs hfirst) h.tail⟩
  · intro h pre mid post hls hp
    rw [hls, List.append_assoc, Along.append, Along.append] at h
    have hpre : I (exec step s pre) := Along.invariant hI hs h.1
    rw [exec_append]
    exact Along.related hrefl htrans hP hI (fun s l hi hp => (hstep s l hi hp).mpr) hpre hp h.2.1

end Forever

/-! ## 決まった一歩が来るまで -/

/-- `E` の一歩が来るまで `K` が続き、最初に来た `E` の一歩の後の状態は `R` を満たす。 -/
def Until (step : σ → ℓ → σ) (K : σ → Prop) (E : σ → ℓ → Bool) (R : σ → Prop) : σ → List ℓ → Prop
  | s, [] => K s
  | s, l :: ls => K s ∧ if E s l then R (step s l) else Until step K E R (step s l) ls

section Until

variable {E : σ → ℓ → Bool} {R : σ → Prop}

/-- 条件の下の `E` の一歩は `R` をもたらし、ほかの一歩は `K` を保つ。 -/
theorem until_of_along (hE : ∀ s l, K s → C s l → E s l = true → R (step s l))
    (hkeep : ∀ s l, K s → C s l → E s l = false → K (step s l)) :
    ∀ {s : σ} {ls : List ℓ}, K s → Along step C s ls → Until step K E R s ls
  | _, [], hs, _ => hs
  | s, l :: ls, hs, h => by
    refine ⟨hs, ?_⟩
    split
    · next he => exact hE s l hs h.1 he
    · next he =>
      exact until_of_along hE hkeep (hkeep s l hs h.1 (Bool.eq_false_iff.mpr he)) h.2

/-- `E` の一歩があれば、途中の状態で `R` が成り立つ。 -/
theorem Until.reached_or_along : ∀ {s : σ} {ls : List ℓ}, Until step K E R s ls →
    (∃ pre, pre <+: ls ∧ R (exec step s pre)) ∨ Along step (fun s l => E s l = false) s ls
  | _, [], _ => .inr trivial
  | s, l :: ls, h => by
    obtain ⟨-, h⟩ := h
    split at h
    · exact .inl ⟨[l], ⟨ls, rfl⟩, h⟩
    · next he =>
      rcases Until.reached_or_along h with ⟨pre, ⟨post, hpre⟩, hR⟩ | hfree
      · exact .inl ⟨l :: pre, ⟨post, by rw [List.cons_append, hpre]⟩, hR⟩
      · exact .inr ⟨Bool.eq_false_iff.mpr he, hfree⟩

end Until

end Infra.Machine
