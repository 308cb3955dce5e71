import Mathlib.Data.List.Basic

/-!
# 例外つきの状態 monad

`StateT σ (Except ε)` の計算について、成功した計算の分解（`…_eq_ok`）と、前後の状態の関係と結果の性質を
合わせた仕様（`Spec`）。仕様は `bind`・`map`・`mapM` で合成できる。
-/

namespace Infra

/-- 例外 `ε` つきの、状態 `σ` の計算。 -/
abbrev StateE (σ ε : Type) := StateT σ (Except ε)

variable {σ ε α β γ : Type}

namespace StateE

/-! ## 成功した計算 -/

theorem bind_eq_ok {x : StateE σ ε α} {f : α → StateE σ ε β} {s s' : σ} {b : β} :
    (x >>= f) s = .ok (b, s') ↔ ∃ a s₁, x s = .ok (a, s₁) ∧ f a s₁ = .ok (b, s') := by
  show (x s >>= fun p => f p.1 p.2) = .ok (b, s') ↔ _
  cases x s with
  | error e => simp [bind, Except.bind]
  | ok p =>
    obtain ⟨a, s₁⟩ := p
    simp [bind, Except.bind]

theorem map_eq_ok {x : StateE σ ε α} {f : α → β} {s s' : σ} {b : β} :
    (f <$> x) s = .ok (b, s') ↔ ∃ a, x s = .ok (a, s') ∧ f a = b := by
  rw [map_eq_pure_bind, bind_eq_ok]
  constructor
  · rintro ⟨a, s₁, hx, h⟩
    cases h
    exact ⟨a, hx, rfl⟩
  · rintro ⟨a, hx, rfl⟩
    exact ⟨a, s', hx, rfl⟩

theorem pure_eq_ok {a b : α} {s s' : σ} :
    (pure a : StateE σ ε α) s = .ok (b, s') ↔ a = b ∧ s = s' := by
  show Except.ok (a, s) = .ok (b, s') ↔ _
  simp

theorem get_eq_ok {a s s' : σ} : (get : StateE σ ε σ) s = .ok (a, s') ↔ s = a ∧ s = s' := by
  show Except.ok (s, s) = .ok (a, s') ↔ _
  simp

theorem modify_eq_ok {f : σ → σ} {u : PUnit} {s s' : σ} :
    (modify f : StateE σ ε PUnit) s = .ok (u, s') ↔ f s = s' := by
  show Except.ok (PUnit.unit, f s) = .ok (u, s') ↔ _
  simp

end StateE

/-! ## 仕様 -/

/-- `I` を満たす状態から成功した `m` は、前後の状態が `F` で、結果が `Q` である。 -/
def Spec (I : σ → Prop) (F : σ → σ → Prop) (Q : α → Prop) (m : StateE σ ε α) : Prop :=
  ∀ s a s', I s → m s = .ok (a, s') → F s s' ∧ Q a

/-- 関係が反射的・推移的で、`I` を保つ。 -/
structure Stable (I : σ → Prop) (F : σ → σ → Prop) : Prop where
  refl : ∀ s, F s s
  trans : ∀ {s₁ s₂ s₃}, F s₁ s₂ → F s₂ s₃ → F s₁ s₃
  keep : ∀ {s s'}, I s → F s s' → I s'

namespace Spec

variable {I : σ → Prop} {F G : σ → σ → Prop} {Q Q' : α → Prop} {R : β → Prop}

theorem mono {m : StateE σ ε α} (h : Spec I F Q m) (hF : ∀ s s', F s s' → G s s')
    (hQ : ∀ a, Q a → Q' a) : Spec I G Q' m :=
  fun s a s' hs hm => ⟨hF s s' (h s a s' hs hm).1, hQ a (h s a s' hs hm).2⟩

theorem throw (e : ε) : Spec I F Q (throw e : StateE σ ε α) := fun _ _ _ _ h => by cases h

/-- 状態を読んでから続ける。 -/
theorem get {f : σ → StateE σ ε β} (hf : ∀ s, I s → Spec I F R (f s)) :
    Spec I F R (get >>= f) := by
  intro s b s' hs hm
  obtain ⟨_, _, hg, hb⟩ := StateE.bind_eq_ok.mp hm
  obtain ⟨rfl, rfl⟩ := StateE.get_eq_ok.mp hg
  exact hf s hs s b s' hs hb

theorem modify {g : σ → σ} (hg : ∀ s, I s → F s (g s)) :
    Spec I F (fun _ => True) (modify g : StateE σ ε PUnit) := by
  intro s a s' hs hm
  rw [StateE.modify_eq_ok] at hm
  subst hm
  exact ⟨hg s hs, trivial⟩

variable (hF : Stable I F)
include hF

theorem pure {a : α} (h : Q a) : Spec I F Q (pure a : StateE σ ε α) := by
  intro s b s' _ hm
  obtain ⟨rfl, rfl⟩ := StateE.pure_eq_ok.mp hm
  exact ⟨hF.refl s, h⟩

theorem bind {x : StateE σ ε α} {f : α → StateE σ ε β} (hx : Spec I F Q x)
    (hf : ∀ a, Q a → Spec I F R (f a)) : Spec I F R (x >>= f) := by
  intro s b s' hs hm
  obtain ⟨a, s₁, ha, hb⟩ := StateE.bind_eq_ok.mp hm
  obtain ⟨h₁, hq⟩ := hx s a s₁ hs ha
  obtain ⟨h₂, hr⟩ := hf a hq s₁ b s' (hF.keep hs h₁) hb
  exact ⟨hF.trans h₁ h₂, hr⟩

theorem map {x : StateE σ ε α} {f : α → β} (hx : Spec I F Q x) (hf : ∀ a, Q a → R (f a)) :
    Spec I F R (f <$> x) := by
  rw [map_eq_pure_bind]
  exact bind hF hx fun a ha => pure hF (hf a ha)

theorem mapM {f : γ → StateE σ ε α} {l : List γ} (hf : ∀ c ∈ l, Spec I F Q (f c)) :
    Spec I F (fun as => ∀ a ∈ as, Q a) (l.mapM f) := by
  induction l with
  | nil =>
    rw [List.mapM_nil]
    exact pure hF (fun _ h => by cases h)
  | cons c l ih =>
    rw [List.mapM_cons]
    refine bind hF (hf c List.mem_cons_self) fun a ha => ?_
    refine bind hF (ih fun c' hc' => hf c' (List.mem_cons_of_mem _ hc')) fun as has => ?_
    refine pure hF fun b hb => ?_
    rcases List.mem_cons.mp hb with rfl | hb
    · exact ha
    · exact has b hb

end Spec

end Infra
