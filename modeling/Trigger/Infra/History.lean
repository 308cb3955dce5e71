import Mathlib.Data.List.Basic
import Mathlib.Data.List.Infix

/-!
# 後の要素による代理

記録 `l` の各要素が、それ自身か、後に記録された同類の要素によって代理される（`Represented`）。記録は後ろに
伸び、代理は新しい要素に移りうる。
-/

namespace Infra

variable {α : Type} {P P' ok ok' : α → Prop} {same : α → α → Prop}

/-- `P` を満たす要素ごとに、それ以降に同類で `ok` な要素がある。 -/
def Represented (P ok : α → Prop) (same : α → α → Prop) : List α → Prop
  | [] => True
  | x :: rest => (P x → ∃ y ∈ x :: rest, same x y ∧ ok y) ∧ Represented P ok same rest

namespace Represented

theorem mono (hP : ∀ x, P' x → P x) (hok : ∀ x, ok x → ok' x) :
    ∀ {l : List α}, Represented P ok same l → Represented P' ok' same l
  | [], _ => trivial
  | _ :: _, ⟨h, hrest⟩ => by
    refine ⟨fun hx => ?_, mono hP hok hrest⟩
    obtain ⟨y, hy, hxy, hoky⟩ := h (hP _ hx)
    exact ⟨y, hy, hxy, hok y hoky⟩

/--
記録の途中に `items` が入る。前の部分の代理は、そのまま残るか、`items` の要素に移る。
後の部分の代理は残る。
-/
theorem insert (htrans : ∀ x y z, same x y → same y z → same x z) {b items : List α}
    (hkeep : ∀ y ∈ b, ok y → ok' y) (hitems : Represented P ok' same (items ++ b)) :
    ∀ {a : List α}, (∀ y ∈ a, ok y → ok' y ∨ ∃ z ∈ items, same y z ∧ ok' z) →
      Represented P ok same (a ++ b) → Represented P ok' same (a ++ items ++ b)
  | [], _, _ => hitems
  | x :: a, hmove, ⟨h, hrest⟩ => by
    have hmove' : ∀ y ∈ a, ok y → ok' y ∨ ∃ z ∈ items, same y z ∧ ok' z :=
      fun y hy => hmove y (List.mem_cons_of_mem x hy)
    refine ⟨fun hx => ?_, insert htrans hkeep hitems hmove' hrest⟩
    obtain ⟨y, hy, hxy, hoky⟩ := h hx
    change ∃ y ∈ x :: a ++ items ++ b, same x y ∧ ok' y
    rcases List.mem_append.mp (show y ∈ x :: a ++ b from hy) with hya | hyb
    · rcases hmove y hya hoky with hok' | ⟨z, hz, hyz, hokz⟩
      · exact ⟨y, List.mem_append_left b (List.mem_append_left items hya), hxy, hok'⟩
      · exact ⟨z, List.mem_append_left b (List.mem_append_right (x :: a) hz), htrans x y z hxy hyz, hokz⟩
    · exact ⟨y, List.mem_append_right (x :: a ++ items) hyb, hxy, hkeep y hyb hoky⟩

theorem suffix {l t : List α} (ht : t <:+ l) (h : Represented P ok same l) :
    Represented P ok same t := by
  induction l with
  | nil =>
    rw [List.suffix_nil.mp ht]
    trivial
  | cons x rest ih =>
    rcases List.suffix_cons_iff.mp ht with rfl | ht
    · exact h
    · exact ih ht h.2

/-- 記録の要素から始まる接尾辞では、代理がその接尾辞にある。 -/
theorem of_suffix {l rest : List α} {x : α} (hx : x :: rest <:+ l) (h : Represented P ok same l)
    (hP : P x) : ∃ y ∈ x :: rest, same x y ∧ ok y := (h.suffix hx).1 hP

/-- 記録の各位置で代理を示せばよい。 -/
theorem of_forall {l : List α}
    (h : ∀ x rest, x :: rest <:+ l → P x → ∃ y ∈ x :: rest, same x y ∧ ok y) :
    Represented P ok same l := by
  induction l with
  | nil => trivial
  | cons x l ih =>
    refine ⟨h x l (List.suffix_refl _), ih fun y rest hy => ?_⟩
    exact h y rest (hy.trans (List.suffix_cons x l))

/-- 前に置いた部分の代理は、その中か後の部分にあればよい。 -/
theorem append_of_forall {a b : List α} (hb : Represented P ok same b)
    (h : ∀ x rest, x :: rest <:+ a → P x →
      (∃ y ∈ x :: rest, same x y ∧ ok y) ∨ ∃ y ∈ b, same x y ∧ ok y) :
    Represented P ok same (a ++ b) := by
  induction a with
  | nil => exact hb
  | cons x a ih =>
    refine ⟨fun hx => ?_, ih fun y rest hy => h y rest (hy.trans (List.suffix_cons x a))⟩
    rcases h x a (List.suffix_refl _) hx with ⟨y, hy, hxy⟩ | ⟨y, hy, hxy⟩
    · exact ⟨y, List.mem_append_left b hy, hxy⟩
    · exact ⟨y, List.mem_append_right (x :: a) hy, hxy⟩

end Represented

end Infra
