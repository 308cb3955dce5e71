import Mathlib.Data.List.Basic
import Mathlib.Data.List.Infix

/-!
# 文字列の分割・連結・切り詰め

`:` で区切った文字列を扱う。`splitColon` は連結の向きに素直である
（`splitColon_append`）ので、区切りを含まない成分から組んだ文字列は成分に戻る。

JavaScript の文字列の比較は UTF-16 の code unit の列（`utf16`）による。

残りの三つは、文字列を左または右から走査して一箇所で切る関数である。

* `removeFirst` — 最初の一文字を消す。
* `cutAt` — 条件に合う最も左の接尾辞から後ろを捨てる。
* `beforeLast` — 部分文字列が最後に現れる位置より前（空でないもの）を返す。
-/

namespace Infra.Text

/-! ## 分割と連結 -/

/-- `:` での分割。 -/
def splitColon (s : String) : List String := (s.toList.splitOn ':').map String.ofList

/-- `:` での連結。 -/
def joinColon : List String → String
  | [] => ""
  | [a] => a
  | a :: b :: rest => a ++ ":" ++ joinColon (b :: rest)

/-- `:` を含まない。 -/
def NoColon (s : String) : Prop := ':' ∉ s.toList

instance (s : String) : Decidable (NoColon s) := inferInstanceAs (Decidable (¬ _))

theorem toList_colon : (":" : String).toList = [':'] := rfl

theorem splitColon_append (a b : String) :
    splitColon (a ++ ":" ++ b) = splitColon a ++ splitColon b := by
  unfold splitColon
  rw [String.toList_append, String.toList_append, toList_colon, List.append_assoc,
    List.singleton_append, List.splitOn_append_cons_self, List.map_append]

theorem splitColon_noColon {a : String} (h : NoColon a) : splitColon a = [a] := by
  unfold splitColon
  rw [List.splitOn_eq_singleton h]
  simp

theorem splitColon_cons {a : String} (h : NoColon a) (b : String) :
    splitColon (a ++ ":" ++ b) = a :: splitColon b := by
  rw [splitColon_append, splitColon_noColon h]
  rfl

theorem splitColon_ne_nil (a : String) : splitColon a ≠ [] := by
  unfold splitColon
  simp [List.splitOn_ne_nil]

theorem noColon_append {a b : String} (ha : NoColon a) (hb : NoColon b) : NoColon (a ++ b) := by
  unfold NoColon at *
  simp [ha, hb]

/-- 区切りより後ろが同じ文字列は、前も同じである。 -/
theorem append_right_cancel {a b c : String} (h : a ++ c = b ++ c) : a = b := by
  have := congrArg String.toList h
  rw [String.toList_append, String.toList_append] at this
  exact String.toList_inj.mp (List.append_cancel_right this)

theorem append_left_cancel {a b c : String} (h : c ++ a = c ++ b) : a = b := by
  have := congrArg String.toList h
  rw [String.toList_append, String.toList_append] at this
  exact String.toList_inj.mp (List.append_cancel_left this)

/-- 最初の `:` での分割。 -/
theorem exists_noColon_append {a : String} (h : ¬ NoColon a) :
    ∃ b c, NoColon b ∧ a = b ++ ":" ++ c := by
  obtain ⟨x, y, hxy, hx⟩ := List.eq_append_cons_of_mem (not_not.mp h)
  refine ⟨String.ofList x, String.ofList y, ?_, ?_⟩
  · unfold NoColon
    rwa [String.toList_ofList]
  · apply String.toList_inj.mp
    rw [hxy]
    simp

/-- 最初の区切りの前と後ろは一意に決まる。 -/
theorem append_colon_inj {x y r t : List Char} (hx : ':' ∉ x) (hy : ':' ∉ y)
    (h : x ++ ':' :: r = y ++ ':' :: t) : x = y ∧ r = t := by
  induction x generalizing y with
  | nil =>
    cases y with
    | nil => exact ⟨rfl, (List.cons.inj h).2⟩
    | cons d y => exact absurd (by rw [← (List.cons.inj h).1]; simp) hy
  | cons c x ih =>
    cases y with
    | nil => exact absurd (by rw [(List.cons.inj h).1]; simp) hx
    | cons d y =>
      obtain ⟨rfl, htail⟩ := List.cons.inj h
      obtain ⟨rfl, hr⟩ := ih (fun hm => hx (List.mem_cons_of_mem _ hm))
        (fun hm => hy (List.mem_cons_of_mem _ hm)) htail
      exact ⟨rfl, hr⟩

/-- 分割は文字列を決める。 -/
theorem splitColon_injective : Function.Injective splitColon := by
  intro a b h
  have hl : a.toList.splitOn ':' = b.toList.splitOn ':' := by
    refine List.map_injective_iff.mpr ?_ h
    intro x y hxy
    simpa using congrArg String.toList hxy
  have hjoin := congrArg [':'].intercalate hl
  rw [List.intercalate_splitOn, List.intercalate_splitOn] at hjoin
  exact String.toList_inj.mp hjoin

/-! ## UTF-16 -/

/-- UTF-16 の code unit の列。 -/
def utf16 (s : String) : List Nat :=
  s.toList.flatMap fun c =>
    if c.toNat < 0x10000 then [c.toNat]
    else [0xd800 + (c.toNat - 0x10000) / 0x400, 0xdc00 + (c.toNat - 0x10000) % 0x400]

/-- surrogate は文字ではない。 -/
theorem not_surrogate (c : Char) : c.toNat < 0xd800 ∨ 0xdfff < c.toNat ∧ c.toNat < 0x110000 := c.valid

/-- code unit の列は文字列を決める。 -/
theorem utf16_injective : Function.Injective utf16 := by
  have key : ∀ l l' : List Char, utf16 (String.ofList l) = utf16 (String.ofList l') → l = l' := by
    intro l
    induction l with
    | nil =>
      intro l' h
      cases l' with
      | nil => rfl
      | cons c l' =>
        simp only [utf16, String.toList_ofList, List.flatMap_nil, List.flatMap_cons] at h
        split at h <;> cases h
    | cons c l ih =>
      intro l' h
      cases l' with
      | nil =>
        simp only [utf16, String.toList_ofList, List.flatMap_nil, List.flatMap_cons] at h
        split at h <;> cases h
      | cons c' l' =>
        simp only [utf16, String.toList_ofList, List.flatMap_cons] at h ih
        have hc := not_surrogate c
        have hc' := not_surrogate c'
        have hne : c.toNat = c'.toNat → c = c' := fun h => Char.toNat_inj.mp h
        split at h <;> split at h <;> simp only [List.cons_append, List.nil_append, List.cons.injEq] at h
        · rw [hne h.1, ih l' h.2]
        · omega
        · omega
        · rw [hne (by omega), ih l' h.2.2]
  intro s t h
  have := key s.toList t.toList (by simpa using h)
  exact String.toList_inj.mp this

/-! ## 数の表示 -/

/-- `toString` は自然数を区別する。 -/
theorem toString_nat_injective : Function.Injective (toString : Nat → String) := by
  intro a b h
  have hdigits : Nat.toDigits 10 a = Nat.toDigits 10 b := by
    rw [← Nat.toList_repr, ← Nat.toList_repr]
    exact congrArg String.toList h
  rw [← Nat.ofDigitChars_ten_toDigits (n := a), hdigits, Nat.ofDigitChars_ten_toDigits]

/-- 数の表示は数字だけからなる。 -/
theorem isDigit_of_mem_toString_nat {n : Nat} {c : Char} (h : c ∈ (toString n).toList) :
    c.isDigit = true := by
  rw [Nat.toString_eq_repr, Nat.toList_repr] at h
  exact Nat.isDigit_of_mem_toDigits (by decide) (by decide) h

/-! ## 一文字の除去 -/

/-- 最初の `c` を消す。 -/
def removeFirst (c : Char) (s : String) : String := String.ofList (s.toList.erase c)

theorem removeFirst_of_not_mem {c : Char} {s : String} (h : c ∉ s.toList) :
    removeFirst c s = s := by
  unfold removeFirst
  rw [List.erase_of_not_mem h, String.ofList_toList]

theorem removeFirst_append_singleton {c : Char} {s t : String} (h : c ∉ s.toList)
    (ht : t.toList = [c]) : removeFirst c (s ++ t) = s := by
  unfold removeFirst
  rw [String.toList_append, List.erase_append_right _ h, ht, List.erase_cons_head]
  simp

/-- 文字を消しても `:` は増えない。 -/
theorem noColon_removeFirst {c : Char} {s : String} (h : NoColon s) :
    NoColon (removeFirst c s) := by
  unfold NoColon removeFirst at *
  rw [String.toList_ofList]
  exact fun hm => h (List.mem_of_mem_erase hm)

/-! ## 条件に合う接尾辞からの切り詰め -/

/-- `p` を満たす最も左の接尾辞から後ろを捨てる。 -/
def cutAt (p : List Char → Bool) : List Char → List Char
  | [] => []
  | c :: rest => if p (c :: rest) then [] else c :: cutAt p rest

/-- 手前で `p` が成り立たなければ、切る位置は `a` の直後である。 -/
theorem cutAt_append {p : List Char → Bool} {b : List Char} (hb : p b = true) (hne : b ≠ []) :
    ∀ {a : List Char}, (∀ t u, a = t ++ u → u ≠ [] → p (u ++ b) = false) → cutAt p (a ++ b) = a
  | [], _ => by
    obtain ⟨c, rest, rfl⟩ := List.exists_cons_of_ne_nil hne
    simp [cutAt, hb]
  | c :: rest, h => by
    have hhead := h [] (c :: rest) rfl (by simp)
    have ih := cutAt_append hb hne (a := rest) (fun t u htu hu => h (c :: t) u (by simp [htu]) hu)
    simp only [List.cons_append] at hhead ⊢
    simp [cutAt, hhead, ih]

/-- 何も捨てないのは、`p` を満たす空でない接尾辞が無いときに限る。 -/
theorem cutAt_eq_self_iff {p : List Char → Bool} : ∀ {l : List Char},
    cutAt p l = l ↔ ∀ t u, l = t ++ u → u ≠ [] → p u = false
  | [] => by
    constructor
    · intro _ t u h hu
      exact absurd (List.append_eq_nil_iff.mp h.symm).2 hu
    · intro _
      rfl
  | c :: rest => by
    have ih := cutAt_eq_self_iff (p := p) (l := rest)
    constructor
    · intro h t u htu hu
      have hp : p (c :: rest) = false := by
        by_contra hp
        simp [cutAt, Bool.not_eq_false _ ▸ hp] at h
      rcases t with _ | ⟨d, t⟩
      · exact (show u = c :: rest from htu.symm) ▸ hp
      · simp only [List.cons_append, List.cons.injEq] at htu
        simp only [cutAt, hp, Bool.false_eq_true, if_false, List.cons.injEq, true_and] at h
        exact ih.mp h t u htu.2 hu
    · intro h
      have hp := h [] (c :: rest) rfl (by simp)
      simp only [cutAt, hp, Bool.false_eq_true, if_false, List.cons.injEq, true_and]
      exact ih.mpr fun t u htu hu => h (c :: t) u (by simp [htu]) hu

/-- 捨てた部分は `p` を満たす。 -/
theorem cutAt_split {p : List Char → Bool} : ∀ {l : List Char}, cutAt p l ≠ l →
    ∃ u, l = cutAt p l ++ u ∧ p u = true
  | [], h => absurd rfl h
  | c :: rest, h => by
    unfold cutAt at h ⊢
    split at h
    · next hp => exact ⟨c :: rest, by simp [hp], hp⟩
    · next hp =>
      have hrest : cutAt p rest ≠ rest := fun e => h (by rw [e])
      obtain ⟨u, hu, hpu⟩ := cutAt_split hrest
      exact ⟨u, by rw [if_neg hp, List.cons_append, ← hu], hpu⟩

/-- `a` の中では、後ろに `b` を続けても `p` が成り立たない。 -/
def NoneWithin (p : List Char → Bool) (a b : List Char) : Prop :=
  ∀ t u, a = t ++ u → u ≠ [] → p (u ++ b) = false

section NoneWithin

variable {p : List Char → Bool} {a b : List Char}

theorem noneWithin_nil : NoneWithin p [] b := by
  intro t u h hu
  exact absurd (List.append_eq_nil_iff.mp h.symm).2 hu

theorem noneWithin_cons {c : Char} :
    NoneWithin p (c :: a) b ↔ p (c :: (a ++ b)) = false ∧ NoneWithin p a b := by
  constructor
  · intro h
    refine ⟨h [] (c :: a) rfl (by simp), fun t u htu hu => ?_⟩
    exact h (c :: t) u (by rw [htu, List.cons_append]) hu
  · rintro ⟨hhead, h⟩ t u htu hu
    rcases t with _ | ⟨d, t⟩
    · rw [← show c :: a = u from htu]
      exact hhead
    · exact h t u (List.cons.inj htu).2 hu

theorem noneWithin_append {x y : List Char} :
    NoneWithin p (x ++ y) b ↔ NoneWithin p x (y ++ b) ∧ NoneWithin p y b := by
  induction x with
  | nil => simp [noneWithin_nil]
  | cons c x ih =>
    rw [List.cons_append, noneWithin_cons, noneWithin_cons, ih, List.append_assoc, and_assoc]

/-- 切った残りが `a` であるのは、`a` の中で `p` が成り立たず、その直後で成り立つときである。 -/
theorem cutAt_append_eq_iff :
    cutAt p (a ++ b) = a ↔ NoneWithin p a b ∧ (b ≠ [] → p b = true) := by
  induction a with
  | nil =>
    cases b with
    | nil => simp [cutAt, noneWithin_nil]
    | cons c b => simp [cutAt, noneWithin_nil]
  | cons c a ih =>
    rw [List.cons_append, cutAt, noneWithin_cons, and_assoc, ← ih]
    by_cases hp : p (c :: (a ++ b)) = true
    · simp [hp]
    · simp [hp]

end NoneWithin

/-! ## 最後に現れる位置 -/

/-- `pat` が最後に現れる位置より前。空の接頭辞は数えない。 -/
def beforeLast (pat : List Char) : List Char → Option (List Char)
  | [] => none
  | c :: rest =>
    match beforeLast pat rest with
    | some p => some (c :: p)
    | none => if pat.isPrefixOf rest then some [c] else none

/-- 見つかった位置の直後には `pat` がある。 -/
theorem beforeLast_some {pat : List Char} : ∀ {l p : List Char}, beforeLast pat l = some p →
    ∃ rest, l = p ++ pat ++ rest
  | [], p, h => absurd h (by simp [beforeLast])
  | c :: rest, p, h => by
    unfold beforeLast at h
    split at h
    · next q hq =>
      obtain ⟨t, ht⟩ := beforeLast_some hq
      have hp : c :: q = p := by simpa using h
      exact ⟨t, by rw [← hp, ht]; simp⟩
    · split at h
      · next hpre =>
        obtain ⟨t, ht⟩ := List.isPrefixOf_iff_prefix.mp hpre
        have hp : [c] = p := by simpa using h
        exact ⟨t, by rw [← hp, ← ht]; simp⟩
      · exact absurd h (by simp)

/-- `pat` の前が空でなければ、見つかる位置はそれより左ではない。 -/
theorem beforeLast_longest {pat b : List Char} : ∀ {a : List Char}, a ≠ [] →
    ∃ p, beforeLast pat (a ++ pat ++ b) = some p ∧ a <+: p
  | [], h => absurd rfl h
  | [c], _ => by
    simp only [List.cons_append, List.nil_append, beforeLast]
    rcases beforeLast pat (pat ++ b) with _ | p
    · have hpre : pat.isPrefixOf (pat ++ b) = true :=
        List.isPrefixOf_iff_prefix.mpr (List.prefix_append pat b)
      exact ⟨[c], by simp [hpre], List.prefix_refl _⟩
    · exact ⟨c :: p, rfl, List.cons_prefix_cons.mpr ⟨rfl, List.nil_prefix⟩⟩
  | c :: d :: a, _ => by
    obtain ⟨p, hp, hpre⟩ := beforeLast_longest (b := b) (a := d :: a) (by simp)
    refine ⟨c :: p, ?_, List.cons_prefix_cons.mpr ⟨rfl, hpre⟩⟩
    simp only [List.cons_append] at hp ⊢
    rw [beforeLast, hp]

end Infra.Text
