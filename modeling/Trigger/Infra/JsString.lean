import Trigger.Infra.Text

/-!
# JavaScript の文字列

JavaScript の文字列は code unit の列で、対にならない surrogate も含む。`TextEncoder` はそれを U+FFFD に置き換える
（`encode`）ので、異なる文字列が同じ byte 列になることがある。

surrogate でない区切りは、どの文字列の中でも一文字として現れる（`scalars_append_cons`）。したがって、区切りで
つないだ文字列の encode は、encode をつないだものである。
-/

namespace Infra

open Infra.Text (utf16 not_surrogate)

/-- UTF-16 の code unit の列。 -/
abbrev JsString := List UInt16

namespace JsString

/-! ## 定義 -/

def ofString (s : String) : JsString := (utf16 s).map UInt16.ofNat

/-- 対の前半。 -/
def isLead (u : UInt16) : Bool := 0xd800 ≤ u.toNat && u.toNat < 0xdc00

/-- 対の後半。 -/
def isTrail (u : UInt16) : Bool := 0xdc00 ≤ u.toNat && u.toNat < 0xe000

/-- 対をなさない code unit の文字。 -/
def scalar (u : UInt16) : Char :=
  if isLead u || isTrail u then Char.ofNat 0xfffd else Char.ofNat u.toNat

/-- 対の文字。 -/
def pair (u v : UInt16) : Char :=
  Char.ofNat (0x10000 + (u.toNat - 0xd800) * 0x400 + (v.toNat - 0xdc00))

/-- Unicode の文字の列。 -/
def scalars : JsString → List Char
  | [] => []
  | [u] => [scalar u]
  | u :: v :: rest =>
    if isLead u && isTrail v then pair u v :: scalars rest else scalar u :: scalars (v :: rest)

/-- `new TextEncoder().encode(s)`。Lean の文字列は、その UTF-8 の byte 列である。 -/
def encode (s : JsString) : String := String.ofList (scalars s)

/-! ## 区切り -/

theorem scalars_cons {u : UInt16} (h : isLead u = false) (s : JsString) :
    scalars (u :: s) = scalar u :: scalars s := by
  cases s with
  | nil => rfl
  | cons v rest =>
    rw [scalars, h, Bool.false_and, if_neg Bool.false_ne_true]

theorem scalars_append_cons {u : UInt16} (hlead : isLead u = false) (htrail : isTrail u = false)
    (s t : JsString) : scalars (s ++ u :: t) = scalars s ++ scalar u :: scalars t := by
  induction s using scalars.induct with
  | case1 => exact scalars_cons hlead t
  | case2 v =>
    show scalars (v :: u :: t) = scalar v :: scalar u :: scalars t
    rw [scalars, htrail, Bool.and_false, if_neg Bool.false_ne_true, scalars_cons hlead]
  | case3 v w rest hpair ih =>
    show scalars (v :: w :: (rest ++ u :: t)) = scalars (v :: w :: rest) ++ _
    rw [scalars, scalars, if_pos hpair, if_pos hpair, ih, List.cons_append]
  | case4 v w rest hpair ih =>
    show scalars (v :: w :: (rest ++ u :: t)) = scalars (v :: w :: rest) ++ _
    rw [scalars, scalars, if_neg hpair, if_neg hpair, List.cons_append, ← ih]
    rfl

theorem scalars_intercalate {u : UInt16} (hlead : isLead u = false) (htrail : isTrail u = false)
    (parts : List JsString) :
    scalars ([u].intercalate parts) = [scalar u].intercalate (parts.map scalars) := by
  induction parts with
  | nil => rfl
  | cons s rest ih =>
    cases rest with
    | nil => simp
    | cons t rest =>
      rw [List.intercalate_cons_cons, List.append_assoc, List.singleton_append,
        scalars_append_cons hlead htrail, ih]
      simp only [List.map_cons, List.intercalate_cons_cons, List.append_assoc,
        List.singleton_append]

/-! ## 対にならない surrogate の無い文字列 -/

theorem scalars_ofString_cons (c : Char) (rest : JsString) :
    scalars ((utf16 (String.ofList [c])).map UInt16.ofNat ++ rest) = c :: scalars rest := by
  have hc := not_surrogate c
  have hunits : utf16 (String.ofList [c]) = if c.toNat < 0x10000 then [c.toNat]
      else [0xd800 + (c.toNat - 0x10000) / 0x400, 0xdc00 + (c.toNat - 0x10000) % 0x400] := by
    simp [utf16]
  rw [hunits]
  split
  · next hlt =>
    have hu : (UInt16.ofNat c.toNat).toNat = c.toNat := UInt16.toNat_ofNat_of_lt hlt
    have hlead : isLead (UInt16.ofNat c.toNat) = false := by
      unfold isLead
      rw [hu, Bool.and_eq_false_iff]
      simp only [decide_eq_false_iff_not]
      omega
    have htrail : isTrail (UInt16.ofNat c.toNat) = false := by
      unfold isTrail
      rw [hu, Bool.and_eq_false_iff]
      simp only [decide_eq_false_iff_not]
      omega
    show scalars (UInt16.ofNat c.toNat :: rest) = _
    rw [scalars_cons hlead]
    unfold scalar
    rw [hlead, htrail, hu, if_neg (by simp), Char.ofNat_toNat]
  · next hge =>
    obtain ⟨u, hudef⟩ : ∃ u, 0xd800 + (c.toNat - 0x10000) / 0x400 = u := ⟨_, rfl⟩
    obtain ⟨v, hvdef⟩ : ∃ v, 0xdc00 + (c.toNat - 0x10000) % 0x400 = v := ⟨_, rfl⟩
    have hu : (UInt16.ofNat u).toNat = u := UInt16.toNat_ofNat_of_lt (by simp [UInt16.size]; omega)
    have hv : (UInt16.ofNat v).toNat = v := UInt16.toNat_ofNat_of_lt (by simp [UInt16.size]; omega)
    have hpair : (isLead (UInt16.ofNat u) && isTrail (UInt16.ofNat v)) = true := by
      unfold isLead isTrail
      rw [hu, hv]
      simp only [Bool.and_eq_true, decide_eq_true_eq]
      omega
    rw [hudef, hvdef]
    show scalars (UInt16.ofNat u :: UInt16.ofNat v :: rest) = _
    rw [scalars, if_pos hpair]
    unfold pair
    rw [hu, hv, show 0x10000 + (u - 0xd800) * 0x400 + (v - 0xdc00) = c.toNat by omega,
      Char.ofNat_toNat]

theorem scalars_ofString (s : String) : scalars (ofString s) = s.toList := by
  have key : ∀ l : List Char, scalars ((utf16 (String.ofList l)).map UInt16.ofNat) = l := by
    intro l
    induction l with
    | nil => rfl
    | cons c l ih =>
      have happend : utf16 (String.ofList (c :: l)) =
          utf16 (String.ofList [c]) ++ utf16 (String.ofList l) := by
        simp [utf16]
      rw [happend, List.map_append, scalars_ofString_cons, ih]
  have hs := key s.toList
  rwa [String.ofList_toList] at hs

/-- 普通の文字列は、encode しても変わらない。 -/
theorem encode_ofString (s : String) : encode (ofString s) = s := by
  unfold encode
  rw [scalars_ofString, String.ofList_toList]

theorem ofString_injective : Function.Injective ofString :=
  Function.LeftInverse.injective encode_ofString

/-- 対にならない surrogate は、encode で区別が失われる。 -/
example : encode [0xd800] = encode [0xd801] := by decide +kernel

end JsString

end Infra
