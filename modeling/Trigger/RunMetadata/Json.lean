import Mathlib.Data.Finmap
import Trigger.Infra.Number

/-!
# JSON の値と metadata

`DeserializedJson` と、それを値とする metadata の object。

object の property の順は `dequal` が区別しないので、入れ子の object は key の順に並んだ列（`obj`）で、metadata は
`Finmap` で表す。metadata の数は加算で丸められる倍精度の数（`Number`）である。数を読み書きするだけの所では、値の有理数で
表す（`Json`）。
-/

namespace RunMetadata

open Infra (Number)

/-- JSON の値。`ν` は数の型である。 -/
inductive JsonValue (ν : Type)
  | null
  | bool (b : Bool)
  | num (n : ν)
  | str (s : String)
  | arr (items : List (JsonValue ν))
  | obj (entries : List (String × JsonValue ν))

section Equality

variable {ν : Type} [DecidableEq ν]

mutual

/-- `dequal`。 -/
def dequal : JsonValue ν → JsonValue ν → Bool
  | .null, .null => true
  | .bool a, .bool b => a = b
  | .num a, .num b => a = b
  | .str a, .str b => a = b
  | .arr a, .arr b => dequalItems a b
  | .obj a, .obj b => dequalEntries a b
  | _, _ => false

def dequalItems : List (JsonValue ν) → List (JsonValue ν) → Bool
  | [], [] => true
  | a :: as, b :: bs => dequal a b && dequalItems as bs
  | _, _ => false

def dequalEntries : List (String × JsonValue ν) → List (String × JsonValue ν) → Bool
  | [], [] => true
  | (k, a) :: as, (l, b) :: bs => k = l && dequal a b && dequalEntries as bs
  | _, _ => false

end

mutual

theorem dequal_iff : ∀ a b : JsonValue ν, dequal a b = true ↔ a = b
  | .null, b => by cases b <;> simp [dequal]
  | .bool _, b => by cases b <;> simp [dequal]
  | .num _, b => by cases b <;> simp [dequal]
  | .str _, b => by cases b <;> simp [dequal]
  | .arr as, b => by
    cases b with
    | arr bs => rw [dequal, dequalItems_iff as bs, JsonValue.arr.injEq]
    | _ => simp [dequal]
  | .obj as, b => by
    cases b with
    | obj bs => rw [dequal, dequalEntries_iff as bs, JsonValue.obj.injEq]
    | _ => simp [dequal]

theorem dequalItems_iff : ∀ as bs : List (JsonValue ν), dequalItems as bs = true ↔ as = bs
  | [], bs => by cases bs <;> simp [dequalItems]
  | a :: as, bs => by
    cases bs with
    | nil => simp [dequalItems]
    | cons b bs =>
      rw [dequalItems, Bool.and_eq_true, dequal_iff a b, dequalItems_iff as bs, List.cons.injEq]

theorem dequalEntries_iff : ∀ as bs : List (String × JsonValue ν),
    dequalEntries as bs = true ↔ as = bs
  | [], bs => by cases bs <;> simp [dequalEntries]
  | (k, a) :: as, bs => by
    cases bs with
    | nil => simp [dequalEntries]
    | cons p bs =>
      obtain ⟨l, b⟩ := p
      rw [dequalEntries, Bool.and_eq_true, Bool.and_eq_true, dequal_iff a b, dequalEntries_iff as bs,
        decide_eq_true_iff, List.cons.injEq, Prod.mk.injEq]

end

instance : DecidableEq (JsonValue ν) := fun a b =>
  decidable_of_iff (dequal a b = true) (dequal_iff a b)

end Equality

/-- 数を有理数で表した値。 -/
abbrev Json := JsonValue ℚ

/-- `DeserializedJson`。 -/
abbrev DeserializedJson := JsonValue Number

/-- `Record<string, DeserializedJson>`。 -/
abbrev Metadata := Finmap fun _ : String => DeserializedJson

end RunMetadata
