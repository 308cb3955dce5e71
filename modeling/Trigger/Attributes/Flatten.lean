import Mathlib.Data.Fintype.Card
import Mathlib.Data.Rat.Defs
import Trigger.Infra.Record

/-!
# `flattenAttributes`

plain object・配列からなる値を、`.` で区切った path を key とする一段の map に書き出す。

値は共有も循環もできるので、object と配列は heap に置き、値からは番地で参照する。番地は `Fin n` であり、
行き先の無い参照は作れない。
-/

namespace Attributes

open Infra

/-! ## 値 -/

/-- JSON の原始値。attribute の値は `null` 以外のものである。 -/
inductive Primitive
  | null
  | bool (b : Bool)
  | num (n : ℚ)
  | str (s : String)
deriving DecidableEq

/-- 値。`ref` は object か配列への参照である。 -/
inductive Value (n : Nat)
  | undefined
  | primitive (p : Primitive)
  | ref (a : Fin n)
deriving DecidableEq

/-- plain object か配列。配列の穴は `undefined` である。 -/
inductive Node (n : Nat)
  | array (items : List (Value n))
  | object (entries : List (String × Value n))

abbrev Heap (n : Nat) := Fin n → Node n

namespace Node

/-- `Array.isArray(obj)`。 -/
def isArray {n : Nat} : Node n → Bool
  | .array _ => true
  | .object _ => false

/-- `Object.entries(obj)`。配列の key は添字の十進表示である。 -/
def entries {n : Nat} : Node n → List (String × Value n)
  | .array items => items.mapIdx fun i value => (toString i, value)
  | .object entries => entries

end Node

def NULL_SENTINEL : String := "$@null(("

def CIRCULAR_REFERENCE_SENTINEL : String := "$@circular(("

/-- 原始値の書き出し。 -/
def Primitive.attribute : Primitive → Primitive
  | .null => .str NULL_SENTINEL
  | p => p

/-! ## `AttributeFlattener` -/

structure Flattener (n : Nat) where
  seen : List (Fin n)
  attributeCounter : Nat
  result : JsMap Primitive

namespace Flattener

variable {n : Nat}

def init : Flattener n := ⟨[], 0, []⟩

/-- `count` 個書いた後でも書ける。`maxAttributeCount` が `undefined` のときは制限しない。 -/
def Allows (max : Option Nat) (count : Nat) : Prop := ∀ m ∈ max, count < m

instance (max : Option Nat) (count : Nat) : Decidable (Allows max count) :=
  match max with
  | none => isTrue nofun
  | some m => decidable_of_iff (count < m) ⟨fun h _ hm => by cases hm; exact h, fun h => h m rfl⟩

theorem Allows.mono {max : Option Nat} {count count' : Nat} (h : Allows max count')
    (hle : count ≤ count') : Allows max count := fun m hm => lt_of_le_of_lt hle (h m hm)

def canAddMoreAttributes (max : Option Nat) (f : Flattener n) : Prop :=
  Allows max f.attributeCounter

instance (max : Option Nat) (f : Flattener n) : Decidable (canAddMoreAttributes max f) :=
  inferInstanceAs (Decidable (Allows _ _))

/-- `result[key] = value`。`__proto__` への原始値の代入は何もしない。 -/
def write (result : JsMap Primitive) (key : String) (value : Primitive) : JsMap Primitive :=
  if key = "__proto__" then result else result.set key value

def addAttribute (max : Option Nat) (f : Flattener n) (key : String) (value : Primitive) :
    Flattener n :=
  if canAddMoreAttributes max f then
    { f with result := write f.result key value, attributeCounter := f.attributeCounter + 1 }
  else f

def see (f : Flattener n) (a : Fin n) : Flattener n := { f with seen := a :: f.seen }

/-- これ以上書けないときに抜ける `for` 文。 -/
def forOf (max : Option Nat) (body : String × Value n → Flattener n → Option (Flattener n)) :
    List (String × Value n) → Flattener n → Option (Flattener n)
  | [], f => some f
  | e :: es, f =>
    if canAddMoreAttributes max f then (body e f).bind (forOf max body es) else some f

/-- 一つの property の path。接頭辞が空（または `undefined`）のときは key から始まる。 -/
def newPrefix (path : String) (isArray : Bool) (key : String) : String :=
  (if path = "" then "" else path ++ ".") ++ (if isArray then "[" ++ key ++ "]" else key)

/-- property の値である配列の要素の path。 -/
def itemPrefix (path key : String) : String := path ++ ".[" ++ key ++ "]"

/-- `#processValue`。 -/
def processValue (max : Option Nat)
    (doFlatten : Value n → String → Nat → Flattener n → Option (Flattener n))
    (value : Value n) (path : String) (depth : Nat) (f : Flattener n) : Option (Flattener n) :=
  if canAddMoreAttributes max f then
    match value with
    | .undefined => some f
    | .primitive p => some (addAttribute max f path p.attribute)
    | .ref a => doFlatten (.ref a) path (depth + 1) f
  else some f

/--
`doFlatten` の `for` 文の本体。property の値である配列は、`seen` も深さも見ずに要素を並べる。
-/
def processEntry (heap : Heap n) (max : Option Nat)
    (doFlatten : Value n → String → Nat → Flattener n → Option (Flattener n))
    (path : String) (isArray : Bool) (depth : Nat) (entry : String × Value n) (f : Flattener n) :
    Option (Flattener n) :=
  match entry.2 with
  | .ref b =>
    if (heap b).isArray then
      forOf max
        (fun item f =>
          processValue max doFlatten item.2 (itemPrefix (newPrefix path isArray entry.1) item.1)
            depth f)
        (heap b).entries f
    else processValue max doFlatten (.ref b) (newPrefix path isArray entry.1) depth f
  | value => processValue max doFlatten value (newPrefix path isArray entry.1) depth f

end Flattener

open Flattener

variable {n : Nat}

/--
`doFlatten`。`seen` にある object へは入らないので、入れ子は番地の個数までしか深くならない。
`fuel` はその上限で、使い切ったときだけ `none` になる。
-/
def doFlatten (heap : Heap n) (max : Option Nat) (maxDepth : ℤ) :
    Nat → Value n → String → Nat → Flattener n → Option (Flattener n)
  | 0, _, _, _, _ => none
  | fuel + 1, obj, path, depth, f =>
    if canAddMoreAttributes max f then
      if maxDepth < depth then some f
      else
        match obj with
        | .undefined => some f
        | .primitive p => some (addAttribute max f path p.attribute)
        | .ref a =>
          if a ∈ f.seen then
            some (addAttribute max f path (.str CIRCULAR_REFERENCE_SENTINEL))
          else
            forOf max
              (processEntry heap max (doFlatten heap max maxDepth fuel) path (heap a).isArray depth)
              (heap a).entries (f.see a)
    else some f

/-- `flattenAttributes(obj, prefix, maxAttributeCount, maxDepth)`。 -/
def flattenAttributes (heap : Heap n) (obj : Value n) (path : Option String) (max : Option Nat)
    (maxDepth : ℤ) : Option (JsMap Primitive) :=
  (doFlatten heap max maxDepth (n + 1) obj (path.getD "") 0 init).map Flattener.result

/-! ## 停止と個数の上限 -/

namespace Flattener

/-- 個数の上限を守る。 -/
structure Bounded (max : Option Nat) (f : Flattener n) : Prop where
  length_le : f.result.length ≤ f.attributeCounter
  counter_le : ∀ m ∈ max, f.attributeCounter ≤ m

/-- 書き出しの一部が `f` から `f'` へ進める。 -/
structure Advances (max : Option Nat) (f f' : Flattener n) : Prop where
  seen : f.seen ⊆ f'.seen
  bounded : Bounded max f → Bounded max f'

theorem Advances.refl (max : Option Nat) (f : Flattener n) : Advances max f f :=
  ⟨List.Subset.refl _, id⟩

theorem Advances.trans {max : Option Nat} {f g h : Flattener n} (hfg : Advances max f g)
    (hgh : Advances max g h) : Advances max f h :=
  ⟨List.Subset.trans hfg.seen hgh.seen, hgh.bounded ∘ hfg.bounded⟩

theorem advances_see (max : Option Nat) (f : Flattener n) (a : Fin n) : Advances max f (f.see a) :=
  ⟨List.subset_cons_self .., fun h => ⟨h.length_le, h.counter_le⟩⟩

end Flattener

/-- `set` は高々一つしか増やさない。 -/
theorem length_set_le (m : JsMap Primitive) (key : String) (value : Primitive) :
    (m.set key value).length ≤ m.length + 1 := by
  induction m with
  | nil => simp [JsMap.set]
  | cons p m ih =>
    obtain ⟨k, v⟩ := p
    unfold JsMap.set
    split
    · simp
    · simpa using ih

theorem length_write_le (m : JsMap Primitive) (key : String) (value : Primitive) :
    (write m key value).length ≤ m.length + 1 := by
  unfold write
  split
  · omega
  · exact length_set_le m key value

namespace Flattener

theorem advances_addAttribute (max : Option Nat) (f : Flattener n) (key : String)
    (value : Primitive) : Advances max f (addAttribute max f key value) := by
  unfold addAttribute
  split
  · next hcan =>
    refine ⟨List.Subset.refl _, fun h => ⟨?_, hcan⟩⟩
    have hlen := length_write_le f.result key value
    have := h.length_le
    dsimp only
    omega
  · exact Advances.refl max f

/-- `for` 文は、本体が進める限り進める。 -/
theorem forOf_advances {max : Option Nat}
    {body : String × Value n → Flattener n → Option (Flattener n)} {base : List (Fin n)}
    (hbody : ∀ e f, base ⊆ f.seen → ∃ f', body e f = some f' ∧ Advances max f f')
    (es : List (String × Value n)) :
    ∀ f : Flattener n, base ⊆ f.seen → ∃ f', forOf max body es f = some f' ∧ Advances max f f' := by
  induction es with
  | nil => exact fun f _ => ⟨f, rfl, Advances.refl max f⟩
  | cons e es ih =>
    intro f hf
    unfold forOf
    split
    · obtain ⟨g, hg, hfg⟩ := hbody e f hf
      obtain ⟨g', hg', hgg'⟩ := ih g (List.Subset.trans hf hfg.seen)
      exact ⟨g', by rw [hg, Option.bind_some, hg'], hfg.trans hgg'⟩
    · exact ⟨f, rfl, Advances.refl max f⟩

end Flattener

/-- まだ入っていない番地の個数。 -/
def unseen (seen : List (Fin n)) : Nat := (Finset.univ.filter (· ∉ seen)).card

theorem unseen_le (seen : List (Fin n)) : unseen seen ≤ n := by
  have := Finset.card_filter_le (Finset.univ : Finset (Fin n)) (· ∉ seen)
  simpa [unseen] using this

theorem unseen_anti {s s' : List (Fin n)} (h : s ⊆ s') : unseen s' ≤ unseen s := by
  refine Finset.card_le_card fun a ha => ?_
  rw [Finset.mem_filter] at ha ⊢
  exact ⟨ha.1, fun hm => ha.2 (h hm)⟩

theorem unseen_cons_lt {s : List (Fin n)} {a : Fin n} (h : a ∉ s) : unseen (a :: s) < unseen s := by
  refine Finset.card_lt_card (Finset.ssubset_iff_of_subset ?_ |>.mpr ⟨a, ?_, ?_⟩)
  · intro b hb
    rw [Finset.mem_filter] at hb ⊢
    exact ⟨hb.1, fun hm => hb.2 (List.mem_cons_of_mem _ hm)⟩
  · simpa using h
  · simp

theorem processValue_advances (max : Option Nat)
    {doFlatten : Value n → String → Nat → Flattener n → Option (Flattener n)} {base : List (Fin n)}
    (hdo : ∀ obj path depth f, base ⊆ f.seen →
      ∃ f', doFlatten obj path depth f = some f' ∧ Advances max f f')
    (value : Value n) (path : String) (depth : Nat) (f : Flattener n) (hf : base ⊆ f.seen) :
    ∃ f', processValue max doFlatten value path depth f = some f' ∧ Advances max f f' := by
  unfold processValue
  split
  · cases value with
    | undefined => exact ⟨f, rfl, Advances.refl max f⟩
    | primitive p => exact ⟨_, rfl, advances_addAttribute max f path _⟩
    | ref a => exact hdo _ _ _ f hf
  · exact ⟨f, rfl, Advances.refl max f⟩

theorem processEntry_advances (heap : Heap n) (max : Option Nat)
    {doFlatten : Value n → String → Nat → Flattener n → Option (Flattener n)} {base : List (Fin n)}
    (hdo : ∀ obj path depth f, base ⊆ f.seen →
      ∃ f', doFlatten obj path depth f = some f' ∧ Advances max f f')
    (path : String) (isArray : Bool) (depth : Nat) (entry : String × Value n) (f : Flattener n)
    (hf : base ⊆ f.seen) :
    ∃ f', processEntry heap max doFlatten path isArray depth entry f = some f' ∧
      Advances max f f' := by
  have hvalue := fun value path f hf => processValue_advances max hdo value path depth f hf
  unfold processEntry
  split
  · split
    · exact forOf_advances (fun e g hg => hvalue e.2 _ g hg) _ f hf
    · exact hvalue _ _ f hf
  · exact hvalue _ _ f hf

/-- **まだ入っていない番地より `fuel` が多ければ、循環があっても書き出しは終わる。** -/
theorem doFlatten_advances (heap : Heap n) (max : Option Nat) (maxDepth : ℤ) (fuel : Nat) :
    ∀ (obj : Value n) (path : String) (depth : Nat) (f : Flattener n), unseen f.seen < fuel →
      ∃ f', doFlatten heap max maxDepth fuel obj path depth f = some f' ∧ Advances max f f' := by
  induction fuel with
  | zero => exact fun _ _ _ _ h => absurd h (Nat.not_lt_zero _)
  | succ fuel ih =>
    intro obj path depth f hf
    unfold doFlatten
    split
    · split
      · exact ⟨f, rfl, Advances.refl max f⟩
      · cases obj with
        | undefined => exact ⟨f, rfl, Advances.refl max f⟩
        | primitive p => exact ⟨_, rfl, advances_addAttribute max f path _⟩
        | ref a =>
          dsimp only
          split
          · exact ⟨_, rfl, advances_addAttribute max f path _⟩
          · next hseen =>
            have hbase : unseen (f.see a).seen < fuel := by
              have := unseen_cons_lt hseen
              show unseen (a :: f.seen) < fuel
              omega
            have hdo : ∀ obj path depth g, (f.see a).seen ⊆ g.seen →
                ∃ g', doFlatten heap max maxDepth fuel obj path depth g = some g' ∧
                  Advances max g g' :=
              fun obj path depth g hg => ih obj path depth g (lt_of_le_of_lt (unseen_anti hg) hbase)
            obtain ⟨f', hf', hadv⟩ := forOf_advances
              (processEntry_advances heap max hdo path (heap a).isArray depth) (heap a).entries
              (f.see a) (List.Subset.refl _)
            exact ⟨f', hf', (advances_see max f a).trans hadv⟩
    · exact ⟨f, rfl, Advances.refl max f⟩

/-- `flattenAttributes` は必ず返り、個数の上限を守る。 -/
theorem flattenAttributes_bounded (heap : Heap n) (obj : Value n) (path : Option String)
    (max : Option Nat) (maxDepth : ℤ) :
    ∃ r, flattenAttributes heap obj path max maxDepth = some r ∧ ∀ m ∈ max, r.length ≤ m := by
  obtain ⟨f, hf, hadv⟩ := doFlatten_advances heap max maxDepth (n + 1) obj (path.getD "") 0 init
    (Nat.lt_succ_of_le (unseen_le _))
  refine ⟨f.result, by rw [flattenAttributes, hf]; rfl, fun m hm => ?_⟩
  have hb := hadv.bounded ⟨Nat.le_refl _, fun _ _ => Nat.zero_le _⟩
  exact hb.length_le.trans (hb.counter_le m hm)

end Attributes
