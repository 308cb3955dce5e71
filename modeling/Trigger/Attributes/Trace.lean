import Trigger.Attributes.Flatten

/-!
# 書き出しの手順

循環のない値は木に展開できる（`Unfolds`）。木の書き出しを手順の列（`trace`）で表し、番地を見ながら
辿った結果（`follow`）が `doFlatten` の結果であることを示す（`doFlatten_follows`）。
-/

namespace Attributes

open Infra Flattener

/-! ## 木への展開 -/

/-- 番地を付けた木。 -/
inductive Tree (ι : Type)
  | undefined
  | primitive (p : Primitive)
  | node (a : ι) (isArray : Bool) (entries : List (String × Tree ι))

namespace Tree

variable {ι : Type}

mutual

/-- 番地を忘れた木。 -/
def erase : Tree ι → Tree Unit
  | .undefined => .undefined
  | .primitive p => .primitive p
  | .node _ isArray es => .node () isArray (eraseAll es)

def eraseAll : List (String × Tree ι) → List (String × Tree Unit)
  | [] => []
  | (k, t) :: es => (k, erase t) :: eraseAll es

end

mutual

/-- 木にある番地。 -/
def ids : Tree ι → List ι
  | .undefined => []
  | .primitive _ => []
  | .node a _ es => a :: idsAll es

def idsAll : List (String × Tree ι) → List ι
  | [] => []
  | (_, t) :: es => ids t ++ idsAll es

end

mutual

/-- 木にある原始値。 -/
def primitives : Tree ι → List Primitive
  | .undefined => []
  | .primitive p => [p]
  | .node _ _ es => primitivesAll es

def primitivesAll : List (String × Tree ι) → List Primitive
  | [] => []
  | (_, t) :: es => primitives t ++ primitivesAll es

end

mutual

theorem primitives_erase : ∀ t : Tree ι, t.erase.primitives = t.primitives
  | .undefined => rfl
  | .primitive _ => rfl
  | .node _ _ es => primitivesAll_eraseAll es

theorem primitivesAll_eraseAll :
    ∀ es : List (String × Tree ι), primitivesAll (eraseAll es) = primitivesAll es
  | [] => rfl
  | (_, t) :: es => by
    rw [eraseAll, primitivesAll, primitivesAll, primitives_erase t, primitivesAll_eraseAll es]

end

end Tree

variable {n m : Nat}

mutual

/-- heap の値を木に展開したもの。循環のない値だけが展開できる。 -/
inductive Unfolds (heap : Heap n) : Value n → Tree (Fin n) → Prop
  | undefined : Unfolds heap .undefined .undefined
  | primitive (p : Primitive) : Unfolds heap (.primitive p) (.primitive p)
  | ref (a : Fin n) {es : List (String × Tree (Fin n))} (h : UnfoldsAll heap (heap a).entries es) :
      Unfolds heap (.ref a) (.node a (heap a).isArray es)

inductive UnfoldsAll (heap : Heap n) : List (String × Value n) → List (String × Tree (Fin n)) → Prop
  | nil : UnfoldsAll heap [] []
  | cons (k : String) {v : Value n} {t : Tree (Fin n)} {vs : List (String × Value n)}
      {ts : List (String × Tree (Fin n))} (h : Unfolds heap v t) (hs : UnfoldsAll heap vs ts) :
      UnfoldsAll heap ((k, v) :: vs) ((k, t) :: ts)

end

/-- `heap'` の `obj'` は、`t` に展開される `heap` の `obj` の、共有の無い複製である。 -/
structure DeepCopy (heap : Heap n) (obj : Value n) (t : Tree (Fin n)) (heap' : Heap m)
    (obj' : Value m) : Prop where
  unfolds : Unfolds heap obj t
  copy : ∃ t', Unfolds heap' obj' t' ∧ t'.erase = t.erase ∧ t'.ids.Nodup

/-! ## 書き出しの手順 -/

/-- 手順の一つ。object に入るか、attribute を書く。 -/
inductive Step (ι : Type)
  | visit (a : ι) (path : String)
  | put (path : String) (value : Primitive)

namespace Step

variable {ι : Type}

def path : Step ι → String
  | .visit _ path => path
  | .put path _ => path

/-- 入る object。 -/
def kind : Step ι → Option ι
  | .visit a _ => some a
  | .put _ _ => none

def erase : Step ι → Step Unit
  | .visit _ path => .visit () path
  | .put path value => .put path value

end Step

section Trace

variable {ι : Type}

mutual

/-- 木の書き出し。`inline` は property の値として現れたことを表し、配列はそのとき要素だけを並べる。 -/
def trace (maxDepth : ℤ) (inline : Bool) : Tree ι → String → Nat → List (Step ι)
  | .undefined, _, _ => []
  | .primitive p, path, _ => [.put path p.attribute]
  | .node a isArray es, path, depth =>
    if inline && isArray then traceAll maxDepth false (itemPrefix path) es depth
    else if maxDepth < depth then []
    else .visit a path :: traceAll maxDepth true (newPrefix path isArray) es (depth + 1)

def traceAll (maxDepth : ℤ) (inline : Bool) (pathOf : String → String) :
    List (String × Tree ι) → Nat → List (Step ι)
  | [], _ => []
  | (k, t) :: es, depth =>
    trace maxDepth inline t (pathOf k) depth ++ traceAll maxDepth inline pathOf es depth

end

/-- 値全体の書き出し。 -/
def flattenTrace (maxDepth : ℤ) (t : Tree ι) (path : String) : List (Step ι) :=
  if maxDepth < 0 then [] else trace maxDepth false t path 0

mutual

/-- 番地は手順の形に関わらない。 -/
theorem trace_erase (maxDepth : ℤ) (inline : Bool) :
    ∀ (t : Tree ι) (path : String) (depth : Nat),
      trace maxDepth inline t.erase path depth = (trace maxDepth inline t path depth).map Step.erase
  | .undefined, _, _ => rfl
  | .primitive _, _, _ => rfl
  | .node a isArray es, path, depth => by
    rw [Tree.erase, trace, trace]
    split
    · exact traceAll_erase maxDepth false _ es depth
    · split
      · rfl
      · rw [List.map_cons, traceAll_erase maxDepth true _ es]
        rfl

theorem traceAll_erase (maxDepth : ℤ) (inline : Bool) (pathOf : String → String) :
    ∀ (es : List (String × Tree ι)) (depth : Nat),
      traceAll maxDepth inline pathOf (Tree.eraseAll es) depth =
        (traceAll maxDepth inline pathOf es depth).map Step.erase
  | [], _ => rfl
  | (k, t) :: es, depth => by
    rw [Tree.eraseAll, traceAll, traceAll, List.map_append, trace_erase maxDepth inline t,
      traceAll_erase maxDepth inline pathOf es]

end

mutual

/-- 入る object の順は、接頭辞によらない。 -/
theorem trace_kind (maxDepth : ℤ) (inline : Bool) :
    ∀ (t : Tree ι) (path path' : String) (depth : Nat),
      (trace maxDepth inline t path depth).map Step.kind =
        (trace maxDepth inline t path' depth).map Step.kind
  | .undefined, _, _, _ => rfl
  | .primitive _, _, _, _ => rfl
  | .node a isArray es, path, path', depth => by
    rw [trace, trace]
    split
    · exact traceAll_kind maxDepth false es _ _ depth
    · split
      · rfl
      · rw [List.map_cons, List.map_cons, traceAll_kind maxDepth true es]
        rfl

theorem traceAll_kind (maxDepth : ℤ) (inline : Bool) :
    ∀ (es : List (String × Tree ι)) (pathOf pathOf' : String → String) (depth : Nat),
      (traceAll maxDepth inline pathOf es depth).map Step.kind =
        (traceAll maxDepth inline pathOf' es depth).map Step.kind
  | [], _, _, _ => rfl
  | (k, t) :: es, pathOf, pathOf', depth => by
    rw [traceAll, traceAll, List.map_append, List.map_append,
      trace_kind maxDepth inline t (pathOf k) (pathOf' k),
      traceAll_kind maxDepth inline es pathOf pathOf']

end

mutual

/-- 入る object は木にある番地で、木の順に並ぶ。 -/
theorem trace_sublist (maxDepth : ℤ) (inline : Bool) :
    ∀ (t : Tree ι) (path : String) (depth : Nat),
      ((trace maxDepth inline t path depth).filterMap Step.kind).Sublist t.ids
  | .undefined, _, _ => List.Sublist.slnil
  | .primitive _, _, _ => List.Sublist.slnil
  | .node a isArray es, path, depth => by
    rw [trace, Tree.ids]
    split
    · exact (traceAll_sublist maxDepth false _ es depth).cons a
    · split
      · exact List.nil_sublist _
      · exact (traceAll_sublist maxDepth true _ es (depth + 1)).cons_cons a

theorem traceAll_sublist (maxDepth : ℤ) (inline : Bool) (pathOf : String → String) :
    ∀ (es : List (String × Tree ι)) (depth : Nat),
      ((traceAll maxDepth inline pathOf es depth).filterMap Step.kind).Sublist (Tree.idsAll es)
  | [], _ => List.Sublist.slnil
  | (k, t) :: es, depth => by
    rw [traceAll, Tree.idsAll, List.filterMap_append]
    exact (trace_sublist maxDepth inline t _ depth).append
      (traceAll_sublist maxDepth inline pathOf es depth)

end

/-- 文字列の接頭辞である。 -/
def Extends (path path' : String) : Prop := ∃ s, path' = path ++ s

theorem extends_newPrefix {path : String} (hpath : path ≠ "") (isArray : Bool) (k : String) :
    Extends path (newPrefix path isArray k) := by
  unfold newPrefix
  rw [if_neg hpath, String.append_assoc]
  exact ⟨_, rfl⟩

theorem extends_itemPrefix (path k : String) : Extends path (itemPrefix path k) := by
  unfold itemPrefix
  rw [String.append_assoc, String.append_assoc]
  exact ⟨_, rfl⟩

theorem Extends.trans {p q r : String} (h : Extends p q) (h' : Extends q r) : Extends p r := by
  obtain ⟨s, rfl⟩ := h
  obtain ⟨t, rfl⟩ := h'
  exact ⟨s ++ t, String.append_assoc⟩

theorem Extends.ne_empty {p q : String} (h : Extends p q) (hp : p ≠ "") : q ≠ "" := by
  obtain ⟨s, rfl⟩ := h
  exact fun he => hp (String.append_eq_empty_iff.mp he).1

mutual

/-- 書き出しの path は、空でない接頭辞を延ばしたものである。 -/
theorem trace_extends (maxDepth : ℤ) (inline : Bool) :
    ∀ (t : Tree ι) (path : String) (depth : Nat), path ≠ "" →
      ∀ s ∈ trace maxDepth inline t path depth, Extends path s.path
  | .undefined, _, _, _ => nofun
  | .primitive _, path, _, _ => by
    intro s hs
    rw [trace, List.mem_singleton] at hs
    subst hs
    exact ⟨"", String.append_empty.symm⟩
  | .node a isArray es, path, depth, hpath => by
    intro s hs
    rw [trace] at hs
    split at hs
    · exact traceAll_extends maxDepth false _ es depth hpath (extends_itemPrefix path) s hs
    · split at hs
      · cases hs
      · rcases List.mem_cons.mp hs with rfl | hs
        · exact ⟨"", String.append_empty.symm⟩
        · exact traceAll_extends maxDepth true _ es _ hpath (extends_newPrefix hpath isArray) s hs

theorem traceAll_extends (maxDepth : ℤ) (inline : Bool) (pathOf : String → String) {path : String} :
    ∀ (es : List (String × Tree ι)) (depth : Nat), path ≠ "" → (∀ k, Extends path (pathOf k)) →
      ∀ s ∈ traceAll maxDepth inline pathOf es depth, Extends path s.path
  | [], _, _, _ => nofun
  | (k, t) :: es, depth, hpath, hof => by
    intro s hs
    rw [traceAll] at hs
    rcases List.mem_append.mp hs with hs | hs
    · exact (hof k).trans
        (trace_extends maxDepth inline t _ depth ((hof k).ne_empty hpath) s hs)
    · exact traceAll_extends maxDepth inline pathOf es depth hpath hof s hs

end

mutual

/-- 書かれる値は、木にある原始値の書き出しである。 -/
theorem trace_primitives (maxDepth : ℤ) (inline : Bool) :
    ∀ (t : Tree ι) (path : String) (depth : Nat) (key : String) (value : Primitive),
      Step.put key value ∈ trace maxDepth inline t path depth →
        ∃ p ∈ t.primitives, value = p.attribute
  | .undefined, _, _, _, _ => nofun
  | .primitive p, path, _, key, value => by
    intro h
    rw [trace, List.mem_singleton] at h
    cases h
    exact ⟨p, List.mem_singleton_self p, rfl⟩
  | .node a isArray es, path, depth, key, value => by
    intro h
    rw [trace] at h
    rw [Tree.primitives]
    split at h
    · exact traceAll_primitives maxDepth false _ es depth key value h
    · split at h
      · cases h
      · rcases List.mem_cons.mp h with h | h
        · cases h
        · exact traceAll_primitives maxDepth true _ es _ key value h

theorem traceAll_primitives (maxDepth : ℤ) (inline : Bool) (pathOf : String → String) :
    ∀ (es : List (String × Tree ι)) (depth : Nat) (key : String) (value : Primitive),
      Step.put key value ∈ traceAll maxDepth inline pathOf es depth →
        ∃ p ∈ Tree.primitivesAll es, value = p.attribute
  | [], _, _, _ => nofun
  | (k, t) :: es, depth, key, value => by
    intro h
    rw [traceAll] at h
    rw [Tree.primitivesAll]
    rcases List.mem_append.mp h with h | h
    · obtain ⟨p, hp, hv⟩ := trace_primitives maxDepth inline t _ depth key value h
      exact ⟨p, List.mem_append_left _ hp, hv⟩
    · obtain ⟨p, hp, hv⟩ := traceAll_primitives maxDepth inline pathOf es depth key value h
      exact ⟨p, List.mem_append_right _ hp, hv⟩

end

end Trace

/-! ## 手順を辿る -/

local instance lawfulBEqFin (n : ℕ) : LawfulBEq (Fin n) := inferInstance

/--
`seen` を見ながら手順を辿る。二度目に入る object では sentinel を書いて止まる。
-/
def follow (max : Option Nat) : Flattener n → List (Step (Fin n)) → Flattener n
  | f, [] => f
  | f, .put path value :: es => follow max (addAttribute max f path value) es
  | f, .visit a path :: es =>
    if canAddMoreAttributes max f then
      if a ∈ f.seen then addAttribute max f path (.str CIRCULAR_REFERENCE_SENTINEL)
      else follow max (f.see a) es
    else f

/-- 二度目に入る object があれば、その sentinel で個数の上限に達する。 -/
def Settled (max : Option Nat) : Flattener n → List (Step (Fin n)) → Prop
  | _, [] => True
  | f, .put path value :: es => Settled max (addAttribute max f path value) es
  | f, .visit a path :: es =>
    canAddMoreAttributes max f →
      if a ∈ f.seen then
        ¬ canAddMoreAttributes max (addAttribute max f path (.str CIRCULAR_REFERENCE_SENTINEL))
      else Settled max (f.see a) es

theorem addAttribute_full {max : Option Nat} {f : Flattener n} (h : ¬ canAddMoreAttributes max f)
    (key : String) (value : Primitive) : addAttribute max f key value = f := if_neg h

theorem follow_full {max : Option Nat} {f : Flattener n} (h : ¬ canAddMoreAttributes max f) :
    ∀ es : List (Step (Fin n)), follow max f es = f
  | [] => rfl
  | .put path value :: es => by rw [follow, addAttribute_full h, follow_full h es]
  | .visit a path :: es => by rw [follow, if_neg h]

theorem follow_append {max : Option Nat} (es' : List (Step (Fin n))) :
    ∀ (es : List (Step (Fin n))) (f : Flattener n), Settled max f es →
      follow max f (es ++ es') = follow max (follow max f es) es'
  | [], _, _ => rfl
  | .put path value :: es, f, h => follow_append es' es _ h
  | .visit a path :: es, f, h => by
    rw [List.cons_append, follow, follow]
    split
    · next hcan =>
      have h := h hcan
      split
      · next hseen =>
        rw [if_pos hseen] at h
        rw [follow_full h]
      · next hseen =>
        rw [if_neg hseen] at h
        exact follow_append es' es _ h
    · next hfull => rw [follow_full hfull]

theorem settled_full {max : Option Nat} {f : Flattener n} (h : ¬ canAddMoreAttributes max f) :
    ∀ es : List (Step (Fin n)), Settled max f es
  | [] => trivial
  | .put path value :: es => by
    rw [Settled, addAttribute_full h]
    exact settled_full h es
  | .visit _ _ :: _ => fun hcan => absurd hcan h

theorem Settled.append {max : Option Nat} {es' : List (Step (Fin n))} :
    ∀ (es : List (Step (Fin n))) {f : Flattener n}, Settled max f (es ++ es') →
      Settled max f es ∧ Settled max (follow max f es) es'
  | [], _, h => ⟨trivial, h⟩
  | .put _ _ :: es, _, h => Settled.append es h
  | .visit a path :: es, f, h => by
    rw [follow]
    by_cases hcan : canAddMoreAttributes max f
    · rw [if_pos hcan]
      have h := h hcan
      by_cases hseen : a ∈ f.seen
      · rw [if_pos hseen] at h ⊢
        exact ⟨fun _ => by rw [if_pos hseen]; exact h, settled_full h es'⟩
      · rw [if_neg hseen] at h ⊢
        obtain ⟨h₁, h₂⟩ := Settled.append es h
        exact ⟨fun _ => by rw [if_neg hseen]; exact h₁, h₂⟩
    · rw [if_neg hcan]
      exact ⟨fun hc => absurd hc hcan, settled_full hcan es'⟩

theorem Settled.of_append {max : Option Nat} {es' : List (Step (Fin n))} :
    ∀ (es : List (Step (Fin n))) {f : Flattener n}, Settled max f es →
      Settled max (follow max f es) es' → Settled max f (es ++ es')
  | [], _, _, h => h
  | .put path value :: es, f, h, h' => Settled.of_append es h h'
  | .visit a path :: es, f, h, h' => by
    intro hcan
    have h := h hcan
    rw [follow, if_pos hcan] at h'
    by_cases hseen : a ∈ f.seen
    · rw [if_pos hseen] at h ⊢
      exact h
    · rw [if_neg hseen] at h h' ⊢
      exact Settled.of_append es h h'

/-! ## `doFlatten` は手順を辿る -/

section DoFlatten

variable {heap : Heap n} {max : Option Nat} {maxDepth : ℤ}
  {doFlatten : Value n → String → Nat → Flattener n → Option (Flattener n)}

/-- 並べられない配列と object の手順は、現れた位置によらない。 -/
theorem trace_not_inline {inline isArray : Bool} (h : isArray = true → inline = false) {a : Fin n}
    {es : List (String × Tree (Fin n))} {path : String} {depth : Nat} :
    trace maxDepth inline (.node a isArray es) path depth =
      trace maxDepth false (.node a isArray es) path depth := by
  cases isArray with
  | false => rw [trace, trace, Bool.and_false, Bool.and_false]
  | true => rw [h rfl]

/-- `doFlatten` に当たる関数が、object への参照で手順を辿る。 -/
def Follows (heap : Heap n) (max : Option Nat) (maxDepth : ℤ)
    (doFlatten : Value n → String → Nat → Flattener n → Option (Flattener n)) : Prop :=
  ∀ (a : Fin n) (t : Tree (Fin n)) (path : String) (depth : Nat) (f f' : Flattener n),
    Unfolds heap (.ref a) t → Settled max f (trace maxDepth false t path depth) →
      doFlatten (.ref a) path depth f = some f' →
        f' = follow max f (trace maxDepth false t path depth)

/-- 配列を並べない位置の値。 -/
theorem processValue_follows (hdo : Follows heap max maxDepth doFlatten) {v : Value n}
    {t : Tree (Fin n)} (hv : Unfolds heap v t) {inline : Bool}
    (hinline : ∀ a es, t = .node a true es → inline = false) {path : String} {depth : Nat}
    {f f' : Flattener n} (hs : Settled max f (trace maxDepth inline t path (depth + 1)))
    (h : processValue max doFlatten v path depth f = some f') :
    f' = follow max f (trace maxDepth inline t path (depth + 1)) := by
  unfold processValue at h
  split at h
  · cases hv with
    | undefined => exact (Option.some.inj h).symm
    | primitive p => exact (Option.some.inj h).symm
    | ref a hes =>
      rw [trace_not_inline fun harr => hinline a _ (by rw [harr])] at hs ⊢
      exact hdo a _ path _ f f' (.ref a hes) hs h
  · next hfull => rw [follow_full hfull]; exact (Option.some.inj h).symm

/-- `for` 文は、本体が手順を辿るなら全体の手順を辿る。 -/
theorem forOf_follows {inline : Bool} {pathOf : String → String} {depth : Nat}
    {body : String × Value n → Flattener n → Option (Flattener n)}
    (hbody : ∀ k v t f f', Unfolds heap v t →
      Settled max f (trace maxDepth inline t (pathOf k) depth) → body (k, v) f = some f' →
        f' = follow max f (trace maxDepth inline t (pathOf k) depth)) :
    ∀ (vs : List (String × Value n)) (ts : List (String × Tree (Fin n))) (f f' : Flattener n),
      UnfoldsAll heap vs ts → Settled max f (traceAll maxDepth inline pathOf ts depth) →
        forOf max body vs f = some f' →
          f' = follow max f (traceAll maxDepth inline pathOf ts depth) := by
  intro vs
  induction vs with
  | nil =>
    intro ts f f' hu hs h
    cases hu
    exact (Option.some.inj h).symm
  | cons e vs ih =>
    intro ts f f' hu hs h
    cases hu with
    | cons k hv hvs =>
      rw [traceAll] at hs ⊢
      obtain ⟨hs₁, hs₂⟩ := Settled.append _ hs
      rw [follow_append _ _ _ hs₁]
      unfold forOf at h
      split at h
      · obtain ⟨g, hg, hrest⟩ := Option.bind_eq_some_iff.mp h
        have hg := hbody k _ _ f g hv hs₁ hg
        subst hg
        exact ih _ _ _ hvs hs₂ hrest
      · next hfull =>
        rw [follow_full hfull, follow_full hfull]
        exact (Option.some.inj h).symm

theorem processEntry_follows (hdo : Follows heap max maxDepth doFlatten) {v : Value n}
    {t : Tree (Fin n)} (hv : Unfolds heap v t) {path k : String} {isArray : Bool} {depth : Nat}
    {f f' : Flattener n}
    (hs : Settled max f (trace maxDepth true t (newPrefix path isArray k) (depth + 1)))
    (h : processEntry heap max doFlatten path isArray depth (k, v) f = some f') :
    f' = follow max f (trace maxDepth true t (newPrefix path isArray k) (depth + 1)) := by
  cases hv with
  | undefined => exact processValue_follows hdo .undefined nofun hs h
  | primitive p => exact processValue_follows hdo (.primitive p) nofun hs h
  | ref a hes =>
    unfold processEntry at h
    dsimp only at h
    split at h
    · next harr =>
      rw [trace, harr] at hs ⊢
      exact forOf_follows (fun _ _ _ _ _ hv hs h =>
        processValue_follows hdo hv (fun _ _ _ => rfl) hs h) _ _ f f' hes hs h
    · next harr =>
      refine processValue_follows hdo (.ref a hes) (fun b es he => ?_) hs h
      injection he with _ he _
      exact absurd he harr

end DoFlatten

/-- **`doFlatten` は、展開した木の手順を辿る。** -/
theorem doFlatten_follows (heap : Heap n) (max : Option Nat) (maxDepth : ℤ) (fuel : Nat) :
    Follows heap max maxDepth (doFlatten heap max maxDepth fuel) := by
  induction fuel with
  | zero => intro a t path depth f f' _ _ h; cases h
  | succ fuel ih =>
    intro a t path depth f f' hu hs h
    cases hu with
    | ref _ hes =>
      unfold doFlatten at h
      rw [trace, Bool.false_and, if_neg Bool.false_ne_true] at hs ⊢
      by_cases hcan : canAddMoreAttributes max f
      · rw [if_pos hcan] at h
        by_cases hdepth : maxDepth < depth
        · rw [if_pos hdepth] at h ⊢
          exact (Option.some.inj h).symm
        · rw [if_neg hdepth] at h hs ⊢
          rw [follow, if_pos hcan]
          have hs := hs hcan
          dsimp only at h
          by_cases hseen : a ∈ f.seen
          · rw [if_pos hseen] at h ⊢
            exact (Option.some.inj h).symm
          · rw [if_neg hseen] at h hs ⊢
            exact forOf_follows (fun _ _ _ _ _ hv hs h => processEntry_follows ih hv hs h) _ _ _ f'
              hes hs h
      · rw [if_neg hcan] at h
        rw [follow_full hcan]
        exact (Option.some.inj h).symm

/-- 二度目に入る object で止まるのでなければ、書き出しは手順を辿った結果である。 -/
theorem flattenAttributes_eq {heap : Heap n} {obj : Value n} {t : Tree (Fin n)}
    (hu : Unfolds heap obj t) (path : Option String) {max : Option Nat} {maxDepth : ℤ}
    (hs : Settled max init (flattenTrace maxDepth t (path.getD ""))) :
    flattenAttributes heap obj path max maxDepth =
      some (follow max init (flattenTrace maxDepth t (path.getD ""))).result := by
  obtain ⟨f, hf, -⟩ := doFlatten_advances heap max maxDepth (n + 1) obj (path.getD "") 0 init
    (Nat.lt_succ_of_le (unseen_le _))
  have hfollow : f = follow max init (flattenTrace maxDepth t (path.getD "")) := by
    unfold flattenTrace at hs ⊢
    cases hu with
    | ref a hes =>
      split at hs
      · next hneg =>
        rw [if_pos hneg]
        have hneg' : maxDepth < ((0 : Nat) : ℤ) := hneg
        unfold doFlatten at hf
        rw [if_pos hneg', ite_self] at hf
        exact (Option.some.inj hf).symm
      · next hneg =>
        rw [if_neg hneg]
        exact doFlatten_follows heap max maxDepth _ a _ _ 0 init f (.ref a hes) hs hf
    | undefined =>
      unfold doFlatten at hf
      rw [ite_self, ite_self] at hf
      split <;> exact (Option.some.inj hf).symm
    | primitive p =>
      unfold doFlatten at hf
      by_cases hneg : maxDepth < 0
      · have hneg' : maxDepth < ((0 : Nat) : ℤ) := hneg
        rw [if_pos hneg', ite_self] at hf
        rw [if_pos hneg]
        exact (Option.some.inj hf).symm
      · have hneg' : ¬ maxDepth < ((0 : Nat) : ℤ) := hneg
        rw [if_neg hneg'] at hf
        rw [if_neg hneg, trace, follow, follow]
        split at hf
        · exact (Option.some.inj hf).symm
        · next hfull =>
          rw [addAttribute_full hfull]
          exact (Option.some.inj hf).symm
  rw [flattenAttributes, hf, hfollow]
  rfl

end Attributes
