import Trigger.Attributes.Trace

/-!
# 共有のある値の書き出し

`flattenAttributes` は一度入った object を循環とみなすので、複数の場所から参照される object は
二度目から sentinel になる。共有の無い複製との比較は、書き出しの手順の上で行う。
-/

namespace Attributes

open Infra Flattener

variable {n m : Nat}

/-! ## 二度入らない書き出し -/

section Fresh

variable {ι : Type}

/-- 個数の上限に達するまでに入る object。 -/
def entered (max : Option Nat) : Nat → List (Option ι) → List ι
  | _, [] => []
  | count, none :: ks => if Allows max count then entered max (count + 1) ks else []
  | count, some a :: ks => if Allows max count then a :: entered max count ks else []

/-- 書く手順の個数。 -/
def puts (es : List (Step ι)) : Nat := (es.filter (·.kind.isNone)).length

theorem entered_sublist (max : Option Nat) :
    ∀ (ks : List (Option ι)) (count : Nat), (entered max count ks).Sublist (ks.filterMap id)
  | [], _ => List.Sublist.slnil
  | none :: ks, count => by
    rw [entered]
    split
    · exact entered_sublist max ks (count + 1)
    · exact List.nil_sublist _
  | some a :: ks, count => by
    rw [entered]
    split
    · exact (entered_sublist max ks count).cons_cons a
    · exact List.nil_sublist _

/-- 上限を下げると、入る object は減る。 -/
theorem entered_tighter {max max' : Option Nat} (hle : ∀ m ∈ max, ∃ m' ∈ max', m' ≤ m) :
    ∀ (ks : List (Option ι)) (count : Nat),
      (entered max' count ks).Sublist (entered max count ks) := by
  have hallows : ∀ count, Allows max' count → Allows max count := by
    intro count h m hm
    obtain ⟨m', hm', hle⟩ := hle m hm
    exact lt_of_lt_of_le (h m' hm') hle
  intro ks
  induction ks with
  | nil => exact fun _ => List.Sublist.slnil
  | cons k ks ih =>
    intro count
    cases k with
    | none =>
      rw [entered, entered]
      split
      · next h => rw [if_pos (hallows count h)]; exact ih _
      · exact List.nil_sublist _
    | some a =>
      rw [entered, entered]
      split
      · next h => rw [if_pos (hallows count h)]; exact (ih _).cons_cons a
      · exact List.nil_sublist _

/-- `seen` から始めて、二度入る object が無い。 -/
def Fresh (max : Option Nat) (count : Nat) (seen : List ι) (es : List (Step ι)) : Prop :=
  (entered max count (es.map Step.kind)).Nodup ∧
    ∀ a ∈ entered max count (es.map Step.kind), a ∉ seen

theorem Fresh.put {max : Option Nat} {count : Nat} {seen : List ι} {path : String}
    {value : Primitive} {es : List (Step ι)} (h : Fresh max count seen (.put path value :: es))
    (hcan : Allows max count) : Fresh max (count + 1) seen es := by
  unfold Fresh at h
  rw [List.map_cons, Step.kind, entered, if_pos hcan] at h
  exact h

theorem Fresh.visit {max : Option Nat} {count : Nat} {seen : List ι} {a : ι} {path : String}
    {es : List (Step ι)} (h : Fresh max count seen (.visit a path :: es))
    (hcan : Allows max count) : a ∉ seen ∧ Fresh max count (a :: seen) es := by
  unfold Fresh at h
  rw [List.map_cons, Step.kind, entered, if_pos hcan, List.nodup_cons] at h
  obtain ⟨⟨hnot, hnodup⟩, hseen⟩ := h
  refine ⟨hseen a List.mem_cons_self, hnodup, fun b hb hm => ?_⟩
  rcases List.mem_cons.mp hm with rfl | hm
  · exact hnot hb
  · exact hseen b (List.mem_cons_of_mem _ hb) hm

/-- 二度目に入る最初の object。 -/
theorem exists_repeat (max : Option Nat) (es : List (Step ι)) :
    ∀ (count : Nat) (seen : List ι), ¬ Fresh max count seen es →
      ∃ es₁ a path es₂, es = es₁ ++ Step.visit a path :: es₂ ∧ (es₁.filterMap Step.kind).Nodup ∧
        (∀ b ∈ es₁.filterMap Step.kind, b ∉ seen) ∧ (a ∈ es₁.filterMap Step.kind ∨ a ∈ seen) ∧
        Allows max (count + puts es₁) := by
  induction es with
  | nil => exact fun _ _ h => absurd ⟨List.nodup_nil, nofun⟩ h
  | cons e es ih =>
    intro count seen h
    -- 上限に達していれば、後の step は何も見ない
    by_cases hcan : Allows max count
    · cases e with
      | put path value =>
        have hrest : ¬ Fresh max (count + 1) seen es := fun hf => h (by
          unfold Fresh
          rw [List.map_cons, Step.kind, entered, if_pos hcan]
          exact hf)
        obtain ⟨es₁, a, q, es₂, rfl, hnodup, hdisj, hmem, hall⟩ := ih (count + 1) seen hrest
        refine ⟨.put path value :: es₁, a, q, es₂, rfl, hnodup, hdisj, hmem, ?_⟩
        have hputs : puts (.put path value :: es₁) = puts es₁ + 1 := rfl
        rw [hputs, ← Nat.add_assoc, Nat.add_right_comm]
        exact hall
      | visit a path =>
        by_cases hseen : a ∈ seen
        · exact ⟨[], a, path, es, rfl, List.nodup_nil, nofun, .inr hseen, hcan⟩
        · have hrest : ¬ Fresh max count (a :: seen) es := fun hf => h (by
            unfold Fresh
            rw [List.map_cons, Step.kind, entered, if_pos hcan]
            refine ⟨List.nodup_cons.mpr ⟨fun hm => hf.2 a hm List.mem_cons_self, hf.1⟩, ?_⟩
            intro b hb
            rcases List.mem_cons.mp hb with rfl | hb
            · exact hseen
            · exact fun hm => hf.2 b hb (List.mem_cons_of_mem _ hm))
          obtain ⟨es₁, b, q, es₂, rfl, hnodup, hdisj, hmem, hall⟩ := ih count (a :: seen) hrest
          refine ⟨.visit a path :: es₁, b, q, es₂, rfl, ?_, ?_, ?_, hall⟩
          · exact List.nodup_cons.mpr ⟨fun hm => hdisj a hm List.mem_cons_self, hnodup⟩
          · intro c hc
            rcases List.mem_cons.mp hc with rfl | hc
            · exact hseen
            · exact fun hm => hdisj c hc (List.mem_cons_of_mem _ hm)
          · rcases hmem with hm | hm
            · exact .inl (List.mem_cons_of_mem _ hm)
            · rcases List.mem_cons.mp hm with rfl | hm
              · exact .inl List.mem_cons_self
              · exact .inr hm
    · refine absurd ?_ h
      unfold Fresh
      cases e with
      | put path value =>
        rw [List.map_cons, Step.kind, entered, if_neg hcan]
        exact ⟨List.nodup_nil, nofun⟩
      | visit a path =>
        rw [List.map_cons, Step.kind, entered, if_neg hcan]
        exact ⟨List.nodup_nil, nofun⟩

end Fresh

theorem addAttribute_of_allows {max : Option Nat} {f : Flattener n}
    (h : Allows max f.attributeCounter) (key : String) (value : Primitive) :
    addAttribute max f key value =
      ⟨f.seen, f.attributeCounter + 1, write f.result key value⟩ := if_pos h

theorem Fresh.settled {max : Option Nat} :
    ∀ {es : List (Step (Fin n))} {f : Flattener n}, Fresh max f.attributeCounter f.seen es →
      Settled max f es
  | [], _, _ => trivial
  | .put path value :: es, f, h => by
    rw [Settled]
    by_cases hcan : Allows max f.attributeCounter
    · rw [addAttribute_of_allows hcan]
      exact Fresh.settled (h.put hcan)
    · rw [addAttribute_full hcan]
      exact settled_full hcan es
  | .visit a path :: es, f, h => by
    intro hcan
    obtain ⟨hnot, h⟩ := h.visit hcan
    rw [if_neg hnot]
    exact Fresh.settled (f := f.see a) h

/-- 番地だけが違う手順は、二度入る object が無ければ同じ attribute を書く。 -/
theorem follow_aligned {max : Option Nat} :
    ∀ {es : List (Step (Fin n))} {es' : List (Step (Fin m))} {f : Flattener n} {g : Flattener m},
      es.map Step.erase = es'.map Step.erase → Fresh max f.attributeCounter f.seen es →
        Fresh max g.attributeCounter g.seen es' → f.attributeCounter = g.attributeCounter →
          f.result = g.result → (follow max f es).result = (follow max g es').result
  | [], [], _, _, _, _, _, _, hr => hr
  | .put path value :: es, .put path' value' :: es', f, g, he, hf, hg, hc, hr => by
    injection he with hhead htail
    injection hhead with hpath hvalue
    subst hpath hvalue
    rw [follow, follow]
    by_cases hcan : Allows max f.attributeCounter
    · have hcan' : Allows max g.attributeCounter := hc ▸ hcan
      rw [addAttribute_of_allows hcan, addAttribute_of_allows hcan']
      exact follow_aligned htail (hf.put hcan) (hg.put hcan') (congrArg (· + 1) hc)
        (congrArg (fun r => write r path value) hr)
    · have hcan' : ¬ Allows max g.attributeCounter := hc ▸ hcan
      rw [addAttribute_full hcan, addAttribute_full hcan', follow_full hcan, follow_full hcan']
      exact hr
  | .visit a path :: es, .visit b path' :: es', f, g, he, hf, hg, hc, hr => by
    injection he with _ htail
    rw [follow, follow]
    by_cases hcan : Allows max f.attributeCounter
    · have hcan' : Allows max g.attributeCounter := hc ▸ hcan
      obtain ⟨ha, hf⟩ := hf.visit hcan
      obtain ⟨hb, hg⟩ := hg.visit hcan'
      rw [if_pos (c := canAddMoreAttributes max f) hcan, if_neg ha,
        if_pos (c := canAddMoreAttributes max g) hcan', if_neg hb]
      exact follow_aligned (f := f.see a) (g := g.see b) htail hf hg hc hr
    · have hcan' : ¬ Allows max g.attributeCounter := hc ▸ hcan
      rw [if_neg (c := canAddMoreAttributes max f) hcan,
        if_neg (c := canAddMoreAttributes max g) hcan']
      exact hr
  | .put _ _ :: _, .visit _ _ :: _, _, _, he, _, _, _, _ => by
    injection he with hhead _
    injection hhead
  | .visit _ _ :: _, .put _ _ :: _, _, _, he, _, _, _, _ => by
    injection he with hhead _
    injection hhead

/-- 上限に達しないまま、二度入らずに辿った状態。 -/
theorem follow_exact {max : Option Nat} :
    ∀ {es : List (Step (Fin n))} {f : Flattener n}, (es.filterMap Step.kind).Nodup →
      (∀ a ∈ es.filterMap Step.kind, a ∉ f.seen) → Allows max (f.attributeCounter + puts es) →
        (follow max f es).attributeCounter = f.attributeCounter + puts es ∧
          (∀ a, a ∈ es.filterMap Step.kind ∨ a ∈ f.seen → a ∈ (follow max f es).seen) ∧
          Settled max f es
  | [], f, _, _, _ => ⟨rfl, fun a h => h.resolve_left List.not_mem_nil, trivial⟩
  | .put path value :: es, f, hnodup, hdisj, hall => by
    have hcan : Allows max f.attributeCounter := hall.mono (Nat.le_add_right _ _)
    have hputs : puts (.put path value :: es) = puts es + 1 := rfl
    rw [hputs, ← Nat.add_assoc, Nat.add_right_comm] at hall ⊢
    rw [follow, Settled, addAttribute_of_allows hcan]
    exact follow_exact (f := ⟨f.seen, f.attributeCounter + 1, write f.result path value⟩) hnodup
      hdisj hall
  | .visit a path :: es, f, hnodup, hdisj, hall => by
    have hcan : canAddMoreAttributes max f := hall.mono (Nat.le_add_right _ _)
    obtain ⟨hnot, hnodup⟩ := List.nodup_cons.mp hnodup
    have hseen : a ∉ f.seen := hdisj a List.mem_cons_self
    rw [follow, if_pos hcan, if_neg hseen]
    obtain ⟨hcount, hmem, hset⟩ := follow_exact (f := f.see a) hnodup
      (fun b hb hm => by
        rcases List.mem_cons.mp hm with rfl | hm
        · exact hnot hb
        · exact hdisj b (List.mem_cons_of_mem _ hb) hm) hall
    refine ⟨hcount, fun b hb => hmem b ?_, fun _ => by rw [if_neg hseen]; exact hset⟩
    rcases hb with hb | hb
    · rcases List.mem_cons.mp hb with rfl | hb
      · exact .inr List.mem_cons_self
      · exact .inl hb
    · exact .inr (List.mem_cons_of_mem _ hb)

/-- 二度入らなければ、sentinel は手順が書く値としてしか現れない。 -/
theorem follow_values {max : Option Nat} {P : Primitive → Prop} :
    ∀ {es : List (Step (Fin n))} {f : Flattener n}, Fresh max f.attributeCounter f.seen es →
      (∀ key value, Step.put key value ∈ es → P value) → (∀ e ∈ f.result, P e.2) →
        ∀ e ∈ (follow max f es).result, P e.2
  | [], _, _, _, hr => hr
  | .put path value :: es, f, h, hput, hr => by
    rw [follow]
    by_cases hcan : Allows max f.attributeCounter
    · rw [addAttribute_of_allows hcan]
      refine follow_values (f := ⟨f.seen, _, _⟩) (h.put hcan)
        (fun key v hm => hput key v (List.mem_cons_of_mem _ hm)) ?_
      rintro ⟨k, v⟩ he
      unfold write at he
      split at he
      · exact hr _ he
      · rcases JsMap.mem_set he with he | ⟨-, rfl⟩
        · exact hr _ he
        · exact hput path _ List.mem_cons_self
    · rw [addAttribute_full hcan, follow_full hcan]
      exact hr
  | .visit a path :: es, f, h, hput, hr => by
    rw [follow]
    split
    · next hcan =>
      obtain ⟨hnot, h⟩ := h.visit hcan
      rw [if_neg hnot]
      exact follow_values (f := f.see a) h
        (fun key v hm => hput key v (List.mem_cons_of_mem _ hm)) hr
    · exact hr

/-! ## 共有の無い複製との比較 -/

/-- 個数と深さの上限の中で、どの object にも高々一度しか入らない。 -/
def VisitedOnce {ι : Type} (max : Option Nat) (maxDepth : ℤ) (t : Tree ι) : Prop :=
  (entered max 0 ((flattenTrace maxDepth t "").map Step.kind)).Nodup

theorem flattenTrace_kind {ι : Type} (maxDepth : ℤ) (t : Tree ι) (path path' : String) :
    (flattenTrace maxDepth t path).map Step.kind =
      (flattenTrace maxDepth t path').map Step.kind := by
  unfold flattenTrace
  split
  · rfl
  · exact trace_kind maxDepth false t path path' 0

theorem VisitedOnce.fresh {ι : Type} {max : Option Nat} {maxDepth : ℤ} {t : Tree ι}
    (h : VisitedOnce max maxDepth t) (path : String) :
    Fresh max 0 [] (flattenTrace maxDepth t path) := by
  unfold VisitedOnce at h
  rw [flattenTrace_kind maxDepth t "" path] at h
  exact ⟨h, fun _ _ => List.not_mem_nil⟩

/-- 番地が重ならない木では、どの object にも高々一度しか入らない。 -/
theorem visitedOnce_of_nodup {ι : Type} {t : Tree ι} (h : t.ids.Nodup) (max : Option Nat)
    (maxDepth : ℤ) : VisitedOnce max maxDepth t := by
  unfold VisitedOnce
  refine List.Nodup.sublist ((entered_sublist max _ 0).trans ?_) h
  rw [List.filterMap_map]
  unfold flattenTrace
  split
  · exact List.nil_sublist _
  · exact trace_sublist maxDepth false t "" 0

theorem flattenTrace_erase {ι κ : Type} {t : Tree ι} {t' : Tree κ} (h : t'.erase = t.erase)
    (maxDepth : ℤ) (path : String) :
    (flattenTrace maxDepth t path).map Step.erase =
      (flattenTrace maxDepth t' path).map Step.erase := by
  unfold flattenTrace
  split
  · rfl
  · rw [← trace_erase, ← trace_erase, h]

/-- 二度入らない値の書き出しは、共有の無い複製のものに等しい。 -/
theorem flattenAttributes_copy {heap : Heap n} {obj : Value n} {t : Tree (Fin n)} {heap' : Heap m}
    {obj' : Value m} (h : DeepCopy heap obj t heap' obj') {max : Option Nat} {maxDepth : ℤ}
    (honce : VisitedOnce max maxDepth t) (path : Option String) :
    flattenAttributes heap obj path max maxDepth =
      flattenAttributes heap' obj' path max maxDepth := by
  obtain ⟨t', hu', herase, hnodup⟩ := h.copy
  have hfresh := honce.fresh (path.getD "")
  have hfresh' := (visitedOnce_of_nodup hnodup max maxDepth).fresh (path.getD "")
  rw [flattenAttributes_eq h.unfolds path (Fresh.settled hfresh),
    flattenAttributes_eq hu' path (Fresh.settled hfresh'),
    follow_aligned (f := init) (g := init) (flattenTrace_erase herase maxDepth _) hfresh hfresh'
      rfl rfl]

theorem attribute_ne_sentinel {p : Primitive} (h : p ≠ .str CIRCULAR_REFERENCE_SENTINEL) :
    p.attribute ≠ .str CIRCULAR_REFERENCE_SENTINEL := by
  cases p with
  | null => decide
  | _ => exact h

theorem flattenTrace_path {ι : Type} (maxDepth : ℤ) (t : Tree ι) {s : Step ι}
    (h : s ∈ flattenTrace maxDepth t "$") : s.path ≠ "__proto__" := by
  unfold flattenTrace at h
  split at h
  · cases h
  · obtain ⟨r, hr⟩ := trace_extends maxDepth false t "$" 0 (by decide) s h
    rw [hr]
    intro he
    have := congrArg (fun s : String => s.toList.head?) he
    simp [String.toList_append] at this

theorem flattenTrace_primitives {ι : Type} {maxDepth : ℤ} {t : Tree ι} {path key : String}
    {value : Primitive} (h : Step.put key value ∈ flattenTrace maxDepth t path) :
    ∃ p ∈ t.primitives, value = p.attribute := by
  unfold flattenTrace at h
  split at h
  · cases h
  · exact trace_primitives maxDepth false t path 0 key value h

/-- 二度入る object があれば、その sentinel が最後に書かれる上限で複製と違う。 -/
theorem exists_differs {heap : Heap n} {obj : Value n} {t : Tree (Fin n)} {heap' : Heap m}
    {obj' : Value m} (h : DeepCopy heap obj t heap' obj') {max : Option Nat} {maxDepth : ℤ}
    (hs : .str CIRCULAR_REFERENCE_SENTINEL ∉ t.primitives) (hnot : ¬ VisitedOnce max maxDepth t) :
    ∃ m, (∀ k ∈ max, m ≤ k) ∧ flattenAttributes heap obj (some "$") (some m) maxDepth ≠
      flattenAttributes heap' obj' (some "$") (some m) maxDepth := by
  obtain ⟨t', hu', herase, hnodup⟩ := h.copy
  obtain ⟨es₁, a, path, es₂, hsplit, hvisits, -, hmem, hall⟩ :=
    exists_repeat max (flattenTrace maxDepth t "$") 0 [] (fun hf => hnot (by
      unfold VisitedOnce
      rw [flattenTrace_kind maxDepth t "" "$"]
      exact hf.1))
  have hmem := hmem.resolve_right List.not_mem_nil
  rw [Nat.zero_add] at hall
  refine ⟨puts es₁ + 1, fun k hk => hall k hk, ?_⟩
  -- 上限は、この sentinel でちょうど尽きる。
  have hall' : Allows (some (puts es₁ + 1)) ((init : Flattener n).attributeCounter + puts es₁) := by
    intro k hk
    cases hk
    show 0 + puts es₁ < puts es₁ + 1
    omega
  generalize hlimit : some (puts es₁ + 1) = limit at hall' ⊢
  obtain ⟨hcount, hseen, hset⟩ :=
    follow_exact (f := init) hvisits (fun _ _ => List.not_mem_nil) hall'
  have hcan : canAddMoreAttributes limit (follow limit init es₁) := by
    unfold canAddMoreAttributes
    rw [hcount]
    exact hall'
  have ha : a ∈ (follow limit init es₁).seen := hseen a (.inl hmem)
  have hfull : ∀ key value, ¬ canAddMoreAttributes limit
      (addAttribute limit (follow limit init es₁) key value) := by
    intro key value hc
    rw [addAttribute_of_allows hcan] at hc
    have := hc _ hlimit.symm
    dsimp only at this
    rw [hcount] at this
    have hzero : (init : Flattener n).attributeCounter = 0 := rfl
    omega
  have hsettled : Settled limit init (flattenTrace maxDepth t "$") := by
    rw [hsplit]
    exact Settled.of_append _ hset (fun _ => by rw [if_pos ha]; exact hfull _ _)
  have hresult : (follow limit init (flattenTrace maxDepth t "$")).result =
      write (follow limit init es₁).result path
        (.str CIRCULAR_REFERENCE_SENTINEL) := by
    rw [hsplit, follow_append _ _ _ hset, follow, if_pos hcan, if_pos ha,
      addAttribute_of_allows hcan]
  have hpath : path ≠ "__proto__" :=
    flattenTrace_path maxDepth t (s := .visit a path)
      (by rw [hsplit]; exact List.mem_append_right _ List.mem_cons_self)
  have hfresh' := (visitedOnce_of_nodup hnodup limit maxDepth).fresh "$"
  have hvalues := follow_values (f := init) (P := (· ≠ .str CIRCULAR_REFERENCE_SENTINEL)) hfresh'
    (fun key value hput => by
      obtain ⟨p, hp, rfl⟩ := flattenTrace_primitives hput
      rw [← t'.primitives_erase, herase, t.primitives_erase] at hp
      exact attribute_ne_sentinel (fun he => hs (he ▸ hp))) fun _ h => absurd h List.not_mem_nil
  intro heq
  rw [flattenAttributes_eq h.unfolds _ hsettled,
    flattenAttributes_eq hu' _ (Fresh.settled (f := init) hfresh')] at heq
  have heq := hresult.symm.trans (Option.some.inj heq)
  refine hvalues (path, .str CIRCULAR_REFERENCE_SENTINEL) ?_ rfl
  have hget := JsMap.get_set_self (follow limit init es₁).result path
    (.str CIRCULAR_REFERENCE_SENTINEL)
  rw [write, if_neg hpath] at heq
  exact heq ▸ JsMap.mem_of_get hget

/--
**`flattenAttributes` は循環があっても返り、個数の上限を守る。個数と深さの上限の中でどの object にも
高々一度しか入らなければ、共有の無い複製と同じ map を返す。** 値に sentinel と同じ文字列が無ければ、この
条件は（その個数以下のすべての上限とすべての接頭辞で）必要でもある。
-/
theorem sharing_iff {n : Nat} (heap : Heap n) (obj : Value n) (max : Option Nat) (maxDepth : ℤ) :
    (∀ path : Option String, ∃ r, flattenAttributes heap obj path max maxDepth = some r ∧
        ∀ m ∈ max, r.length ≤ m) ∧
      ∀ {m : Nat} (t : Tree (Fin n)) (heap' : Heap m) (obj' : Value m),
        DeepCopy heap obj t heap' obj' →
        (VisitedOnce max maxDepth t → ∀ path,
          flattenAttributes heap obj path max maxDepth =
            flattenAttributes heap' obj' path max maxDepth) ∧
        (.str CIRCULAR_REFERENCE_SENTINEL ∉ t.primitives →
          ((∀ path max', (∀ k ∈ max, ∃ k' ∈ max', k' ≤ k) →
              flattenAttributes heap obj path max' maxDepth =
                flattenAttributes heap' obj' path max' maxDepth) ↔
            VisitedOnce max maxDepth t)) := by
  refine ⟨fun path => flattenAttributes_bounded heap obj path max maxDepth,
    fun t heap' obj' h => ⟨fun honce path => flattenAttributes_copy h honce path,
      fun hs => ⟨fun hsame => ?_, ?_⟩⟩⟩
  · by_contra hnot
    obtain ⟨k, hk, hne⟩ := exists_differs h hs hnot
    exact hne (hsame (some "$") (some k) (fun j hj => ⟨k, rfl, hk j hj⟩))
  · intro honce path max' htight
    exact flattenAttributes_copy h (honce.sublist (entered_tighter htight _ 0)) path

/-- `{ a: s, b: s }`。`s` は `{ q: 1 }` である。 -/
def sharedHeap : Heap 2
  | 0 => .object [("a", .ref 1), ("b", .ref 1)]
  | 1 => .object [("q", .primitive (.num 1))]

/-- 二つ目の `s` を複製した値。 -/
def copiedHeap : Heap 3
  | 0 => .object [("a", .ref 1), ("b", .ref 2)]
  | 1 => .object [("q", .primitive (.num 1))]
  | 2 => .object [("q", .primitive (.num 1))]

/-- 二度参照された object は、循環でなくても sentinel になる。 -/
theorem shared_differs :
    ∃ t, DeepCopy sharedHeap (.ref 0) t copiedHeap (.ref 0) ∧
      flattenAttributes sharedHeap (.ref 0) none none 128 ≠
        flattenAttributes copiedHeap (.ref 0) none none 128 := by
  refine ⟨.node 0 false [("a", .node 1 false [("q", .primitive (.num 1))]),
    ("b", .node 1 false [("q", .primitive (.num 1))])], ⟨?_, .node 0 false
    [("a", .node 1 false [("q", .primitive (.num 1))]),
      ("b", .node 2 false [("q", .primitive (.num 1))])], ?_, rfl, by decide⟩, by decide +kernel⟩
  · exact .ref 0 (.cons "a" (.ref 1 (.cons "q" (.primitive _) .nil))
      (.cons "b" (.ref 1 (.cons "q" (.primitive _) .nil)) .nil))
  · exact .ref 0 (.cons "a" (.ref 1 (.cons "q" (.primitive _) .nil))
      (.cons "b" (.ref 2 (.cons "q" (.primitive _) .nil)) .nil))

/-- 配列 `[1]` を `{ a: [1], b: [1] }` の両方から参照した値。 -/
def sharedArrayHeap : Heap 2
  | 0 => .object [("a", .ref 1), ("b", .ref 1)]
  | 1 => .array [.primitive (.num 1)]

def copiedArrayHeap : Heap 3
  | 0 => .object [("a", .ref 1), ("b", .ref 2)]
  | 1 => .array [.primitive (.num 1)]
  | 2 => .array [.primitive (.num 1)]

/-- property の値である配列は共有していてもよい。 -/
theorem sharing_sharedArray :
    flattenAttributes sharedArrayHeap (.ref 0) (some "p") (some 2) 128 =
      flattenAttributes copiedArrayHeap (.ref 0) (some "p") (some 2) 128 :=
  ((sharing_iff sharedArrayHeap (.ref 0) (some 2) 128).2
    (.node 0 false [("a", .node 1 true [("0", .primitive (.num 1))]),
      ("b", .node 1 true [("0", .primitive (.num 1))])]) copiedArrayHeap (.ref 0)
    ⟨.ref 0 (.cons "a" (.ref 1 (.cons "0" (.primitive _) .nil))
        (.cons "b" (.ref 1 (.cons "0" (.primitive _) .nil)) .nil)),
      .node 0 false [("a", .node 1 true [("0", .primitive (.num 1))]),
        ("b", .node 2 true [("0", .primitive (.num 1))])],
      .ref 0 (.cons "a" (.ref 1 (.cons "0" (.primitive _) .nil))
        (.cons "b" (.ref 2 (.cons "0" (.primitive _) .nil)) .nil)), rfl, by decide⟩).1 (by unfold VisitedOnce; decide +kernel) (some "p")

end Attributes
