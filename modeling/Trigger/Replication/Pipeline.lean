import Mathlib.Data.List.TakeWhile
import Trigger.Infra.History
import Trigger.Replication.Service

/-!
# 変更の行方

commit された変更は、同じ key の新しい変更に置き換えられない限り、batch・flush・挿入済み・諦めた挿入のどれかにある。
-/

namespace Replication

open Infra

variable {J : Type} {o : Options J} {s s' : ServiceState J}

/-! ## key -/

/-- 同じ key の変更。 -/
def SameKey (x y : TaskRunInsert J) : Prop := getKey x = getKey y

/-- 同じ run の変更。 -/
def SameRun (x y : TaskRunInsert J) : Prop := x.run.id = y.run.id

theorem SameKey.trans {x y z : TaskRunInsert J} (h : SameKey x y) (h' : SameKey y z) :
    SameKey x z := Eq.trans h h'

theorem sameKey_trans (x y z : TaskRunInsert J) (h : SameKey x y) (h' : SameKey y z) :
    SameKey x z := h.trans h'

theorem sameRun_trans (x y z : TaskRunInsert J) (h : SameRun x y) (h' : SameRun y z) :
    SameRun x z := Eq.trans h h'

theorem getKey_isSome {x : TaskRunInsert J} (h : x.run.id ≠ "") :
    getKey x = some (x.event.text ++ "_" ++ x.run.id) := if_neg h

theorem length_tag_text (t : Tag) : t.text.toList.length = 6 := by cases t <;> decide

theorem getKey_inj {x y : TaskRunInsert J} {k : String} (hx : getKey x = some k)
    (hy : getKey y = some k) : x.event = y.event ∧ SameRun x y := by
  unfold getKey at hx hy
  split at hx
  · cases hx
  split at hy
  · cases hy
  have heq := congrArg String.toList ((Option.some.inj hx).trans (Option.some.inj hy).symm)
  simp only [String.toList_append, List.append_assoc] at heq
  obtain ⟨htag, hrest⟩ := List.append_inj heq (by rw [length_tag_text, length_tag_text])
  refine ⟨?_, String.toList_inj.mp (List.append_cancel_left hrest)⟩
  cases hxe : x.event <;> cases hye : y.event <;> rw [hxe, hye] at htag <;>
    first | rfl | exact absurd htag (by decide)

theorem SameKey.sameRun {x y : TaskRunInsert J} (h : SameKey x y) (hx : getKey x ≠ none) :
    SameRun x y := by
  obtain ⟨k, hk⟩ := Option.ne_none_iff_exists'.mp hx
  exact (getKey_inj hk (h ▸ hk)).2

/-! ## batch への追加 -/

/-- batch の key は、値から作った key である。 -/
structure Keyed (m : JsMap (TaskRunInsert J)) : Prop where
  nodup : (m.map Prod.fst).Nodup
  getKey : ∀ k y, (k, y) ∈ m → getKey y = some k

theorem Keyed.empty : Keyed ([] : JsMap (TaskRunInsert J)) := ⟨List.nodup_nil, by simp⟩

/-- batch にある変更。 -/
def Held (m : JsMap (TaskRunInsert J)) (y : TaskRunInsert J) : Prop := y ∈ m.map Prod.snd

theorem held_of_mem {m : JsMap (TaskRunInsert J)} {k : String} {y : TaskRunInsert J}
    (h : (k, y) ∈ m) : Held m y := List.mem_map_of_mem (f := Prod.snd) h

theorem Held.mem {m : JsMap (TaskRunInsert J)} {y : TaskRunInsert J} (h : Held m y) :
    ∃ k, (k, y) ∈ m := by
  obtain ⟨⟨k, y'⟩, hmem, rfl⟩ := List.mem_map.mp h
  exact ⟨k, hmem⟩

variable {m : JsMap (TaskRunInsert J)}

theorem held_set (key : String) (x : TaskRunInsert J) : Held (m.set key x) x :=
  held_of_mem (JsMap.mem_of_get (JsMap.get_set_self m key x))

/-- `addItem` が batch にすること。 -/
theorem addItem_cases (m : JsMap (TaskRunInsert J)) (x : TaskRunInsert J) :
    (getKey x = none ∧ addItem m x = m) ∨
    (∃ key existing, getKey x = some key ∧ m.get key = some existing ∧
      x.version < existing.version ∧ addItem m x = m) ∨
    (∃ key, getKey x = some key ∧ (∀ existing, m.get key = some existing →
      existing.version ≤ x.version) ∧ addItem m x = m.set key x) := by
  unfold addItem
  cases hkey : getKey x with
  | none => exact .inl ⟨rfl, rfl⟩
  | some key =>
    simp only
    cases hget : m.get key with
    | none =>
      refine .inr (.inr ⟨key, rfl, fun existing h => ?_, rfl⟩)
      rw [hget] at h
      cases h
    | some existing =>
      by_cases hle : existing.version ≤ x.version
      · refine .inr (.inr ⟨key, rfl, fun e h => ?_, by simp [shouldReplace, hle]⟩)
        rw [hget] at h
        cases h
        exact hle
      · exact .inr (.inl ⟨key, existing, rfl, hget, by omega, by simp [shouldReplace, hle]⟩)

theorem Keyed.addItem (h : Keyed m) (x : TaskRunInsert J) : Keyed (addItem m x) := by
  rcases addItem_cases m x with ⟨-, heq⟩ | ⟨_, _, -, -, -, heq⟩ | ⟨key, hkey, -, heq⟩ <;> rw [heq]
  · exact h
  · exact h
  · refine ⟨JsMap.nodup_keys_set h.nodup key x, fun k y hmem => ?_⟩
    rcases JsMap.mem_set hmem with hold | ⟨rfl, rfl⟩
    · exact h.getKey k y hold
    · exact hkey

theorem Keyed.foldl (h : Keyed m) (items : List (TaskRunInsert J)) :
    Keyed (items.foldl Replication.addItem m) := by
  induction items generalizing m with
  | nil => exact h
  | cons x items ih => exact ih (h.addItem x)

theorem held_addItem {x y : TaskRunInsert J} (h : Held (addItem m x) y) :
    Held m y ∨ y = x ∧ getKey x ≠ none := by
  rcases addItem_cases m x with ⟨-, heq⟩ | ⟨_, _, -, -, -, heq⟩ | ⟨key, hkey, -, heq⟩ <;>
    rw [heq] at h
  · exact .inl h
  · exact .inl h
  · obtain ⟨k, hmem⟩ := h.mem
    rcases JsMap.mem_set hmem with hold | ⟨-, rfl⟩
    · exact .inl (held_of_mem hold)
    · exact .inr ⟨rfl, by rw [hkey]; exact Option.some_ne_none key⟩

theorem held_foldl {items : List (TaskRunInsert J)} {y : TaskRunInsert J}
    (h : Held (items.foldl addItem m) y) : Held m y ∨ y ∈ items := by
  induction items generalizing m with
  | nil => exact .inl h
  | cons x items ih =>
    rcases ih h with h | h
    · rcases held_addItem h with h | ⟨rfl, -⟩
      · exact .inl h
      · exact .inr List.mem_cons_self
    · exact .inr (List.mem_cons_of_mem x h)

/-- 既にある変更は残るか、それより古くない同じ key の変更に置き換えられる。 -/
theorem Held.addItem (hm : Keyed m) {y : TaskRunInsert J} (h : Held m y) (x : TaskRunInsert J) :
    Held (addItem m x) y ∨ SameKey y x ∧ y.version ≤ x.version ∧ Held (Replication.addItem m x) x := by
  rcases addItem_cases m x with ⟨-, heq⟩ | ⟨_, _, -, -, -, heq⟩ | ⟨key, hkey, hle, heq⟩ <;> rw [heq]
  · exact .inl h
  · exact .inl h
  · obtain ⟨k, hmem⟩ := h.mem
    by_cases hk : k = key
    · subst hk
      refine .inr ⟨(hm.getKey k y hmem).trans hkey.symm, ?_, held_set k x⟩
      exact hle y (Record.lookup_of_mem hm.nodup hmem)
    · refine .inl (held_of_mem (k := k) (JsMap.mem_of_get ?_))
      rw [JsMap.get_set_of_ne x hk]
      exact Record.lookup_of_mem hm.nodup hmem

theorem Held.foldl (hm : Keyed m) {y : TaskRunInsert J} (h : Held m y)
    (items : List (TaskRunInsert J)) : Held (items.foldl Replication.addItem m) y ∨
      ∃ z ∈ items, SameKey y z ∧ y.version ≤ z.version ∧ Held (items.foldl Replication.addItem m) z := by
  induction items generalizing m y with
  | nil => exact .inl h
  | cons x items ih =>
    rcases h.addItem hm x with hy | ⟨hyx, hle, hx⟩
    · rcases ih (hm.addItem x) hy with hy | ⟨z, hz, hrest⟩
      · exact .inl hy
      · exact .inr ⟨z, List.mem_cons_of_mem x hz, hrest⟩
    · rcases ih (hm.addItem x) hx with hx | ⟨z, hz, hxz, hle', hz'⟩
      · exact .inr ⟨x, List.mem_cons_self, hyx, hle, hx⟩
      · exact .inr ⟨z, List.mem_cons_of_mem x hz, hyx.trans hxz, hle.trans hle', hz'⟩

/-- 加えられた変更は、batch に入るか、batch にあるより新しい変更のために捨てられる。 -/
theorem addItem_held (hm : Keyed m) {x : TaskRunInsert J} (hx : getKey x ≠ none) :
    Held (addItem m x) x ∨
      ∃ y, Held m y ∧ Held (addItem m x) y ∧ SameKey x y ∧ x.version < y.version := by
  rcases addItem_cases m x with ⟨hnone, -⟩ | ⟨key, e, hkey, hget, hlt, heq⟩ | ⟨key, -, -, heq⟩
  · exact absurd hnone hx
  · have hmem := JsMap.mem_of_get hget
    refine .inr ⟨e, held_of_mem hmem, by rw [heq]; exact held_of_mem hmem, ?_, hlt⟩
    exact hkey.trans (hm.getKey key e hmem).symm
  · rw [heq]
    exact .inl (held_set key x)

/-- 一つの transaction の変更を加えた後、どの変更にも、それ以降の変更か元からあった新しい変更が残る。 -/
theorem represented_foldl {v : Nat} (hm : Keyed m) {items : List (TaskRunInsert J)}
    (hv : ∀ x ∈ items, x.version = v) :
    ∀ x rest, x :: rest <:+ items → getKey x ≠ none →
      (∃ y ∈ x :: rest, SameKey x y ∧ Held (items.foldl addItem m) y) ∨
      ∃ y, Held m y ∧ Held (items.foldl addItem m) y ∧ SameKey x y ∧ v < y.version := by
  induction items generalizing m with
  | nil =>
    intro x rest h
    exact absurd (List.suffix_nil.mp h) (List.cons_ne_nil x rest)
  | cons a items ih =>
    intro x rest hsuf hx
    have hitems : ∀ x ∈ items, x.version = v := fun x hx => hv x (List.mem_cons_of_mem a hx)
    have ha : a.version = v := hv a List.mem_cons_self
    rcases List.suffix_cons_iff.mp hsuf with heq | hsuf
    · obtain ⟨rfl, rfl⟩ := List.cons.inj heq
      rcases addItem_held hm hx with hheld | ⟨y, hy, hheld, hxy, hlt⟩
      · rcases hheld.foldl (hm.addItem x) rest with h | ⟨z, hz, hxz, -, h⟩
        · exact .inl ⟨x, List.mem_cons_self, rfl, h⟩
        · exact .inl ⟨z, List.mem_cons_of_mem x hz, hxz, h⟩
      · rcases hheld.foldl (hm.addItem x) rest with h | ⟨z, hz, hyz, -, h⟩
        · exact .inr ⟨y, hy, h, hxy, ha ▸ hlt⟩
        · exact .inl ⟨z, List.mem_cons_of_mem x hz, hxy.trans hyz, h⟩
    · rcases ih (hm.addItem a) hitems x rest hsuf hx with h | ⟨y, hy, h, hxy, hlt⟩
      · exact .inl h
      · rcases held_addItem hy with hy | ⟨rfl, -⟩
        · exact .inr ⟨y, hy, h, hxy, hlt⟩
        · omega

/-! ## 記録 -/

/-- LSN の順に並んだ記録。 -/
abbrev InOrder (log : List (TaskRunInsert J)) : Prop := log.Pairwise (·.version ≤ ·.version)

variable {log items : List (TaskRunInsert J)} {lsn : Lsn}

theorem version_of_mem_takeWhile {y : TaskRunInsert J} {v : Nat}
    (h : y ∈ log.takeWhile (·.version ≤ v)) : y.version ≤ v := by
  have hy := List.mem_takeWhile_imp h
  exact of_decide_eq_true hy

theorem version_of_mem_dropWhile {y : TaskRunInsert J} {v : Nat} (hlog : InOrder log)
    (h : y ∈ log.dropWhile (·.version ≤ v)) : v < y.version := by
  induction log with
  | nil => cases h
  | cons x log ih =>
    obtain ⟨hx, hlog⟩ := List.pairwise_cons.mp hlog
    by_cases hle : x.version ≤ v
    · rw [List.dropWhile_cons_of_pos (by simpa using hle)] at h
      exact ih hlog h
    · rw [List.dropWhile_cons_of_neg (by simpa using hle)] at h
      rcases List.mem_cons.mp h with rfl | hmem
      · omega
      · have := hx y hmem
        omega

theorem mem_record {y : TaskRunInsert J} : y ∈ record lsn items log ↔ y ∈ log ∨ y ∈ items := by
  unfold record
  conv_rhs => rw [← List.takeWhile_append_dropWhile (p := (·.version ≤ lsnToUInt64 lsn)) (l := log)]
  simp only [List.mem_append]
  tauto

theorem version_of_mem_itemsOf {events : List (TransactionEvent J)} {x : TaskRunInsert J}
    (h : x ∈ itemsOf lsn events) : x.version = lsnToUInt64 lsn := by
  obtain ⟨e, -, rfl⟩ := List.mem_map.mp h
  rfl

theorem InOrder.record (hlog : InOrder log) (hitems : ∀ x ∈ items, x.version = lsnToUInt64 lsn) :
    InOrder (record lsn items log) := by
  unfold Replication.record
  refine List.pairwise_append.mpr ⟨List.pairwise_append.mpr ⟨?_, ?_, ?_⟩, ?_, ?_⟩
  · exact hlog.sublist (List.takeWhile_sublist _)
  · refine List.pairwise_of_forall_mem_list fun x hx y hy => ?_
    rw [hitems x hx, hitems y hy]
  · intro x hx y hy
    rw [hitems y hy]
    exact version_of_mem_takeWhile hx
  · exact hlog.sublist (List.dropWhile_sublist _)
  · intro x hx y hy
    have hy := version_of_mem_dropWhile hlog hy
    rcases List.mem_append.mp hx with hx | hx
    · have := version_of_mem_takeWhile hx
      omega
    · have := hitems x hx
      omega

/-! ## 不変条件 -/

/-- 挿入が終わっていない変更。 -/
def Outstanding (s : ServiceState J) (y : TaskRunInsert J) : Prop :=
  Held s.batch y ∨ (∃ f ∈ s.flushes, y ∈ f.batch) ∨ y ∈ s.lost

/-- 挿入の済んだ batch にあり、payload も書かれた変更。 -/
def Stored (o : Options J) (s : ServiceState J) (y : TaskRunInsert J) : Prop :=
  (∃ b ∈ s.written, y ∈ b) ∧ ∀ p, payloadInsertOf o y = some p → p ∈ s.payloads

def Carried (o : Options J) (s : ServiceState J) (y : TaskRunInsert J) : Prop :=
  Outstanding s y ∨ Stored o s y

/-- 変更の行方の不変条件。 -/
structure Pipeline (o : Options J) (s : ServiceState J) : Prop where
  inOrder : InOrder s.log
  keyed : Keyed s.batch
  logged : ∀ y, Outstanding s y → y ∈ s.log
  started : ∀ f ∈ s.flushes, ∀ attempt, f.phase = .payloads attempt true → f.batch ∈ s.written
  carried : Represented (getKey · ≠ none) (Carried o s) SameKey s.log
  blocks : s.taskRuns = s.written.map (taskRunInserts o)

theorem Pipeline.init (o : Options J) : Pipeline o {} where
  inOrder := List.Pairwise.nil
  keyed := Keyed.empty
  logged y h := by
    rcases h with h | ⟨f, hf, -⟩ | h
    · cases h
    · cases hf
    · cases h
  started f hf := by cases hf
  carried := trivial
  blocks := rfl

/-- 記録を変えない一歩。 -/
theorem Pipeline.move (h : Pipeline o s) (hlog : s'.log = s.log) (hkeyed : Keyed s'.batch)
    (hout : ∀ y, Outstanding s' y → Outstanding s y)
    (hcarried : ∀ y, Carried o s y → Carried o s' y)
    (hstarted : ∀ f ∈ s'.flushes, ∀ attempt, f.phase = .payloads attempt true →
      f.batch ∈ s'.written)
    (hblocks : s'.taskRuns = s'.written.map (taskRunInserts o)) : Pipeline o s' where
  inOrder := hlog ▸ h.inOrder
  keyed := hkeyed
  logged y hy := hlog ▸ h.logged y (hout y hy)
  started := hstarted
  carried := hlog ▸ h.carried.mono (fun _ => id) hcarried
  blocks := hblocks

theorem outstanding_flushNextBatch {y : TaskRunInsert J} :
    Outstanding (flushNextBatch s) y ↔ Outstanding s y := by
  unfold flushNextBatch
  split
  · exact Iff.rfl
  · unfold Outstanding Held
    simp only [List.mem_append, List.mem_singleton, List.map_nil, List.not_mem_nil, false_or]
    constructor
    · rintro (⟨f, hf | rfl, hy⟩ | hy)
      · exact .inr (.inl ⟨f, hf, hy⟩)
      · exact .inl hy
      · exact .inr (.inr hy)
    · rintro (hy | ⟨f, hf, hy⟩ | hy)
      · exact .inl ⟨_, .inr rfl, hy⟩
      · exact .inl ⟨f, .inl hf, hy⟩
      · exact .inr hy

theorem Pipeline.flushNextBatch (h : Pipeline o s) : Pipeline o (flushNextBatch s) := by
  have hout : ∀ y, Outstanding (Replication.flushNextBatch s) y ↔ Outstanding s y :=
    fun y => outstanding_flushNextBatch
  have hcarried : ∀ y, Carried o s y → Carried o (Replication.flushNextBatch s) y := by
    intro y hy
    rcases hy with hy | hy
    · exact .inl ((hout y).mpr hy)
    · refine .inr ?_
      unfold Replication.flushNextBatch
      split <;> exact hy
  refine h.move ?_ ?_ (fun y => (hout y).mp) hcarried ?_ ?_
  · unfold Replication.flushNextBatch
    split <;> rfl
  · unfold Replication.flushNextBatch
    split
    · exact h.keyed
    · exact Keyed.empty
  · unfold Replication.flushNextBatch
    split
    · exact h.started
    · intro f hf attempt hphase
      rcases List.mem_append.mp hf with hf | hf
      · exact h.started f hf attempt hphase
      · rw [List.mem_singleton.mp hf] at hphase
        cases hphase
  · unfold Replication.flushNextBatch
    split <;> exact h.blocks

/-- 一つの transaction の変更が記録と batch に加わる。 -/
theorem Pipeline.add (h : Pipeline o s) (hitems : ∀ x ∈ items, x.version = lsnToUInt64 lsn) :
    Pipeline o { s with log := Replication.record lsn items s.log
                        batch := items.foldl addItem s.batch } where
  inOrder := h.inOrder.record hitems
  keyed := h.keyed.foldl items
  logged y hy := by
    rw [mem_record]
    rcases hy with hy | hy
    · rcases held_foldl hy with hy | hy
      · exact .inl (h.logged y (.inl hy))
      · exact .inr hy
    · exact .inl (h.logged y (.inr hy))
  started := h.started
  carried := by
    -- 新しい変更は、版の順で古い記録の間に入る
    have hsplit := List.takeWhile_append_dropWhile (p := (·.version ≤ lsnToUInt64 lsn)) (l := s.log)
    have hold := h.carried
    rw [← hsplit] at hold
    have hkeep : ∀ y ∈ s.log.dropWhile (·.version ≤ lsnToUInt64 lsn), Carried o s y →
        Carried o { s with log := Replication.record lsn items s.log
                           batch := items.foldl addItem s.batch } y := by
      intro y hy hcar
      rcases hcar with (hheld | hout) | hstored
      · rcases hheld.foldl h.keyed items with hheld | ⟨z, hz, -, hle, -⟩
        · exact .inl (.inl hheld)
        · have := hitems z hz
          have := version_of_mem_dropWhile h.inOrder hy
          omega
      · exact .inl (.inr hout)
      · exact .inr hstored
    refine Represented.insert sameKey_trans hkeep ?_ ?_ hold
    · refine Represented.append_of_forall ?_ fun x rest hsuf hx => ?_
      · refine Represented.of_forall fun x rest hsuf hx => ?_
        obtain ⟨y, hy, hxy, hcar⟩ := (hold.suffix (List.suffix_append _ _)).of_suffix hsuf hx
        exact ⟨y, hy, hxy, hkeep y (hsuf.subset hy) hcar⟩
      · rcases represented_foldl h.keyed hitems x rest hsuf hx with
          ⟨y, hy, hxy, hheld⟩ | ⟨y, hy, hheld, hxy, hlt⟩
        · exact .inl ⟨y, hy, hxy, .inl (.inl hheld)⟩
        · refine .inr ⟨y, ?_, hxy, .inl (.inl hheld)⟩
          have hmem := h.logged y (.inl hy)
          rw [← hsplit] at hmem
          rcases List.mem_append.mp hmem with hmem | hmem
          · have := version_of_mem_takeWhile hmem
            omega
          · exact hmem
    · intro y hy hcar
      rcases hcar with (hheld | hout) | hstored
      · rcases hheld.foldl h.keyed items with hheld | ⟨z, hz, hyz, -, hheld⟩
        · exact .inl (.inl (.inl hheld))
        · exact .inr ⟨z, hz, hyz, .inl (.inl hheld)⟩
      · exact .inl (.inl (.inr hout))
      · exact .inl (.inr hstored)
  blocks := h.blocks

/-! ## 挿入の一段 -/

section Flushes

variable {fs : List (Flush J)} {i : Nat} {f g : Flush J}

theorem mem_of_mem_eraseIdx_or (h : f ∈ fs) (hi : fs[i]? = some g) : f ∈ fs.eraseIdx i ∨ f = g := by
  obtain ⟨l₁, l₂, rfl, herase, -⟩ := getElem?_split hi
  rw [herase]
  simp only [List.mem_append, List.mem_cons] at h ⊢
  tauto

theorem mem_of_mem_set_or (h : f ∈ fs) (hi : fs[i]? = some g) (g' : Flush J) :
    f ∈ fs.set i g' ∨ f = g := by
  obtain ⟨l₁, l₂, rfl, -, hset⟩ := getElem?_split hi
  rw [hset]
  simp only [List.mem_append, List.mem_cons] at h ⊢
  tauto

/-- 進み具合だけが変わる。 -/
theorem flushing_set {y : TaskRunInsert J} {g' : Flush J} (hi : fs[i]? = some g)
    (hbatch : g'.batch = g.batch) :
    (∃ f ∈ fs.set i g', y ∈ f.batch) ↔ ∃ f ∈ fs, y ∈ f.batch := by
  have hlt : i < fs.length := (List.getElem?_eq_some_iff.mp hi).1
  constructor
  · rintro ⟨f, hf, hy⟩
    rcases List.mem_or_eq_of_mem_set hf with hf | rfl
    · exact ⟨f, hf, hy⟩
    · exact ⟨g, List.mem_of_getElem? hi, hbatch ▸ hy⟩
  · rintro ⟨f, hf, hy⟩
    rcases mem_of_mem_set_or hf hi g' with hf | rfl
    · exact ⟨f, hf, hy⟩
    · exact ⟨g', List.mem_set hlt g', hbatch ▸ hy⟩

end Flushes

/-- limiter が一つの flush を始める。 -/
theorem startFlush_cases (o : Options J) (s : ServiceState J) :
    Replication.startFlush o s = s ∨ ∃ i f, s.flushes[i]? = some f ∧ f.phase = .waiting ∧
      (Replication.startFlush o s = { s with flushes := s.flushes.set i { f with phase := .taskRuns 1 } } ∨
        o.insertMaxRetries = 0 ∧ Replication.startFlush o s =
          { s with flushes := s.flushes.eraseIdx i, lost := s.lost ++ f.batch }) := by
  unfold Replication.startFlush
  split
  · exact .inl rfl
  · next i hi =>
    obtain ⟨hlt, hwaiting, -⟩ := List.findIdx?_eq_some_iff_getElem.mp hi
    have hget : s.flushes[i]? = some s.flushes[i] := List.getElem?_eq_getElem hlt
    simp only
    by_cases hactive : s.flushes.countP (fun f => !f.isWaiting) < maxConcurrency o
    · rw [if_pos hactive]
      refine .inr ⟨i, _, hget, of_decide_eq_true hwaiting, ?_⟩
      by_cases hzero : o.insertMaxRetries = 0
      · refine .inr ⟨hzero, ?_⟩
        rw [if_pos hzero, hget]
        rfl
      · refine .inl ?_
        rw [if_neg hzero, List.modify_eq_set_getElem?, hget]
        rfl
    · rw [if_neg hactive]
      exact .inl rfl

theorem Pipeline.startFlush (h : Pipeline o s) : Pipeline o (startFlush o s) := by
  rcases startFlush_cases o s with heq | ⟨i, f, hi, -, heq | ⟨-, heq⟩⟩ <;> rw [heq]
  · exact h
  · have hflush : ∀ y, (∃ g ∈ s.flushes.set i { f with phase := .taskRuns 1 }, y ∈ g.batch) ↔
        ∃ g ∈ s.flushes, y ∈ g.batch := fun y => flushing_set hi rfl
    refine h.move rfl h.keyed ?_ ?_ ?_ h.blocks
    · rintro y (hy | hy | hy)
      · exact .inl hy
      · exact .inr (.inl ((hflush y).mp hy))
      · exact .inr (.inr hy)
    · rintro y ((hy | hy | hy) | hy)
      · exact .inl (.inl hy)
      · exact .inl (.inr (.inl ((hflush y).mpr hy)))
      · exact .inl (.inr (.inr hy))
      · exact .inr hy
    · intro g hg attempt hphase
      rcases List.mem_or_eq_of_mem_set hg with hg | rfl
      · exact h.started g hg attempt hphase
      · cases hphase
  · refine h.move rfl h.keyed ?_ ?_ ?_ h.blocks
    · rintro y (hy | ⟨g, hg, hy⟩ | hy)
      · exact .inl hy
      · exact .inr (.inl ⟨g, List.mem_of_mem_eraseIdx hg, hy⟩)
      · rcases List.mem_append.mp hy with hy | hy
        · exact .inr (.inr hy)
        · exact .inr (.inl ⟨f, List.mem_of_getElem? hi, hy⟩)
    · rintro y ((hy | ⟨g, hg, hy⟩ | hy) | hy)
      · exact .inl (.inl hy)
      · rcases mem_of_mem_eraseIdx_or hg hi with hg | rfl
        · exact .inl (.inr (.inl ⟨g, hg, hy⟩))
        · exact .inl (.inr (.inr (List.mem_append_right _ hy)))
      · exact .inl (.inr (.inr (List.mem_append_left _ hy)))
      · exact .inr hy
    · intro g hg
      exact h.started g (List.mem_of_mem_eraseIdx hg)

theorem InsertOutcome.applied_of_isOk {outcome : InsertOutcome} (h : outcome.isOk = true) :
    outcome.applied = true := by
  cases outcome with
  | ok => rfl
  | error message applied => cases h

theorem Pipeline.insertTaskRunInserts (h : Pipeline o s) (batch : List (TaskRunInsert J)) (applied : Bool) :
    Pipeline o (insertTaskRunInserts o batch applied s) := by
  unfold Replication.insertTaskRunInserts
  split
  · refine h.move rfl h.keyed (fun y hy => hy) ?_ ?_ ?_
    · rintro y (hy | ⟨⟨b, hb, hy⟩, hpayload⟩)
      · exact .inl hy
      · exact .inr ⟨⟨b, List.mem_append_left _ hb, hy⟩, hpayload⟩
    · intro f hf attempt hphase
      exact List.mem_append_left _ (h.started f hf attempt hphase)
    · simp only [h.blocks, List.map_append, List.map_cons, List.map_nil]
  · exact h

theorem insertTaskRunInserts_flushes (batch : List (TaskRunInsert J)) (applied : Bool) :
    (insertTaskRunInserts o batch applied s).flushes = s.flushes := by
  unfold insertTaskRunInserts
  split <;> rfl

theorem Pipeline.insertPayloadInserts (h : Pipeline o s) (batch : List (TaskRunInsert J)) (applied : Bool) :
    Pipeline o (insertPayloadInserts o batch applied s) := by
  unfold Replication.insertPayloadInserts
  split
  · refine h.move rfl h.keyed (fun y hy => hy) ?_ h.started h.blocks
    rintro y (hy | ⟨hy, hpayload⟩)
    · exact .inl hy
    · exact .inr ⟨hy, fun p hp => List.mem_append_left _ (hpayload p hp)⟩
  · exact h

theorem insertPayloadInserts_flushes (batch : List (TaskRunInsert J)) (applied : Bool) :
    (insertPayloadInserts o batch applied s).flushes = s.flushes := by
  unfold insertPayloadInserts
  split <;> rfl

/-- 挿入の一回の後に、flush の進み具合が変わる。 -/
theorem Pipeline.setPhase (h : Pipeline o s) {i : Nat} {f : Flush J} {phase : FlushPhase}
    (hi : s.flushes[i]? = some f)
    (hphase : ∀ attempt, phase = .payloads attempt true → f.batch ∈ s.written) :
    Pipeline o { s with flushes := s.flushes.set i ⟨f.batch, phase⟩ } := by
  have hflush : ∀ y, (∃ g ∈ s.flushes.set i ⟨f.batch, phase⟩, y ∈ g.batch) ↔
      ∃ g ∈ s.flushes, y ∈ g.batch := fun y => flushing_set hi rfl
  refine h.move rfl h.keyed ?_ ?_ ?_ h.blocks
  · rintro y (hy | hy | hy)
    · exact .inl hy
    · exact .inr (.inl ((hflush y).mp hy))
    · exact .inr (.inr hy)
  · rintro y ((hy | hy | hy) | hy)
    · exact .inl (.inl hy)
    · exact .inl (.inr (.inl ((hflush y).mpr hy)))
    · exact .inl (.inr (.inr hy))
    · exact .inr hy
  · intro g hg attempt hgphase
    rcases List.mem_or_eq_of_mem_set hg with hg | rfl
    · exact h.started g hg attempt hgphase
    · exact hphase attempt hgphase

/-- flush が終わる。その変更は、諦められるか、既に書かれている。 -/
theorem Pipeline.erase (h : Pipeline o s) {i : Nat} {f : Flush J} {lost : List (TaskRunInsert J)}
    (hi : s.flushes[i]? = some f) (hlost : lost = s.lost ++ f.batch ∨
      lost = s.lost ∧ ∀ y ∈ f.batch, Stored o s y) :
    Pipeline o { s with flushes := s.flushes.eraseIdx i, lost := lost } := by
  have hmem : ∀ y, y ∈ lost → y ∈ s.lost ∨ y ∈ f.batch := by
    intro y hy
    rcases hlost with rfl | ⟨rfl, -⟩
    · exact List.mem_append.mp hy
    · exact .inl hy
  refine h.move rfl h.keyed ?_ ?_ ?_ h.blocks
  · rintro y (hy | ⟨g, hg, hy⟩ | hy)
    · exact .inl hy
    · exact .inr (.inl ⟨g, List.mem_of_mem_eraseIdx hg, hy⟩)
    · rcases hmem y hy with hy | hy
      · exact .inr (.inr hy)
      · exact .inr (.inl ⟨f, List.mem_of_getElem? hi, hy⟩)
  · rintro y ((hy | ⟨g, hg, hy⟩ | hy) | hy)
    · exact .inl (.inl hy)
    · rcases mem_of_mem_eraseIdx_or hg hi with hg | rfl
      · exact .inl (.inr (.inl ⟨g, hg, hy⟩))
      · rcases hlost with rfl | ⟨-, hstored⟩
        · exact .inl (.inr (.inr (List.mem_append_right _ hy)))
        · exact .inr (hstored y hy)
    · rcases hlost with rfl | ⟨rfl, -⟩
      · exact .inl (.inr (.inr (List.mem_append_left _ hy)))
      · exact .inl (.inr (.inr hy))
    · exact .inr hy
  · intro g hg
    exact h.started g (List.mem_of_mem_eraseIdx hg)

theorem Pipeline.finishAttempt (h : Pipeline o s) (i : Nat) (outcome : InsertOutcome) :
    Pipeline o (finishAttempt o i outcome s) := by
  unfold Replication.finishAttempt
  split
  · next batch attempt hi =>
    refine (h.insertTaskRunInserts batch outcome.applied).setPhase (f := ⟨batch, .taskRuns attempt⟩)
      (by rw [insertTaskRunInserts_flushes]; exact hi) fun k hphase => ?_
    -- 次の段階に進めるのは、行が書かれたときである
    have hok : outcome.isOk = true := by
      split at hphase
      · cases hphase
      · exact (FlushPhase.payloads.inj hphase).2
    unfold Replication.insertTaskRunInserts
    rw [if_pos (InsertOutcome.applied_of_isOk hok)]
    exact List.mem_append_right _ List.mem_cons_self
  · next batch attempt inserted hi =>
    have hinsert := h.insertPayloadInserts batch outcome.applied
    have hget : (Replication.insertPayloadInserts o batch outcome.applied s).flushes[i]? =
        some ⟨batch, .payloads attempt inserted⟩ := by
      rw [insertPayloadInserts_flushes]
      exact hi
    have hwritten : inserted = true →
        batch ∈ (Replication.insertPayloadInserts o batch outcome.applied s).written := by
      rintro rfl
      exact hinsert.started _ (List.mem_of_getElem? hget) attempt rfl
    split
    · refine hinsert.setPhase hget fun k hphase => hwritten ?_
      exact (FlushPhase.payloads.inj hphase).2
    · refine hinsert.erase hget ?_
      split
      · next hboth =>
        obtain ⟨hinserted, hok⟩ := Bool.and_eq_true_iff.mp hboth
        refine .inr ⟨rfl, fun y hy => ⟨⟨batch, hwritten hinserted, hy⟩, fun p hp => ?_⟩⟩
        unfold Replication.insertPayloadInserts
        rw [if_pos (InsertOutcome.applied_of_isOk hok)]
        exact List.mem_append_right _ (mem_payloadInserts.mpr ⟨y, hy, hp⟩)
      · exact .inl rfl
  · exact h

/-! ## 一段 -/

theorem Pipeline.addToBatch (h : Pipeline o s) {events : List (TransactionEvent J)} {lsn : Lsn} :
    Pipeline o (addToBatch o (itemsOf lsn events)
      { s with log := Replication.record lsn (itemsOf lsn events) s.log }) := by
  have hversion : ∀ x ∈ itemsOf lsn events, x.version = lsnToUInt64 lsn :=
    fun x hx => version_of_mem_itemsOf hx
  have hadd := h.add hversion
  unfold Replication.addToBatch
  simp only
  split
  · exact hadd.flushNextBatch
  · exact hadd

theorem Pipeline.handleCommit (h : Pipeline o s) (commitEndLsn : Option Lsn) :
    Pipeline o (handleCommit o commitEndLsn s) := by
  unfold Replication.handleCommit
  split
  · exact h
  · next events hevents =>
    have hbase : Pipeline o { s with currentTransaction := none
                                     latestCommitEndLsn := commitEndLsn.or s.latestCommitEndLsn } :=
      ⟨h.inOrder, h.keyed, h.logged, h.started, h.carried, h.blocks⟩
    unfold handleTransaction
    split
    · exact hbase
    · exact hbase
    · exact hbase.addToBatch

theorem Pipeline.step (h : Pipeline o s) (l : Label J) : Pipeline o (step o s l) := by
  cases l with
  | begin => exact ⟨h.inOrder, h.keyed, h.logged, h.started, h.carried, h.blocks⟩
  | change tag run => exact ⟨h.inOrder, h.keyed, h.logged, h.started, h.carried, h.blocks⟩
  | commit lsn => exact h.handleCommit lsn
  | heartbeat lsn shouldRespond =>
    simp only [Replication.step]
    unfold handleHeartbeat
    split
    · exact ⟨h.inOrder, h.keyed, h.logged, h.started, h.carried, h.blocks⟩
    · exact h
  | flushTick => exact h.flushNextBatch
  | acknowledgeTick now =>
    simp only [Replication.step]
    unfold acknowledgeLatestTransaction
    split
    · exact h
    · exact ⟨h.inOrder, h.keyed, h.logged, h.started, h.carried, h.blocks⟩
  | startFlush => exact h.startFlush
  | finishAttempt i outcome => exact h.finishAttempt i outcome

end Replication
