import Trigger.Infra.Decimal
import Trigger.RunMetadata.Json
import Trigger.Worker.SimpleQueue

/-!
# dead letter queue からの復帰

`moveToDeadLetterQueue` と `redriveFromDeadLetterQueue` は、どちらも item を Redis の cjson で読み、書き直す。cjson の
値は Lua の table なので、空の array は空の object になり、数は有効数字 14 桁で書かれる。

`redriveFromDeadLetterQueue` は、同じ id に enqueue された item を確かめずに上書きする。
-/

namespace Worker

open Infra
open Infra.Decimal
open RunMetadata (Json JsonValue)

/-! ## cjson -/

/--
cjson の数の書き方（`%.14g`）。書かれた数は有効数字 14 桁で、14 桁で書ける数はそのまま書かれる。
15 桁以上の数の丸めは、その数を読んだ double によるので決めない。
-/
structure NumberFormat where
  print : ℚ → ℚ
  significant : ∀ n, Significant 14 (print n)
  exact : ∀ n, Significant 14 n → print n = n
  natural : ∀ n : ℕ, ∃ m : ℕ, print n = m

/-- 十進のまま丸める書き方。 -/
def decimalFormat : NumberFormat where
  print := roundDigits 14
  significant := significant_roundDigits (by decide)
  exact _ := roundDigits_of_significant
  natural := roundDigits_natCast 14

mutual

/-- 入れ子の深さ。 -/
def depth : Json → ℕ
  | .arr items => depthItems items + 1
  | .obj entries => depthEntries entries + 1
  | _ => 0

def depthItems : List Json → ℕ
  | [] => 0
  | j :: items => max (depth j) (depthItems items)

def depthEntries : List (String × Json) → ℕ
  | [] => 0
  | (_, j) :: entries => max (depth j) (depthEntries entries)

end

section Recode

variable (f : NumberFormat)

mutual

/-- `cjson.encode(cjson.decode(j))`。 -/
def recode : Json → Json
  | .arr [] => .obj []
  | .arr (j :: items) => .arr (recode j :: recodeItems items)
  | .obj entries => .obj (recodeEntries entries)
  | .num n => .num (f.print n)
  | j => j

def recodeItems : List Json → List Json
  | [] => []
  | j :: items => recode j :: recodeItems items

def recodeEntries : List (String × Json) → List (String × Json)
  | [] => []
  | (key, j) :: entries => (key, recode j) :: recodeEntries entries

end

/-- 自然数の欄。 -/
def recodeNat (n : ℕ) : ℕ := ⌊f.print n⌋₊

/-- `items` の値を cjson で読み、書き直す。入れ子が 1000 を超えると error になる。 -/
def cjsonItem (item : Item Json) : Option (Item Json) :=
  if 1000 < depth item.item + 1 then none
  else
    some { item with
      item := recode f item.item
      visibilityTimeoutMs := recodeNat f item.visibilityTimeoutMs
      attempt := item.attempt.map (recodeNat f) }

end Recode

/-! ## 変わらない値 -/

mutual

/-- 空の array が無く、どの数も有効数字 14 桁で書ける。 -/
def Survives : Json → Prop
  | .arr [] => False
  | .arr (j :: items) => Survives j ∧ SurvivesItems items
  | .obj entries => SurvivesEntries entries
  | .num n => Significant 14 n
  | _ => True

def SurvivesItems : List Json → Prop
  | [] => True
  | j :: items => Survives j ∧ SurvivesItems items

def SurvivesEntries : List (String × Json) → Prop
  | [] => True
  | (_, j) :: entries => Survives j ∧ SurvivesEntries entries

end

/-- item の payload と数の欄が変わらず、消される欄が無い。 -/
structure SurvivesItem (item : Item Json) : Prop where
  payload : Survives item.item
  visibilityTimeoutMs : Significant 14 item.visibilityTimeoutMs
  attempt : ∀ n ∈ item.attempt, Significant 14 (n : ℚ)
  errorMessage : item.errorMessage = none

variable {f : NumberFormat}

theorem print_eq_iff {n : ℚ} : f.print n = n ↔ Significant 14 n :=
  ⟨fun h => h ▸ f.significant n, f.exact n⟩

theorem print_print (n : ℚ) : f.print (f.print n) = f.print n := f.exact _ (f.significant n)

mutual

/-- 一度書き直した値は、もう変わらない。 -/
theorem recode_recode : ∀ j : Json, recode f (recode f j) = recode f j
  | .null | .bool _ | .str _ => rfl
  | .num n => congrArg JsonValue.num (print_print n)
  | .arr [] => rfl
  | .arr (j :: items) => by
    rw [recode, recode, recode_recode j, recodeItems_recodeItems items]
  | .obj entries => by rw [recode, recode, recodeEntries_recodeEntries entries]

theorem recodeItems_recodeItems :
    ∀ items : List Json, recodeItems f (recodeItems f items) = recodeItems f items
  | [] => rfl
  | j :: items => by
    rw [recodeItems, recodeItems, recode_recode j, recodeItems_recodeItems items]

theorem recodeEntries_recodeEntries : ∀ entries : List (String × Json),
    recodeEntries f (recodeEntries f entries) = recodeEntries f entries
  | [] => rfl
  | (key, j) :: entries => by
    rw [recodeEntries, recodeEntries, recode_recode j, recodeEntries_recodeEntries entries]

end

mutual

/-- 書き直しても変わらないのは、空の array も 15 桁以上の数も無い値である。 -/
theorem recode_eq_iff : ∀ j : Json, recode f j = j ↔ Survives j
  | .null | .bool _ | .str _ => ⟨fun _ => trivial, fun _ => rfl⟩
  | .num n => by
    rw [recode, Survives, JsonValue.num.injEq]
    exact print_eq_iff
  | .arr [] => by
    rw [recode, Survives]
    exact ⟨fun h => (by cases h), False.elim⟩
  | .arr (j :: items) => by
    rw [recode, Survives, JsonValue.arr.injEq, List.cons.injEq, recode_eq_iff j,
      recodeItems_eq_iff items]
  | .obj entries => by rw [recode, Survives, JsonValue.obj.injEq, recodeEntries_eq_iff entries]

theorem recodeItems_eq_iff :
    ∀ items : List Json, recodeItems f items = items ↔ SurvivesItems items
  | [] => ⟨fun _ => trivial, fun _ => rfl⟩
  | j :: items => by
    rw [recodeItems, SurvivesItems, List.cons.injEq, recode_eq_iff j, recodeItems_eq_iff items]

theorem recodeEntries_eq_iff : ∀ entries : List (String × Json),
    recodeEntries f entries = entries ↔ SurvivesEntries entries
  | [] => ⟨fun _ => trivial, fun _ => rfl⟩
  | (key, j) :: entries => by
    rw [recodeEntries, SurvivesEntries, List.cons.injEq, Prod.mk.injEq, recode_eq_iff j,
      recodeEntries_eq_iff entries, eq_self_iff_true, true_and]

end

mutual

/-- 書き直しても深さは変わらない。 -/
theorem depth_recode : ∀ j : Json, depth (recode f j) = depth j
  | .null | .bool _ | .str _ | .num _ => rfl
  | .arr [] => rfl
  | .arr (j :: items) => by
    rw [recode, depth, depth, depthItems, depthItems, depth_recode j, depthItems_recodeItems items]
  | .obj entries => by rw [recode, depth, depth, depthEntries_recodeEntries entries]

theorem depthItems_recodeItems :
    ∀ items : List Json, depthItems (recodeItems f items) = depthItems items
  | [] => rfl
  | j :: items => by
    rw [recodeItems, depthItems, depthItems, depth_recode j, depthItems_recodeItems items]

theorem depthEntries_recodeEntries : ∀ entries : List (String × Json),
    depthEntries (recodeEntries f entries) = depthEntries entries
  | [] => rfl
  | (key, j) :: entries => by
    rw [recodeEntries, depthEntries, depthEntries, depth_recode j,
      depthEntries_recodeEntries entries]

end

/-! ## item -/

theorem cast_recodeNat (n : ℕ) : (recodeNat f n : ℚ) = f.print n := by
  obtain ⟨m, hm⟩ := f.natural n
  rw [recodeNat, hm, Nat.floor_natCast]

theorem recodeNat_eq_iff {n : ℕ} : recodeNat f n = n ↔ Significant 14 (n : ℚ) := by
  rw [← print_eq_iff (f := f), ← cast_recodeNat, Nat.cast_inj]

theorem recodeNat_recodeNat (n : ℕ) : recodeNat f (recodeNat f n) = recodeNat f n :=
  recodeNat_eq_iff.mpr (cast_recodeNat n ▸ f.significant n)

/-- 書き直した item を、欄を書き換えてもう一度書き直しても変わらない。 -/
theorem cjsonItem_cjsonItem {item parsedItem : Item Json} (h : cjsonItem f item = some parsedItem)
    (errorMessage : Option String) :
    cjsonItem f { parsedItem with errorMessage := errorMessage } =
      some { parsedItem with errorMessage := errorMessage } := by
  unfold cjsonItem at h ⊢
  split at h
  · cases h
  · next hdepth =>
    obtain rfl := Option.some_inj.mp h
    have hattempt : (item.attempt.map (recodeNat f)).map (recodeNat f) =
        item.attempt.map (recodeNat f) := by
      rw [Option.map_map]
      exact congrArg (item.attempt.map ·) (funext recodeNat_recodeNat)
    dsimp only
    rw [depth_recode, if_neg hdepth, recode_recode, recodeNat_recodeNat, hattempt]

/-- 読める item を書き直しても変わらないのは、どの値も変わらないときである。 -/
theorem cjsonItem_eq_iff {item parsedItem : Item Json} (h : cjsonItem f item = some parsedItem) :
    { parsedItem with errorMessage := none } = item ↔ SurvivesItem item := by
  unfold cjsonItem at h
  split at h
  · cases h
  · obtain rfl := Option.some_inj.mp h
    have hattempt : item.attempt.map (recodeNat f) = item.attempt ↔
        ∀ n ∈ item.attempt, Significant 14 (n : ℚ) := by
      rcases item.attempt with _ | n
      · simp
      · simp [recodeNat_eq_iff]
    obtain ⟨job, payload, visibilityTimeoutMs, attempt, deduplicationKey, errorMessage⟩ := item
    rw [Item.mk.injEq, recode_eq_iff, recodeNat_eq_iff]
    constructor
    · rintro ⟨-, hitem, hvisibility, hattempt', -, herror⟩
      exact ⟨hitem, hvisibility, hattempt.mp hattempt', herror.symm⟩
    · rintro ⟨hitem, hvisibility, hattempt', herror⟩
      exact ⟨rfl, hitem, hvisibility, hattempt.mpr hattempt', rfl, herror.symm⟩

/-! ## 二つの script -/

/-- 操作が、dead letter queue の id の item を書き換えるか。 -/
def Op.TouchesDead (id : String) : Op Json → Prop
  | .moveToDeadLetterQueue _ id' _ | .redriveFromDeadLetterQueue _ id' => id' = id
  | _ => False

instance (id : String) (op : Op Json) : Decidable (op.TouchesDead id) := by
  cases op <;> unfold Op.TouchesDead <;> infer_instance

variable {id : String} {s : Store Json}

/-- ほかの操作は、dead letter queue の id の item を変えない。 -/
theorem dlqItems_exec {op : Op Json} (hop : ¬ op.TouchesDead id) :
    (op.exec (cjsonItem f) s).dlqItems.get id = s.dlqItems.get id := by
  cases op with
  | enqueueItem id' score item => rfl
  | enqueueItemWithCancellationKey key id' score item =>
    change (enqueueItemWithCancellationKey key id' score item s).dlqItems.get id = _
    unfold enqueueItemWithCancellationKey
    split
    · rfl
    · rfl
  | enqueueItemOnce id' score item =>
    change (enqueueItemOnce id' score item s).2.dlqItems.get id = _
    unfold enqueueItemOnce
    split
    · rfl
    · rfl
  | dequeueItems now count =>
    have hdlq : (dequeueItems (cjsonItem f) now count s).2.dlqItems = s.dlqItems :=
      dlqItems_dequeueLoop _
    exact congrArg (JsMap.get · id) hdlq
  | ackItem id' key =>
    change (ackItem (cjsonItem f) id' key s).2.dlqItems.get id = _
    unfold ackItem
    split
    · rfl
    · split
      · rfl
      · rfl
  | reschedule id' availableAt => rfl
  | cancel key => rfl
  | cancellationExpires key => rfl
  | moveToDeadLetterQueue now id' message =>
    -- 動かすのは自分の id の item だけである
    have hne : id ≠ id' := Ne.symm hop
    change (moveToDeadLetterQueue (cjsonItem f) now id' message s).2.dlqItems.get id = _
    unfold moveToDeadLetterQueue
    split
    · rfl
    · split
      · rfl
      · change (s.dlqItems.set id' _).get id = _
        rw [JsMap.get_set, if_neg hne]
  | redriveFromDeadLetterQueue now id' =>
    have hne : id ≠ id' := Ne.symm hop
    change (redriveFromDeadLetterQueue (cjsonItem f) now id' s).2.dlqItems.get id = _
    unfold redriveFromDeadLetterQueue
    split
    · rfl
    · split
      · rfl
      · change (s.dlqItems.delete id').get id = _
        rw [JsMap.get_delete, if_neg hne]

theorem dlqItems_exec_all {ops : List (Op Json)} (hops : ∀ op ∈ ops, ¬ op.TouchesDead id) :
    (Machine.exec (Op.exec (cjsonItem f)) s ops).dlqItems.get id = s.dlqItems.get id := by
  induction ops generalizing s with
  | nil => rfl
  | cons op ops ih =>
    rw [Machine.exec_cons, ih fun op' hop' => hops op' (List.mem_cons_of_mem _ hop'),
      dlqItems_exec (hops op List.mem_cons_self)]

/-- 読める item の移動は、書き直した item を dead letter queue に置く。 -/
theorem dlqItems_move {item parsedItem : Item Json} (hitem : s.items.get id = some item)
    (hparsed : cjsonItem f item = some parsedItem) (now : ℚ) (errorMessage : String) :
    (moveToDeadLetterQueue (cjsonItem f) now id errorMessage s).2.dlqItems.get id =
      some { parsedItem with errorMessage := some errorMessage } := by
  unfold moveToDeadLetterQueue
  simp only [hitem, hparsed]
  exact JsMap.get_set_self _ _ _

/-- 読める item の復帰は、書き直した item を `items` に置く。そこに何があったかは確かめない。 -/
theorem items_redrive {item parsedItem : Item Json} (hitem : s.dlqItems.get id = some item)
    (hparsed : cjsonItem f item = some parsedItem) (now : ℚ) :
    (redriveFromDeadLetterQueue (cjsonItem f) now id s).2.items.get id =
      some { parsedItem with errorMessage := none } := by
  unfold redriveFromDeadLetterQueue
  simp only [hitem, hparsed]
  exact JsMap.get_set_self _ _ _

/-- 移してから戻すまでに何があっても、戻された item は、移したときに書き直したものである。 -/
theorem items_redriven {item parsedItem : Item Json} (hitem : s.items.get id = some item)
    (hparsed : cjsonItem f item = some parsedItem) (now now' : ℚ) (errorMessage : String)
    (between : List (Op Json)) (hbetween : ∀ op ∈ between, ¬ op.TouchesDead id) :
    (redriveFromDeadLetterQueue (cjsonItem f) now' id (Machine.exec (Op.exec (cjsonItem f))
      (moveToDeadLetterQueue (cjsonItem f) now id errorMessage s).2 between)).2.items.get id =
        some { parsedItem with errorMessage := none } := by
  have hdead := (dlqItems_exec_all (f := f) hbetween).trans
    (dlqItems_move hitem hparsed now errorMessage)
  exact items_redrive hdead (cjsonItem_cjsonItem hparsed _) now'

/-- 戻した後、`items` には移す前の item がある。 -/
def Restored (id : String) (item : Item Json) (after : Store Json) : Prop :=
  after.items.get id = some item

/-- 戻す前に `items` にあった item は、戻した後も残っている。 -/
def KeepsLive (id : String) (before after : Store Json) : Prop :=
  ∀ live, before.items.get id = some live → after.items.get id = some live

/-- **移して戻した job がそのままで、途中で同じ id に enqueue された item も残るのは、payload に空の array が無く、
どの数も 14 桁で書け、戻すときに別の item が無いとき、かつそのときに限る。読めない item の移動は何も変えない。** -/
theorem redriven_iff (f : NumberFormat) (s : Store Json) (id : String) (item : Item Json)
    (hitem : s.items.get id = some item) (now now' : ℚ) (errorMessage : String) :
    (cjsonItem f item = none →
      moveToDeadLetterQueue (cjsonItem f) now id errorMessage s = (none, s)) ∧
    (cjsonItem f item ≠ none → ∀ between : List (Op Json), (∀ op ∈ between, ¬ op.TouchesDead id) →
      ∀ before after, before = Machine.exec (Op.exec (cjsonItem f))
          (moveToDeadLetterQueue (cjsonItem f) now id errorMessage s).2 between →
        after = (redriveFromDeadLetterQueue (cjsonItem f) now' id before).2 →
        (Restored id item after ∧ KeepsLive id before after ↔
          SurvivesItem item ∧ ∀ live, before.items.get id = some live → live = item)) := by
  constructor
  · intro hnone
    unfold moveToDeadLetterQueue
    simp only [hitem, hnone]
  · rintro hsome between hbetween before _ hbefore rfl
    obtain ⟨parsedItem, hparsed⟩ := Option.ne_none_iff_exists'.mp hsome
    have hafter := items_redriven hitem hparsed now now' errorMessage between hbetween
    rw [← hbefore] at hafter
    rw [← cjsonItem_eq_iff hparsed, Restored, KeepsLive, hafter, Option.some_inj]
    refine and_congr_right fun heq => forall₂_congr fun live _ => ?_
    rw [heq, Option.some_inj]
    exact eq_comm

/-- `a` に enqueue された item。 -/
def taggedItem (tags : List Json) (deduplicationKey : String) : Item Json :=
  ⟨"job", .obj [("tags", .arr tags)], 10, none, some deduplicationKey, none⟩

def taggedStore (tags : List Json) : Store Json :=
  enqueueItem "a" 0 (taggedItem tags "x") Store.empty

/-- 空でない array の payload は、移して戻してもそのままである。 -/
theorem redriven_tagged :
    ∃ before after, before = (moveToDeadLetterQueue (cjsonItem decimalFormat) 1 "a" "error"
        (taggedStore [.str "t"])).2 ∧
      after = (redriveFromDeadLetterQueue (cjsonItem decimalFormat) 2 "a" before).2 ∧
      Restored "a" (taggedItem [.str "t"] "x") after := by
  refine ⟨_, _, rfl, rfl, ?_⟩
  refine (((redriven_iff decimalFormat (taggedStore [.str "t"]) "a" (taggedItem [.str "t"] "x") rfl
    1 2 "error").2 (Option.some_ne_none _) [] (by rintro _ ⟨⟩) _ _ rfl rfl).mpr ⟨?_, ?_⟩).1
  · refine ⟨⟨⟨trivial, trivial⟩, trivial⟩, significant_natCast (by decide), ?_, rfl⟩
    rintro _ ⟨⟩
  · rintro _ ⟨⟩

/-- 空の array は object になる。途中で enqueue された item は上書きされる。 -/
theorem redrive_changes :
    ¬ Restored "a" (taggedItem [] "x") (Machine.exec (Op.exec (cjsonItem decimalFormat))
      (taggedStore []) [.moveToDeadLetterQueue 1 "a" "error", .redriveFromDeadLetterQueue 2 "a"]) ∧
    ∃ before after, before = Machine.exec (Op.exec (cjsonItem decimalFormat))
        (taggedStore [.str "t"])
        [.moveToDeadLetterQueue 1 "a" "error", .enqueueItem "a" 5 (taggedItem [.str "u"] "y")] ∧
      after = (redriveFromDeadLetterQueue (cjsonItem decimalFormat) 6 "a" before).2 ∧
      ¬ KeepsLive "a" before after := by
  constructor
  · intro h
    have hget : (taggedStore []).items.get "a" = some (taggedItem [] "x") := rfl
    have hparsed : cjsonItem decimalFormat (taggedItem [] "x") = some _ := rfl
    have hafter := items_redriven hget hparsed 1 2 "error" [] (by rintro _ ⟨⟩)
    have heq := congrArg Item.item (Option.some_inj.mp (h.symm.trans hafter))
    exact absurd heq (by decide)
  · refine ⟨_, _, rfl, rfl, fun h => ?_⟩
    have hget : (taggedStore [.str "t"]).items.get "a" = some (taggedItem [.str "t"] "x") := rfl
    have hparsed : cjsonItem decimalFormat (taggedItem [.str "t"] "x") = some _ := rfl
    have hafter := items_redriven hget hparsed 1 6 "error"
      [.enqueueItem "a" 5 (taggedItem [.str "u"] "y")] (by decide)
    have hkept := h (taggedItem [.str "u"] "y") rfl
    have heq := congrArg Item.deduplicationKey (Option.some_inj.mp (hkept.symm.trans hafter))
    exact absurd heq (by decide)

end Worker
