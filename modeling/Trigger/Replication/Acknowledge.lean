import Trigger.Infra.Machine
import Trigger.Replication.Versions

/-!
# Postgres に送る位置

`RunsReplicationService` が `LogicalReplicationClient.acknowledge` に渡す LSN と、client が status message に
書く位置（LSN の次）。service の client は `autoAcknowledge` が偽なので、自分からは送らない。

keepalive への返事は 0 を詰めない LSN を、timer は pgoutput の 0 を詰めた LSN を覚え、比較は文字列の一致だけである。
keepalive に返事をした後の timer は、それより古い commit の位置を送ることがある（`position_goes_back`）。
-/

namespace Replication

open Infra.Machine

variable {J : Type}

/-! ## status message -/

/-- `parseInt(s, 16)`。先頭の数字の列だけを読み、数字が無ければ NaN である。 -/
def parseIntHex (s : String) : Option Nat :=
  match s.toList.takeWhile fun c => (hexDigit? c).isSome with
  | [] => none
  | digits => readHex 0 digits

/-- `acknowledge` が status message に書く位置。`writeUInt32BE` が例外を投げるなら `none` である。 -/
def statusPosition (lsn : String) : Option Nat := do
  let (upper, lower) ← splitLsn lsn
  let upperWAL ← parseIntHex upper
  let lowerWAL ← parseIntHex lower
  let (upperWAL, lowerWAL) :=
    if lowerWAL = 4294967295 then (upperWAL + 1, 0) else (upperWAL, lowerWAL + 1)
  if upperWAL < 2 ^ 32 then some (upperWAL * 2 ^ 32 + lowerWAL) else none

theorem isSome_of_readHex {l : List Char} {m n : Nat} (h : readHex m l = some n) :
    ∀ c ∈ l, (hexDigit? c).isSome = true := by
  induction l generalizing m with
  | nil => simp
  | cons c l ih =>
    rw [readHex] at h
    rcases hd : hexDigit? c with _ | d
    · rw [hd] at h
      cases h
    · rw [hd] at h
      intro c' hc'
      rcases List.mem_cons.mp hc' with rfl | hc'
      · rw [hd]
        rfl
      · exact ih h c' hc'

/-- 16 進の文字列では、二つの読み方は一致する。 -/
theorem parseIntHex_of_bigIntHex {s : String} {n : Nat} (h : bigIntHex s = some n) :
    parseIntHex s = some n := by
  unfold bigIntHex at h
  split at h
  · cases h
  · next hne =>
    unfold parseIntHex
    rw [List.takeWhile_eq_self_iff.mpr (isSome_of_readHex h)]
    split
    · next hnil => exact absurd (String.toList_inj.mp hnil) hne
    · exact h

/-- LSN の次の位置。 -/
theorem statusPosition_append {seg off : String} {l : Lsn} (hseg : '/' ∉ seg.toList)
    (hoff : '/' ∉ off.toList) (hupper : bigIntHex seg = some l.upper.val)
    (hlower : bigIntHex off = some l.lower.val) :
    statusPosition (seg ++ "/" ++ off) =
      if lsnToUInt64 l + 1 < 2 ^ 64 then some (lsnToUInt64 l + 1) else none := by
  unfold statusPosition
  rw [splitLsn_append hseg hoff, lsnToUInt64_eq]
  simp only [Option.bind_eq_bind, Option.bind_some, parseIntHex_of_bigIntHex hupper,
    parseIntHex_of_bigIntHex hlower]
  have hu := l.upper.isLt
  have hl := l.lower.isLt
  split
  · next hmax =>
    refine if_congr (by omega) (congrArg some ?_) rfl
    omega
  · next hmax =>
    have hlt : l.upper.val * 2 ^ 32 + l.lower.val + 1 < 2 ^ 64 := by omega
    rw [if_pos hlt]
    exact congrArg some (by omega)

theorem statusPosition_padded (l : Lsn) : statusPosition l.padded =
    if lsnToUInt64 l + 1 < 2 ^ 64 then some (lsnToUInt64 l + 1) else none :=
  statusPosition_append (slash_notMem_padHex _) (slash_notMem_padHex _) (bigIntHex_padHex _)
    (bigIntHex_padHex _)

theorem statusPosition_plain (l : Lsn) : statusPosition l.plain =
    if lsnToUInt64 l + 1 < 2 ^ 64 then some (lsnToUInt64 l + 1) else none :=
  statusPosition_append (slash_notMem_hexText _) (slash_notMem_hexText _) (bigIntHex_hexText _)
    (bigIntHex_hexText _)

/-! ## 接続 -/

/-- 一歩が `acknowledge` に渡す文字列。 -/
def acknowledges (o : Options J) (s : ServiceState J) : Label J → Option String
  | .heartbeat lsn true => some lsn.plain
  | .acknowledgeTick now => (acknowledgeable o now s).map Lsn.padded
  | _ => none

/-- 一歩が終える transaction の LSN。transaction の外の `commit` は無視される。 -/
def commits (s : ServiceState J) : Label J → Option Lsn
  | .commit commitEndLsn => if s.currentTransaction.isSome then commitEndLsn else none
  | _ => none

theorem acknowledges_tick (o : Options J) (s : ServiceState J) (now : Int) :
    acknowledges o s (.acknowledgeTick now) = (acknowledgeable o now s).map Lsn.padded := rfl

theorem commits_commit (s : ServiceState J) (commitEndLsn : Option Lsn) :
    commits s (.commit commitEndLsn) = if s.currentTransaction.isSome then commitEndLsn else none :=
  rfl

/-- 届いた LSN。 -/
def Label.lsn? : Label J → Option Lsn
  | .commit commitEndLsn => commitEndLsn
  | .heartbeat lsn _ => some lsn
  | _ => none

/--
service と、送った位置の列。残りは code の状態ではない。`replied` は、最後に送ったのが keepalive への返事で、その後に
commit が無いとき、その LSN である。`committed` は最後に送った後に commit があったことを、`arrived` は届いた LSN の
最大を表す。
-/
structure Session (J : Type) where
  service : ServiceState J := {}
  positions : List Nat := []
  replied : Option Lsn := none
  committed : Bool := false
  arrived : Nat := 0

/-- 一歩。 -/
def Session.step (o : Options J) (w : Session J) (l : Label J) : Session J where
  service := Replication.step o w.service l
  positions := w.positions ++ ((acknowledges o w.service l).bind statusPosition).toList
  replied :=
    match l with
    | .heartbeat lsn true => some lsn
    | _ => if (acknowledges o w.service l).isSome || (commits w.service l).isSome then none
        else w.replied
  committed := (commits w.service l).isSome ||
    (w.committed && (acknowledges o w.service l).isNone)
  arrived := (l.lsn?.map lsnToUInt64).elim w.arrived (max w.arrived)

/-- LSN は前に戻らずに届く。 -/
def Arrives (w : Session J) (l : Label J) : Prop := ∀ lsn ∈ l.lsn?, w.arrived ≤ lsnToUInt64 lsn

instance (w : Session J) (l : Label J) : Decidable (Arrives w l) :=
  inferInstanceAs (Decidable (∀ lsn ∈ l.lsn?, _))

/--
keepalive に返事をした後、新しい commit の無いうちに timer が送らない。覚えた文字列が最後の commit のものと同じか、
送る間隔が空いていない。
-/
def Unreplied (o : Options J) (w : Session J) : Label J → Prop
  | .acknowledgeTick now => ∀ lsn ∈ w.replied, ∀ commitEndLsn ∈ w.service.latestCommitEndLsn,
      lsn.plain = commitEndLsn.padded ∨
        (w.service.lastAcknowledgedAt.any fun t => t ≠ 0 ∧ now - t < o.acknowledgeTimeoutMs) = true
  | _ => True

instance (o : Options J) (w : Session J) (l : Label J) : Decidable (Unreplied o w l) := by
  cases l <;> unfold Unreplied <;> infer_instance

/-- timer は、新しい commit の無いうちに、送った位置をもう一度送らない。 -/
def NotResent (o : Options J) (w : Session J) : Label J → Prop
  | .acknowledgeTick now => ∀ position ∈
      ((acknowledges o w.service (.acknowledgeTick now)).bind statusPosition),
      position ∈ w.positions → w.committed = true
  | _ => True

/-! ## 不変条件 -/

/-- 送った位置は並んでいて、届いた LSN の次を超えない。 -/
structure SessionInv (w : Session J) : Prop where
  ordered : w.positions.Pairwise (· ≤ ·)
  arrived : ∀ position ∈ w.positions, position ≤ w.arrived + 1
  latest : ∀ lsn ∈ w.service.latestCommitEndLsn, lsnToUInt64 lsn ≤ w.arrived
  /-- 送っていない commit は、どの位置よりも後である。 -/
  committed : w.committed = true → ∀ lsn ∈ w.service.latestCommitEndLsn,
    ∀ position ∈ w.positions, position ≤ lsnToUInt64 lsn + 1
  /-- 最後に送ったのが keepalive への返事なら、その文字列を覚えている。 -/
  replied : ∀ lsn ∈ w.replied, w.service.lastAcknowledgedLsn = some lsn.plain
  /-- 最後に送ったのが timer なら、最後の commit の文字列を覚えている。 -/
  caught : w.committed = false → w.replied = none → ∀ lsn ∈ w.service.latestCommitEndLsn,
    w.service.lastAcknowledgedLsn = some lsn.padded

/-! ## 一歩 -/

/-- 送る位置に関わる二つの欄を変えない。 -/
structure AcksEq (s t : ServiceState J) : Prop where
  latest : t.latestCommitEndLsn = s.latestCommitEndLsn
  acknowledged : t.lastAcknowledgedLsn = s.lastAcknowledgedLsn

theorem flushNextBatch_acks (s : ServiceState J) : AcksEq s (flushNextBatch s) := by
  unfold flushNextBatch
  split
  · exact ⟨rfl, rfl⟩
  · exact ⟨rfl, rfl⟩

theorem handleTransaction_acks (o : Options J) (events : List (TransactionEvent J))
    (commitEndLsn : Option Lsn) (s : ServiceState J) :
    AcksEq s (handleTransaction o events commitEndLsn s) := by
  unfold handleTransaction
  split
  · exact ⟨rfl, rfl⟩
  · exact ⟨rfl, rfl⟩
  · unfold addToBatch
    dsimp only
    split
    · obtain ⟨hlatest, hack⟩ := flushNextBatch_acks (J := J) _
      exact ⟨hlatest, hack⟩
    · exact ⟨rfl, rfl⟩

theorem startFlush_acks (o : Options J) (s : ServiceState J) : AcksEq s (startFlush o s) := by
  unfold startFlush
  split
  · exact ⟨rfl, rfl⟩
  · dsimp only
    split
    · split
      · exact ⟨rfl, rfl⟩
      · exact ⟨rfl, rfl⟩
    · exact ⟨rfl, rfl⟩

theorem finishAttempt_acks (o : Options J) (i : Nat) (outcome : InsertOutcome)
    (s : ServiceState J) : AcksEq s (finishAttempt o i outcome s) := by
  have htask : ∀ batch applied, AcksEq s (insertTaskRunInserts o batch applied s) := by
    intro batch applied
    unfold insertTaskRunInserts
    split
    · exact ⟨rfl, rfl⟩
    · exact ⟨rfl, rfl⟩
  have hpayload : ∀ batch applied, AcksEq s (insertPayloadInserts o batch applied s) := by
    intro batch applied
    unfold insertPayloadInserts
    split
    · exact ⟨rfl, rfl⟩
    · exact ⟨rfl, rfl⟩
  unfold finishAttempt
  split
  · exact ⟨(htask _ _).latest, (htask _ _).acknowledged⟩
  · dsimp only
    split
    · exact ⟨(hpayload _ _).latest, (hpayload _ _).acknowledged⟩
    · exact ⟨(hpayload _ _).latest, (hpayload _ _).acknowledged⟩
  · exact ⟨rfl, rfl⟩

/-- 一歩の後の最後の commit と、最後に送った文字列。 -/
theorem step_acks (o : Options J) (s : ServiceState J) (l : Label J) :
    (step o s l).latestCommitEndLsn = (commits s l).or s.latestCommitEndLsn ∧
      (step o s l).lastAcknowledgedLsn = (acknowledges o s l).or s.lastAcknowledgedLsn := by
  cases l with
  | begin => exact ⟨rfl, rfl⟩
  | change tag run => exact ⟨rfl, rfl⟩
  | commit commitEndLsn =>
    unfold step handleCommit commits acknowledges
    dsimp only
    rcases s.currentTransaction with _ | events
    · exact ⟨rfl, rfl⟩
    · obtain ⟨hlatest, hack⟩ := handleTransaction_acks o events commitEndLsn
        { s with currentTransaction := none
                 latestCommitEndLsn := commitEndLsn.or s.latestCommitEndLsn }
      exact ⟨hlatest, hack⟩
  | heartbeat lsn shouldRespond => cases shouldRespond <;> exact ⟨rfl, rfl⟩
  | flushTick => exact ⟨(flushNextBatch_acks s).latest, (flushNextBatch_acks s).acknowledged⟩
  | acknowledgeTick now =>
    unfold step acknowledgeLatestTransaction commits acknowledges
    dsimp only
    rcases acknowledgeable o now s with _ | lsn
    · exact ⟨rfl, rfl⟩
    · exact ⟨rfl, rfl⟩
  | startFlush => exact ⟨(startFlush_acks o s).latest, (startFlush_acks o s).acknowledged⟩
  | finishAttempt i outcome =>
    obtain ⟨hlatest, hack⟩ := finishAttempt_acks o i outcome s
    exact ⟨hlatest, hack⟩

/-- timer が送るのは最後の commit であり、覚えている文字列と異なり、間隔も空いている。 -/
theorem acknowledgeable_eq_some {o : Options J} {now : Int} {s : ServiceState J} {lsn : Lsn}
    (h : acknowledgeable o now s = some lsn) : s.latestCommitEndLsn = some lsn ∧
      s.lastAcknowledgedLsn ≠ some lsn.padded ∧
        (s.lastAcknowledgedAt.any fun t => t ≠ 0 ∧ now - t < o.acknowledgeTimeoutMs) = false := by
  unfold acknowledgeable at h
  rcases hlatest : s.latestCommitEndLsn with _ | latest
  · rw [hlatest] at h
    cases h
  · rw [hlatest] at h
    dsimp only at h
    split at h
    · cases h
    · next hne =>
      split at h
      · cases h
      · next hat =>
        obtain rfl : latest = lsn := Option.some_inj.mp h
        exact ⟨rfl, hne, Bool.eq_false_iff.mpr hat⟩

/-- 不変条件の下では、timer が送るのは、送っていない commit があるときだけである。 -/
theorem committed_of_acknowledgeable {o : Options J} {w : Session J} {now : Int} {lsn : Lsn}
    (inv : SessionInv w) (hreply : Unreplied o w (.acknowledgeTick now))
    (h : acknowledgeable o now w.service = some lsn) :
    w.service.latestCommitEndLsn = some lsn ∧ w.committed = true := by
  obtain ⟨hlatest, hne, hat⟩ := acknowledgeable_eq_some h
  refine ⟨hlatest, ?_⟩
  have hnone : w.replied = none := by
    rcases hr : w.replied with _ | replied
    · rfl
    · exfalso
      rcases hreply replied (by rw [hr]; rfl) lsn (by rw [hlatest]; rfl) with htext | hthrottled
      · exact hne (by rw [← htext]; exact inv.replied replied (by rw [hr]; rfl))
      · rw [hat] at hthrottled
        cases hthrottled
  by_contra hc
  exact hne (inv.caught (Bool.eq_false_iff.mpr hc) hnone lsn (by rw [hlatest]; rfl))

/-- 一歩が書く位置は、渡した LSN の次である。 -/
theorem position_eq {text : String} {lsn : Lsn} (h : text = lsn.plain ∨ text = lsn.padded) :
    ∀ position ∈ (statusPosition text).toList, position = lsnToUInt64 lsn + 1 := by
  intro position hpos
  have heq : statusPosition text =
      if lsnToUInt64 lsn + 1 < 2 ^ 64 then some (lsnToUInt64 lsn + 1) else none := by
    rcases h with rfl | rfl
    · exact statusPosition_plain lsn
    · exact statusPosition_padded lsn
  rw [heq] at hpos
  split at hpos
  · exact List.mem_singleton.mp hpos
  · cases hpos

/-- 送った位置がすべて新しい位置以下なら、加えた列も並んでいる。 -/
theorem positions_append {positions sent : List Nat} {n : Nat}
    (hordered : positions.Pairwise (· ≤ ·)) (hle : ∀ position ∈ positions, position ≤ n)
    (hsent : ∀ position ∈ sent, position = n) :
    (positions ++ sent).Pairwise (· ≤ ·) ∧ ∀ position ∈ positions ++ sent, position ≤ n := by
  refine ⟨List.pairwise_append.mpr ⟨hordered, ?_, ?_⟩, ?_⟩
  · refine List.pairwise_of_forall_mem_list fun a ha b hb => ?_
    rw [hsent a ha, hsent b hb]
  · intro a ha b hb
    rw [hsent b hb]
    exact hle a ha
  · intro position hpos
    rcases List.mem_append.mp hpos with h | h
    · exact hle position h
    · exact (hsent position h).le

/-- 送らず commit も終えない一歩は、不変条件を保つ。 -/
theorem SessionInv.idle {o : Options J} {w : Session J} {l : Label J} (inv : SessionInv w)
    (hack : acknowledges o w.service l = none) (hcommit : commits w.service l = none) :
    SessionInv (w.step o l) := by
  obtain ⟨hlatest, hlast⟩ := step_acks o w.service l
  rw [hcommit, Option.none_or] at hlatest
  rw [hack, Option.none_or] at hlast
  have harrived : w.arrived ≤ (w.step o l).arrived := by
    unfold Session.step
    rcases l.lsn? with _ | lsn
    · exact le_refl _
    · exact le_max_left _ _
  have hpositions : (w.step o l).positions = w.positions := by
    unfold Session.step
    dsimp only
    rw [hack, Option.bind_none, Option.toList_none, List.append_nil]
  have hreplied : (w.step o l).replied = w.replied := by
    unfold Session.step
    dsimp only
    split
    · exact absurd hack (by simp [acknowledges])
    · rw [hack, hcommit]
      rfl
  have hcommitted : (w.step o l).committed = w.committed := by
    unfold Session.step
    dsimp only
    rw [hack, hcommit]
    simp
  refine ⟨?_, ?_, ?_, ?_, ?_, ?_⟩
  · rw [hpositions]
    exact inv.ordered
  · rw [hpositions]
    intro position hpos
    have := inv.arrived position hpos
    omega
  · show ∀ lsn ∈ (step o w.service l).latestCommitEndLsn, _
    rw [hlatest]
    exact fun lsn hlsn => (inv.latest lsn hlsn).trans harrived
  · show _ → ∀ lsn ∈ (step o w.service l).latestCommitEndLsn, _
    rw [hlatest, hpositions, hcommitted]
    exact inv.committed
  · rw [hreplied]
    show ∀ lsn ∈ w.replied, (step o w.service l).lastAcknowledgedLsn = _
    rw [hlast]
    exact inv.replied
  · rw [hcommitted, hreplied]
    show _ → _ → ∀ lsn ∈ (step o w.service l).latestCommitEndLsn,
      (step o w.service l).lastAcknowledgedLsn = _
    rw [hlatest, hlast]
    exact inv.caught

/-- transaction を終える一歩。 -/
theorem SessionInv.commit {o : Options J} {w : Session J} {lsn : Lsn} (inv : SessionInv w)
    (harrives : Arrives w (.commit (some lsn)))
    (hcommit : commits w.service (.commit (some lsn)) = some lsn) :
    SessionInv (w.step o (.commit (some lsn))) := by
  obtain ⟨hlatest, -⟩ := step_acks o w.service (.commit (some lsn))
  rw [hcommit, Option.some_or] at hlatest
  have hle : w.arrived ≤ lsnToUInt64 lsn := harrives lsn rfl
  have hpositions : (w.step o (.commit (some lsn))).positions = w.positions := List.append_nil _
  have harrived : (w.step o (.commit (some lsn))).arrived = lsnToUInt64 lsn := max_eq_right hle
  have hbound : ∀ position ∈ w.positions, position ≤ lsnToUInt64 lsn + 1 := by
    intro position hpos
    have := inv.arrived position hpos
    omega
  have hreplied : (w.step o (.commit (some lsn))).replied = none := by
    unfold Session.step
    dsimp only
    rw [hcommit]
    simp
  have hcommitted : (w.step o (.commit (some lsn))).committed = true := by
    unfold Session.step
    dsimp only
    rw [hcommit]
    rfl
  refine ⟨?_, ?_, ?_, ?_, ?_, ?_⟩
  · rw [hpositions]
    exact inv.ordered
  · rw [hpositions, harrived]
    exact hbound
  · show ∀ lsn' ∈ (step o w.service (.commit (some lsn))).latestCommitEndLsn, _
    rw [hlatest, harrived]
    rintro _ ⟨⟩
    exact le_refl _
  · show _ → ∀ lsn' ∈ (step o w.service (.commit (some lsn))).latestCommitEndLsn, _
    rw [hlatest, hpositions]
    rintro - _ ⟨⟩
    exact hbound
  · rw [hreplied]
    rintro _ ⟨⟩
  · rw [hcommitted]
    intro h
    cases h

/-- keepalive への返事。 -/
theorem SessionInv.reply {o : Options J} {w : Session J} {lsn : Lsn} (inv : SessionInv w)
    (harrives : Arrives w (.heartbeat lsn true)) : SessionInv (w.step o (.heartbeat lsn true)) := by
  have hle : w.arrived ≤ lsnToUInt64 lsn := harrives lsn rfl
  have harrived : (w.step o (.heartbeat lsn true)).arrived = lsnToUInt64 lsn := max_eq_right hle
  have hbound : ∀ position ∈ w.positions, position ≤ lsnToUInt64 lsn + 1 := by
    intro position hpos
    have := inv.arrived position hpos
    omega
  have hsent : ∀ position ∈ (statusPosition lsn.plain).toList, position = lsnToUInt64 lsn + 1 :=
    position_eq (.inl rfl)
  obtain ⟨hordered, hpositions⟩ := positions_append inv.ordered hbound hsent
  have hcommitted : (w.step o (.heartbeat lsn true)).committed = false := Bool.and_false _
  refine ⟨hordered, ?_, ?_, ?_, ?_, ?_⟩
  · rw [harrived]
    exact hpositions
  · rw [harrived]
    exact fun lsn' hlsn' => (inv.latest lsn' hlsn').trans hle
  · rw [hcommitted]
    intro h
    cases h
  · rintro _ ⟨⟩
    rfl
  · rintro - ⟨⟩

/-- 送っていない commit を timer が送る。 -/
theorem SessionInv.tick {o : Options J} {w : Session J} {now : Int} {lsn : Lsn} (inv : SessionInv w)
    (hreply : Unreplied o w (.acknowledgeTick now))
    (hack : acknowledgeable o now w.service = some lsn) :
    SessionInv (w.step o (.acknowledgeTick now)) := by
  obtain ⟨hlatest, hcommitted⟩ := committed_of_acknowledgeable inv hreply hack
  have hacks : acknowledges o w.service (.acknowledgeTick now) = some lsn.padded := by
    rw [acknowledges_tick, hack, Option.map_some]
  obtain ⟨hnext, hlast⟩ := step_acks o w.service (.acknowledgeTick now)
  have hcommits : commits w.service (.acknowledgeTick now) = none := rfl
  rw [hcommits, Option.none_or, hlatest] at hnext
  rw [hacks, Option.some_or] at hlast
  have hnew : ∀ position ∈ (statusPosition lsn.padded).toList, position = lsnToUInt64 lsn + 1 :=
    position_eq (.inr rfl)
  obtain ⟨hordered, hpositions⟩ := positions_append inv.ordered
    (inv.committed hcommitted lsn (by rw [hlatest]; rfl)) hnew
  have hstep : (w.step o (.acknowledgeTick now)).positions =
      w.positions ++ (statusPosition lsn.padded).toList := by
    unfold Session.step
    dsimp only
    rw [hacks, Option.bind_some]
  have hsent : (w.step o (.acknowledgeTick now)).committed = false := by
    unfold Session.step
    dsimp only
    rw [hacks, hcommits]
    exact Bool.and_false _
  have hreplied : (w.step o (.acknowledgeTick now)).replied = none := by
    unfold Session.step
    dsimp only
    rw [hacks]
    rfl
  -- 送った後は、最後の commit と最後の ack が等しい
  refine ⟨?_, ?_, ?_, ?_, ?_, ?_⟩
  · rw [hstep]
    exact hordered
  · rw [hstep]
    intro position hpos
    have hle := inv.latest lsn (by rw [hlatest]; rfl)
    have := hpositions position hpos
    show position ≤ w.arrived + 1
    omega
  · show ∀ lsn' ∈ (step o w.service (.acknowledgeTick now)).latestCommitEndLsn, _
    rw [hnext, ← hlatest]
    exact inv.latest
  · rw [hsent]
    intro h
    cases h
  · rw [hreplied]
    rintro _ ⟨⟩
  · intro _ _
    show ∀ lsn' ∈ (step o w.service (.acknowledgeTick now)).latestCommitEndLsn,
      (step o w.service (.acknowledgeTick now)).lastAcknowledgedLsn = _
    rw [hnext, hlast]
    rintro _ ⟨⟩
    rfl

/-- 条件の下の一歩は、不変条件を保つ。 -/
theorem SessionInv.step {o : Options J} {w : Session J} {l : Label J} (inv : SessionInv w)
    (harrives : Arrives w l) (hreply : Unreplied o w l) : SessionInv (w.step o l) := by
  cases l with
  | commit commitEndLsn =>
    rcases hcommit : commits w.service (.commit commitEndLsn) with _ | lsn
    · exact inv.idle rfl hcommit
    · obtain rfl : commitEndLsn = some lsn := by
        rw [commits_commit] at hcommit
        split at hcommit
        · exact hcommit
        · cases hcommit
      exact inv.commit harrives hcommit
  | heartbeat lsn shouldRespond =>
    cases shouldRespond with
    | false => exact inv.idle rfl rfl
    | true => exact inv.reply harrives
  | acknowledgeTick now =>
    rcases hack : acknowledgeable o now w.service with _ | lsn
    · refine inv.idle ?_ rfl
      rw [acknowledges_tick, hack, Option.map_none]
    · exact inv.tick hreply hack
  | _ => exact inv.idle rfl rfl

/-- 不変条件の下では、timer は送った位置を送り直さない。 -/
theorem SessionInv.notResent {o : Options J} {w : Session J} {l : Label J} (inv : SessionInv w)
    (hreply : Unreplied o w l) : NotResent o w l := by
  cases l with
  | acknowledgeTick now =>
    intro position hpos _
    rcases hack : acknowledgeable o now w.service with _ | lsn
    · rw [acknowledges_tick, hack] at hpos
      cases hpos
    · exact (committed_of_acknowledgeable inv hreply hack).2
  | _ => trivial

theorem sessionInv_empty : SessionInv ({} : Session J) where
  ordered := List.Pairwise.nil
  arrived := by intro _ h; cases h
  latest := by intro _ h; cases h
  committed := by intro h; cases h
  replied := by intro _ h; cases h
  caught := by rintro - - _ ⟨⟩

/-- **keepalive に返事をした後、新しい commit の無いうちに timer が送らなければ、送る位置は実行を通して前に戻らず、
timer が同じ位置を送り直すこともない。** -/
theorem positions_ordered (o : Options J) (ls : List (Label J))
    (harrives : Along (Session.step o) Arrives {} ls)
    (hreply : Along (Session.step o) (Unreplied o) {} ls) :
    Throughout (Session.step o) (fun w => w.positions.Pairwise (· ≤ ·)) {} ls ∧
      Along (Session.step o) (NotResent o) {} ls := by
  have hstep : ∀ (w : Session J) l, SessionInv w → Arrives w l ∧ Unreplied o w l →
      SessionInv (w.step o l) := fun w l inv h => inv.step h.1 h.2
  have hboth := harrives.and hreply
  refine ⟨?_, Along.of_invariant hstep (fun w l inv h => inv.notResent h.2) sessionInv_empty hboth⟩
  exact (throughout_of_along hstep sessionInv_empty hboth).mono fun w inv => inv.ordered

/-- 二つの transaction と、その間の keepalive への返事。 -/
def acknowledgedRun : List (Label String) :=
  [.begin, .commit (some ⟨0, 1⟩), .acknowledgeTick 5000, .heartbeat ⟨0, 2⟩ true, .begin,
    .commit (some ⟨0, 3⟩), .acknowledgeTick 7000]

/-- この実行では、位置は並んで送られる。 -/
theorem positions_ordered_acknowledgedRun :
    Throughout (Session.step plainOptions) (fun w => w.positions.Pairwise (· ≤ ·)) {}
        acknowledgedRun ∧
      Along (Session.step plainOptions) (NotResent plainOptions) {} acknowledgedRun :=
  positions_ordered plainOptions acknowledgedRun (by decide)
    ⟨trivial, trivial, by rintro _ ⟨⟩, trivial, trivial, trivial, by rintro _ ⟨⟩, trivial⟩

/-- commit の後に keepalive に返事をし、その後で timer が送る。 -/
def repliedRun (lsn : Lsn) : List (Label String) :=
  [.begin, .commit (some ⟨0, 1⟩), .heartbeat lsn true, .acknowledgeTick 5000]

/-- 返事をした位置が commit の次より後なら、位置は前に戻る。commit と同じ位置なら、timer が同じ位置を送り直す。 -/
theorem position_goes_back :
    (Along (Session.step plainOptions) Arrives {} (repliedRun ⟨0, 5⟩) ∧
      ¬ (exec (Session.step plainOptions) {} (repliedRun ⟨0, 5⟩)).positions.Pairwise (· ≤ ·)) ∧
    Along (Session.step plainOptions) Arrives {} (repliedRun ⟨0, 1⟩) ∧
      ¬ Along (Session.step plainOptions) (NotResent plainOptions) {} (repliedRun ⟨0, 1⟩) := by
  refine ⟨⟨by decide, ?_⟩, by decide, fun h => ?_⟩
  · -- 送った位置は 6、2 の順である
    decide
  · have hcommitted := h.2.2.2.1 2 (by decide) (by decide)
    cases hcommitted

end Replication
