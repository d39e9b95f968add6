import ApexScan.Engine.RetainedOnce
import ApexScan.Lib.Sorting

/-!
# What a reported repair keeps

`_apply_reconciliation` takes the matching interval out of the incomplete window, puts the authoritative
candle into the finalized one by its start and cuts that window to its newest entries.  A candle that
is older than a full window is cut off in the same call.

* `StreamRepaired`, `RepairKept` — what is to hold after a reported repair, of the stream and of the
  engine.
* `KeepsRepair` — a call that reports a repair keeps it, and any other changes nothing.
* `HasRoom` — a repair finds fewer than a window of finalized candles that start later.
* `InWindow` — the invariant: the windows of the incomplete intervals are bounded.

Main result: `keeps_repair_iff`, in every state of every run.  `repair_dropped` is a run with three
repairs out of order.
-/

set_option autoImplicit false

namespace ApexScan.RepairsKept

open Lib CandleEngine ContinuityTaint RetainedOnce

/-! ## What is to hold -/

/-- The stream after a repair: the candle alone has its identity, no incomplete interval has it any
    more, and the rest is as it was. -/
structure StreamRepaired (authoritative : Candle) (tf : Timeframe) (st st' : TimeframeState) :
    Prop where
  finalized : st'.finalized.filter (fun f => identityOf f tf = identityOf authoritative tf) =
    [authoritative]
  incomplete : st'.incomplete =
    st.incomplete.filter fun c => identityOfIncomplete c ≠ identityOf authoritative tf
  rest : st' = { st with incomplete := st'.incomplete, finalized := st'.finalized }

/-- The engine after a repair: its stream is repaired, the other streams and everything else are as
    they were, and a second call finds the repair and changes nothing. -/
structure RepairKept (authoritative : Candle) (tf : Timeframe) (e e' : CandleEngine) : Prop where
  stream : ∃ st st', e.states.get (authoritative.instrument, tf) = some st ∧
    e'.states.get (authoritative.instrument, tf) = some st' ∧ StreamRepaired authoritative tf st st'
  others : ∀ key, key ≠ (authoritative.instrument, tf) → e'.states.get key = e.states.get key
  rest : e' = { e with states := e'.states }
  again : e'.reconcile authoritative tf = (e',
    { identity := identityOf authoritative tf, outcome := .alreadyReconciled,
      candle := some authoritative })

/-- A call that reports a repair keeps it; any other changes nothing. -/
def KeepsRepair (e : CandleEngine) (authoritative : Candle) (tf : Timeframe) : Prop :=
  ((e.reconcile authoritative tf).2.outcome = .reconciled →
      RepairKept authoritative tf e (e.reconcile authoritative tf).1) ∧
    ((e.reconcile authoritative tf).2.outcome ≠ .reconciled → (e.reconcile authoritative tf).1 = e)

/-- Where an incomplete interval matches the candle and no finalized one does, fewer than a window of
    finalized candles start later. -/
def HasRoom (e : CandleEngine) (authoritative : Candle) (tf : Timeframe) : Prop :=
  ∀ st, e.states.get (authoritative.instrument, tf) = some st →
    (∃ c ∈ st.incomplete, identityOfIncomplete c = identityOf authoritative tf) →
    (∀ f ∈ st.finalized, identityOf f tf ≠ identityOf authoritative tf) →
    (st.finalized.filter fun f => authoritative.startTimestamp < f.startTimestamp).length <
      e.finalizedWindow

/-! ## The outcomes -/

variable {e : CandleEngine} {auth : Candle} {tf : Timeframe} {st : TimeframeState}

theorem matchOutcome_reconciled_iff {inc : List IncompleteCandle} {fin : List Candle} :
    matchOutcome auth tf inc fin = .reconciled ↔
      (∃ c ∈ inc, identityOfIncomplete c = identityOf auth tf) ∧
        ∀ f ∈ fin, identityOf f tf ≠ identityOf auth tf := by
  constructor
  · intro h
    refine ⟨matchOutcome_reconciled h, ?_⟩
    intro f hf heq
    unfold matchOutcome at h
    split at h
    · split at h <;> cases h
    · rename_i hnone
      exact absurd (beq_iff_eq.mpr heq) (List.find?_eq_none.mp hnone f hf)
  · rintro ⟨⟨c, hc, heq⟩, hfin⟩
    have hnone : fin.find? (fun f => identityOf f tf == identityOf auth tf) = none :=
      List.find?_eq_none.mpr fun f hf hbeq => hfin f hf (beq_iff_eq.mp hbeq)
    have hany : inc.any (fun c => identityOfIncomplete c == identityOf auth tf) = true :=
      List.any_eq_true.mpr ⟨c, hc, beq_iff_eq.mpr heq⟩
    unfold matchOutcome
    rw [hnone]
    simp only [hany, if_true]

/-- A candle that is alone in the finalized window with its identity is reconciled already. -/
theorem matchOutcome_already {inc : List IncompleteCandle} {fin : List Candle}
    (h : fin.filter (fun f => identityOf f tf = identityOf auth tf) = [auth]) :
    matchOutcome auth tf inc fin = .alreadyReconciled := by
  have hfind : fin.find? (fun f => identityOf f tf == identityOf auth tf) = some auth := by
    rw [← List.head?_filter]
    have hsame : fin.filter (fun f => identityOf f tf == identityOf auth tf) =
        fin.filter fun f => identityOf f tf = identityOf auth tf :=
      List.filter_congr fun f _ => rfl
    rw [hsame, h]
    rfl
  unfold matchOutcome
  rw [hfind]
  exact if_pos rfl

/-- A repair: the call puts the repaired stream in place and reports it. -/
theorem reconcile_of_match (hst : e.states.get (auth.instrument, tf) = some st)
    (hmatch : matchOutcome auth tf st.incomplete st.finalized = .reconciled) :
    e.reconcile auth tf =
      ({ e with states := e.states.set (auth.instrument, tf)
                  (applyReconciliation e.finalizedWindow st auth tf) },
        { identity := identityOf auth tf, outcome := .reconciled, candle := some auth }) := by
  unfold reconcile
  simp only [hst, hmatch]

theorem reconcile_of_already (hst : e.states.get (auth.instrument, tf) = some st)
    (hmatch : matchOutcome auth tf st.incomplete st.finalized = .alreadyReconciled) :
    e.reconcile auth tf =
      (e, { identity := identityOf auth tf, outcome := .alreadyReconciled, candle := some auth }) := by
  unfold reconcile
  simp only [hst, hmatch]

/-- A call that reports a repair made it on a stream of the candle's instrument. -/
theorem exists_match (h : (e.reconcile auth tf).2.outcome = .reconciled) :
    ∃ st, e.states.get (auth.instrument, tf) = some st ∧
      matchOutcome auth tf st.incomplete st.finalized = .reconciled := by
  unfold reconcile at h
  simp only at h
  split at h
  · cases h
  · rename_i st hst
    split at h
    · exact ⟨st, hst, by assumption⟩
    · split at h <;> cases h
    · cases h
    · rename_i hne _ _
      exact absurd h hne

/-- Any other call changes nothing. -/
theorem reconcile_unchanged (h : (e.reconcile auth tf).2.outcome ≠ .reconciled) :
    (e.reconcile auth tf).1 = e := by
  unfold reconcile at h ⊢
  simp only at h ⊢
  split
  · rfl
  · split
    · rename_i hst _ hmatch
      rw [hst] at h
      simp only [hmatch] at h
      exact absurd rfl h
    · split <;> rfl
    · rfl
    · rfl

/-! ## The repaired stream -/

/-- The repaired window has the candle alone with its identity exactly when it has it at all. -/
theorem repaired_finalized_iff {window : ℕ}
    (hfin : ∀ f ∈ st.finalized, identityOf f tf ≠ identityOf auth tf) :
    (applyReconciliation window st auth tf).finalized.filter
        (fun f => identityOf f tf = identityOf auth tf) = [auth] ↔
      (st.finalized.filter fun f => auth.startTimestamp < f.startTimestamp).length < window := by
  have hkept : st.finalized.filter (fun f => identityOf f tf != identityOf auth tf) =
      st.finalized := List.filter_eq_self.mpr fun f hf => bne_iff_ne.mpr (hfin f hf)
  have hrepaired : (applyReconciliation window st auth tf).finalized =
      (sortBy Candle.startTimestamp (st.finalized ++ [auth])).rtake window := by
    unfold applyReconciliation
    simp only [hkept]
    rfl
  have hnone : st.finalized.filter (fun f => identityOf f tf = identityOf auth tf) = [] :=
    List.filter_eq_nil_iff.mpr fun f hf heq => hfin f hf (of_decide_eq_true heq)
  -- of the sorted candles only this one has the identity
  have hone : (sortBy Candle.startTimestamp (st.finalized ++ [auth])).filter
      (fun f => identityOf f tf = identityOf auth tf) = [auth] := by
    refine List.perm_singleton.mp ((sortBy_perm.filter _).trans ?_)
    rw [List.filter_append, hnone]
    simp
  rw [hrepaired, ← mem_rtake_sortBy_concat]
  constructor
  · intro heq
    have hmem : auth ∈ ((sortBy Candle.startTimestamp (st.finalized ++ [auth])).rtake window).filter
        (fun f => identityOf f tf = identityOf auth tf) := by
      rw [heq]
      exact List.mem_singleton_self _
    exact (List.mem_filter.mp hmem).1
  · intro hmem
    have hsub := (rtake_sublist window (sortBy Candle.startTimestamp (st.finalized ++ [auth]))).filter
      fun f => identityOf f tf = identityOf auth tf
    rw [hone, List.sublist_singleton] at hsub
    rcases hsub with hempty | hsub
    · exact absurd (decide_eq_true rfl) (List.filter_eq_nil_iff.mp hempty auth hmem)
    · exact hsub

/-- A repair leaves the bounded window of incomplete intervals otherwise as it was. -/
theorem repaired_incomplete {window : ℕ} (hle : st.incomplete.length ≤ window) :
    (applyReconciliation window st auth tf).incomplete =
      st.incomplete.filter fun c => identityOfIncomplete c ≠ identityOf auth tf := by
  have hlength := (List.length_filter_le
    (fun c => identityOfIncomplete c != identityOf auth tf) st.incomplete).trans hle
  unfold applyReconciliation
  simp only [List.rtake, Nat.sub_eq_zero_of_le hlength, List.drop_zero]
  refine List.filter_congr fun c _ => ?_
  rw [decide_not]
  rfl

/-- A repair keeps what it reports exactly when its candle has room. -/
theorem repaired_iff {window : ℕ} (hle : st.incomplete.length ≤ window)
    (hfin : ∀ f ∈ st.finalized, identityOf f tf ≠ identityOf auth tf) :
    StreamRepaired auth tf st (applyReconciliation window st auth tf) ↔
      (st.finalized.filter fun f => auth.startTimestamp < f.startTimestamp).length < window := by
  rw [← repaired_finalized_iff hfin]
  exact ⟨fun h => h.finalized, fun h => ⟨h, repaired_incomplete hle, rfl⟩⟩

/-- A repaired stream makes a kept repair: the second call finds the candle. -/
theorem RepairKept.of_stream (hst : e.states.get (auth.instrument, tf) = some st)
    (hstream : StreamRepaired auth tf st (applyReconciliation e.finalizedWindow st auth tf)) :
    RepairKept auth tf e
      { e with states := e.states.set (auth.instrument, tf)
                (applyReconciliation e.finalizedWindow st auth tf) } := by
  refine ⟨⟨st, _, hst, Dict.get_set_self _ _ _, hstream⟩, ?_, rfl, ?_⟩
  · intro key hkey
    exact Dict.get_set_ne _ _ hkey.symm
  · exact reconcile_of_already (Dict.get_set_self _ _ _) (matchOutcome_already hstream.finalized)

/-! ## The bound of the incomplete window -/

/-- The streams keep at most a window of incomplete intervals. -/
def InWindow (e : CandleEngine) : Prop :=
  ∀ i tf st, e.states.get (i, tf) = some st → st.incomplete.length ≤ e.finalizedWindow

theorem finalizePartial_incomplete_le {window : ℕ} (h : st.incomplete.length ≤ window) :
    (st.finalizePartial window).incomplete.length ≤ window := by
  unfold TimeframeState.finalizePartial
  split
  · exact h
  · exact rtake_length_le _ _

/-- A tick appends to the window of the stream by closing its bucket, if at all. -/
theorem streamStep_incomplete_le {window : ℕ} {date : Int} {broken : Bool} {bounds : Int × Int × Int}
    {tick : Tick} (h : st.incomplete.length ≤ window) :
    (st.streamStep window date broken bounds tick).incomplete.length ≤ window := by
  cases hopen : st.opensAt date bounds.1 with
  | true =>
    rw [(streamStep_opened window broken tick hopen).1]
    exact finalizePartial_incomplete_le h
  | false =>
    cases hb : st.partialBucket with
    | none => simp [TimeframeState.opensAt, hb] at hopen
    | some b =>
      rw [streamStep_same hb hopen]
      exact h

/-- One operation keeps the bound. -/
theorem step_inWindow (h : InWindow e) (op : Op) : InWindow (step e op).1 := by
  intro i tf st' hst'
  rw [(step_config e op).finalizedWindow]
  rcases step_stream hst' with ⟨tick, session, broken, -, -, -, rfl⟩ | ⟨-, st, hst, htouched⟩
  · apply streamStep_incomplete_le
    unfold stateFor
    cases hget : e.states.get (i, tf) with
    | none => exact Nat.zero_le _
    | some st => exact h i tf st hget
  · cases htouched with
    | same => exact h i tf _ hst
    | broken => exact h i tf st hst
    | closed _ => exact finalizePartial_incomplete_le (h i tf st hst)
    | repaired inc fin =>
      -- the repaired stream comes out of `_apply_reconciliation`, which cuts the window
      rcases reconcile_moves hst' with hsame | ⟨st, _, _, heq⟩
      · exact h i tf _ hsame
      · rw [heq]
        exact rtake_length_le _ _

/-- The bound holds in every state of a run of a new engine. -/
theorem run_inWindow {schedule : SessionSchedule} {timezone : ZoneInfo} {timeframes : List Timeframe}
    {window : ℕ} {e₀ : CandleEngine} (hcreate : create schedule timezone timeframes window = some e₀)
    (ops : List Op) : InWindow (run step e₀ ops) := by
  refine run_invariant (I := InWindow) (fun _ op h => step_inWindow h op) ops ?_
  unfold create at hcreate
  split at hcreate
  · split at hcreate
    · obtain rfl := (Option.some.inj hcreate).symm
      intro i tf st hst
      cases hst
    · cases hcreate
  · cases hcreate

/-! ## The main result -/

/-- **A repair is kept exactly when it has room**: in every state of a run, for every candle and
    timeframe, the call of `reconcile` keeps what it reports if and only if fewer than a window of
    finalized candles start after the candle of the repair. -/
theorem keeps_repair_iff {schedule : SessionSchedule} {timezone : ZoneInfo}
    {timeframes : List Timeframe} {window : ℕ} {e₀ : CandleEngine}
    (hcreate : create schedule timezone timeframes window = some e₀) (ops : List Op) (auth : Candle)
    (tf : Timeframe) :
    KeepsRepair (run step e₀ ops) auth tf ↔ HasRoom (run step e₀ ops) auth tf := by
  have hwindow := run_inWindow hcreate ops
  set e := run step e₀ ops
  constructor
  · intro hkeeps st hst hinc hfin
    have hmatch := matchOutcome_reconciled_iff.mpr ⟨hinc, hfin⟩
    have hcall := reconcile_of_match hst hmatch
    have hkept := hkeeps.1 (by rw [hcall])
    rw [hcall] at hkept
    obtain ⟨st₁, st₂, hst₁, hst₂, hstream⟩ := hkept.stream
    rw [hst] at hst₁
    obtain rfl := Option.some.inj hst₁
    rw [Dict.get_set_self] at hst₂
    obtain rfl := Option.some.inj hst₂
    exact (repaired_iff (hwindow _ _ _ hst) hfin).mp hstream
  · intro hroom
    refine ⟨?_, reconcile_unchanged⟩
    intro hreported
    obtain ⟨st, hst, hmatch⟩ := exists_match hreported
    obtain ⟨hinc, hfin⟩ := matchOutcome_reconciled_iff.mp hmatch
    rw [reconcile_of_match hst hmatch]
    exact RepairKept.of_stream hst
      ((repaired_iff (hwindow _ _ _ hst) hfin).mpr (hroom st hst hinc hfin))

/-- The authoritative candle of the minute at `m` minutes past midnight of 2024-10-04. -/
def minuteCandle (m : Int) : Candle where
  instrument := reliance
  startTimestamp := 20000 * day + (m - 330) * minute
  endTimestamp := 20000 * day + (m - 329) * minute
  openPrice := rupees 100
  highPrice := rupees 100
  lowPrice := rupees 100
  closePrice := rupees 100
  tradedQuantity := 0
  start_lt_end := by unfold minute second; omega
  low_le_high := le_refl _
  open_within := ⟨le_refl _, le_refl _⟩
  close_within := ⟨le_refl _, le_refl _⟩

/-- A new engine with windows of two. -/
def narrowEngine : CandleEngine where
  schedule := nseSchedule
  timezone := kolkata
  finalizedWindow := 2
  finalizedWindow_pos := Nat.two_pos
  timeframes := ordered [oneMinute]
  timeframes_nodup := ordered_nodup _

theorem keeps_repair_sample :
    create nseSchedule kolkata [oneMinute] 2 = some narrowEngine ∧
      KeepsRepair (run step narrowEngine [tickOp 555, tickOp 556]) (minuteCandle 555) oneMinute := by
  have hcreate : create nseSchedule kolkata [oneMinute] 2 = some narrowEngine := rfl
  refine ⟨hcreate, (keeps_repair_iff hcreate _ _ _).mpr ?_⟩
  intro st hst _ _
  obtain rfl := Option.some.inj hst
  decide

/-- The second and the third minute are repaired first: the repair of the first one is reported and
    dropped, and a second call finds the candle out of the window. -/
theorem repair_dropped :
    let ops := [tickOp 555, tickOp 556, tickOp 557, .reconcile (minuteCandle 556) oneMinute,
      tickOp 558, .reconcile (minuteCandle 557) oneMinute]
    let e := run step narrowEngine ops
    let repaired := e.reconcile (minuteCandle 555) oneMinute
    create nseSchedule kolkata [oneMinute] 2 = some narrowEngine ∧
      repaired.2.outcome = .reconciled ∧
      (∃ st, repaired.1.states.get (reliance, oneMinute) = some st ∧
        minuteCandle 555 ∉ st.finalized) ∧
      (repaired.1.reconcile (minuteCandle 555) oneMinute).2.outcome = .outOfWindow ∧
      ¬ KeepsRepair e (minuteCandle 555) oneMinute := by
  intro ops e repaired
  have hreported : repaired.2.outcome = .reconciled := by decide
  have hagain : (repaired.1.reconcile (minuteCandle 555) oneMinute).2.outcome = .outOfWindow := by
    decide
  refine ⟨rfl, hreported, ⟨_, rfl, by decide⟩, hagain, ?_⟩
  intro hkeeps
  have hfound := (hkeeps.1 hreported).again
  rw [hfound] at hagain
  cases hagain

end ApexScan.RepairsKept
