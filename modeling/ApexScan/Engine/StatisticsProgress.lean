import ApexScan.Engine.SessionStatistics

/-!
# What one resolution does to session statistics

* `Evolves` — the statistics of a later context continue those of an earlier one; transitive.
* `resolve_evolves` — on one date a resolution evolves the previous statistics.
* `resolve_source` — new statistics are made of one aggregate of a verified source.
* `resolve_alike` — the prices of an aggregate of an unverified source do not matter.
-/

set_option autoImplicit false

namespace ApexScan

/-! ## Progress of a snapshot -/

/-- A later snapshot of a session moves an earlier one forward. -/
def SessionStatistics.Progresses (s s' : SessionStatistics) : Prop :=
  s.quality = .authoritative ∧ s'.quality = .authoritative ∧ s'.openPrice = s.openPrice ∧
    (∃ h ∈ s.highPrice, ∃ h' ∈ s'.highPrice, h ≤ h') ∧
    (∃ l ∈ s.lowPrice, ∃ l' ∈ s'.lowPrice, l' ≤ l) ∧ s.asOf ≤ s'.asOf

/-- Statistics evolve: none until a first authoritative snapshot, which then only progresses. -/
def Evolves : Option SessionStatistics → Option SessionStatistics → Prop
  | none, none => True
  | none, some s => s.quality = .authoritative
  | some s, some s' => s.Progresses s'
  | some _, none => False

theorem SessionStatistics.Progresses.trans {s s' s'' : SessionStatistics} (h : s.Progresses s')
    (h' : s'.Progresses s'') : s.Progresses s'' := by
  obtain ⟨hq, -, hopen, ⟨x, hx, y, hy, hxy⟩, ⟨u, hu, v, hv, huv⟩, hasOf⟩ := h
  obtain ⟨-, hq', hopen', ⟨y', hy', z, hz, hyz⟩, ⟨v', hv', w, hw, hvw⟩, hasOf'⟩ := h'
  have hhigh : y = y' := Option.mem_unique hy hy'
  have hlow : v = v' := Option.mem_unique hv hv'
  subst hhigh hlow
  exact ⟨hq, hq', hopen'.trans hopen, ⟨x, hx, z, hz, hxy.trans hyz⟩,
    ⟨u, hu, w, hw, hvw.trans huv⟩, hasOf.trans hasOf'⟩

theorem Evolves.trans {a b c : Option SessionStatistics} (h : Evolves a b) (h' : Evolves b c) :
    Evolves a c := by
  cases a with
  | none =>
    cases b with
    | none => exact h'
    | some s =>
      cases c with
      | none => exact h'.elim
      | some s' => exact h'.2.1
  | some s =>
    cases b with
    | none => exact h.elim
    | some s' =>
      cases c with
      | none => exact h'.elim
      | some s'' => exact SessionStatistics.Progresses.trans h h'

instance : IsTrans (Option SessionStatistics) Evolves := ⟨fun _ _ _ => Evolves.trans⟩

/-- An authoritative snapshot has its three prices. -/
theorem SessionStatistics.prices {s : SessionStatistics} (h : s.quality = .authoritative) :
    ∃ o h l, s.openPrice = some o ∧ s.highPrice = some h ∧ s.lowPrice = some l := by
  have hc := s.consistent
  rw [h] at hc
  cases ho : s.openPrice <;> cases hh : s.highPrice <;> cases hl : s.lowPrice <;>
    simp_all [qualityConsistent]

/-- A retained snapshot progresses. -/
theorem SessionStatistics.progresses_self {s : SessionStatistics} (h : s.quality = .authoritative) :
    s.Progresses s := by
  obtain ⟨o, x, l, ho, hx, hl⟩ := s.prices h
  exact ⟨h, h, rfl, ⟨x, hx, x, hx, le_rfl⟩, ⟨l, hl, l, hl, le_rfl⟩, le_rfl⟩

theorem evolves_self {s : Option SessionStatistics}
    (h : ∀ p, s = some p → p.quality = .authoritative) : Evolves s s := by
  cases s with
  | none => trivial
  | some p => exact p.progresses_self (h p rfl)

/-- **Reconciliation moves forward.** -/
theorem reconciled_progresses (aggregate : ProviderSessionOhlc) (asOf date : Int)
    {prior : SessionStatistics} (h : prior.quality = .authoritative) :
    prior.Progresses (reconciled (candidateOf aggregate asOf date) prior asOf) := by
  obtain ⟨o, x, l, ho, hx, hl⟩ := prior.prices h
  have hself := prior.progresses_self h
  unfold reconciled
  rw [ho, hx, hl]
  split
  · exact hself
  · rename_i hasOf
    simp only [candidateOf]
    split
    · exact hself
    · rename_i hopen
      split
      · exact hself
      · rename_i hmoves
        split
        · exact hself
        · rw [not_or, not_lt, not_lt] at hmoves
          refine ⟨h, rfl, ?_, ⟨x, hx, _, rfl, hmoves.1⟩, ⟨l, hl, _, rfl, hmoves.2⟩, ?_⟩
          · rw [ho]
            exact congrArg some (not_not.mp hopen)
          · exact not_lt.mp hasOf

section Resolution

variable {aggregate aggregate' : Option ProviderSessionOhlc} {asOf : Int}
  {session : SessionContext} {previous : Option SessionStatistics} {verified : Bool}
  {staged staged' : Option SessionStatisticsObservation} {authority : SessionStatisticsAuthority}

/-- Previous statistics of the session's date are its prior. -/
theorem sameSessionPrior_self (h : ∀ p, previous = some p → p.tradingDate = session.tradingDate) :
    sameSessionPrior previous session = previous := by
  unfold sameSessionPrior
  cases previous with
  | none => rfl
  | some p => simp [h p rfl]

theorem apply_evolves (hdate : ∀ p, previous = some p → p.tradingDate = session.tradingDate)
    (hquality : ∀ p, previous = some p → p.quality = .authoritative) :
    Evolves previous (applySessionOhlc aggregate asOf session previous verified) := by
  unfold applySessionOhlc
  rw [sameSessionPrior_self hdate]
  simp only
  split
  · exact evolves_self hquality
  · split
    · split
      · rfl
      · exact reconciled_progresses _ _ _ (hquality _ rfl)
    · exact evolves_self hquality

/-- Statistics are the previous ones, or the candidate of a verified aggregate in the live
    session. -/
theorem apply_source {s : SessionStatistics}
    (h : applySessionOhlc aggregate asOf session previous verified = some s) :
    previous = some s ∨ (verified = true ∧ session.marketState = .liveSession ∧
      ∃ a, aggregate = some a ∧ s = candidateOf a asOf session.tradingDate) := by
  have hprior : ∀ {s}, sameSessionPrior previous session = some s → previous = some s := by
    intro s hs
    exact (Option.filter_eq_some_iff.mp hs).1
  unfold applySessionOhlc at h
  simp only at h
  split at h
  · exact Or.inl (hprior h)
  · rename_i hlive
    rw [not_not] at hlive
    split at h
    · rename_i a
      split at h
      · cases h
        exact Or.inr ⟨rfl, hlive, a, rfl, rfl⟩
      · rename_i prior hpr
        cases h
        rcases reconciled_eq (candidateOf a asOf session.tradingDate) prior asOf with he | he
        · exact Or.inr ⟨rfl, hlive, a, rfl, he⟩
        · refine Or.inl ?_
          rw [he]
          exact hprior hpr
    · exact Or.inl (hprior h)

/-- An unverified aggregate does not matter. -/
theorem apply_alike (h : verified = true → aggregate' = aggregate) :
    applySessionOhlc aggregate' asOf session previous verified =
      applySessionOhlc aggregate asOf session previous verified := by
  cases verified with
  | true => rw [h rfl]
  | false => rfl

/-- **A resolution on the date of the previous statistics evolves them.** -/
theorem resolve_evolves (hdate : ∀ p, previous = some p → p.tradingDate = session.tradingDate)
    (hquality : ∀ p, previous = some p → p.quality = .authoritative) :
    Evolves previous
      (resolveSessionStatistics aggregate asOf staged (some session) previous authority).1 := by
  unfold resolveSessionStatistics
  simp only
  split
  · exact apply_evolves hdate hquality
  · split
    · exact apply_evolves hdate hquality
    · split
      · exact apply_evolves hdate hquality
      · exact apply_evolves hdate hquality

/-- **Resolved statistics are the previous ones or those of one verified aggregate**: the tick's
    own, or the staged observation of the session's date. -/
theorem resolve_source {s : SessionStatistics}
    (h : (resolveSessionStatistics aggregate asOf staged (some session) previous authority).1 =
      some s) :
    previous = some s ∨ (session.marketState = .liveSession ∧
      ((authority.tickAggregateVerified = true ∧
          ∃ a, aggregate = some a ∧ s = candidateOf a asOf session.tradingDate) ∨
        (authority.stagedObservationVerified = true ∧ ∃ o, staged = some o ∧
          o.tradingDate = session.tradingDate ∧
          s = candidateOf o.sessionOhlc o.observedAt session.tradingDate))) := by
  have htick : applySessionOhlc aggregate asOf session previous authority.tickAggregateVerified =
      some s → previous = some s ∨ (session.marketState = .liveSession ∧
        authority.tickAggregateVerified = true ∧
          ∃ a, aggregate = some a ∧ s = candidateOf a asOf session.tradingDate) := by
    intro hs
    rcases apply_source hs with hprev | ⟨hverified, hlive, hagg⟩
    · exact Or.inl hprev
    · exact Or.inr ⟨hlive, hverified, hagg⟩
  unfold resolveSessionStatistics at h
  simp only at h
  split at h
  · exact (htick h).imp_right fun ⟨hlive, hs⟩ => ⟨hlive, Or.inl hs⟩
  · rename_i o
    split at h
    · exact (htick h).imp_right fun ⟨hlive, hs⟩ => ⟨hlive, Or.inl hs⟩
    · split at h
      · rename_i hdate
        rcases apply_source h with hprev | ⟨hverified, hlive, a, ha, hs⟩
        · exact Or.inl hprev
        · refine Or.inr ⟨hlive, Or.inr ⟨hverified, o, rfl, hdate.1, ?_⟩⟩
          rw [Option.some.inj ha]
          exact hs
      · exact (htick h).imp_right fun ⟨hlive, hs⟩ => ⟨hlive, Or.inl hs⟩

/-- Two observations that differ at most in their prices, and not at all where staged observations
    are verified. -/
def AlikeObservation (authority : SessionStatisticsAuthority)
    (o o' : SessionStatisticsObservation) : Prop :=
  o'.instrument = o.instrument ∧ o'.tradingDate = o.tradingDate ∧ o'.observedAt = o.observedAt ∧
    (authority.stagedObservationVerified = true → o' = o)

/-- Two staging slots that are both empty or hold such observations. -/
def AlikeStaged (authority : SessionStatisticsAuthority) :
    Option SessionStatisticsObservation → Option SessionStatisticsObservation → Prop
  | none, none => True
  | some o, some o' => AlikeObservation authority o o'
  | _, _ => False

/-- **Unverified prices do not matter to a resolution.** -/
theorem resolve_alike (session : Option SessionContext)
    (haggregate : authority.tickAggregateVerified = true → aggregate' = aggregate)
    (hstaged : AlikeStaged authority staged staged') :
    (resolveSessionStatistics aggregate' asOf staged' session previous authority).1 =
        (resolveSessionStatistics aggregate asOf staged session previous authority).1 ∧
      AlikeStaged authority
        (resolveSessionStatistics aggregate asOf staged session previous authority).2
        (resolveSessionStatistics aggregate' asOf staged' session previous authority).2 := by
  cases session with
  | none => exact ⟨rfl, hstaged⟩
  | some session =>
    have htick : applySessionOhlc aggregate' asOf session previous
        authority.tickAggregateVerified =
        applySessionOhlc aggregate asOf session previous authority.tickAggregateVerified :=
      apply_alike haggregate
    cases staged with
    | none =>
      cases staged' with
      | none => exact ⟨htick, trivial⟩
      | some o' => exact hstaged.elim
    | some o =>
      cases staged' with
      | none => exact hstaged.elim
      | some o' =>
        obtain ⟨hinstrument, hdate, hinstant, hverified⟩ := hstaged
        have happly : applySessionOhlc (some o'.sessionOhlc) o'.observedAt session previous
            authority.stagedObservationVerified =
            applySessionOhlc (some o.sessionOhlc) o.observedAt session previous
              authority.stagedObservationVerified := by
          rw [hinstant]
          apply apply_alike
          intro hv
          rw [hverified hv]
        simp only [resolveSessionStatistics, hdate, htick, happly]
        split
        · exact ⟨rfl, trivial⟩
        · split
          · exact ⟨rfl, trivial⟩
          · exact ⟨rfl, hinstrument, hdate, hinstant, hverified⟩

/-- A resolution stages nothing. -/
theorem resolve_staged {session : Option SessionContext} {o : SessionStatisticsObservation}
    (h : (resolveSessionStatistics aggregate asOf staged session previous authority).2 = some o) :
    staged = some o := by
  unfold resolveSessionStatistics at h
  cases session with
  | none => exact h
  | some session =>
    cases staged with
    | none => cases h
    | some current =>
      simp only at h
      split at h
      · cases h
      · split at h
        · cases h
        · exact h

end Resolution

end ApexScan
