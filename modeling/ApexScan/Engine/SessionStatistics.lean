import ApexScan.Engine.Session

/-!
# Current-session statistics (`app/market_engine/session_statistics.py`)

One reconciliation primitive, `applySessionOhlc`, computes the next statistics from a provider
aggregate; `resolveSessionStatistics` chooses between the staged observation and the aggregate a
tick carries.

Result: `resolve_tradingDate` — with a session, resolved statistics belong to its trading date.
-/

set_option autoImplicit false

namespace ApexScan

inductive SessionStatisticsQuality where
  | authoritative
  | unavailable
  deriving DecidableEq, Repr

/-- `SessionStatistics._validate_quality_consistency`. -/
def qualityConsistent (quality : SessionStatisticsQuality) (openPrice highPrice lowPrice : Option Price) :
    Bool :=
  match quality, openPrice, highPrice, lowPrice with
  | .unavailable, none, none, none => true
  | .authoritative, some o, some h, some l => decide (l ≤ h ∧ l ≤ o ∧ o ≤ h)
  | _, _, _, _ => false

/-- Session statistics of one instrument for one trading date. -/
structure SessionStatistics where
  tradingDate : Int
  openPrice : Option Price
  highPrice : Option Price
  lowPrice : Option Price
  quality : SessionStatisticsQuality
  asOf : Int
  consistent : qualityConsistent quality openPrice highPrice lowPrice = true
  deriving DecidableEq

/-- Per-source capability that gates authoritative statistics. -/
structure SessionStatisticsAuthority where
  stagedObservationVerified : Bool := false
  tickAggregateVerified : Bool := false
  deriving DecidableEq

/-- The candidate snapshot of `apply_session_ohlc`. -/
def candidateOf (aggregate : ProviderSessionOhlc) (asOf tradingDate : Int) : SessionStatistics where
  tradingDate := tradingDate
  openPrice := some aggregate.openPrice
  highPrice := some aggregate.highPrice
  lowPrice := some aggregate.lowPrice
  quality := .authoritative
  asOf := asOf
  consistent := by
    simp [qualityConsistent, aggregate.low_le_high, aggregate.open_within.1, aggregate.open_within.2]

/-- `_same_session_prior`. -/
def sameSessionPrior (previous : Option SessionStatistics) (session : SessionContext) :
    Option SessionStatistics :=
  previous.filter fun p => p.tradingDate = session.tradingDate

/-- `_reconciled`: a coherent forward progression is accepted whole, anything else retains the
    prior snapshot. -/
def reconciled (candidate prior : SessionStatistics) (aggregateAsOf : Int) : SessionStatistics :=
  if aggregateAsOf < prior.asOf then prior
  else
    match candidate.openPrice, candidate.highPrice, candidate.lowPrice,
        prior.openPrice, prior.highPrice, prior.lowPrice with
    | some newOpen, some newHigh, some newLow, some oldOpen, some oldHigh, some oldLow =>
      if newOpen ≠ oldOpen then prior
      else if newHigh < oldHigh ∨ oldLow < newLow then prior
      else if newHigh = oldHigh ∧ newLow = oldLow then prior
      else candidate
    | _, _, _, _, _, _ => prior

/-- `apply_session_ohlc`. -/
def applySessionOhlc (aggregate : Option ProviderSessionOhlc) (aggregateAsOf : Int)
    (session : SessionContext) (previous : Option SessionStatistics) (sourceVerified : Bool) :
    Option SessionStatistics :=
  let prior := sameSessionPrior previous session
  if session.marketState ≠ .liveSession then prior
  else
    match sourceVerified, aggregate with
    | true, some aggregate =>
      let candidate := candidateOf aggregate aggregateAsOf session.tradingDate
      match prior with
      | none => some candidate
      | some prior => some (reconciled candidate prior aggregateAsOf)
    | _, _ => prior

/-- `resolve_session_statistics`: the next statistics and the observation that stays staged. -/
def resolveSessionStatistics (aggregate : Option ProviderSessionOhlc) (aggregateAsOf : Int)
    (staged : Option SessionStatisticsObservation) (session : Option SessionContext)
    (previous : Option SessionStatistics) (authority : SessionStatisticsAuthority) :
    Option SessionStatistics × Option SessionStatisticsObservation :=
  match session with
  | none => (previous, staged)
  | some session =>
    let fromTick := applySessionOhlc aggregate aggregateAsOf session previous
      authority.tickAggregateVerified
    match staged with
    | none => (fromTick, none)
    | some observation =>
      if observation.tradingDate < session.tradingDate then (fromTick, none)
      else if observation.tradingDate = session.tradingDate ∧
          session.marketState = .liveSession then
        (applySessionOhlc (some observation.sessionOhlc) observation.observedAt session previous
          authority.stagedObservationVerified, none)
      else (fromTick, some observation)

/-! ## The date of resolved statistics -/

theorem sameSessionPrior_tradingDate {previous : Option SessionStatistics} {session : SessionContext}
    {s : SessionStatistics} (h : sameSessionPrior previous session = some s) :
    s.tradingDate = session.tradingDate := by
  unfold sameSessionPrior at h
  rw [Option.filter_eq_some_iff] at h
  simpa using h.2

theorem reconciled_eq (candidate prior : SessionStatistics) (asOf : Int) :
    reconciled candidate prior asOf = candidate ∨ reconciled candidate prior asOf = prior := by
  unfold reconciled
  split
  · exact Or.inr rfl
  · split
    · split
      · exact Or.inr rfl
      · split
        · exact Or.inr rfl
        · split
          · exact Or.inr rfl
          · exact Or.inl rfl
    · exact Or.inr rfl

theorem apply_tradingDate {aggregate : Option ProviderSessionOhlc} {asOf : Int}
    {session : SessionContext} {previous : Option SessionStatistics} {verified : Bool}
    {s : SessionStatistics} (h : applySessionOhlc aggregate asOf session previous verified = some s) :
    s.tradingDate = session.tradingDate := by
  unfold applySessionOhlc at h
  simp only at h
  split at h
  · exact sameSessionPrior_tradingDate h
  · split at h
    · split at h
      · cases h
        rfl
      · rename_i prior hprior
        cases h
        rcases reconciled_eq (candidateOf _ asOf session.tradingDate) prior asOf with he | he
        · rw [he]
          rfl
        · rw [he]
          exact sameSessionPrior_tradingDate hprior
    · exact sameSessionPrior_tradingDate h

/-- **Resolved statistics belong to the session's date.** -/
theorem resolve_tradingDate {aggregate : Option ProviderSessionOhlc} {asOf : Int}
    {staged : Option SessionStatisticsObservation} {session : SessionContext}
    {previous : Option SessionStatistics} {authority : SessionStatisticsAuthority}
    {s : SessionStatistics}
    (h : (resolveSessionStatistics aggregate asOf staged (some session) previous authority).1 =
      some s) : s.tradingDate = session.tradingDate := by
  unfold resolveSessionStatistics at h
  simp only at h
  split at h
  · exact apply_tradingDate h
  · split at h
    · exact apply_tradingDate h
    · split at h
      · exact apply_tradingDate h
      · exact apply_tradingDate h

end ApexScan
