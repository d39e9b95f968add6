import ApexScan.Adapters.Dhan.Live
import ApexScan.Evidence.DerivedVerdict
import ApexScan.Lib.Interaction

/-!
# Collection of evidence (`app/tools/session_ohlc_evidence/collect.py`)

Three runs of the collector make records: one samples the feed and the oracle window by window, and
two capture a late start and a reconnect of one instrument.

* `Query`, `Action` — the runs, as programs that ask the adapter and the clock.
* `sampled` — the latest observation of each instrument in what a stream has yielded.
* `buildInstrumentEvidence`, `assemble`, `partialRecord` — the records.
* `runCollect`, `runCaptureLateStart`, `runCaptureReconnect` — the runs; `Collected` is what any of them
  may return.
* `mem_sampled`, `mem_restSample`, `holds_accumulate` — what a sample holds, and what is accumulated.
-/

set_option autoImplicit false

namespace ApexScan.Evidence.Collect

open Lib
open Dhan (DhanInstrumentReference)

/-! ## Samples -/

/-- `_key`. -/
def instrumentKey (i : Instrument) : String := i.exchange ++ ":" ++ i.symbol

/-- `_ws_observation`, with the key of its instrument. -/
def wsObservation (window : String) : MarketData → Option (String × OhlcObservation)
  | .tick tick =>
    match tick.sessionOhlc with
    | none => none
    | some ohlc =>
      some (instrumentKey tick.instrument,
        { source := "ws"
          window
          observedAt := tick.eventTimestamp
          openPrice := some ohlc.openPrice.1
          highPrice := some ohlc.highPrice.1
          lowPrice := some ohlc.lowPrice.1 })
  | _ => none

abbrev Sample := Dict String OhlcObservation

/-- The loop of `sample_ws`: the sample, and whether it broke off since every expected instrument was
    seen. -/
def sampleLoop (window : String) (expected : ℕ) : Sample → List MarketData → Sample × Bool
  | out, [] => (out, false)
  | out, datum :: rest =>
    match wsObservation window datum with
    | none => sampleLoop window expected out rest
    | some (key, obs) =>
      let out := out.set key obs
      if expected ≤ out.length then (out, true) else sampleLoop window expected out rest

/-- What the oracle observed of an instrument. -/
def restObservation (window : String) (obs : SessionStatisticsObservation) : OhlcObservation where
  source := "rest"
  window := window
  observedAt := obs.observedAt
  tradingDate := some obs.tradingDate
  openPrice := some obs.sessionOhlc.openPrice.1
  highPrice := some obs.sessionOhlc.highPrice.1
  lowPrice := some obs.sessionOhlc.lowPrice.1

/-- The result of `fetch_rest`. -/
def restSample (window : String) (observations : List SessionStatisticsObservation) : Sample :=
  observations.foldl
    (fun out obs => out.set (instrumentKey obs.instrument) (restObservation window obs)) []

/-! ## The evidence of an instrument -/

/-- The comparison of one field; the tolerance is recorded where it is used. -/
def comparison (window field : String) (exactly : Bool) (tickSize wsValue restValue : Option ℚ) :
    OracleComparison where
  window := window
  field := field
  wsValue := wsValue
  restValue := restValue
  tickSize := if exactly then none else tickSize
  classification := classifyPrice wsValue restValue tickSize exactly

/-- `_comparisons`. -/
def comparisons (tickSize : Option ℚ) (window : String) (ws rest : OhlcObservation) :
    List OracleComparison :=
  [comparison window "open" true tickSize ws.openPrice rest.openPrice,
    comparison window "high" false tickSize ws.highPrice rest.highPrice,
    comparison window "low" false tickSize ws.lowPrice rest.lowPrice]

/-- The observations of an instrument, by window. -/
abbrev Windows := Dict String OhlcObservation

/-- `tuple(by_window[w] for w in sorted(by_window))`. -/
def inWindowOrder (byWindow : Windows) : List OhlcObservation :=
  (sortBy id (byWindow.map (·.1))).filterMap byWindow.get

/-- The comparisons of one window, where both sources have seen the instrument. -/
def comparisonsIn (tickSize : Option ℚ) (ws rest : Windows) (window : String) : List OracleComparison :=
  match ws.get window, rest.get window with
  | some wsObs, some restObs => comparisons tickSize window wsObs restObs
  | _, _ => []

/-- `build_instrument_evidence`. -/
def buildInstrumentEvidence (instrument : Instrument) (securityId : String) (tradingDate : Int)
    (ws rest : Windows) (tickSize : Option ℚ) : InstrumentEvidence :=
  let wsObs := inWindowOrder ws
  let common := sortBy id ((ws.map (·.1)).filter fun w => w ∈ rest.map (·.1))
  { exchange := instrument.exchange
    symbol := instrument.symbol
    securityId
    tradingDate
    wsObservations := wsObs
    restObservations := inWindowOrder rest
    oracleComparisons := common.flatMap (comparisonsIn tickSize ws rest)
    monotonicity := some (evaluateMonotonicity wsObs) }

/-! ## Records -/

/-- The observations of all instruments, by window. -/
abbrev Accumulated := Dict String Windows

/-- `acc.setdefault(key, {})[window] = obs`, for each observation of a sample. -/
def accumulate (window : String) (acc : Accumulated) (sample : Sample) : Accumulated :=
  sample.foldl (fun acc kv => acc.set kv.1 (((acc.get kv.1).getD []).set window kv.2)) acc

/-- What the caller of a run says of the session. -/
structure Session where
  tradingDate : Int
  sessionIdentity : String
  sourceSha : String
  deriving DecidableEq

/-- `_COLLECTOR_VERSION`. -/
def collectorVersion : String := "2.0.0"

/-- `_assemble`; `ends` is the clock once the adapter is disconnected. -/
def assemble (references : List DhanInstrumentReference) (wsAcc restAcc : Accumulated) (session : Session)
    (tickSize : Option ℚ) (windows : List String) (starts ends : Int) : EvidenceRecord :=
  let expected := references.map fun ref => instrumentKey ref.instrument
  { collectorVersion
    sourceSha := session.sourceSha
    provider := "dhan"
    tradingDate := session.tradingDate
    sessionIdentity := session.sessionIdentity
    collectionStart := starts
    collectionEnd := ends
    expectedInstruments := expected
    pendingInstruments := expected.filter fun key => (wsAcc.get key).isNone
    sampleWindows := windows
    instruments := references.filterMap fun ref =>
      let key := instrumentKey ref.instrument
      if (wsAcc.get key).isNone ∧ (restAcc.get key).isNone then none
      else
        some (buildInstrumentEvidence ref.instrument ref.securityId session.tradingDate
          ((wsAcc.get key).getD []) ((restAcc.get key).getD []) tickSize)
    lateStart := some { observed := false, detail := "not captured by straight-through run" }
    reconnect := some { observed := false, detail := "no reconnect observed" } }

/-- `_partial_record`. -/
def partialRecord (references : List DhanInstrumentReference) (session : Session) (starts ends : Int)
    (lateStart : Option LateStartEvidence) (reconnect : Option ReconnectEvidence) : EvidenceRecord :=
  let expected := references.map fun ref => instrumentKey ref.instrument
  { collectorVersion
    sourceSha := session.sourceSha
    provider := "dhan"
    tradingDate := session.tradingDate
    sessionIdentity := session.sessionIdentity
    collectionStart := starts
    collectionEnd := ends
    expectedInstruments := expected
    pendingInstruments := expected
    sampleWindows := []
    instruments := []
    lateStart
    reconnect }

/-! ## The runs -/

/-- What a run raises: what the adapter raises, an invalid subscription, or a symbol that the references
    does not have. -/
inductive CollectError where
  | adapter
  | invalidRequest
  | unknownSymbol
  deriving DecidableEq

/-- What a stream has yielded by its deadline, and what it raised if it did not just end. -/
structure Streamed where
  data : List MarketData
  raised : Option CollectError

/-- What a run asks of the adapter and the clock; a stream is asked for once it is closed again. -/
inductive Query where
  | connect
  | liveUniverse
  | now
  | stream (instruments : List Instrument)
  | closeStream
  | sessionStatistics (instruments : List Instrument) (tradingDate observedAt : Int)
  | disconnect
  deriving DecidableEq

def Answer : Query → Type
  | .connect => Except CollectError Unit
  | .liveUniverse => Except CollectError (List DhanInstrumentReference)
  | .now => Int
  | .stream _ => Streamed
  | .closeStream => Except CollectError Unit
  | .sessionStatistics _ _ _ => Except CollectError (List SessionStatisticsObservation)
  | .disconnect => Except CollectError Unit

abbrev Action (α : Type) := Interaction Query Answer CollectError α

abbrev Event := Exchange Query Answer

/-- The subscription of a run; `SubscriptionRequest` wants instruments, each once. -/
def subscription (instruments : List Instrument) : Except CollectError (List Instrument) :=
  if instruments ≠ [] ∧ instruments.Nodup then .ok instruments else .error .invalidRequest

/-- The sample that a stream leaves, if it raised nothing before the sample was complete. -/
def sampled (window : String) (expected : ℕ) (streamed : Streamed) : Except CollectError Sample :=
  match sampleLoop window expected [] streamed.data with
  | (out, true) => .ok out
  | (out, false) =>
    match streamed.raised with
    | none => .ok out
    | some e => .error e

/-- `sample_ws`. -/
def sampleWs (instruments : List Instrument) (window : String) (expected : ℕ) : Action Sample := do
  let streamed ← Interaction.request (Query.stream instruments)
  let closed ← Interaction.request Query.closeStream
  Interaction.ofExcept closed
  Interaction.ofExcept (sampled window expected streamed)

/-- `fetch_rest`. -/
def fetchRest (instruments : List Instrument) (window : String) (tradingDate observedAt : Int) :
    Action Sample := do
  let answer ← Interaction.request (Query.sessionStatistics instruments tradingDate observedAt)
  Interaction.ofExcept (answer.map (restSample window))

/-- The loop of `run_collect`. -/
def collectWindows (instruments : List Instrument) (tradingDate : Int) :
    Accumulated × Accumulated → List String → Action (Accumulated × Accumulated)
  | acc, [] => pure acc
  | acc, window :: windows => do
    let observedAt ← Interaction.request Query.now
    let ws ← sampleWs instruments window instruments.length
    let rest ← fetchRest instruments window tradingDate observedAt
    collectWindows instruments tradingDate (accumulate window acc.1 ws, accumulate window acc.2 rest)
      windows

/-- `_load_universe`, the cash references. -/
def loadUniverse : Action (List DhanInstrumentReference) := do
  let answer ← Interaction.request Query.liveUniverse
  Interaction.ofExcept answer

/-- A connected run: the clock is read at its start, and the adapter is disconnected however the run
    ends. -/
def connected {α β : Type} (body : Action α) (finish : Int → α → Action β) : Action β := do
  let answer ← Interaction.request Query.connect
  Interaction.ofExcept answer
  let starts ← Interaction.request Query.now
  let outcome ← body.attempt
  let disconnected ← Interaction.request Query.disconnect
  Interaction.ofExcept disconnected
  let result ← Interaction.ofExcept outcome
  finish starts result

/-- `run_collect`. -/
def runCollect (windows : List String) (session : Session) (tickSize : Option ℚ) :
    Action EvidenceRecord :=
  connected
    (do
      let references ← loadUniverse
      let instruments ← Interaction.ofExcept (subscription (references.map (·.instrument)))
      let acc ← collectWindows instruments session.tradingDate ([], []) windows
      return (references, acc))
    fun starts result => do
      let ends ← Interaction.request Query.now
      return assemble result.1 result.2.1 result.2.2 session tickSize windows starts ends

/-- `_find_ref`. -/
def findRef (references : List DhanInstrumentReference) (symbol : String) :
    Except CollectError DhanInstrumentReference :=
  match references.find? fun ref => ref.instrument.symbol = symbol with
  | some ref => .ok ref
  | none => .error .unknownSymbol

/-- The evidence of `capture_late_start`. -/
def lateStartOf : Option OhlcObservation → Option OhlcObservation → LateStartEvidence
  | some prior, some first =>
    { observed := true
      priorObservedAt := some prior.observedAt
      priorOpen := prior.openPrice
      priorHigh := prior.highPrice
      priorLow := prior.lowPrice
      firstObservedAt := some first.observedAt
      firstOpen := first.openPrice
      firstHigh := first.highPrice
      firstLow := first.lowPrice
      detail := "prior=REST snapshot before subscription; first=first post-subscription WS tick" }
  | _, _ =>
    { observed := false
      detail := "late-start capture incomplete (prior REST or first WS observation missing)" }

/-- `capture_late_start`. -/
def captureLateStart (instrument : Instrument) (tradingDate observedAt : Int) :
    Action LateStartEvidence := do
  let rest ← fetchRest [instrument] "prior" tradingDate observedAt
  let ws ← sampleWs [instrument] "first" 1
  return lateStartOf (rest.get (instrumentKey instrument)) (ws.get (instrumentKey instrument))

/-- The evidence of `capture_reconnect`. -/
def reconnectOf : Option OhlcObservation → Option OhlcObservation → ReconnectEvidence
  | some pre, some post =>
    { observed := true
      pre := some pre
      post := some post
      detail := "pre and post captured across a fresh diagnostic socket (reconnect)" }
  | _, _ =>
    { observed := false
      detail := "reconnect capture incomplete (pre or post observation missing)" }

/-- `capture_reconnect`. -/
def captureReconnect (instrument : Instrument) : Action ReconnectEvidence := do
  let pre ← sampleWs [instrument] "pre" 1
  let post ← sampleWs [instrument] "post" 1
  return reconnectOf (pre.get (instrumentKey instrument)) (post.get (instrumentKey instrument))

/-- `run_capture_late_start`. -/
def runCaptureLateStart (symbol : String) (session : Session) : Action EvidenceRecord :=
  connected
    (do
      let references ← loadUniverse
      let ref ← Interaction.ofExcept (findRef references symbol)
      let observedAt ← Interaction.request Query.now
      let late ← captureLateStart ref.instrument session.tradingDate observedAt
      return (references, late))
    fun starts result => do
      let ends ← Interaction.request Query.now
      return partialRecord result.1 session starts ends (some result.2) none

/-- `run_capture_reconnect`. -/
def runCaptureReconnect (symbol : String) (session : Session) : Action EvidenceRecord :=
  connected
    (do
      let references ← loadUniverse
      let ref ← Interaction.ofExcept (findRef references symbol)
      let reconnect ← captureReconnect ref.instrument
      return (references, reconnect))
    fun starts result => do
      let ends ← Interaction.request Query.now
      return partialRecord result.1 session starts ends none (some result.2)

/-- The runs of the collector. -/
inductive Job where
  | collect (windows : List String) (session : Session) (tickSize : Option ℚ)
  | lateStart (symbol : String) (session : Session)
  | reconnect (symbol : String) (session : Session)

def Job.run : Job → Action EvidenceRecord
  | .collect windows session tickSize => runCollect windows session tickSize
  | .lateStart symbol session => runCaptureLateStart symbol session
  | .reconnect symbol session => runCaptureReconnect symbol session

/-- A record that a run has returned. -/
def Collected (record : EvidenceRecord) : Prop :=
  ∃ (job : Job) (trace : List Event), Interaction.Runs job.run trace (.ok record)

/-! ## What a sample holds -/

/-- The observations in what a stream has yielded, with the keys of their instruments. -/
def observationsIn (window : String) (data : List MarketData) : List (String × OhlcObservation) :=
  data.filterMap (wsObservation window)

theorem sampleLoop_cons_none {window : String} {expected : ℕ} {out : Sample} {datum : MarketData}
    {data : List MarketData} (h : wsObservation window datum = none) :
    sampleLoop window expected out (datum :: data) = sampleLoop window expected out data := by
  rw [sampleLoop, h]

theorem sampleLoop_cons_some {window : String} {expected : ℕ} {out : Sample} {datum : MarketData}
    {data : List MarketData} {kv : String × OhlcObservation} (h : wsObservation window datum = some kv) :
    sampleLoop window expected out (datum :: data) =
      if expected ≤ (out.set kv.1 kv.2).length then (out.set kv.1 kv.2, true)
      else sampleLoop window expected (out.set kv.1 kv.2) data := by
  rw [sampleLoop, h]

/-- A sample reads its stream up to some point and keeps the last observation of each instrument: to the
    end, unless every expected instrument has been seen before. -/
theorem sampleLoop_spec (window : String) (expected : ℕ) (out : Sample) (data : List MarketData) :
    ∃ read rest, data = read ++ rest ∧
      (sampleLoop window expected out data).1 =
        (observationsIn window read).foldl (fun out kv => out.set kv.1 kv.2) out ∧
      ((sampleLoop window expected out data).2 = false → rest = []) ∧
      ((sampleLoop window expected out data).2 = true →
        expected ≤ (sampleLoop window expected out data).1.length) := by
  induction data generalizing out with
  | nil => exact ⟨[], [], rfl, rfl, fun _ => rfl, fun h => by cases h⟩
  | cons datum data ih =>
    cases hdatum : wsObservation window datum with
    | none =>
      rw [sampleLoop_cons_none hdatum]
      obtain ⟨read, rest, rfl, hout, hend, hbroke⟩ := ih out
      refine ⟨datum :: read, rest, rfl, ?_, hend, hbroke⟩
      rw [hout, observationsIn, observationsIn, List.filterMap_cons_none hdatum]
    | some kv =>
      rw [sampleLoop_cons_some hdatum]
      split
      · rename_i hcomplete
        refine ⟨[datum], data, rfl, ?_, fun h => (by cases h), fun _ => hcomplete⟩
        rw [observationsIn, List.filterMap_cons_some hdatum]
        rfl
      · obtain ⟨read, rest, rfl, hout, hend, hbroke⟩ := ih (out.set kv.1 kv.2)
        refine ⟨datum :: read, rest, rfl, ?_, hend, hbroke⟩
        rw [hout, observationsIn, observationsIn, List.filterMap_cons_some hdatum, List.foldl_cons]

/-- What a dictionary holds after a list of entries is one of them or was there before. -/
theorem mem_foldl_set {kvs : List (String × OhlcObservation)} {out : Sample}
    {kv : String × OhlcObservation} (h : kv ∈ kvs.foldl (fun out kv => out.set kv.1 kv.2) out) :
    kv ∈ kvs ∨ kv ∈ out := by
  induction kvs generalizing out with
  | nil => exact .inr h
  | cons first kvs ih =>
    rcases ih h with hmem | hmem
    · exact .inl (List.mem_cons_of_mem _ hmem)
    · rcases Dict.mem_set hmem with rfl | hold
      · exact .inl List.mem_cons_self
      · exact .inr hold

/-- Each entry of a sample was yielded by its stream. -/
theorem mem_sampled {window : String} {expected : ℕ} {streamed : Streamed} {sample : Sample}
    (h : sampled window expected streamed = .ok sample) {kv : String × OhlcObservation}
    (hkv : kv ∈ sample) : ∃ datum ∈ streamed.data, wsObservation window datum = some kv := by
  obtain ⟨read, rest, hdata, hout, -, -⟩ := sampleLoop_spec window expected [] streamed.data
  have hsample : sample = (sampleLoop window expected [] streamed.data).1 := by
    unfold sampled at h
    generalize sampleLoop window expected [] streamed.data = looped at h
    obtain ⟨out, broke⟩ := looped
    cases broke with
    | true =>
      cases h
      rfl
    | false =>
      dsimp only at h
      cases hraised : streamed.raised with
      | none =>
        rw [hraised] at h
        cases h
        rfl
      | some e =>
        rw [hraised] at h
        cases h
  rw [hsample, hout] at hkv
  rcases mem_foldl_set hkv with hmem | hnil
  · obtain ⟨datum, hdatum, hobs⟩ := List.mem_filterMap.mp hmem
    exact ⟨datum, by rw [hdata]; exact List.mem_append_left _ hdatum, hobs⟩
  · cases hnil

theorem mem_restSample {window : String} {observations : List SessionStatisticsObservation}
    {kv : String × OhlcObservation} (h : kv ∈ restSample window observations) :
    ∃ obs ∈ observations, kv = (instrumentKey obs.instrument, restObservation window obs) := by
  have hfold : restSample window observations = (observations.map fun obs =>
      (instrumentKey obs.instrument, restObservation window obs)).foldl
        (fun (out : Sample) kv => out.set kv.1 kv.2) [] := by
    rw [restSample, List.foldl_map]
  rw [hfold] at h
  rcases mem_foldl_set h with hmem | hnil
  · obtain ⟨obs, hobs, rfl⟩ := List.mem_map.mp hmem
    exact ⟨obs, hobs, rfl⟩
  · cases hnil

/-- An observation of a window, with all its prices. -/
structure Full (window : String) (o : OhlcObservation) : Prop where
  window_eq : o.window = window
  extrema : ∃ e, o.extrema = some e

theorem wsObservation_full {window : String} {datum : MarketData} {kv : String × OhlcObservation}
    (h : wsObservation window datum = some kv) : Full window kv.2 ∧ kv.2.tradingDate = none := by
  cases datum with
  | tick tick =>
    simp only [wsObservation] at h
    split at h
    · cases h
    · cases h
      exact ⟨⟨rfl, _, rfl⟩, rfl⟩
  | _ => cases h

theorem restObservation_full (window : String) (obs : SessionStatisticsObservation) :
    Full window (restObservation window obs) := ⟨rfl, _, rfl⟩

/-! ## What is accumulated -/

/-- Every accumulated observation has `P`, with its key and window. -/
def Holds (P : String → String → OhlcObservation → Prop) (acc : Accumulated) : Prop :=
  ∀ key byWindow w o, acc.get key = some byWindow → byWindow.get w = some o → P key w o

theorem holds_nil (P : String → String → OhlcObservation → Prop) : Holds P [] := by
  intro key byWindow w o h
  cases h

theorem holds_accumulate {P : String → String → OhlcObservation → Prop} {window : String}
    {acc : Accumulated} {sample : Sample} (hacc : Holds P acc)
    (hsample : ∀ kv ∈ sample, P kv.1 window kv.2) : Holds P (accumulate window acc sample) := by
  unfold accumulate
  induction sample generalizing acc with
  | nil => exact hacc
  | cons kv sample ih =>
    refine ih ?_ fun kv' hkv' => hsample kv' (List.mem_cons_of_mem _ hkv')
    intro key byWindow w o hget hwindow
    rw [Dict.get_set] at hget
    split at hget
    · rename_i hkey
      cases hget
      rw [Dict.get_set] at hwindow
      split at hwindow
      · rename_i hw
        cases hwindow
        rw [← hkey, ← hw]
        exact hsample kv List.mem_cons_self
      · rw [← hkey]
        cases hold : acc.get kv.1 with
        | none =>
          rw [hold] at hwindow
          cases hwindow
        | some before =>
          rw [hold] at hwindow
          exact hacc kv.1 before w o hold hwindow
    · exact hacc key byWindow w o hget hwindow

theorem mem_inWindowOrder {byWindow : Windows} {o : OhlcObservation} :
    o ∈ inWindowOrder byWindow ↔ ∃ w, byWindow.get w = some o := by
  unfold inWindowOrder
  rw [List.mem_filterMap]
  constructor
  · rintro ⟨w, -, hw⟩
    exact ⟨w, hw⟩
  · rintro ⟨w, hw⟩
    refine ⟨w, ?_, hw⟩
    rw [mem_sortBy, Dict.mem_keys_iff, hw]
    rfl

end ApexScan.Evidence.Collect
