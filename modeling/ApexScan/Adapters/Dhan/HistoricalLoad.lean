import ApexScan.Adapters.Dhan.SessionStatistics
import ApexScan.Adapters.Dhan.StockUniverse
import ApexScan.Lib.Interaction
import ApexScan.Lib.Tiling

/-!
# Historical loads (`app/adapters/dhan/adapter.py`, `app/adapters/dhan/normalizer.py`)

A request for candles is split into windows of at most ninety days; each window is one call of the Data
API, whose response is six parallel arrays, and the result is the candles of all windows in order.

* `historicalEndpoint`, `partitionHistoricalRequest`, `historicalPayload`, `derivativeExpiryCode`.
* `normalizeHistoricalPayload` — the candles of a response, or what it raises.
* `requestApiJson`, `loadHistoricalData` — programs that ask their environment for what is awaited.
* `payloadsOf`, `answersOf` — what a run has posted, and the bodies it has received.
* `Fails` — an exchange that a load does not survive.

Main results: `load_returns_window`, `load_raises_iff`, `expiryCode_eq_some_iff`.
-/

set_option autoImplicit false

namespace ApexScan.Dhan.HistoricalLoad

open Lib Ipc

/-! ## Windows -/

inductive Endpoint where
  | historical
  | intraday
  deriving DecidableEq, Repr

/-- The path of an endpoint. -/
def Endpoint.path : Endpoint → String
  | .historical => "/charts/historical"
  | .intraday => "/charts/intraday"

/-- `_SUPPORTED_INTRADAY_INTERVALS`. -/
def supportedIntradayIntervals : List Int := [1, 5, 15, 25, 60]

/-- `_INTRADAY_MAX_RANGE`. -/
def intradayMaxRange : Int := 90 * day

/-- `_historical_endpoint`; `none` is `UnsupportedProviderRequestError`. -/
def historicalEndpoint (interval : Int) : Option Endpoint :=
  if interval = day then some .historical
  else if interval % minute = 0 ∧ interval / minute ∈ supportedIntradayIntervals then some .intraday
  else none

theorem chunk_ordered {start stop : Int} (h : start < stop) :
    start < min (start + intradayMaxRange) stop := by
  have hpos : 0 < intradayMaxRange := by decide
  omega

/-- The loop of `_partition_historical_request`; each round moves the start. -/
def chunksFrom (request : HistoricalRequest) : ℕ → Int → List HistoricalRequest
  | 0, _ => []
  | fuel + 1, start =>
    if h : start < request.endTimestamp then
      { request with
        startTimestamp := start
        endTimestamp := min (start + intradayMaxRange) request.endTimestamp
        start_lt_end := chunk_ordered h } ::
        chunksFrom request fuel (min (start + intradayMaxRange) request.endTimestamp)
    else []

/-- `_partition_historical_request`. -/
def partitionHistoricalRequest (request : HistoricalRequest) : Endpoint → List HistoricalRequest
  | .historical => [request]
  | .intraday =>
    chunksFrom request (request.endTimestamp - request.startTimestamp).toNat request.startTimestamp

/-! ## Payloads -/

/-- `_market_datetime`. -/
def marketDatetime (instant : Int) : Int := kolkata.toLocal instant

/-- `strftime("%Y-%m-%d %H:%M:%S")`. -/
def datetimeText (wall : Int) : String :=
  let seconds := wallTime wall / 1000000
  isoformat (wallDate wall) ++ " " ++ padded 2 (seconds / 3600).toNat ++ ":" ++
    padded 2 (seconds / 60 % 60).toNat ++ ":" ++ padded 2 (seconds % 60).toNat

structure HistoricalPayload where
  securityId : String
  exchangeSegment : String
  instrument : String
  oi : Bool
  expiryCode : Option ℕ
  interval : Option String
  fromDate : String
  toDate : String
  deriving DecidableEq

/-- `_historical_payload`; `none` is `UnsupportedProviderRequestError`. -/
def historicalPayload (reference : MasterReference) (request : HistoricalRequest) (endpoint : Endpoint)
    (expiryCode : Option ℕ) : Option HistoricalPayload :=
  match reference.exchangeSegment with
  | none => none
  | some exchangeSegment =>
    match endpoint with
    | .historical =>
      some
        { securityId := reference.securityId
          exchangeSegment
          instrument := reference.providerInstrumentType
          oi := false
          expiryCode
          interval := none
          fromDate := isoformat (wallDate (marketDatetime request.startTimestamp))
          toDate := isoformat (wallDate (marketDatetime request.endTimestamp)) }
    | .intraday =>
      some
        { securityId := reference.securityId
          exchangeSegment
          instrument := reference.providerInstrumentType
          oi := false
          expiryCode := none
          interval := some (toString (request.interval / minute))
          fromDate := datetimeText (marketDatetime request.startTimestamp)
          toDate := datetimeText (marketDatetime request.endTimestamp) }

/-- The expiries that count for a derivative: those of its own underlying and kind, from a date on. -/
def activeExpiries (reference : MasterReference) (references : List MasterReference) (asOf : Int) :
    List Int :=
  (references.filter fun candidate =>
      candidate.instrument.exchange = reference.instrument.exchange ∧
      candidate.instrument.underlying = reference.instrument.underlying ∧
      candidate.providerInstrumentType = reference.providerInstrumentType).filterMap fun candidate =>
    candidate.instrument.expiry.filter (asOf ≤ ·)

/-- `_derivative_expiry_code`. -/
def derivativeExpiryCode (reference : MasterReference) (references : List MasterReference)
    (asOf : Int) : Option ℕ :=
  match reference.instrument.underlying, reference.instrument.expiry with
  | some _, some expiry =>
    let expiries := sortBy id (activeExpiries reference references asOf).dedup
    if expiry ∈ expiries then
      let rank := expiries.idxOf expiry
      if rank ∈ [0, 1, 2] then some rank else none
    else none
  | _, _ => none

/-! ## Responses -/

/-- What a load raises; `token` is what the token provider raised, and `other` stands for the exceptions
    that are not mapped, a cancellation among them; an `OSError` of a timestamp is another one. -/
inductive LoadError where
  | unsupportedRequest
  | contractViolation
  | token
  | other
  | timeout
  | network
  | rateLimit
  | authentication
  | unavailable
  | rejected
  | contractDiscrepancy
  | normalization
  | osError
  deriving DecidableEq, Repr

/-- `_integral_number`; `none` is `NormalizationError`. -/
def integralNumber : Json → Option Int
  | .int n => some n
  | .float (some q) => if q.isInt then some q.num else none
  | _ => none

/-- `_volume`. -/
def volume (value : Json) : Option ℕ := do
  let n ← integralNumber value
  if n < 0 then none else some n.toNat

/-- `datetime.min` and `datetime.max` in UTC. -/
def datetimeMin : Int := -62135596800 * second

def datetimeMax : Int := 253402300800 * second - 1

/-- The seconds from 1970 on whose year `gmtime` can hold. -/
def gmtimeMin : Int := -67768040609740800

def gmtimeMax : Int := 67768036191676799

/-- `_epoch_timestamp`.  An instant outside the range of `datetime` is a `ValueError` or, where 64 bits do
    not hold its seconds, an `OverflowError`; both are mapped.  In between, where `gmtime` fails, it is an
    `OSError`, which is not. -/
def epochTimestamp (value : Json) : Except LoadError Int :=
  match integralNumber value with
  | none => .error .normalization
  | some n =>
    if datetimeMin ≤ n * second ∧ n * second ≤ datetimeMax then .ok (n * second)
    else if -2 ^ 63 ≤ n ∧ n < gmtimeMin ∨ gmtimeMax < n ∧ n < 2 ^ 63 then .error .osError
    else .error .normalization

/-- `_decimal(value)` of a price field. -/
def pricedField (value : Json) : Option Price :=
  match decimalOf value with
  | .ok d => d.price
  | .error _ => none

/-- The `Candle` of one row that starts at an instant; `none` is an error that is mapped. -/
def candleAt (request : HistoricalRequest) (startTimestamp : Int)
    (openValue high low close volumeValue : Json) : Option Candle := do
  let openPrice ← pricedField openValue
  let highPrice ← pricedField high
  let lowPrice ← pricedField low
  let closePrice ← pricedField close
  let tradedQuantity ← volume volumeValue
  if datetimeMax < startTimestamp + request.interval then none
  else if start_lt_end : startTimestamp < startTimestamp + request.interval then
    if low_le_high : lowPrice ≤ highPrice then
      if open_within : lowPrice ≤ openPrice ∧ openPrice ≤ highPrice then
        if close_within : lowPrice ≤ closePrice ∧ closePrice ≤ highPrice then
          some
            { instrument := request.instrument
              startTimestamp
              endTimestamp := startTimestamp + request.interval
              openPrice, highPrice, lowPrice, closePrice, tradedQuantity
              start_lt_end, low_le_high, open_within, close_within }
        else none
      else none
    else none
  else none

/-- The `Candle` of one row of the arrays. -/
def candleOf (request : HistoricalRequest) (openValue high low close volumeValue timestamp : Json) :
    Except LoadError Candle := do
  let startTimestamp ← epochTimestamp timestamp
  match candleAt request startTimestamp openValue high low close volumeValue with
  | some candle => return candle
  | none => throw .normalization

/-- The loop over `zip(*arrays, strict=True)`. -/
def candlesOf (request : HistoricalRequest) :
    List Json → List Json → List Json → List Json → List Json → List Json →
      Except LoadError (List Candle)
  | [], [], [], [], [], [] => .ok []
  | o :: opens, h :: highs, l :: lows, c :: closes, v :: volumes, t :: timestamps => do
    let candle ← candleOf request o h l c v t
    let candles ← candlesOf request opens highs lows closes volumes timestamps
    return candle :: candles
  | _, _, _, _, _, _ => .error .normalization

/-- The array of a field. -/
def arrayOf (payload : Json) (field : String) : Except LoadError (List Json) :=
  match payload.get? field with
  | some (.arr items) => .ok items
  | _ => .error .normalization

/-- `normalize_historical_payload`, with `_historical_arrays`: six arrays of one length. -/
def normalizeHistoricalPayload (request : HistoricalRequest) (payload : Json) :
    Except LoadError (List Candle) := do
  let opens ← arrayOf payload "open"
  let highs ← arrayOf payload "high"
  let lows ← arrayOf payload "low"
  let closes ← arrayOf payload "close"
  let volumes ← arrayOf payload "volume"
  let timestamps ← arrayOf payload "timestamp"
  if [highs, lows, closes, volumes, timestamps].all fun values => values.length = opens.length then
    candlesOf request opens highs lows closes volumes timestamps
  else throw .normalization

/-! ## The load -/

/-- A response; `none` is a body that is no JSON. -/
structure HttpResponse where
  status : ℕ
  body : Option Json

/-- How a request ends. -/
inductive Posted where
  | response (r : HttpResponse)
  | timeout
  | requestError
  | other

/-- What a load asks: whether the client is open, the access token, the pacer, the day and the loaded
    references, and a call of the Data API. -/
inductive Query where
  | client
  | accessToken
  | pace
  | references
  | post (endpoint : Endpoint) (payload : HistoricalPayload) (accessToken : String)

def Answer : Query → Type
  | .client => Bool
  | .accessToken => Except Unit String
  | .pace => Except Unit Unit
  | .references => Int × List MasterReference
  | .post _ _ _ => Posted

abbrev Action (α : Type) := Interaction Query Answer LoadError α

abbrev Event := Exchange Query Answer

section Requests

variable (u : Deploy.UnicodeData) (liveSmokeEnabled : Bool)

/-- `response.is_success`. -/
def HttpResponse.isSuccess (r : HttpResponse) : Bool := 200 ≤ r.status ∧ r.status ≤ 299

/-- A text member of an error body, stripped. -/
def errorText (r : HttpResponse) (name : String) : Option String :=
  match r.body.bind (·.get? name) with
  | some (.str text) => some (Deploy.strip text)
  | _ => none

/-- `needle in text`. -/
def contains (needle text : String) : Bool := decide (needle.toList <:+: text.toList)

/-- `_undocumented_client_id_required`. -/
def undocumentedClientIdRequired (errorMessage : String) : Bool :=
  let normalized := u.lower errorMessage
  (contains "dhanclientid" normalized || contains "client id" normalized) &&
    (contains "required" normalized || contains "mandatory" normalized)

/-- `_raise_for_error`; `none` where it returns. -/
def raiseForError (r : HttpResponse) : Option LoadError :=
  let errorCode := (errorText r "errorCode").getD ""
  if r.isSuccess then none
  else if liveSmokeEnabled && undocumentedClientIdRequired u ((errorText r "errorMessage").getD "") then
    some .contractDiscrepancy
  else if r.status = 429 || errorCode ∈ ["DH-904", "805"] then some .rateLimit
  else if r.status ∈ [401, 403] || errorCode ∈ ["DH-901", "DH-902", "806", "807", "808", "809", "810"] then
    some .authentication
  else if r.status = 408 then some .timeout
  else if 500 ≤ r.status || errorCode ∈ ["DH-908", "DH-909", "800"] then some .unavailable
  else if r.status ∈ [400, 404] || errorCode ∈ ["DH-905", "DH-907", "811", "812", "813", "814"] then
    some .unsupportedRequest
  else some .rejected

/-- The object that a request returns. -/
def objectOf : Posted → Except LoadError Json
  | .timeout => .error .timeout
  | .requestError => .error .network
  | .other => .error .other
  | .response r =>
    match raiseForError u liveSmokeEnabled r with
    | some e => .error e
    | none =>
      match r.body.filter (·.members?.isSome) with
      | some payload => .ok payload
      | none => .error .normalization

/-- `_request_api_json`. -/
def requestApiJson (endpoint : Endpoint) (payload : HistoricalPayload) : Action Json := do
  let connected : Bool ← Interaction.request Query.client
  Interaction.ofExcept (if connected then .ok () else .error .contractViolation)
  let answer ← Interaction.request Query.accessToken
  let token ← Interaction.ofExcept (answer.mapError fun _ => LoadError.token)
  let paced ← Interaction.request Query.pace
  Interaction.ofExcept (paced.mapError fun _ => LoadError.other)
  let posted ← Interaction.request (Query.post endpoint payload token)
  Interaction.ofExcept (objectOf u liveSmokeEnabled posted)

/-- The candles of one window. -/
def loadChunk (reference : MasterReference) (endpoint : Endpoint) (chunk : HistoricalRequest) :
    Action (List Candle) := do
  let loaded ← Interaction.request Query.references
  let expiryCode := derivativeExpiryCode reference loaded.2 loaded.1
  let payload ← Interaction.ofExcept (match historicalPayload reference chunk endpoint expiryCode with
    | some payload => .ok payload
    | none => .error LoadError.unsupportedRequest)
  let body ← requestApiJson u liveSmokeEnabled endpoint payload
  Interaction.ofExcept (normalizeHistoricalPayload chunk body)

/-- The loop of `load_historical_data`. -/
def loadChunks (reference : MasterReference) (endpoint : Endpoint) :
    List HistoricalRequest → Action (List Candle)
  | [] => return []
  | chunk :: chunks => do
    let candles ← loadChunk u liveSmokeEnabled reference endpoint chunk
    let rest ← loadChunks reference endpoint chunks
    return candles ++ rest

/-- `load_historical_data`, with the references as they are when it is called. -/
def loadHistoricalData (references : Dict Instrument MasterReference) (request : HistoricalRequest) :
    Action (List Candle) :=
  match historicalEndpoint request.interval, references.get request.instrument with
  | some endpoint, some reference =>
    loadChunks u liveSmokeEnabled reference endpoint (partitionHistoricalRequest request endpoint)
  | _, _ => Interaction.raise .unsupportedRequest

end Requests

/-! ## What a run has exchanged -/

/-- The payloads that a run has posted, in order. -/
def payloadsOf (trace : List Event) : List HistoricalPayload :=
  trace.filterMap fun
    | ⟨.post _ payload _, _⟩ => some payload
    | _ => none

/-- The bodies that a run has received, in order. -/
def answersOf (trace : List Event) : List Json :=
  trace.filterMap fun
    | ⟨.post _ _ _, .response r⟩ => r.body
    | _ => none

/-- The window that a payload asks for. -/
def HistoricalPayload.window (payload : HistoricalPayload) : String × String :=
  (payload.fromDate, payload.toDate)

/-- The texts of a window: days for the daily endpoint, seconds for the other one. -/
def windowText (endpoint : Endpoint) (chunk : HistoricalRequest) : String × String :=
  let text (instant : Int) := match endpoint with
    | .historical => isoformat (wallDate (marketDatetime instant))
    | .intraday => datetimeText (marketDatetime instant)
  (text chunk.startTimestamp, text chunk.endTimestamp)

/-- A candle starts within the window of a request. -/
def startsIn (request : HistoricalRequest) (candle : Candle) : Bool :=
  request.startTimestamp ≤ candle.startTimestamp ∧ candle.startTimestamp < request.endTimestamp

/-- The two ends of a window. -/
def span (chunk : HistoricalRequest) : Int × Int := (chunk.startTimestamp, chunk.endTimestamp)

section Loads

variable {u : Deploy.UnicodeData} {liveSmokeEnabled : Bool} {reference : MasterReference}
  {endpoint : Endpoint} {request chunk : HistoricalRequest} {trace : List Event}

/-! ## The windows of a request -/

theorem chunksFrom_tiles {fuel : ℕ} {start : Int} (hle : start ≤ request.endTimestamp)
    (hfuel : (request.endTimestamp - start).toNat ≤ fuel) :
    Tiles start ((chunksFrom request fuel start).map span) request.endTimestamp := by
  induction fuel generalizing start with
  | zero =>
    show start = request.endTimestamp
    omega
  | succ fuel ih =>
    unfold chunksFrom
    split
    · rename_i hlt
      have hnext := chunk_ordered hlt
      have hrest := ih (min_le_right (start + intradayMaxRange) request.endTimestamp) (by omega)
      exact ⟨rfl, hnext, hrest⟩
    · show start = request.endTimestamp
      omega

theorem mem_chunksFrom {fuel : ℕ} {start : Int} (h : chunk ∈ chunksFrom request fuel start) :
    chunk.instrument = request.instrument ∧ chunk.interval = request.interval ∧
      chunk.endTimestamp ≤ chunk.startTimestamp + intradayMaxRange := by
  induction fuel generalizing start with
  | zero => cases h
  | succ fuel ih =>
    unfold chunksFrom at h
    split at h
    · rcases List.mem_cons.mp h with rfl | h
      · exact ⟨rfl, rfl, min_le_left _ _⟩
      · exact ih h
    · cases h

/-- **The windows tile the request**, whatever the endpoint. -/
theorem partition_tiles (request : HistoricalRequest) (endpoint : Endpoint) :
    Tiles request.startTimestamp ((partitionHistoricalRequest request endpoint).map span)
      request.endTimestamp := by
  cases endpoint with
  | historical => exact ⟨rfl, request.start_lt_end, rfl⟩
  | intraday => exact chunksFrom_tiles request.start_lt_end.le le_rfl

theorem mem_partition (h : chunk ∈ partitionHistoricalRequest request endpoint) :
    chunk.instrument = request.instrument ∧ chunk.interval = request.interval := by
  cases endpoint with
  | historical =>
    cases List.mem_singleton.mp h
    exact ⟨rfl, rfl⟩
  | intraday =>
    obtain ⟨hinstrument, hinterval, -⟩ := mem_chunksFrom h
    exact ⟨hinstrument, hinterval⟩

/-! ## The candles of a response -/

/-- A response is read by the instrument and the interval, not by the window. -/
theorem normalize_congr (hinstrument : chunk.instrument = request.instrument)
    (hinterval : chunk.interval = request.interval) (payload : Json) :
    normalizeHistoricalPayload chunk payload = normalizeHistoricalPayload request payload := by
  have hcandle : candleOf chunk = candleOf request := by
    funext o h l c v t
    unfold candleOf candleAt
    simp only [hinstrument, hinterval]
  have hcandles : candlesOf chunk = candlesOf request := by
    funext os hs ls cs vs ts
    induction os generalizing hs ls cs vs ts with
    | nil => cases hs <;> cases ls <;> cases cs <;> cases vs <;> cases ts <;> rfl
    | cons o os ih =>
      cases hs <;> cases ls <;> cases cs <;> cases vs <;> cases ts <;>
        first | rfl | simp only [candlesOf, hcandle, ih]
  unfold normalizeHistoricalPayload
  rw [hcandles]

/-- A timestamp is a whole second. -/
theorem dvd_epochTimestamp {t : Json} {start : Int} (h : epochTimestamp t = .ok start) : second ∣ start := by
  unfold epochTimestamp at h
  split at h
  · cases h
  · rename_i n _
    split at h
    · cases h
      exact Int.dvd_mul_left n second
    · split at h <;> cases h

theorem candleAt_eq_some {start : Int} {o h l c v : Json} {candle : Candle}
    (hcandle : candleAt request start o h l c v = some candle) :
    candle.instrument = request.instrument ∧
      candle.endTimestamp = candle.startTimestamp + request.interval ∧ candle.startTimestamp = start := by
  unfold candleAt at hcandle
  simp only [Option.bind_eq_bind, Option.bind_eq_some_iff] at hcandle
  obtain ⟨_, _, _, _, _, _, _, _, _, _, hrow⟩ := hcandle
  repeat' split at hrow
  all_goals first | cases hrow
  exact ⟨rfl, rfl, rfl⟩

/-- A candle of a row is of the instrument, as long as the interval, and starts on a whole second. -/
theorem candleOf_eq_ok {o h l c v t : Json} {candle : Candle}
    (hcandle : candleOf request o h l c v t = .ok candle) :
    candle.instrument = request.instrument ∧
      candle.endTimestamp = candle.startTimestamp + request.interval ∧ second ∣ candle.startTimestamp := by
  obtain ⟨start, hstart, hrow⟩ := bind_eq_ok.mp hcandle
  split at hrow
  · rename_i hat
    cases hrow
    obtain ⟨hinstrument, hend, heq⟩ := candleAt_eq_some hat
    exact ⟨hinstrument, hend, heq ▸ dvd_epochTimestamp hstart⟩
  · cases hrow

theorem mem_candlesOf {os hs ls cs vs ts : List Json} {candles : List Candle}
    (h : candlesOf request os hs ls cs vs ts = .ok candles) :
    ∀ candle ∈ candles, candle.instrument = request.instrument ∧
      candle.endTimestamp = candle.startTimestamp + request.interval ∧ second ∣ candle.startTimestamp := by
  induction os generalizing hs ls cs vs ts candles with
  | nil =>
    cases hs <;> cases ls <;> cases cs <;> cases vs <;> cases ts <;> cases h
    exact fun candle hmem => by cases hmem
  | cons o os ih =>
    cases hs <;> cases ls <;> cases cs <;> cases vs <;> cases ts <;> try cases h
    obtain ⟨first, hfirst, hlater⟩ := bind_eq_ok.mp h
    obtain ⟨rest, hrest, hcandles⟩ := bind_eq_ok.mp hlater
    cases hcandles
    intro candle hmem
    rcases List.mem_cons.mp hmem with rfl | hmem
    · exact candleOf_eq_ok hfirst
    · exact ih hrest candle hmem

theorem mem_normalized {payload : Json} {candles : List Candle}
    (h : normalizeHistoricalPayload request payload = .ok candles) :
    ∀ candle ∈ candles, candle.instrument = request.instrument ∧
      candle.endTimestamp = candle.startTimestamp + request.interval ∧ second ∣ candle.startTimestamp := by
  unfold normalizeHistoricalPayload at h
  simp only [bind_eq_ok] at h
  obtain ⟨_, _, _, _, _, _, _, _, _, _, _, _, hcandles⟩ := h
  split at hcandles
  · exact mem_candlesOf hcandles
  · cases hcandles

/-! ## Runs of one window -/

/-- An exchange that a load of the interval does not survive. -/
def Fails (u : Deploy.UnicodeData) (liveSmokeEnabled : Bool) (request : HistoricalRequest) : Event → Prop
  | ⟨.client, connected⟩ => connected = false
  | ⟨.accessToken, answer⟩ => ∃ e, answer = .error e
  | ⟨.pace, answer⟩ => ∃ e, answer = .error e
  | ⟨.references, _⟩ => False
  | ⟨.post _ _ _, posted⟩ =>
    ∀ body, objectOf u liveSmokeEnabled posted = .ok body →
      ∃ e, normalizeHistoricalPayload request body = .error e

theorem fails_congr (u : Deploy.UnicodeData) (liveSmokeEnabled : Bool)
    (hinstrument : chunk.instrument = request.instrument)
    (hinterval : chunk.interval = request.interval) :
    Fails u liveSmokeEnabled chunk = Fails u liveSmokeEnabled request := by
  funext ⟨q, answer⟩
  cases q <;> simp only [Fails, normalize_congr hinstrument hinterval]

/-- The body of an object that a request returns. -/
theorem body_of_objectOf {posted : Posted} {body : Json}
    (h : objectOf u liveSmokeEnabled posted = .ok body) :
    ∃ r, posted = .response r ∧ r.body = some body := by
  unfold objectOf at h
  split at h
  · cases h
  · cases h
  · cases h
  · rename_i r
    split at h
    · cases h
    · split at h
      · rename_i payload hpayload
        cases h
        exact ⟨r, rfl, (Option.filter_eq_some_iff.mp hpayload).1⟩
      · cases h

theorem window_of_payload {payload : HistoricalPayload} {code : Option ℕ}
    (h : historicalPayload reference chunk endpoint code = some payload) :
    payload.window = windowText endpoint chunk := by
  unfold historicalPayload at h
  split at h
  · cases h
  · cases endpoint <;> cases h <;> rfl

/-- The exchanges of a call of the Data API that gets as far as posting. -/
def postedTrace (endpoint : Endpoint) (payload : HistoricalPayload) (token : String) (posted : Posted) :
    List Event :=
  [⟨.client, true⟩, ⟨.accessToken, .ok token⟩, ⟨.pace, .ok ()⟩, ⟨.post endpoint payload token, posted⟩]

/-- A request posts once, or fails before. -/
theorem requestApiJson_cases (chunk : HistoricalRequest) {payload : HistoricalPayload}
    {outcome : Except LoadError Json}
    (h : Interaction.Runs (requestApiJson u liveSmokeEnabled endpoint payload) trace outcome) :
    (∃ token posted, trace = postedTrace endpoint payload token posted ∧
      outcome = objectOf u liveSmokeEnabled posted) ∨
    (∃ e, outcome = .error e) ∧ (∃ x ∈ trace, Fails u liveSmokeEnabled chunk x) ∧
      payloadsOf trace = [] := by
  unfold requestApiJson at h
  obtain ⟨connected, t₁, hclient, rfl⟩ := Interaction.runs_bind_request.mp h
  rcases Interaction.runs_bind_ofExcept.mp hclient with ⟨e, hclosed, rfl, rfl⟩ | ⟨_, hopen, hrun⟩
  · refine .inr ⟨⟨e, rfl⟩, ⟨_, List.mem_singleton_self _, ?_⟩, rfl⟩
    cases connected with
    | false => rfl
    | true => cases hclosed
  obtain rfl : connected = true := by
    cases connected with
    | false => cases hopen
    | true => rfl
  obtain ⟨answer, t₂, htoken, rfl⟩ := Interaction.runs_bind_request.mp hrun
  cases answer with
  | error raised =>
    rcases Interaction.runs_bind_ofExcept.mp htoken with ⟨e, -, rfl, rfl⟩ | ⟨_, hok, -⟩
    · exact .inr ⟨⟨e, rfl⟩, ⟨⟨.accessToken, .error raised⟩, by simp, raised, rfl⟩, rfl⟩
    · cases hok
  | ok token =>
    rcases Interaction.runs_bind_ofExcept.mp htoken with ⟨_, hraised, -, -⟩ | ⟨_, hok, hrun⟩
    · cases hraised
    cases hok
    obtain ⟨paced, t₃, hpace, rfl⟩ := Interaction.runs_bind_request.mp hrun
    cases paced with
    | error raised =>
      rcases Interaction.runs_bind_ofExcept.mp hpace with ⟨e, -, rfl, rfl⟩ | ⟨_, hok, -⟩
      · exact .inr ⟨⟨e, rfl⟩, ⟨⟨.pace, .error raised⟩, by simp, raised, rfl⟩, rfl⟩
      · cases hok
    | ok _ =>
      rcases Interaction.runs_bind_ofExcept.mp hpace with ⟨_, hraised, -, -⟩ | ⟨_, -, hrun⟩
      · cases hraised
      obtain ⟨posted, t₄, hpost, rfl⟩ := Interaction.runs_bind_request.mp hrun
      obtain ⟨rfl, rfl⟩ := Interaction.runs_ofExcept.mp hpost
      exact .inl ⟨token, posted, rfl, rfl⟩

/-- The exchanges of a window that is loaded. -/
def Loaded (u : Deploy.UnicodeData) (liveSmokeEnabled : Bool) (reference : MasterReference)
    (endpoint : Endpoint) (chunk : HistoricalRequest) (trace : List Event) (candles : List Candle) : Prop :=
  ∃ loaded token payload posted body,
    trace = ⟨.references, loaded⟩ :: postedTrace endpoint payload token posted ∧
    historicalPayload reference chunk endpoint
      (derivativeExpiryCode reference loaded.2 loaded.1) = some payload ∧
    objectOf u liveSmokeEnabled posted = .ok body ∧
    normalizeHistoricalPayload chunk body = .ok candles

/-- **What a load of one window does**: it returns after posting its window, or it raises, because the
    reference has no segment or at an exchange that fails, and posts at most its window. -/
theorem loadChunk_cases {outcome : Except LoadError (List Candle)}
    (h : Interaction.Runs (loadChunk u liveSmokeEnabled reference endpoint chunk) trace outcome) :
    (∃ candles, outcome = .ok candles ∧
      Loaded u liveSmokeEnabled reference endpoint chunk trace candles) ∨
    (∃ e, outcome = .error e) ∧
      (reference.exchangeSegment = none ∨ ∃ x ∈ trace, Fails u liveSmokeEnabled chunk x) ∧
      (payloadsOf trace).map HistoricalPayload.window <+: [windowText endpoint chunk] := by
  unfold loadChunk at h
  obtain ⟨loaded, t₁, hloaded, rfl⟩ := Interaction.runs_bind_request.mp h
  dsimp only at hloaded
  cases hpayload : historicalPayload reference chunk endpoint
      (derivativeExpiryCode reference loaded.2 loaded.1) with
  | none =>
    rw [hpayload] at hloaded
    rcases Interaction.runs_bind_ofExcept.mp hloaded with ⟨e, -, rfl, rfl⟩ | ⟨_, hok, -⟩
    · refine .inr ⟨⟨e, rfl⟩, .inl ?_, List.nil_prefix⟩
      unfold historicalPayload at hpayload
      split at hpayload
      · assumption
      · cases endpoint <;> cases hpayload
    · cases hok
  | some payload =>
    rw [hpayload] at hloaded
    rcases Interaction.runs_bind_ofExcept.mp hloaded with ⟨_, hraised, -, -⟩ | ⟨_, hok, hrun⟩
    · cases hraised
    cases hok
    have hwindow := window_of_payload hpayload
    have hposted (token : String) (posted : Posted) :
        (payloadsOf (⟨.references, loaded⟩ :: postedTrace endpoint payload token posted)).map
          HistoricalPayload.window <+: [windowText endpoint chunk] := by
      rw [← hwindow]
      exact List.prefix_rfl
    rcases Interaction.runs_bind.mp hrun with ⟨e, hraised, rfl⟩ | ⟨body, t, t', hbody, hread, rfl⟩
    · rcases requestApiJson_cases chunk hraised with
        ⟨token, posted, rfl, herror⟩ | ⟨-, ⟨x, hx, hfails⟩, hnone⟩
      · refine .inr ⟨⟨e, rfl⟩, .inr ⟨⟨.post endpoint payload token, posted⟩, by simp [postedTrace], ?_⟩,
          hposted token posted⟩
        intro body hbody
        rw [← herror] at hbody
        cases hbody
      · refine .inr ⟨⟨e, rfl⟩, .inr ⟨x, List.mem_cons_of_mem _ hx, hfails⟩, ?_⟩
        have hnone' : payloadsOf (⟨.references, loaded⟩ :: t₁) = payloadsOf t₁ := rfl
        rw [hnone', hnone]
        exact List.nil_prefix
    · obtain ⟨rfl, rfl⟩ := Interaction.runs_ofExcept.mp hread
      rcases requestApiJson_cases chunk hbody with
        ⟨token, posted, rfl, hobject⟩ | ⟨⟨e, he⟩, -, -⟩
      · rw [List.append_nil]
        cases hnormalized : normalizeHistoricalPayload chunk body with
        | error e =>
          refine .inr ⟨⟨e, rfl⟩, .inr ⟨⟨.post endpoint payload token, posted⟩,
            by simp [postedTrace], ?_⟩, hposted token posted⟩
          intro body' hbody'
          rw [← hobject] at hbody'
          cases hbody'
          exact ⟨e, hnormalized⟩
        | ok candles =>
          exact .inl ⟨candles, rfl, loaded, token, payload, posted, body, rfl, hpayload,
            hobject.symm, hnormalized⟩
      · cases he

/-! ## Runs of a load -/

/-- The candles of the bodies, window by window. -/
def readAll : List HistoricalRequest → List Json → Except LoadError (List Candle)
  | [], [] => .ok []
  | chunk :: chunks, body :: bodies => do
    let candles ← normalizeHistoricalPayload chunk body
    let rest ← readAll chunks bodies
    return candles ++ rest
  | _, _ => .error .other

/-- What a window that is loaded has posted and received. -/
theorem Loaded.exchanged {candles : List Candle}
    (h : Loaded u liveSmokeEnabled reference endpoint chunk trace candles) :
    (payloadsOf trace).map HistoricalPayload.window = [windowText endpoint chunk] ∧
      (∃ body, answersOf trace = [body] ∧ normalizeHistoricalPayload chunk body = .ok candles) ∧
      reference.exchangeSegment ≠ none ∧ ∀ x ∈ trace, ¬ Fails u liveSmokeEnabled chunk x := by
  obtain ⟨loaded, token, payload, posted, body, rfl, hpayload, hobject, hnormalized⟩ := h
  obtain ⟨r, rfl, hbody⟩ := body_of_objectOf hobject
  refine ⟨by rw [← window_of_payload hpayload]; rfl, ⟨body, ?_, hnormalized⟩, ?_, ?_⟩
  · simp [answersOf, postedTrace, hbody]
  · intro hnone
    unfold historicalPayload at hpayload
    rw [hnone] at hpayload
    cases hpayload
  · intro x hx
    simp only [postedTrace, List.mem_cons, List.not_mem_nil, or_false] at hx
    rcases hx with rfl | rfl | rfl | rfl | rfl <;> unfold Fails
    · exact id
    · exact Bool.noConfusion
    · rintro ⟨e, he⟩
      cases he
    · rintro ⟨e, he⟩
      cases he
    · intro hfails
      obtain ⟨e, herror⟩ := hfails body hobject
      rw [herror] at hnormalized
      cases hnormalized

theorem payloadsOf_append (first second : List Event) :
    payloadsOf (first ++ second) = payloadsOf first ++ payloadsOf second := List.filterMap_append

theorem answersOf_append (first second : List Event) :
    answersOf (first ++ second) = answersOf first ++ answersOf second := List.filterMap_append

/-- A run over the windows returns what their bodies hold, or raises at the first failure; it posts the
    windows in order. -/
theorem loadChunks_cases {chunks : List HistoricalRequest} {outcome : Except LoadError (List Candle)}
    (hchunks : ∀ chunk ∈ chunks, chunk.instrument = request.instrument ∧ chunk.interval = request.interval)
    (h : Interaction.Runs (loadChunks u liveSmokeEnabled reference endpoint chunks) trace outcome) :
    (∃ candles, outcome = .ok candles ∧ readAll chunks (answersOf trace) = .ok candles ∧
      (payloadsOf trace).map HistoricalPayload.window = chunks.map (windowText endpoint) ∧
      (chunks ≠ [] → reference.exchangeSegment ≠ none) ∧
      ∀ x ∈ trace, ¬ Fails u liveSmokeEnabled request x) ∨
    (∃ e, outcome = .error e) ∧
      (reference.exchangeSegment = none ∨ ∃ x ∈ trace, Fails u liveSmokeEnabled request x) ∧
      (payloadsOf trace).map HistoricalPayload.window <+: chunks.map (windowText endpoint) := by
  induction chunks generalizing trace outcome with
  | nil =>
    obtain ⟨rfl, rfl⟩ := Interaction.runs_pure.mp h
    exact .inl ⟨[], rfl, rfl, rfl, fun hne => absurd rfl hne, fun x hx => by cases hx⟩
  | cons chunk chunks ih =>
    obtain ⟨hinstrument, hinterval⟩ := hchunks chunk List.mem_cons_self
    have hfails := fails_congr u liveSmokeEnabled hinstrument hinterval
    have hlater := fun c hc => hchunks c (List.mem_cons_of_mem _ hc)
    rw [loadChunks] at h
    rcases Interaction.runs_bind.mp h with ⟨e, hraised, rfl⟩ | ⟨candles, t, t', hfirst, hrest, rfl⟩
    · rcases loadChunk_cases hraised with ⟨_, hok, -⟩ | ⟨-, hcause, hposted⟩
      · cases hok
      · rw [hfails] at hcause
        exact .inr ⟨⟨e, rfl⟩, hcause, hposted.trans (List.prefix_append _ _)⟩
    rcases loadChunk_cases hfirst with ⟨_, hok, hloaded⟩ | ⟨⟨_, herror⟩, -, -⟩
    swap
    · cases herror
    cases hok
    obtain ⟨hwindow, ⟨body, hbody, hnormalized⟩, hsegment, hquiet⟩ := hloaded.exchanged
    rw [hfails] at hquiet
    rcases Interaction.runs_bind.mp hrest with ⟨e, hraised, rfl⟩ | ⟨rest, t₂, t₃, hmore, hlast, rfl⟩
    · rcases ih hlater hraised with ⟨_, hok, -⟩ | ⟨-, hcause, hposted⟩
      · cases hok
      · refine .inr ⟨⟨e, rfl⟩, ?_, ?_⟩
        · rcases hcause with hnone | ⟨x, hx, hfail⟩
          · exact .inl hnone
          · exact .inr ⟨x, List.mem_append_right _ hx, hfail⟩
        · rw [payloadsOf_append, List.map_append, hwindow, List.map_cons, List.singleton_append]
          exact (List.prefix_cons_inj _).mpr hposted
    · obtain ⟨rfl, rfl⟩ := Interaction.runs_pure.mp hlast
      rw [List.append_nil]
      rcases ih hlater hmore with ⟨_, hok, hread, hwindows, -, hquiet'⟩ | ⟨⟨_, herror⟩, -, -⟩
      · cases hok
        refine .inl ⟨_, rfl, ?_, ?_, fun _ => hsegment, ?_⟩
        · rw [answersOf_append, hbody]
          simp only [List.singleton_append, readAll, hnormalized, hread, ok_bind]
          rfl
        · rw [payloadsOf_append, List.map_append, hwindow, hwindows]
          rfl
        · intro x hx
          rcases List.mem_append.mp hx with hx | hx
          · exact hquiet x hx
          · exact hquiet' x hx
      · cases herror

/-! ## Loads -/

variable {references : Dict Instrument MasterReference}

/-- The interval has an endpoint, and the instrument a reference with a segment. -/
def Supported (references : Dict Instrument MasterReference) (request : HistoricalRequest) : Prop :=
  ∃ endpoint reference, historicalEndpoint request.interval = some endpoint ∧
    references.get request.instrument = some reference ∧ reference.exchangeSegment ≠ none

theorem partition_ne_nil (request : HistoricalRequest) (endpoint : Endpoint) :
    partitionHistoricalRequest request endpoint ≠ [] := by
  intro hnil
  have htiles := partition_tiles request endpoint
  rw [hnil] at htiles
  exact absurd (show request.startTimestamp = request.endTimestamp from htiles)
    request.start_lt_end.ne

/-- **When a load raises**: it returns exactly when the request is supported and none of its exchanges
fails, and then it has posted every window, so candles of some of the windows are never returned. -/
theorem load_raises_iff (u : Deploy.UnicodeData) (liveSmokeEnabled : Bool)
    (references : Dict Instrument MasterReference) (request : HistoricalRequest) (trace : List Event)
    (outcome : Except LoadError (List Candle))
    (h : Interaction.Runs (loadHistoricalData u liveSmokeEnabled references request) trace outcome) :
    ((∃ candles, outcome = .ok candles) ↔
      Supported references request ∧ ∀ x ∈ trace, ¬ Fails u liveSmokeEnabled request x) ∧
    ∀ candles, outcome = .ok candles → ∃ endpoint, historicalEndpoint request.interval = some endpoint ∧
      (payloadsOf trace).map HistoricalPayload.window =
        (partitionHistoricalRequest request endpoint).map (windowText endpoint) ∧
      readAll (partitionHistoricalRequest request endpoint) (answersOf trace) = .ok candles := by
  unfold loadHistoricalData at h
  split at h
  · rename_i endpoint reference hendpoint hreference
    rcases loadChunks_cases (fun _ => mem_partition) h with
      ⟨candles, rfl, hread, hposted, hsegment, hquiet⟩ | ⟨⟨e, rfl⟩, hcause, -⟩
    · refine ⟨iff_of_true ⟨candles, rfl⟩
        ⟨⟨endpoint, reference, hendpoint, hreference, hsegment (partition_ne_nil _ _)⟩, hquiet⟩, ?_⟩
      intro candles' hok
      cases hok
      exact ⟨endpoint, hendpoint, hposted, hread⟩
    · refine ⟨iff_of_false (fun ⟨_, hok⟩ => by cases hok) ?_, fun candles hok => by cases hok⟩
      rintro ⟨⟨_, _, -, hreference', hsegment⟩, hquiet⟩
      rw [hreference] at hreference'
      cases hreference'
      rcases hcause with hnone | ⟨x, hx, hfail⟩
      · exact hsegment hnone
      · exact hquiet x hx hfail
  · rename_i hnot
    obtain ⟨rfl, rfl⟩ := Interaction.runs_raise.mp h
    refine ⟨iff_of_false (fun ⟨_, hok⟩ => by cases hok) ?_, fun candles hok => by cases hok⟩
    rintro ⟨⟨endpoint, reference, hendpoint, hreference, -⟩, -⟩
    exact hnot endpoint reference hendpoint hreference

theorem mem_readAll {chunks : List HistoricalRequest} {bodies : List Json} {candles : List Candle}
    (hchunks : ∀ chunk ∈ chunks, chunk.instrument = request.instrument ∧ chunk.interval = request.interval)
    (h : readAll chunks bodies = .ok candles) :
    ∀ candle ∈ candles, candle.instrument = request.instrument ∧
      candle.endTimestamp = candle.startTimestamp + request.interval ∧ second ∣ candle.startTimestamp := by
  induction chunks generalizing bodies candles with
  | nil =>
    cases bodies <;> cases h
    exact fun candle hmem => by cases hmem
  | cons chunk chunks ih =>
    cases bodies with
    | nil => cases h
    | cons body bodies =>
      obtain ⟨first, hfirst, hlater⟩ := bind_eq_ok.mp h
      obtain ⟨rest, hrest, hcandles⟩ := bind_eq_ok.mp hlater
      cases hcandles
      obtain ⟨hinstrument, hinterval⟩ := hchunks chunk List.mem_cons_self
      intro candle hmem
      rcases List.mem_append.mp hmem with hmem | hmem
      · rw [← hinstrument, ← hinterval]
        exact mem_normalized hfirst candle hmem
      · exact ih (fun c hc => hchunks c (List.mem_cons_of_mem _ hc)) hrest candle hmem

/-- **The windows of a load**: they tile the requested one, no intraday window is longer than ninety days,
and they are posted in order, each at most once, until the load raises; a load that returns has posted
them all, and its candles are of the instrument, as long as the interval, and start on whole seconds. -/
theorem load_posts_windows (u : Deploy.UnicodeData) (liveSmokeEnabled : Bool)
    (references : Dict Instrument MasterReference) (request : HistoricalRequest) (endpoint : Endpoint)
    (trace : List Event) (outcome : Except LoadError (List Candle))
    (hendpoint : historicalEndpoint request.interval = some endpoint)
    (h : Interaction.Runs (loadHistoricalData u liveSmokeEnabled references request) trace outcome) :
    Tiles request.startTimestamp ((partitionHistoricalRequest request endpoint).map span)
      request.endTimestamp ∧
    (endpoint = .intraday → ∀ chunk ∈ partitionHistoricalRequest request endpoint,
      chunk.endTimestamp ≤ chunk.startTimestamp + 90 * day) ∧
    (payloadsOf trace).map HistoricalPayload.window <+:
      (partitionHistoricalRequest request endpoint).map (windowText endpoint) ∧
    ∀ candles, outcome = .ok candles →
      (payloadsOf trace).map HistoricalPayload.window =
        (partitionHistoricalRequest request endpoint).map (windowText endpoint) ∧
      ∀ candle ∈ candles, candle.instrument = request.instrument ∧
        candle.endTimestamp = candle.startTimestamp + request.interval ∧
        second ∣ candle.startTimestamp := by
  refine ⟨partition_tiles request endpoint, ?_, ?_⟩
  · rintro rfl chunk hchunk
    exact (mem_chunksFrom hchunk).2.2
  unfold loadHistoricalData at h
  rw [hendpoint] at h
  split at h
  · rename_i _ _ hsome _
    cases hsome
    rcases loadChunks_cases (fun _ => mem_partition) h with
      ⟨candles, rfl, hread, hposted, -, -⟩ | ⟨⟨e, rfl⟩, -, hposted⟩
    · refine ⟨by rw [hposted], fun candles' hok => ⟨hposted, ?_⟩⟩
      cases hok
      exact mem_readAll (fun _ => mem_partition) hread
    · exact ⟨hposted, fun candles hok => by cases hok⟩
  · obtain ⟨rfl, rfl⟩ := Interaction.runs_raise.mp h
    exact ⟨List.nil_prefix, fun candles hok => by cases hok⟩

theorem readAll_eq {series : List Candle} {chunks : List HistoricalRequest} {bodies : List Json}
    {candles : List Candle} (h : readAll chunks bodies = .ok candles)
    (hserves : ∀ pair ∈ chunks.zip bodies,
      normalizeHistoricalPayload pair.1 pair.2 = .ok (series.filter (startsIn pair.1))) :
    candles = chunks.flatMap fun chunk => series.filter (startsIn chunk) := by
  induction chunks generalizing bodies candles with
  | nil =>
    cases bodies <;> cases h
    rfl
  | cons chunk chunks ih =>
    cases bodies with
    | nil => cases h
    | cons body bodies =>
      rw [List.zip_cons_cons] at hserves
      simp only [readAll, hserves (chunk, body) List.mem_cons_self, ok_bind] at h
      obtain ⟨rest, hrest, hcandles⟩ := bind_eq_ok.mp h
      cases hcandles
      rw [List.flatMap_cons, ih hrest fun pair hpair => hserves pair (List.mem_cons_of_mem _ hpair)]

/-- **A load returns the requested window.**  If the provider answers each window with the bars of a
series that start in it, a load that returns gives the bars of the series that start in the requested
window: none is lost or doubled where two windows meet. -/
theorem load_returns_window (u : Deploy.UnicodeData) (liveSmokeEnabled : Bool)
    (references : Dict Instrument MasterReference) (request : HistoricalRequest) (endpoint : Endpoint)
    (trace : List Event) (candles series : List Candle)
    (hendpoint : historicalEndpoint request.interval = some endpoint)
    (h : Interaction.Runs (loadHistoricalData u liveSmokeEnabled references request) trace (.ok candles))
    (hseries : series.Pairwise fun a b => a.startTimestamp ≤ b.startTimestamp)
    (hserves : ∀ pair ∈ (partitionHistoricalRequest request endpoint).zip (answersOf trace),
      normalizeHistoricalPayload pair.1 pair.2 = .ok (series.filter (startsIn pair.1))) :
    candles = series.filter (startsIn request) := by
  unfold loadHistoricalData at h
  rw [hendpoint] at h
  split at h
  · rename_i _ _ hsome _
    cases hsome
    rcases loadChunks_cases (fun _ => mem_partition) h with ⟨_, hok, hread, -, -, -⟩ | ⟨⟨_, herror⟩, -, -⟩
    · cases hok
      rw [readAll_eq hread hserves]
      let within (s t : Int) (candle : Candle) : Bool :=
        s ≤ candle.startTimestamp ∧ candle.startTimestamp < t
      have hwithin (s t : Int) (candle : Candle) : within s t candle = true ↔
          s ≤ candle.startTimestamp ∧ candle.startTimestamp < t := by simp [within]
      have hparts := Tiles.flatMap_filter hwithin (partition_tiles request endpoint) hseries
      rw [List.flatMap_map] at hparts
      exact hparts
    · cases herror
  · obtain ⟨-, herror⟩ := Interaction.runs_raise.mp h
    cases herror

/-! ## Expiry codes -/

/-- **The expiry code of a loaded derivative** is the number of the active expiries of its underlying and
kind before its own, where its own is active and that number is at most two. -/
theorem expiryCode_eq_some_iff (reference : MasterReference) (references : List MasterReference)
    (asOf : Int) (rank : ℕ) (hloaded : reference ∈ references) :
    derivativeExpiryCode reference references asOf = some rank ↔
      reference.instrument.underlying.isSome ∧
        ∃ expiry, reference.instrument.expiry = some expiry ∧ asOf ≤ expiry ∧ rank ≤ 2 ∧
          ((activeExpiries reference references asOf).toFinset.filter (· < expiry)).card = rank := by
  unfold derivativeExpiryCode
  cases hunderlying : reference.instrument.underlying with
  | none => simp
  | some underlying =>
    cases hexpiry : reference.instrument.expiry with
    | none => simp
    | some expiry =>
      have hmem : expiry ∈ activeExpiries reference references asOf ↔ asOf ≤ expiry := by
        unfold activeExpiries
        simp only [List.mem_filterMap, List.mem_filter, Option.filter_eq_some_iff, decide_eq_true_iff]
        constructor
        · rintro ⟨_, _, _, hactive⟩
          exact hactive
        · intro hactive
          exact ⟨reference, ⟨hloaded, rfl, rfl, rfl⟩, hexpiry, hactive⟩
      simp only [mem_sortBy, List.mem_dedup, hmem]
      split
      · rename_i hactive
        have hstrict := @pairwise_lt_sortBy Int Int _ id _
          (List.nodup_dedup (activeExpiries reference references asOf)) fun _ _ _ _ h => h
        have hrank : (sortBy id (activeExpiries reference references asOf).dedup).idxOf expiry =
            ((activeExpiries reference references asOf).toFinset.filter (· < expiry)).card := by
          rw [idxOf_eq_countP hstrict (mem_sortBy.mpr (List.mem_dedup.mpr (hmem.mpr hactive))),
            sortBy_perm.countP_eq, List.countP_eq_length_filter,
            ← List.toFinset_card_of_nodup ((List.nodup_dedup _).filter _)]
          congr 1
          ext x
          simp
        generalize (sortBy id (activeExpiries reference references asOf).dedup).idxOf expiry = n
          at hrank ⊢
        simp only [List.mem_cons, List.not_mem_nil, or_false]
        split
        · rename_i hsmall
          constructor
          · intro h
            cases h
            exact ⟨rfl, expiry, rfl, hactive, by omega, hrank.symm⟩
          · rintro ⟨-, _, heq, -, -, hcard⟩
            cases heq
            rw [hrank, hcard]
        · rename_i hlarge
          refine iff_of_false (by simp) ?_
          rintro ⟨-, _, heq, -, hle, hcard⟩
          cases heq
          omega
      · rename_i hinactive
        simp [hinactive]

end Loads

/-! ## Ninety-one days of an hourly series -/

theorem archive_ordered : 20089 * day < 20180 * day := by decide

theorem hour_pos : 0 < 60 * minute := by decide

/-- The hours from 2025-01-01 to 2025-04-02. -/
def archiveRequest : HistoricalRequest :=
  ⟨reliance, 20089 * day, 20180 * day, 60 * minute, archive_ordered, hour_pos⟩

def relianceReference : MasterReference where
  instrument := reliance
  securityId := "2885"
  exchangeSegment := some "NSE_EQ"
  underlyingSecurityId := none
  providerInstrumentType := "EQUITY"

/-- The body of one bar. -/
def oneBar (openPrice high low close volume timestamp : Int) : Json :=
  .obj [("open", .arr [.int openPrice]), ("high", .arr [.int high]), ("low", .arr [.int low]),
    ("close", .arr [.int close]), ("volume", .arr [.int volume]), ("timestamp", .arr [.int timestamp])]

/-- The bars at the start of the two windows. -/
def newYearBody : Json := oneBar 100 105 95 101 1000 1735689600

def aprilBody : Json := oneBar 110 112 109 111 2000 1743465600

/-- A provider that answers the first window with the first bar, and another with the second. -/
def archive (_ : List Event) : (q : Query) → Answer q
  | .client => true
  | .accessToken => .ok "token"
  | .pace => .ok ()
  | .references => (20180, [relianceReference])
  | .post _ payload _ =>
    .response ⟨200, some (if payload.fromDate = "2025-01-01 05:30:00" then newYearBody else aprilBody)⟩

def archiveReferences : Dict Instrument MasterReference := [(reliance, relianceReference)]

/-- The load of the request from the provider. -/
def archiveRun : List Event × Except LoadError (List Candle) :=
  Interaction.exec archive
    (loadHistoricalData Deploy.asciiData false archiveReferences archiveRequest) []

/-- The two bars. -/
def archiveSeries : List Candle :=
  [newYearBody, aprilBody].flatMap fun body =>
    (normalizeHistoricalPayload archiveRequest body).toOption.getD []

theorem archive_outcome : archiveRun.2 = .ok archiveSeries := by decide +kernel

theorem archive_runs : Interaction.Runs
    (loadHistoricalData Deploy.asciiData false archiveReferences archiveRequest) archiveRun.1
    (.ok archiveSeries) := by
  rw [← archive_outcome]
  exact Interaction.exec_runs _ _ _

theorem archive_endpoint : historicalEndpoint archiveRequest.interval = some .intraday := by decide

theorem archive_supported : Supported archiveReferences archiveRequest ∧
    ∀ x ∈ archiveRun.1, ¬ Fails Deploy.asciiData false archiveRequest x :=
  (load_raises_iff Deploy.asciiData false archiveReferences archiveRequest archiveRun.1 _
    archive_runs).1.mp ⟨archiveSeries, rfl⟩

/-- The second window starts where the first one ends. -/
theorem archive_posts : (payloadsOf archiveRun.1).map HistoricalPayload.window =
      [("2025-01-01 05:30:00", "2025-04-01 05:30:00"), ("2025-04-01 05:30:00", "2025-04-02 05:30:00")] ∧
    (payloadsOf archiveRun.1).map HistoricalPayload.window =
      (partitionHistoricalRequest archiveRequest .intraday).map (windowText .intraday) :=
  ⟨by decide +kernel,
    ((load_posts_windows Deploy.asciiData false archiveReferences archiveRequest .intraday archiveRun.1 _
      archive_endpoint archive_runs).2.2.2 archiveSeries rfl).1⟩

/-- The bar at which the two windows meet is returned once. -/
theorem archive_complete : archiveSeries.length = 2 ∧
    archiveSeries = archiveSeries.filter (startsIn archiveRequest) :=
  ⟨by decide +kernel,
    load_returns_window Deploy.asciiData false archiveReferences archiveRequest .intraday archiveRun.1
      archiveSeries archiveSeries archive_endpoint archive_runs (by decide +kernel) (by decide +kernel)⟩

/-! ## Futures of one underlying -/

theorem nse_ne : "NSE" ≠ "" := by decide

theorem nifty_ne : "NIFTY" ≠ "" := by decide

def nifty : UnderlyingInstrument := ⟨"NSE", "NIFTY", nse_ne, nifty_ne⟩

theorem unnamed_ne : (none : Option String) ≠ some "" ∧ (none : Option String) ≠ some "" ∧
    (none : Option String) ≠ some "" := by
  decide

theorem future_identity (expiry : Int) : contractIdentity .future (some nifty).isSome
    (some expiry).isSome (none : Option Price).isSome (none : Option OptionType).isSome = true :=
  rfl

/-- A future by its expiry. -/
def futureOf (expiry : Int) : MasterReference where
  instrument :=
    { exchange := "NSE", marketSegment := .derivatives, symbol := "NIFTY", instrumentClass := .future
      underlying := some nifty, expiry := some expiry, exchange_ne := nse_ne, symbol_ne := nifty_ne
      optional_ne := unnamed_ne, contract := future_identity expiry }
  securityId := "1"
  exchangeSegment := some "NSE_FNO"
  underlyingSecurityId := none
  providerInstrumentType := "FUTIDX"

/-- One expiry has passed, so the last of four is the far one. -/
theorem far_future : derivativeExpiryCode (futureOf 40) [futureOf 10, futureOf 20, futureOf 30, futureOf 40]
    15 = some 2 :=
  (expiryCode_eq_some_iff (futureOf 40) [futureOf 10, futureOf 20, futureOf 30, futureOf 40] 15 2
    (by simp)).mpr ⟨rfl, 40, rfl, by decide, by decide, by decide⟩

end ApexScan.Dhan.HistoricalLoad
