import ApexScan.Adapters.Dhan.Distribution
import ApexScan.Lib.Machine
import ApexScan.Lib.Raising
import ApexScan.Lib.Tally
import Mathlib.Data.Prod.Lex
import Mathlib.Data.String.Basic

/-!
# Live subscriptions (`app/adapters/dhan/adapter.py`, `app/adapters/dhan/live.py`)

Every consumer of the live feed registers its request.  The adapter keeps the consumers by sequence
number and, beside them, a count for every request in use and the provider plan for all of them.

* `planLiveSubscriptionBatches`, `effectiveLivePlan` — the plan of a request, and of all requests in
  use.
* `LiveConnection` — the socket, its status and the batches subscribed on it; `connect`, `reconcile`,
  `unsubscribeLivePlan`, `markLost` and the reconnect loop work on it alone.
* `LiveFeed`, `Op`, `step` — the adapter's books, and what is done to them while its state lock is
  held: a consumer registers or unregisters, the feed reconnects, the adapter disconnects.

What the provider does (connecting, accepting a frame) is an input of each step.  Left out are the
texts of the frames and the continuity sink.
-/

set_option autoImplicit false

namespace ApexScan

/-! ## Requests -/

theorem SubscriptionRequest.eq_iff {a b : SubscriptionRequest} :
    a = b ↔ a.instruments = b.instruments ∧ a.dataTypes = b.dataTypes := by
  cases a
  cases b
  simp

instance : DecidableEq SubscriptionRequest :=
  fun _ _ => decidable_of_iff _ SubscriptionRequest.eq_iff.symm

/-- `SubscriptionRequest(instruments=..., data_types=...)`, with its validation. -/
def SubscriptionRequest.validate (instruments : List Instrument)
    (dataTypes : Finset MarketDataKind) : Option SubscriptionRequest :=
  if h : instruments ≠ [] ∧ instruments.Nodup ∧ dataTypes.Nonempty then
    some ⟨instruments, dataTypes, h.1, h.2.1, h.2.2⟩
  else none

def InstrumentClass.value : InstrumentClass → String
  | .cash => "cash"
  | .future => "future"
  | .option => "option"
  | .other => "other"

namespace Dhan

open Lib

deriving instance DecidableEq for DhanInstrumentReference

/-- The exceptions that leave the adapter's live operations. -/
inductive ProviderError where
  | contractViolation
  | authentication
  | network
  | unavailable
  | unsupportedRequest
  | validation
  deriving DecidableEq, Repr

inductive ProviderStatus where
  | unknown
  | healthy
  | degraded
  | down
  deriving DecidableEq, Repr

/-! ## Plans -/

inductive DhanLiveFeedMode where
  | quote
  | full
  deriving DecidableEq, Repr

structure DhanLiveSubscriptionBatch where
  feedMode : DhanLiveFeedMode
  references : List DhanInstrumentReference
  deriving DecidableEq

structure DhanLiveSubscriptionPlan where
  feedMode : DhanLiveFeedMode
  batches : List DhanLiveSubscriptionBatch
  deriving DecidableEq

/-- The data types that the standard feed can deliver. -/
def standardDataTypes : Finset MarketDataKind := {.tick, .quote, .depth}

/-- `_feed_mode_for`. -/
def feedModeFor (dataTypes : Finset MarketDataKind) : Except ProviderError DhanLiveFeedMode :=
  if dataTypes = {.tick} then .ok .quote
  else if dataTypes ⊆ standardDataTypes then .ok .full
  else .error .unsupportedRequest

/-- `_DOCUMENTED_MAXIMUM_INSTRUMENTS_PER_REQUEST`. -/
def maximumInstrumentsPerRequest : ℕ := 100

/-- `_reference_sort_key`. -/
def referenceSortKey (reference : DhanInstrumentReference) : String ×ₗ String ×ₗ String :=
  toLex (reference.instrument.exchange, toLex (reference.instrument.symbol, reference.securityId))

/-- The slices of `maximumInstrumentsPerRequest` references. -/
def slices (references : List DhanInstrumentReference) : List (List DhanInstrumentReference) :=
  (List.range ((references.length + maximumInstrumentsPerRequest - 1) /
    maximumInstrumentsPerRequest)).map fun k =>
      (references.drop (k * maximumInstrumentsPerRequest)).take maximumInstrumentsPerRequest

/-- `references_by_instrument[instrument]`. -/
def referenceOf (cashReferences : List DhanInstrumentReference) (instrument : Instrument) :
    Except ProviderError DhanInstrumentReference :=
  match cashReferences.find? fun reference => reference.instrument = instrument with
  | some reference => .ok reference
  | none => .error .unsupportedRequest

/-- `plan_live_subscription_batches`, with the default number of instruments in a batch. -/
def planLiveSubscriptionBatches (request : SubscriptionRequest)
    (cashReferences : List DhanInstrumentReference) :
    Except ProviderError DhanLiveSubscriptionPlan := do
  let feedMode ← feedModeFor request.dataTypes
  if ¬ (cashReferences.map (·.instrument)).Nodup then .error .contractViolation
  else
    let requested ← request.instruments.mapM (referenceOf cashReferences)
    let sorted := requested.insertionSort fun a b => referenceSortKey a ≤ referenceSortKey b
    return ⟨feedMode, (slices sorted).map fun references => ⟨feedMode, references⟩⟩

/-- The key by which the instruments of all requests are sorted. -/
def instrumentSortKey (instrument : Instrument) : String ×ₗ String ×ₗ String :=
  toLex (instrument.exchange, toLex (instrument.symbol, instrument.instrumentClass.value))

/-- The instruments of all requests, sorted. -/
def requestedInstruments (requests : List SubscriptionRequest) : List Instrument :=
  (requests.flatMap (·.instruments)).dedup.insertionSort fun a b =>
    instrumentSortKey a ≤ instrumentSortKey b

/-- The data types of all requests. -/
def requestedDataTypes (requests : List SubscriptionRequest) : Finset MarketDataKind :=
  requests.foldr (fun request kinds => request.dataTypes ∪ kinds) ∅

/-- `_effective_live_plan`: the plan of the requests in use together. -/
def effectiveLivePlan (desired : Dict SubscriptionRequest ℕ)
    (cashReferences : List DhanInstrumentReference) :
    Except ProviderError DhanLiveSubscriptionPlan :=
  let requests := desired.map (·.1)
  match SubscriptionRequest.validate (requestedInstruments requests)
    (requestedDataTypes requests) with
  | none => .error .validation
  | some request => planLiveSubscriptionBatches request cashReferences

/-! ## The connection -/

/-- What connecting the socket comes to. -/
inductive ConnectOutcome where
  | noClientId
  | tokenRaises (error : ProviderError)
  | transportRaises
  | connected

/-- What the provider does during one operation: how connecting ends, which frames are accepted (those
    beyond the list are), and whether the socket closes without an exception. -/
structure Provider where
  connect : ConnectOutcome := .connected
  accepts : List Bool := []
  closes : Bool := true

/-- The socket and what is known to be subscribed on it. -/
structure LiveConnection where
  socket : Bool := false
  status : Option ProviderStatus := none
  activeBatches : List DhanLiveSubscriptionBatch := []

namespace LiveConnection

/-- `_connect_live_socket`. -/
def connect (c : LiveConnection) (provider : Provider) : LiveConnection × Option ProviderError :=
  if c.socket then (c, none)
  else
    match provider.connect with
    | .noClientId => (c, some .authentication)
    | .tokenRaises error => (c, some error)
    | .transportRaises => ({ c with status := some .down }, some .network)
    | .connected => ({ c with socket := true }, none)

/-- The loop of `_unsubscribe_live_plan`: whether all frames were accepted, and what is left of the
    provider's answers. -/
def unsubscribeBatches : List DhanLiveSubscriptionBatch → List Bool → Bool × List Bool
  | [], accepts => (true, accepts)
  | _ :: _, false :: accepts => (false, accepts)
  | _ :: rest, accepts => unsubscribeBatches rest accepts.tail

/-- `_unsubscribe_live_plan`. -/
def unsubscribeLivePlan (c : LiveConnection) (accepts : List Bool) : LiveConnection × List Bool :=
  let unsubscribed := { c with activeBatches := [] }
  if c.socket then
    match unsubscribeBatches c.activeBatches accepts with
    | (true, accepts) => (unsubscribed, accepts)
    | (false, accepts) => ({ unsubscribed with status := some .degraded }, accepts)
  else (unsubscribed, accepts)

/-- The loop of `_reconcile_live_subscriptions`: the batches active after it, and whether all frames
    were accepted. -/
def subscribeBatches : List DhanLiveSubscriptionBatch → List Bool →
    List DhanLiveSubscriptionBatch → List DhanLiveSubscriptionBatch × Bool
  | [], _, active => (active, true)
  | batch :: rest, accepts, active =>
    if batch ∈ active then subscribeBatches rest accepts active
    else if accepts.head? = some false then (active, false)
    else subscribeBatches rest accepts.tail (active ++ [batch])

/-- `_reconcile_live_subscriptions`. -/
def reconcile (c : LiveConnection) (plan : DhanLiveSubscriptionPlan) (accepts : List Bool) :
    LiveConnection × Option ProviderError :=
  if c.socket then
    let (c, accepts) :=
      if c.activeBatches ≠ [] ∧ c.activeBatches ≠ plan.batches then c.unsubscribeLivePlan accepts
      else (c, accepts)
    match subscribeBatches plan.batches accepts c.activeBatches with
    | (active, true) => ({ c with activeBatches := active, status := some .healthy }, none)
    | (active, false) =>
      ({ c with activeBatches := active, status := some .degraded }, some .network)
  else (c, some .contractViolation)

/-- Connect, then reconcile. -/
def establish (c : LiveConnection) (plan : DhanLiveSubscriptionPlan) (provider : Provider) :
    LiveConnection × Option ProviderError :=
  match c.connect provider with
  | (c, some error) => (c, some error)
  | (c, none) => c.reconcile plan provider.accepts

/-- `_mark_live_connection_lost`; a socket that does not close is dropped all the same. -/
def markLost (_ : LiveConnection) : LiveConnection :=
  { socket := false, status := some .degraded, activeBatches := [] }

/-- The attempts of `_reconnect_live_subscription`; without a plan a socket is all that is needed. -/
def reconnectLoop (plan : Option DhanLiveSubscriptionPlan) :
    List Provider → LiveConnection → LiveConnection × Option ProviderError
  | [], c => (c, some .unavailable)
  | provider :: rest, c =>
    let (attempted, error) :=
      match plan with
      | none => c.connect provider
      | some plan => c.establish plan provider
    match error with
    | none => (attempted, none)
    | some _ => reconnectLoop plan rest attempted.markLost

/-- The provider's side of `_close_live_socket`. -/
def close (c : LiveConnection) (provider : Provider) : LiveConnection × Option ProviderError :=
  let closed : LiveConnection :=
    { socket := false
      status := if c.socket ∧ provider.accepts.head? = some false then some .degraded else c.status
      activeBatches := [] }
  if c.socket ∧ ¬ provider.closes then (closed, some .network)
  else ({ closed with status := closed.status.map fun _ => .down }, none)

end LiveConnection

/-! ## The books -/

/-- A suspended `stream_market_data`: its consumer and the references it was started with. -/
structure LiveStream where
  consumer : LiveConsumer
  cashReferences : List DhanInstrumentReference

/-- The adapter's live state, and the streams that will unregister their consumer when they end. -/
structure LiveFeed where
  connection : LiveConnection := {}
  liveCashReferences : List DhanInstrumentReference := []
  liveConsumerSequence : ℕ := 0
  liveConsumers : Dict ℕ LiveConsumer := []
  desiredLiveRequests : Dict SubscriptionRequest ℕ := []
  desiredLivePlan : Option DhanLiveSubscriptionPlan := none
  streams : Dict ℕ LiveStream := []

namespace LiveFeed

/-- The `except` branch of `_register_live_consumer`.  The plan is computed anew, and where that raises
    the new exception replaces the first and the plan stays as it is. -/
def rollBack (s : LiveFeed) (consumer : LiveConsumer)
    (cashReferences : List DhanInstrumentReference) (error : ProviderError) :
    LiveFeed × Option ProviderError :=
  let s := { s with
    liveConsumers := s.liveConsumers.restrict (· ≠ consumer.sequence)
    desiredLiveRequests := s.desiredLiveRequests.release consumer.request }
  if s.desiredLiveRequests = [] then ({ s with desiredLivePlan := none }, some error)
  else
    match effectiveLivePlan s.desiredLiveRequests cashReferences with
    | .ok plan => ({ s with desiredLivePlan := some plan }, some error)
    | .error second => (s, some second)

/-- `_register_live_consumer`; a consumer that registers belongs to the stream that asked for it. -/
def register (s : LiveFeed) (request : SubscriptionRequest)
    (cashReferences : List DhanInstrumentReference) (provider : Provider) :
    LiveFeed × Option ProviderError :=
  let consumer : LiveConsumer := { sequence := s.liveConsumerSequence, request := request }
  let s := { s with
    liveCashReferences := cashReferences
    liveConsumerSequence := s.liveConsumerSequence + 1
    liveConsumers := s.liveConsumers.set consumer.sequence consumer
    desiredLiveRequests := s.desiredLiveRequests.retain request }
  match effectiveLivePlan s.desiredLiveRequests cashReferences with
  | .error error => s.rollBack consumer cashReferences error
  | .ok plan =>
    let (connection, error) := s.connection.establish plan provider
    let s := { s with desiredLivePlan := some plan, connection := connection }
    match error with
    | some error => s.rollBack consumer cashReferences error
    | none => ({ s with streams := s.streams.set consumer.sequence ⟨consumer, cashReferences⟩ }, none)

/-- `_unregister_live_consumer`. -/
def unregister (s : LiveFeed) (consumer : LiveConsumer)
    (cashReferences : List DhanInstrumentReference) (provider : Provider) :
    LiveFeed × Option ProviderError :=
  let s := { s with
    liveConsumers := s.liveConsumers.restrict (· ≠ consumer.sequence)
    desiredLiveRequests := s.desiredLiveRequests.release consumer.request }
  if s.desiredLiveRequests = [] then
    ({ s with
        desiredLivePlan := none
        connection := (s.connection.unsubscribeLivePlan provider.accepts).1 }, none)
  else
    match effectiveLivePlan s.desiredLiveRequests cashReferences with
    | .error error => (s, some error)
    | .ok plan =>
      let (connection, error) := s.connection.reconcile plan provider.accepts
      ({ s with desiredLivePlan := some plan, connection := connection }, error)

/-- What is done to the feed while the state lock is held. -/
inductive Op where
  | register (request : SubscriptionRequest) (cashReferences : List DhanInstrumentReference)
      (provider : Provider)
  /-- The stream of a consumer ends, for whatever reason. -/
  | unregister (sequence : ℕ) (provider : Provider)
  | reconnect (attempts : List Provider)
  | disconnect (provider : Provider)

/-- One operation, with the exception it raises. -/
def step (s : LiveFeed) : Op → LiveFeed × Option ProviderError
  | .register request cashReferences provider => s.register request cashReferences provider
  | .unregister sequence provider =>
    match s.streams.get sequence with
    | none => (s, none)
    | some stream =>
      { s with streams := s.streams.restrict (· ≠ sequence) }.unregister stream.consumer
        stream.cashReferences provider
  | .reconnect attempts =>
    let (connection, error) :=
      LiveConnection.reconnectLoop s.desiredLivePlan attempts s.connection.markLost
    ({ s with connection := connection }, error)
  | .disconnect provider =>
    let (connection, error) := s.connection.close provider
    ({ s with
        connection := connection, liveConsumers := [], desiredLiveRequests := []
        desiredLivePlan := none }, error)

end LiveFeed

end Dhan

end ApexScan
