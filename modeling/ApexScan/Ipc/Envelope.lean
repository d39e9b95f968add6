import ApexScan.Ipc.Wire

/-!
# Event payloads and the envelope (`app/market_ipc/events.py`, `app/market_ipc/envelope.py`)

An envelope carries the producer's metadata and one canonical payload as JSON text.  Decoding an
envelope tolerates additional members; decoding a payload uses the strict canonical models.

* `IpcPayload`, `EventKind`, `decodePayload` — the four payloads and their dispatch by kind.
* `MarketEventEnvelope`, `decodeEnvelope` — with what the validators check in the field types.
* `decodePayload_isRaised`, `decodeEnvelope_isRaised` — decoding lets an exception through exactly
  when the model's timestamp overflows.
* `ProducerEventIdentity`, `compareUniverseVersion`.
-/

set_option autoImplicit false

namespace ApexScan.Ipc

open Lib Check

/-- The exceptions that the readers of the wire do not catch. -/
inductive PyException where
  | typeError
  | overflowError
  deriving DecidableEq, Repr

/-! ## Event kinds -/

inductive EventKind where
  | tick
  | quote
  | marketReference
  | feedContinuity
  deriving DecidableEq, Repr

/-- The members of the enumeration, in order. -/
def EventKind.all : List EventKind := [.tick, .quote, .marketReference, .feedContinuity]

/-- The wire values. -/
def EventKind.values : List (String × EventKind) :=
  [("tick", .tick), ("quote", .quote), ("market_reference", .marketReference),
   ("feed_continuity", .feedContinuity)]

/-- `Tick | Quote | MarketReference | FeedContinuityEvent`. -/
inductive IpcPayload where
  | tick (t : Tick)
  | quote (q : Quote)
  | marketReference (r : MarketReference)
  | feedContinuity (e : FeedContinuityEvent)
  deriving DecidableEq

/-! ## Canonical models from JSON (`app/schemas/market_data.py`) -/

section Models

variable (P : Parsers)

/-- `_normalize_identity_component`: upper case, and not empty. -/
def identityComponent (j : Json) : Check {s : String // s ≠ ""} :=
  (nonEmptyStr j).andThen fun s => Check.guard _ (P.upper s.1)

/-- `_normalize_optional_contract_component`. -/
def contractComponent (j : Json) : Check String := (fun s => P.upper s.1) <$> nonEmptyStr j

def decodeUnderlying (j : Json) : Check UnderlyingInstrument :=
  (fun exchange symbol (_ : Unit) => ⟨exchange.1, symbol.1, exchange.2, symbol.2⟩) <$>
    required j "exchange" (identityComponent P) <*> required j "symbol" (identityComponent P) <*>
    modelKeys j (some ["exchange", "symbol"])

def marketSegments : List (String × MarketSegment) :=
  [("equity", .equity), ("derivatives", .derivatives), ("currency", .currency),
   ("commodity", .commodity), ("index", .index)]

def instrumentClasses : List (String × InstrumentClass) :=
  [("cash", .cash), ("future", .future), ("option", .option), ("other", .other)]

def optionTypes : List (String × OptionType) := [("call", .call), ("put", .put)]

/-- The validated fields of an `Instrument`, before its model validator. -/
structure InstrumentFields where
  exchange : {s : String // s ≠ ""}
  marketSegment : MarketSegment
  symbol : {s : String // s ≠ ""}
  instrumentClass : InstrumentClass
  underlying : Option UnderlyingInstrument
  displayName : Option String
  listingType : Option String
  series : Option String
  expiry : Option Int
  strikePrice : Option Price
  optionType : Option OptionType
  keys : Unit

/-- `_validate_contract_identity`. -/
def instrumentOfFields (f : InstrumentFields) : Check Instrument :=
  -- the components were not empty before `upper`, which empties no string
  if h : (f.displayName ≠ some "" ∧ f.listingType ≠ some "" ∧ f.series ≠ some "") ∧
      contractIdentity f.instrumentClass f.underlying.isSome f.expiry.isSome f.strikePrice.isSome
        f.optionType.isSome = true then
    .ok { exchange := f.exchange.1, marketSegment := f.marketSegment, symbol := f.symbol.1,
          instrumentClass := f.instrumentClass, underlying := f.underlying,
          displayName := f.displayName, listingType := f.listingType, series := f.series,
          expiry := f.expiry, strikePrice := f.strikePrice, optionType := f.optionType,
          exchange_ne := f.exchange.2, symbol_ne := f.symbol.2, optional_ne := h.1,
          contract := h.2 }
  else .invalid

def decodeInstrument (j : Json) : Check Instrument :=
  (InstrumentFields.mk <$> required j "exchange" (identityComponent P) <*>
    withDefault j "market_segment" .equity (strEnum marketSegments) <*>
    required j "symbol" (identityComponent P) <*>
    withDefault j "instrument_class" .cash (strEnum instrumentClasses) <*>
    optional j "underlying" (decodeUnderlying P) <*>
    optional j "display_name" (contractComponent P) <*>
    optional j "listing_type" (contractComponent P) <*>
    optional j "series" (contractComponent P) <*>
    optional j "expiry" (strictDate P) <*>
    optional j "strike_price" (price P) <*>
    optional j "option_type" (strEnum optionTypes) <*>
    modelKeys j (some ["exchange", "market_segment", "symbol", "instrument_class", "underlying",
      "display_name", "listing_type", "series", "expiry", "strike_price",
      "option_type"])).andThen instrumentOfFields

/-- `ProviderSessionOhlc`, with `_validate_ohlc_structure`. -/
def decodeSessionOhlc (j : Json) : Check ProviderSessionOhlc :=
  ((fun o h l c (_ : Unit) => (o, h, l, c)) <$> required j "open_price" (price P) <*>
    required j "high_price" (price P) <*> required j "low_price" (price P) <*>
    required j "close_price" (price P) <*>
    modelKeys j (some ["open_price", "high_price", "low_price", "close_price"])).andThen
      fun (o, h, l, c) =>
        if hp : l ≤ h ∧ (l ≤ o ∧ o ≤ h) ∧ (l ≤ c ∧ c ≤ h) then
          .ok ⟨o, h, l, c, hp.1, hp.2.1, hp.2.2⟩
        else .invalid

def decodeTick (j : Json) : Check Tick :=
  (fun i t p q v o (_ : Unit) => ⟨i, t, p, q, v, o⟩) <$>
    required j "instrument" (decodeInstrument P) <*>
    required j "event_timestamp" (timestamp P) <*> required j "last_price" (price P) <*>
    optional j "traded_quantity" strictNat <*>
    optional j "session_cumulative_volume" strictNat <*>
    optional j "session_ohlc" (decodeSessionOhlc P) <*>
    modelKeys j (some ["instrument", "event_timestamp", "last_price", "traded_quantity",
      "session_cumulative_volume", "session_ohlc"])

/-- `Quote`, with `_validate_price_order`. -/
def decodeQuote (j : Json) : Check Quote :=
  ((fun i t b a bq aq (_ : Unit) => (i, t, b, a, bq, aq)) <$>
    required j "instrument" (decodeInstrument P) <*>
    required j "event_timestamp" (timestamp P) <*> required j "bid_price" (price P) <*>
    required j "ask_price" (price P) <*> required j "bid_quantity" strictNat <*>
    required j "ask_quantity" strictNat <*>
    modelKeys j (some ["instrument", "event_timestamp", "bid_price", "ask_price", "bid_quantity",
      "ask_quantity"])).andThen
      fun (i, t, b, a, bq, aq) => if hp : b ≤ a then .ok ⟨i, t, b, a, bq, aq, hp⟩ else .invalid

def decodeMarketReference (j : Json) : Check MarketReference :=
  (fun i p (_ : Unit) => ⟨i, p⟩) <$> required j "instrument" (decodeInstrument P) <*>
    required j "previous_close" (price P) <*>
    modelKeys j (some ["instrument", "previous_close"])

def feedContinuities : List (String × FeedContinuity) :=
  [("connected", .connected), ("disconnected", .disconnected), ("reconnected", .reconnected),
   ("continuity_lost", .continuityLost)]

def decodeFeedContinuity (j : Json) : Check FeedContinuityEvent :=
  (fun s t (_ : Unit) => ⟨s, t⟩) <$> required j "status" (strEnum feedContinuities) <*>
    required j "observed_at" (timestamp P) <*> modelKeys j (some ["status", "observed_at"])

/-- `decode_payload` of parsed text. -/
def decodeParsed (kind : EventKind) (j : Json) : Check IpcPayload :=
  match kind with
  | .tick => .tick <$> decodeTick P j
  | .quote => .quote <$> decodeQuote P j
  | .marketReference => .marketReference <$> decodeMarketReference P j
  | .feedContinuity => .feedContinuity <$> decodeFeedContinuity P j

/-- `decode_payload`. -/
def decodePayload (kind : EventKind) (payload : String) : Check IpcPayload :=
  (Check.ofOption (P.parseText payload)).andThen (decodeParsed P kind)

end Models

/-! ## The envelope -/

/-- `SUPPORTED_SCHEMA_VERSIONS`. -/
def supportedSchemaVersions : List Int := [1]

/-- `_MAX_PAYLOAD_BYTES`. -/
def maxPayloadBytes : ℕ := 262144

/-- `_well_formed_identity`: `EXCHANGE:SYMBOL` with both sides present. -/
def wellFormedIdentity (s : String) : Bool :=
  let exchange := s.toList.takeWhile (· ≠ ':')
  let rest := s.toList.dropWhile (· ≠ ':')
  !exchange.isEmpty && !rest.isEmpty && !rest.tail.isEmpty

/-- `MarketEventEnvelope`. -/
structure MarketEventEnvelope where
  schemaVersion : {n : Int // n ∈ supportedSchemaVersions}
  producerId : ShortText
  producerEpoch : ℕ
  producerSequence : ℕ
  producedAt : Int
  eventKind : EventKind
  tradingDate : Int
  universeVersion : ℕ
  instrumentIdentity : {s : ShortText // wellFormedIdentity s.1 = true}
  payload : {s : {s : String // 1 ≤ s.length} // s.1.utf8ByteSize ≤ maxPayloadBytes}

section Envelope

variable (P : Parsers)

/-- The validation of an envelope from parsed JSON; unknown members are ignored. -/
def envelopeOf (j : Json) : Check MarketEventEnvelope :=
  (fun v i e s at' k d u n p (_ : Unit) => ⟨v, i, e, s, at', k, d, u, n, p⟩) <$>
    required j "schema_version" (fun v => (strictInt v).andThen (Check.guard _)) <*>
    required j "producer_id" shortText <*> required j "producer_epoch" strictNat <*>
    required j "producer_sequence" strictNat <*> required j "produced_at" (timestamp P) <*>
    required j "event_kind" (strEnum EventKind.values) <*>
    required j "trading_date" (strictDate P) <*> required j "universe_version" strictNat <*>
    required j "instrument_identity" (fun v => (shortText v).andThen (Check.guard _)) <*>
    required j "payload" (fun v => (nonEmptyStr v).andThen (Check.guard _)) <*>
    modelKeys j none

/-- `decode_envelope`. -/
def decodeEnvelope (raw : ByteArray) : Check MarketEventEnvelope :=
  (Check.ofOption (P.parse raw)).andThen (envelopeOf P)

end Envelope

/-- The dedup identity of a produced event. -/
structure ProducerEventIdentity where
  producerId : String
  producerEpoch : ℕ
  producerSequence : ℕ
  deriving DecidableEq

def ProducerEventIdentity.fromEnvelope (e : MarketEventEnvelope) : ProducerEventIdentity :=
  ⟨e.producerId.1, e.producerEpoch, e.producerSequence⟩

inductive UniverseVersionComparison where
  | match
  | older
  | newer
  | unknown
  deriving DecidableEq, Repr

/-- `compare_universe_version`. -/
def compareUniverseVersion (eventVersion : ℕ) (currentVersion : Option ℕ) :
    UniverseVersionComparison :=
  match currentVersion with
  | none => .unknown
  | some current =>
    if eventVersion = current then .match else if eventVersion < current then .older else .newer

/-! ## Exceptions of decoding -/

section Raising

variable {P : Parsers}

theorem isRaised_identityComponent (j : Json) : (identityComponent P j).isRaised = false := by
  rw [identityComponent, isRaised_andThen _ fun _ => isRaised_guard _ _]
  exact isRaised_nonEmptyStr j

theorem isRaised_contractComponent (j : Json) : (contractComponent P j).isRaised = false := by
  rw [contractComponent, isRaised_map, isRaised_nonEmptyStr]

theorem isRaised_decodeUnderlying (j : Json) : (decodeUnderlying P j).isRaised = false := by
  simp [decodeUnderlying, isRaised_required _ _ isRaised_identityComponent]

theorem isRaised_decodeInstrument (j : Json) : (decodeInstrument P j).isRaised = false := by
  have hlast : NeverRaises instrumentOfFields := by
    intro f
    unfold instrumentOfFields
    split <;> rfl
  rw [decodeInstrument, isRaised_andThen _ hlast]
  simp [isRaised_required _ _ isRaised_identityComponent,
    isRaised_withDefault _ _ _ (isRaised_strEnum _), isRaised_optional _ _ isRaised_decodeUnderlying,
    isRaised_optional _ _ isRaised_contractComponent, isRaised_optional _ _ isRaised_strictDate,
    isRaised_optional _ _ isRaised_price, isRaised_optional _ _ (isRaised_strEnum _)]

theorem isRaised_decodeSessionOhlc (j : Json) : (decodeSessionOhlc P j).isRaised = false := by
  rw [decodeSessionOhlc, isRaised_andThen]
  · simp [isRaised_required _ _ isRaised_price]
  · rintro ⟨o, h, l, c⟩
    simp only
    split <;> rfl

/-- The timestamp field of each payload model. -/
def timestampField : EventKind → Option String
  | .tick | .quote => some "event_timestamp"
  | .feedContinuity => some "observed_at"
  | .marketReference => none

/-- Decoding a payload lets an exception through exactly when its timestamp overflows. -/
theorem decodeParsed_isRaised (kind : EventKind) (j : Json) :
    (decodeParsed P kind j).isRaised = (timestampField kind).any (overflowsAt P j) := by
  cases kind with
  | tick =>
    simp [decodeParsed, decodeTick, timestampField, isRaised_timestamp_field,
      isRaised_required _ _ isRaised_decodeInstrument, isRaised_required _ _ isRaised_price,
      isRaised_optional _ _ isRaised_strictNat, isRaised_optional _ _ isRaised_decodeSessionOhlc]
  | quote =>
    rw [decodeParsed, isRaised_map, decodeQuote, isRaised_andThen]
    · simp [timestampField, isRaised_timestamp_field,
        isRaised_required _ _ isRaised_decodeInstrument, isRaised_required _ _ isRaised_price,
        isRaised_required _ _ isRaised_strictNat]
    · rintro ⟨i, t, b, a, bq, aq⟩
      simp only
      split <;> rfl
  | marketReference =>
    simp [decodeParsed, decodeMarketReference, timestampField,
      isRaised_required _ _ isRaised_decodeInstrument, isRaised_required _ _ isRaised_price]
  | feedContinuity =>
    simp [decodeParsed, decodeFeedContinuity, timestampField, isRaised_timestamp_field,
      isRaised_required _ _ (isRaised_strEnum _)]

/-- Decoding an envelope lets an exception through exactly when `produced_at` overflows. -/
theorem envelopeOf_isRaised (j : Json) :
    (envelopeOf P j).isRaised = overflowsAt P j "produced_at" := by
  have hversion : NeverRaises fun v => (strictInt v).andThen
      (Check.guard fun n : Int => n ∈ supportedSchemaVersions) := by
    intro v
    rw [isRaised_andThen _ fun _ => isRaised_guard _ _, isRaised_strictInt]
  have hidentity : NeverRaises fun v => (shortText v).andThen
      (Check.guard fun s : ShortText => wellFormedIdentity s.1 = true) := by
    intro v
    rw [isRaised_andThen _ fun _ => isRaised_guard _ _, isRaised_shortText]
  have hpayload : NeverRaises fun v => (nonEmptyStr v).andThen
      (Check.guard fun s : {s : String // 1 ≤ s.length} => s.1.utf8ByteSize ≤ maxPayloadBytes) := by
    intro v
    rw [isRaised_andThen _ fun _ => isRaised_guard _ _, isRaised_nonEmptyStr]
  simp [envelopeOf, isRaised_timestamp_field, isRaised_required _ _ hversion,
    isRaised_required _ _ hidentity, isRaised_required _ _ hpayload,
    isRaised_required _ _ isRaised_shortText, isRaised_required _ _ isRaised_strictNat,
    isRaised_required _ _ (isRaised_strEnum _), isRaised_required _ _ isRaised_strictDate]

end Raising

end ApexScan.Ipc
