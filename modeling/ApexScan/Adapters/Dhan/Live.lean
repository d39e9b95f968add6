import ApexScan.Ipc.Wire
import ApexScan.Lib.Dict
import ApexScan.Lib.Framing
import ApexScan.Lib.Packed
import ApexScan.Lib.Raising
import ApexScan.Schemas.MarketData

/-!
# Packets of the live feed (`app/adapters/dhan/live.py`)

A binary message stacks packets one after another.  Every packet starts with a header of eight bytes
that carries a response code, the length of the packet, an exchange segment and a security id; the
payload depends on the response code.  All fields are little-endian and unpadded (`struct` formats
with `<`), so the offsets below are sums of field widths.

* `decodeStandardLivePacket` — one packet into canonical events, with the four errors it raises.
* `iterStandardLivePackets` — the generator that cuts a message into packets.
* `decode_cases` — what the decoder does with a packet.
* `decode_eq_disconnected_iff` — the packets on which decoding raises the feed disconnect.
* `decode_eq_ok_iff` — what decoding a packet takes.
* `decodes_reference_iff` — the packets that carry a session reference.

`str(x)` of a float is `shortestDecimal`; a float is a rational, or `none` where it is not finite.
-/

set_option autoImplicit false

namespace ApexScan.Dhan

open Lib

/-! ## The wire -/

/-- The errors of the decoder. -/
inductive LiveError where
  | normalization
  | unsupportedProviderRequest
  | unknownProviderReference
  | feedDisconnected
  deriving DecidableEq, Repr

/-- A reference row linked to a canonical instrument. -/
structure DhanInstrumentReference where
  instrument : Instrument
  securityId : String
  exchangeSegment : Option String

/-- `_HEADER`, `<B h B i`. -/
def headerSize : ℕ := 8

/-- `_QUOTE_PAYLOAD`, `<f h i f i i i f f f f`. -/
def quotePayloadSize : ℕ := 42

/-- `_FULL_PAYLOAD`, `<f h i f i i i i i i f f f f`. -/
def fullPayloadSize : ℕ := 54

/-- `_DEPTH_LEVEL`, `<i i h h f f`. -/
def depthLevelSize : ℕ := 20

/-- `_PREVIOUS_CLOSE_PAYLOAD`, `<f i`. -/
def previousClosePayloadSize : ℕ := 8

/-- `_FEED_DISCONNECT_PAYLOAD`, `<h`. -/
def feedDisconnectPayloadSize : ℕ := 2

def quoteResponseCode : ℕ := 4

def fullResponseCode : ℕ := 8

def previousCloseResponseCode : ℕ := 6

def feedDisconnectResponseCode : ℕ := 50

/-- `_EXCHANGE_SEGMENT_CODES`. -/
def exchangeSegmentCodes : Dict String ℕ :=
  [("IDX_I", 0), ("NSE_EQ", 1), ("NSE_FNO", 2), ("NSE_CURRENCY", 3), ("BSE_EQ", 4),
   ("MCX_COMM", 5), ("BSE_CURRENCY", 7), ("BSE_FNO", 8)]

/-- `code in _EXCHANGE_SEGMENT_CODES.values()`. -/
def knownSegment (code : ℕ) : Bool := exchangeSegmentCodes.any (fun kv => kv.2 = code)

def responseCode (packet : List UInt8) : ℕ := naturalAt packet 0 1

def messageLength (packet : List UInt8) : Int := integerAt packet 1 2

def exchangeSegmentCode (packet : List UInt8) : ℕ := naturalAt packet 3 1

def headerSecurityId (packet : List UInt8) : Int := integerAt packet 4 4

/-! ## Resolving the instrument -/

/-- The zeros of the decimal digits (Unicode `Nd`); each is followed by the other nine. -/
def decimalZeros : List ℕ :=
  [0x30, 0x660, 0x6F0, 0x7C0, 0x966, 0x9E6, 0xA66, 0xAE6, 0xB66, 0xBE6, 0xC66, 0xCE6, 0xD66, 0xDE6,
   0xE50, 0xED0, 0xF20, 0x1040, 0x1090, 0x17E0, 0x1810, 0x1946, 0x19D0, 0x1A80, 0x1A90, 0x1B50,
   0x1BB0, 0x1C40, 0x1C50, 0xA620, 0xA8D0, 0xA900, 0xA9D0, 0xA9F0, 0xAA50, 0xABF0, 0xFF10, 0x104A0,
   0x10D30, 0x11066, 0x110F0, 0x11136, 0x111D0, 0x112F0, 0x11450, 0x114D0, 0x11650, 0x116C0,
   0x11730, 0x118E0, 0x11950, 0x11C50, 0x11D50, 0x11DA0, 0x11F50, 0x16A60, 0x16AC0, 0x16B50,
   0x1D7CE, 0x1D7D8, 0x1D7E2, 0x1D7EC, 0x1D7F6, 0x1E140, 0x1E2F0, 0x1E4F0, 0x1E950, 0x1FBF0]

def digitValue (c : Char) : Option ℕ :=
  (decimalZeros.find? fun first => first ≤ c.toNat && c.toNat < first + 10).map (c.toNat - ·)

/-- The most digits that `int` reads (`sys.int_info.default_max_str_digits`). -/
def maxStrDigits : ℕ := 4300

/-- The value of digits with single underscores between them. -/
def unsignedInt (text : List Char) : Option ℕ :=
  let groups := text.splitOn '_'
  if groups.any List.isEmpty || maxStrDigits < groups.flatten.length then none
  else (groups.flatten.mapM digitValue).map (Nat.ofDigits 10 ·.reverse)

/-- `int(text)`; `none` is a `ValueError`.  Unlike `str.strip`, it keeps the separators 28 to 31. -/
def int (text : String) : Option Int :=
  match (Ipc.strip text).toList with
  | '-' :: digits => (unsignedInt digits).map (- ·)
  | '+' :: digits => (unsignedInt digits).map (·)
  | digits => (unsignedInt digits).map (·)

/-- `_resolve_reference`. -/
def resolveReference (cashReferences : List DhanInstrumentReference) (segmentCode : ℕ)
    (securityId : Int) : Except LiveError DhanInstrumentReference :=
  match cashReferences with
  | [] => .error .unknownProviderReference
  | reference :: rest =>
    match reference.exchangeSegment with
    | none => resolveReference rest segmentCode securityId
    | some exchangeSegment =>
      match int reference.securityId with
      -- an unreadable security id fails the packet, even where a later reference would match
      | none => .error .normalization
      | some expectedSecurityId =>
        if exchangeSegmentCodes.get exchangeSegment = some segmentCode ∧
            expectedSecurityId = securityId then .ok reference
        else resolveReference rest segmentCode securityId

/-! ## Checks -/

/-- `_require_positive_finite`. -/
def requirePositiveFinite (value : Option ℚ) : Option {x : ℚ // 0 < x} := do
  let x ← value
  if h : 0 < x then some ⟨x, h⟩ else none

/-- `_require_nonnegative_finite`, of one value. -/
def requireNonnegativeFinite (value : Option ℚ) : Option ℚ := do
  let x ← value
  if x < 0 then none else some x

/-- `_require_nonnegative_integral`. -/
def requireNonnegativeIntegral (values : List Int) : Option Unit :=
  if values.any (· < 0) then none else some ()

/-- `_epoch_timestamp`, of seconds since the epoch. -/
def epochTimestamp (value : Int) : Option Int :=
  if value ≤ 0 then none else some (value * second)

/-- `Decimal(str(x))`. -/
def decimal (x : {x : ℚ // 0 < x}) : Price := ⟨shortestDecimal x, shortestDecimal_pos x.2⟩

/-- `_session_ohlc`; an aggregate that is zero or incoherent is absent. -/
def sessionOhlc (dayOpen dayHigh dayLow dayClose : ℚ) : Option ProviderSessionOhlc := do
  let openPrice := decimal (← requirePositiveFinite (some dayOpen))
  let highPrice := decimal (← requirePositiveFinite (some dayHigh))
  let lowPrice := decimal (← requirePositiveFinite (some dayLow))
  let closePrice := decimal (← requirePositiveFinite (some dayClose))
  if h : lowPrice ≤ highPrice ∧ (lowPrice ≤ openPrice ∧ openPrice ≤ highPrice) ∧
      (lowPrice ≤ closePrice ∧ closePrice ≤ highPrice) then
    some { openPrice, highPrice, lowPrice, closePrice,
           low_le_high := h.1, open_within := h.2.1, close_within := h.2.2 }
  else none

/-- `except (OverflowError, OSError, ValueError): raise NormalizationError()`. -/
def normalizing {α : Type} : Option α → Except LiveError α
  | some a => .ok a
  | none => .error .normalization

/-! ## Decoding -/

/-- `_decode_quote_packet`. -/
def decodeQuotePacket (packet : List UInt8) (reference : DhanInstrumentReference) :
    Except LiveError (List MarketData) :=
  if packet.length ≠ headerSize + quotePayloadSize then .error .normalization
  else normalizing do
    let lastPrice ← requirePositiveFinite (singleAt packet 8)
    let lastTradeQuantity := integerAt packet 12 2
    let lastTradeTime := integerAt packet 14 4
    let _averageTradePrice ← requireNonnegativeFinite (singleAt packet 18)
    let volume := integerAt packet 22 4
    let totalSellQuantity := integerAt packet 26 4
    let totalBuyQuantity := integerAt packet 30 4
    let dayOpen ← requireNonnegativeFinite (singleAt packet 34)
    let dayClose ← requireNonnegativeFinite (singleAt packet 38)
    let dayHigh ← requireNonnegativeFinite (singleAt packet 42)
    let dayLow ← requireNonnegativeFinite (singleAt packet 46)
    requireNonnegativeIntegral [lastTradeQuantity, volume, totalSellQuantity, totalBuyQuantity]
    let eventTimestamp ← epochTimestamp lastTradeTime
    return [.tick
      { instrument := reference.instrument
        eventTimestamp
        lastPrice := decimal lastPrice
        tradedQuantity := some lastTradeQuantity.toNat
        sessionCumulativeVolume := some volume.toNat
        sessionOhlc := sessionOhlc dayOpen dayHigh dayLow dayClose }]

/-- One depth level of a full packet: the bid and the ask. -/
def depthLevel (packet : List UInt8) (offset : ℕ) : Option (DepthLevel × DepthLevel) := do
  let bidQuantity := integerAt packet offset 4
  let askQuantity := integerAt packet (offset + 4) 4
  let bidOrderCount := integerAt packet (offset + 8) 2
  let askOrderCount := integerAt packet (offset + 10) 2
  requireNonnegativeIntegral [bidQuantity, askQuantity, bidOrderCount, askOrderCount]
  let bidPrice ← requirePositiveFinite (singleAt packet (offset + 12))
  let askPrice ← requirePositiveFinite (singleAt packet (offset + 16))
  return ({ price := decimal bidPrice, quantity := bidQuantity.toNat },
          { price := decimal askPrice, quantity := askQuantity.toNat })

/-- `range(_HEADER.size + _FULL_PAYLOAD.size, len(packet), _DEPTH_LEVEL.size)`. -/
def depthOffsets : List ℕ :=
  (List.range 5).map (headerSize + fullPayloadSize + depthLevelSize * ·)

/-- `_decode_full_packet`. -/
def decodeFullPacket (packet : List UInt8) (reference : DhanInstrumentReference) :
    Except LiveError (List MarketData) :=
  if packet.length ≠ headerSize + fullPayloadSize + 5 * depthLevelSize then .error .normalization
  else normalizing do
    let lastPrice ← requirePositiveFinite (singleAt packet 8)
    let lastTradeQuantity := integerAt packet 12 2
    let lastTradeTime := integerAt packet 14 4
    let _averageTradePrice ← requireNonnegativeFinite (singleAt packet 18)
    let volume := integerAt packet 22 4
    let totalSellQuantity := integerAt packet 26 4
    let totalBuyQuantity := integerAt packet 30 4
    let openInterest := integerAt packet 34 4
    let highestOpenInterest := integerAt packet 38 4
    let lowestOpenInterest := integerAt packet 42 4
    let dayOpen ← requireNonnegativeFinite (singleAt packet 46)
    let dayClose ← requireNonnegativeFinite (singleAt packet 50)
    let dayHigh ← requireNonnegativeFinite (singleAt packet 54)
    let dayLow ← requireNonnegativeFinite (singleAt packet 58)
    requireNonnegativeIntegral [lastTradeQuantity, volume, totalSellQuantity, totalBuyQuantity,
      openInterest, highestOpenInterest, lowestOpenInterest]
    let eventTimestamp ← epochTimestamp lastTradeTime
    match ← depthOffsets.mapM (depthLevel packet) with
    -- there are five levels, so the best one exists
    | [] => none
    | (bid, ask) :: levels =>
      if h : bid.price ≤ ask.price then
        some
          [.tick
            { instrument := reference.instrument
              eventTimestamp
              lastPrice := decimal lastPrice
              tradedQuantity := some lastTradeQuantity.toNat
              sessionCumulativeVolume := some volume.toNat
              sessionOhlc := sessionOhlc dayOpen dayHigh dayLow dayClose },
           .quote
            { instrument := reference.instrument
              eventTimestamp
              bidPrice := bid.price
              askPrice := ask.price
              bidQuantity := bid.quantity
              askQuantity := ask.quantity
              bid_le_ask := h },
           .depth
            { instrument := reference.instrument
              eventTimestamp
              bids := bid :: levels.map (·.1)
              asks := ask :: levels.map (·.2)
              bids_ne := List.cons_ne_nil _ _
              asks_ne := List.cons_ne_nil _ _ }]
      else none

/-- `_decode_previous_close_packet`; a previous close of zero means that it is unknown. -/
def decodePreviousClosePacket (packet : List UInt8) (reference : DhanInstrumentReference) :
    Except LiveError (List MarketData) :=
  if packet.length ≠ headerSize + previousClosePayloadSize then .error .normalization
  else normalizing do
    let previousClose ← requireNonnegativeFinite (singleAt packet 8)
    let openInterest := integerAt packet 12 4
    requireNonnegativeIntegral [openInterest]
    if h : 0 < previousClose then
      return [.reference
        { instrument := reference.instrument, previousClose := decimal ⟨previousClose, h⟩ }]
    else return []

/-- `decode_standard_live_packet`. -/
def decodeStandardLivePacket (packet : List UInt8)
    (cashReferences : List DhanInstrumentReference) : Except LiveError (List MarketData) :=
  if packet.length < headerSize then .error .normalization
  else if messageLength packet ≠ packet.length ∨ knownSegment (exchangeSegmentCode packet) = false then
    .error .normalization
  else if responseCode packet = feedDisconnectResponseCode then
    -- `_decode_feed_disconnect_packet` checks the length, then the packet is raised as an error
    if packet.length ≠ headerSize + feedDisconnectPayloadSize then .error .normalization
    else .error .feedDisconnected
  else if headerSecurityId packet ≤ 0 then .error .normalization
  else do
    let reference ← resolveReference cashReferences (exchangeSegmentCode packet)
      (headerSecurityId packet)
    if responseCode packet = quoteResponseCode then decodeQuotePacket packet reference
    else if responseCode packet = fullResponseCode then decodeFullPacket packet reference
    else if responseCode packet = previousCloseResponseCode then
      decodePreviousClosePacket packet reference
    else .error .unsupportedProviderRequest

/-! ## Framing -/

/-- The length of the packet at the head of what remains of a message; `none` where it cannot be
    delimited. -/
def packetSize (remaining : List UInt8) : Option ℕ :=
  if remaining.length < headerSize then none
  else if messageLength remaining < headerSize then none
  else if remaining.length < messageLength remaining then none
  else some (messageLength remaining).toNat

/-- `iter_standard_live_packets`; `raise` is the `NormalizationError` at a boundary that cannot be
    delimited. -/
def iterStandardLivePackets (message : List UInt8) : Frames UInt8 := framesOf packetSize message

theorem packetSize_pos (remaining : List UInt8) (n : ℕ) (h : packetSize remaining = some n) :
    0 < n := by
  unfold packetSize at h
  split at h
  · cases h
  · split at h
    · cases h
    · split at h
      · cases h
      · rename_i hsize _
        have hn := Option.some.inj h
        unfold headerSize at hsize
        omega

/-- Every message is cut into packets and a tail, and no byte is lost. -/
theorem exists_delimits (message : List UInt8) :
    ∃ packets tail, Delimits packetSize message packets tail ∧ packets.flatten ++ tail = message := by
  obtain ⟨tail, h⟩ := delimits_framesOf packetSize_pos message
  exact ⟨_, tail, h, h.flatten⟩

/-! ## The cases of the decoder -/

/-- A well-formed feed disconnect. -/
def IsFeedDisconnect (packet : List UInt8) : Prop :=
  responseCode packet = feedDisconnectResponseCode ∧
    packet.length = headerSize + feedDisconnectPayloadSize ∧
    messageLength packet = packet.length ∧ knownSegment (exchangeSegmentCode packet) = true

instance : DecidablePred IsFeedDisconnect := fun _ => inferInstanceAs (Decidable (_ ∧ _))

variable {packet : List UInt8} {cashReferences : List DhanInstrumentReference}
  {reference : DhanInstrumentReference} {events : List MarketData}

/-- A header that the decoder goes on from. -/
structure Addressed (packet : List UInt8) : Prop where
  length : headerSize ≤ packet.length
  messageLength : messageLength packet = packet.length
  segment : knownSegment (exchangeSegmentCode packet) = true
  code : responseCode packet ≠ feedDisconnectResponseCode
  securityId : 0 < headerSecurityId packet

/-- The decoder of a packet of a supported kind, by its response code. -/
def decodePayload (packet : List UInt8) (reference : DhanInstrumentReference) :
    Except LiveError (List MarketData) :=
  if responseCode packet = quoteResponseCode then decodeQuotePacket packet reference
  else if responseCode packet = fullResponseCode then decodeFullPacket packet reference
  else if responseCode packet = previousCloseResponseCode then
    decodePreviousClosePacket packet reference
  else .error .unsupportedProviderRequest

/-- What the decoder does with a packet: raise the disconnect, refuse the header, or decode the
    payload for the resolved instrument. -/
theorem decode_cases (packet : List UInt8) (cashReferences : List DhanInstrumentReference) :
    (IsFeedDisconnect packet ∧
        decodeStandardLivePacket packet cashReferences = .error .feedDisconnected) ∨
      (¬ IsFeedDisconnect packet ∧ ¬ Addressed packet ∧
        decodeStandardLivePacket packet cashReferences = .error .normalization) ∨
      (Addressed packet ∧ decodeStandardLivePacket packet cashReferences =
        resolveReference cashReferences (exchangeSegmentCode packet) (headerSecurityId packet) >>=
          decodePayload packet) := by
  unfold decodeStandardLivePacket
  split
  · rename_i hshort
    refine Or.inr (Or.inl ⟨?_, ?_, rfl⟩)
    · rintro ⟨_, hlength, _⟩
      unfold headerSize feedDisconnectPayloadSize at *
      omega
    · intro haddressed
      have := haddressed.length
      omega
  · rename_i hlength
    split
    · rename_i hheader
      refine Or.inr (Or.inl ⟨?_, ?_, rfl⟩)
      · rintro ⟨_, _, hmessage, hsegment⟩
        simp [hmessage, hsegment] at hheader
      · intro haddressed
        simp [haddressed.messageLength, haddressed.segment] at hheader
    · rename_i hheader
      rw [not_or, not_not, Bool.not_eq_false] at hheader
      split
      · rename_i hcode
        have haddressed : ¬ Addressed packet := fun h => h.code hcode
        split
        · rename_i hpayload
          exact Or.inr (Or.inl ⟨fun h => hpayload h.2.1, haddressed, rfl⟩)
        · rename_i hpayload
          exact Or.inl ⟨⟨hcode, not_not.mp hpayload, hheader⟩, rfl⟩
      · rename_i hcode
        split
        · rename_i hid
          refine Or.inr (Or.inl ⟨fun h => hcode h.1, ?_, rfl⟩)
          intro haddressed
          have := haddressed.securityId
          omega
        · rename_i hid
          exact Or.inr (Or.inr ⟨⟨not_lt.mp hlength, hheader.1, hheader.2, hcode, not_le.mp hid⟩, rfl⟩)

/-! ## What the decoder raises -/

theorem resolveReference_ne_disconnected (segmentCode : ℕ) (securityId : Int) :
    resolveReference cashReferences segmentCode securityId ≠ .error .feedDisconnected := by
  induction cashReferences with
  | nil =>
    intro h
    cases h
  | cons reference rest ih =>
    unfold resolveReference
    split
    · exact ih
    · split
      · intro h
        cases h
      · split
        · intro h
          cases h
        · exact ih

/-- The shape of every payload decoder: a length that is checked, and a normalized body. -/
theorem normalizing_ne_disconnected {α : Type} (p : Prop) [Decidable p] (x : Option α) :
    (if p then Except.error .normalization else normalizing x) ≠ .error .feedDisconnected := by
  split
  · intro h
    cases h
  · cases x <;> simp [normalizing]

theorem decodePayload_ne_disconnected :
    decodePayload packet reference ≠ .error .feedDisconnected := by
  unfold decodePayload decodeQuotePacket decodeFullPacket decodePreviousClosePacket
  split
  · exact normalizing_ne_disconnected _ _
  · split
    · exact normalizing_ne_disconnected _ _
    · split
      · exact normalizing_ne_disconnected _ _
      · intro h
        cases h

/-- **The decoder raises the feed disconnect on well-formed feed disconnects and nothing else.** -/
theorem decode_eq_disconnected_iff (packet : List UInt8)
    (cashReferences : List DhanInstrumentReference) :
    decodeStandardLivePacket packet cashReferences = .error .feedDisconnected ↔
      IsFeedDisconnect packet := by
  rcases decode_cases packet cashReferences with
    ⟨hdisconnect, hdecode⟩ | ⟨hdisconnect, _, hdecode⟩ | ⟨haddressed, hdecode⟩
  · exact iff_of_true hdecode hdisconnect
  · refine iff_of_false ?_ hdisconnect
    rw [hdecode]
    intro h
    cases h
  · refine iff_of_false ?_ (fun h => haddressed.code h.1)
    rw [hdecode]
    intro h
    cases hresolve : resolveReference cashReferences (exchangeSegmentCode packet)
        (headerSecurityId packet) with
    | error error =>
      rw [hresolve] at h
      have herror : error = .feedDisconnected := Except.error.inj h
      exact resolveReference_ne_disconnected _ _ (herror ▸ hresolve)
    | ok reference =>
      rw [hresolve, ok_bind] at h
      exact decodePayload_ne_disconnected h

/-! ## What the decoder returns -/

theorem normalizing_eq_ok {α : Type} {x : Option α} {a : α} :
    normalizing x = .ok a ↔ x = some a := by
  cases x <;> simp [normalizing]

theorem requireNonnegativeFinite_eq_some {value : Option ℚ} {x : ℚ} :
    requireNonnegativeFinite value = some x ↔ value = some x ∧ 0 ≤ x := by
  unfold requireNonnegativeFinite
  cases value with
  | none => simp
  | some y =>
    show (if y < 0 then none else some y) = some x ↔ some y = some x ∧ 0 ≤ x
    split
    · rename_i hneg
      constructor
      · intro h
        cases h
      · rintro ⟨h, hx⟩
        cases h
        exact absurd hx (not_le.mpr hneg)
    · rename_i hneg
      constructor
      · intro h
        cases h
        exact ⟨rfl, not_lt.mp hneg⟩
      · exact fun h => h.1

/-- What decoding a packet takes: a good header, a known instrument and a good payload. -/
theorem decode_eq_ok_iff :
    decodeStandardLivePacket packet cashReferences = .ok events ↔
      Addressed packet ∧ ∃ reference,
        resolveReference cashReferences (exchangeSegmentCode packet) (headerSecurityId packet) =
          .ok reference ∧ decodePayload packet reference = .ok events := by
  rcases decode_cases packet cashReferences with
    ⟨hdisconnect, hdecode⟩ | ⟨_, haddressed, hdecode⟩ | ⟨haddressed, hdecode⟩
  · rw [hdecode]
    exact iff_of_false (fun h => nomatch h) (fun h => h.1.code hdisconnect.1)
  · rw [hdecode]
    exact iff_of_false (fun h => nomatch h) (fun h => haddressed h.1)
  · rw [hdecode, bind_eq_ok]
    exact ⟨fun h => ⟨haddressed, h⟩, fun h => h.2⟩

/-- A quote packet gives a tick. -/
theorem decodeQuotePacket_eq_ok (h : decodeQuotePacket packet reference = .ok events) :
    ∃ t : Tick, events = [.tick t] := by
  unfold decodeQuotePacket at h
  split at h
  · cases h
  · rw [normalizing_eq_ok] at h
    simp only [Option.bind_eq_bind, Option.bind_eq_some_iff] at h
    obtain ⟨_, _, _, _, _, _, _, _, _, _, _, _, _, _, _, _, h⟩ := h
    cases h
    exact ⟨_, rfl⟩

/-- A full packet gives a tick, a quote and a depth snapshot. -/
theorem decodeFullPacket_eq_ok (h : decodeFullPacket packet reference = .ok events) :
    ∃ (t : Tick) (q : Quote) (d : DepthSnapshot), events = [.tick t, .quote q, .depth d] := by
  unfold decodeFullPacket at h
  split at h
  · cases h
  · rw [normalizing_eq_ok] at h
    simp only [Option.bind_eq_bind, Option.bind_eq_some_iff] at h
    obtain ⟨_, _, _, _, _, _, _, _, _, _, _, _, _, _, _, _, levels, _, h⟩ := h
    split at h
    · cases h
    · split at h
      · cases h
        exact ⟨_, _, _, rfl⟩
      · cases h

/-- A previous-close payload with a close. -/
structure CarriesPreviousClose (packet : List UInt8) : Prop where
  code : responseCode packet = previousCloseResponseCode
  length : packet.length = headerSize + previousClosePayloadSize
  previousClose : ∃ x, singleAt packet 8 = some x ∧ 0 < x
  openInterest : 0 ≤ integerAt packet 12 4

theorem decodePreviousClosePacket_eq_ok (h : decodePreviousClosePacket packet reference = .ok events) :
    events = [] ∨ ∃ r : MarketReference, events = [.reference r] ∧
      r.instrument = reference.instrument ∧
      packet.length = headerSize + previousClosePayloadSize ∧
      (∃ x, singleAt packet 8 = some x ∧ 0 < x) ∧ 0 ≤ integerAt packet 12 4 := by
  unfold decodePreviousClosePacket at h
  split at h
  · cases h
  · rename_i hlength
    rw [normalizing_eq_ok] at h
    simp only [Option.bind_eq_bind, Option.bind_eq_some_iff, requireNonnegativeFinite_eq_some] at h
    obtain ⟨x, ⟨hx, _⟩, _, hinterest, h⟩ := h
    split at h
    · rename_i hpos
      cases h
      have hnonneg : 0 ≤ integerAt packet 12 4 := by
        simpa [requireNonnegativeIntegral] using hinterest
      exact Or.inr ⟨_, rfl, rfl, not_not.mp hlength, ⟨x, hx, hpos⟩, hnonneg⟩
    · cases h
      exact Or.inl rfl

theorem decodePreviousClosePacket_of_carries (reference : DhanInstrumentReference)
    (h : CarriesPreviousClose packet) :
    ∃ r : MarketReference, decodePreviousClosePacket packet reference = .ok [.reference r] ∧
      r.instrument = reference.instrument := by
  obtain ⟨x, hx, hpos⟩ := h.previousClose
  have hinterest : requireNonnegativeIntegral [integerAt packet 12 4] = some () := by
    simpa [requireNonnegativeIntegral] using h.openInterest
  have hclose := requireNonnegativeFinite_eq_some.mpr ⟨hx, hpos.le⟩
  refine ⟨⟨reference.instrument, decimal ⟨x, hpos⟩⟩, ?_, rfl⟩
  unfold decodePreviousClosePacket
  rw [if_neg (not_not.mpr h.length), normalizing_eq_ok]
  simp only [hclose, hinterest, Option.bind_eq_bind, Option.bind_some, dif_pos hpos]
  rfl

/-- An addressed previous-close packet with a close, for `instrument`. -/
def CarriesReference (cashReferences : List DhanInstrumentReference) (packet : List UInt8)
    (instrument : Instrument) : Prop :=
  Addressed packet ∧ CarriesPreviousClose packet ∧ ∃ reference,
    resolveReference cashReferences (exchangeSegmentCode packet) (headerSecurityId packet) =
      .ok reference ∧ reference.instrument = instrument

/-- **The packets that decode to a session reference of an instrument.** -/
theorem decodes_reference_iff (instrument : Instrument) :
    (∃ events r, decodeStandardLivePacket packet cashReferences = .ok events ∧
        MarketData.reference r ∈ events ∧ r.instrument = instrument) ↔
      CarriesReference cashReferences packet instrument := by
  constructor
  · rintro ⟨events, r, hdecode, hmem, hr⟩
    obtain ⟨haddressed, reference, hresolve, hpayload⟩ := decode_eq_ok_iff.mp hdecode
    unfold decodePayload at hpayload
    split at hpayload
    · obtain ⟨_, rfl⟩ := decodeQuotePacket_eq_ok hpayload
      simp at hmem
    · split at hpayload
      · obtain ⟨_, _, _, rfl⟩ := decodeFullPacket_eq_ok hpayload
        simp at hmem
      · split at hpayload
        · rename_i hcode
          rcases decodePreviousClosePacket_eq_ok hpayload with
            rfl | ⟨r', rfl, hr', hlength, hclose, hinterest⟩
          · simp at hmem
          · rw [List.mem_singleton, MarketData.reference.injEq] at hmem
            subst hmem
            exact ⟨haddressed, ⟨hcode, hlength, hclose, hinterest⟩, reference, hresolve,
              hr'.symm.trans hr⟩
        · cases hpayload
  · rintro ⟨haddressed, hcarries, reference, hresolve, hreference⟩
    obtain ⟨r, hr, hinstrument⟩ := decodePreviousClosePacket_of_carries reference hcarries
    refine ⟨[.reference r], r, ?_, List.mem_singleton_self _, hinstrument.trans hreference⟩
    rw [decode_eq_ok_iff]
    refine ⟨haddressed, reference, hresolve, ?_⟩
    rw [decodePayload, hcarries.code, if_neg (by decide), if_neg (by decide), if_pos rfl]
    exact hr

end ApexScan.Dhan
