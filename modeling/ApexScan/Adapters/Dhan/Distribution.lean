import ApexScan.Adapters.Dhan.Live
import ApexScan.Engine.TickEngine

/-!
# Distribution of live packets (`app/adapters/dhan/adapter.py`)

One shared receive loop reads a message, decodes its stacked packets and appends the events to the
buffer of every consumer whose request matches.  Packets are decoded lazily while the message is cut,
and nothing is distributed before the last of them: a feed disconnect leaves the call with an
exception, and the events decoded so far go with it.

* `distributeLivePacket` — the call, with its decode counters and its freshness window.
* `decodedEvents` — the events that the packets of a message decode to, in wire order.
* `distribute_quiet`, `distribute_disconnected` — what a call does without and with a disconnect.
* `DeliversStacked` — every consumer gains exactly the decoded events that it requested.
* `Owed`, `ReachesConsumers` — every consumer gains every decoded event that it is owed, session
  references included.

Main results: `stacked_delivery_iff` and `reaches_consumers_iff`, over every message and every set of
consumers.  `disconnect_drops_tick` and `previous_close_not_delivered` are two messages whose events
reach nobody.

The raw-LTT recorder that `_decode_one_packet` feeds is not modelled: it only observes the packet.
-/

set_option autoImplicit false

namespace ApexScan.Dhan

open Lib

/-! ## Decode counters -/

/-- The values of `_DECODE_FAILURE_KINDS`. -/
inductive DecodeFailure where
  | normalization
  | unsupportedCode
  | unknownReference
  deriving DecidableEq, Repr

/-- `_DECODE_FAILURE_KINDS`: the errors that discard a packet; a feed disconnect is not one. -/
def decodeFailureKind : LiveError → Option DecodeFailure
  | .normalization => some .normalization
  | .unsupportedProviderRequest => some .unsupportedCode
  | .unknownProviderReference => some .unknownReference
  | .feedDisconnected => none

/-- `_DECODE_MAX_LENGTH_KEYS`. -/
def decodeMaxLengthKeys : ℕ := 32

structure DhanLiveDecodeCounters where
  messagesTotal : ℕ := 0
  framingFailures : ℕ := 0
  framesTotal : ℕ := 0
  decodedTotal : ℕ := 0
  nonBinary : ℕ := 0
  prevCloseSeen : ℕ := 0
  prevCloseFailed : ℕ := 0
  byRc : Dict ℕ ℕ := []
  failByRc : Dict ℕ ℕ := []
  failByLen : Dict String ℕ := []
  failureKinds : Dict DecodeFailure ℕ :=
    [(.normalization, 0), (.unsupportedCode, 0), (.unknownReference, 0)]

namespace DhanLiveDecodeCounters

/-- `table[key] = table.get(key, 0) + 1`. -/
def bump {κ : Type} [DecidableEq κ] (table : Dict κ ℕ) (key : κ) : Dict κ ℕ :=
  table.set key ((table.get key).getD 0 + 1)

def recordMessage (c : DhanLiveDecodeCounters) : DhanLiveDecodeCounters :=
  { c with messagesTotal := c.messagesTotal + 1 }

def recordFramingFailure (c : DhanLiveDecodeCounters) : DhanLiveDecodeCounters :=
  { c with framingFailures := c.framingFailures + 1 }

def recordNonBinary (c : DhanLiveDecodeCounters) : DhanLiveDecodeCounters :=
  { c with nonBinary := c.nonBinary + 1 }

/-- `_peek`, the response code. -/
def peek (packet : List UInt8) : Option ℕ :=
  if packet.length < headerSize then none else some (responseCode packet)

/-- `_record_length`; further lengths are counted together once the table is full. -/
def recordLength (c : DhanLiveDecodeCounters) (length : ℕ) : DhanLiveDecodeCounters :=
  let label := toString length
  let full := (c.failByLen.get label).isNone && decodeMaxLengthKeys ≤ c.failByLen.length
  { c with failByLen := bump c.failByLen (if full then "other" else label) }

/-- The part of `record` that every packet takes. -/
def recordSeen (c : DhanLiveDecodeCounters) (packet : List UInt8) : DhanLiveDecodeCounters :=
  let c := { c with framesTotal := c.framesTotal + 1 }
  match peek packet with
  | none => c
  | some code =>
    { c with
      byRc := bump c.byRc code
      prevCloseSeen :=
        if code = previousCloseResponseCode then c.prevCloseSeen + 1 else c.prevCloseSeen }

/-- `record`; `none` is the kind "decoded". -/
def record (c : DhanLiveDecodeCounters) (packet : List UInt8) (kind : Option DecodeFailure) :
    DhanLiveDecodeCounters :=
  let c := c.recordSeen packet
  match kind with
  | none => { c with decodedTotal := c.decodedTotal + 1 }
  | some failure =>
    let c := { c with failureKinds := bump c.failureKinds failure }
    let c :=
      match peek packet with
      | none => c
      | some code =>
        { c with
          failByRc := bump c.failByRc code
          prevCloseFailed :=
            if code = previousCloseResponseCode then c.prevCloseFailed + 1 else c.prevCloseFailed }
    c.recordLength packet.length

end DhanLiveDecodeCounters

/-! ## The adapter -/

/-- A frame of the socket, `bytes | str`. -/
inductive LiveMessage where
  | bytes (message : List UInt8)
  | text (message : String)

/-- One registered consumer with its own ordered buffer. -/
structure LiveConsumer where
  sequence : ℕ
  request : SubscriptionRequest
  buffer : List MarketData := []

/-- The part of `DhanRestAdapter` that the receive loop uses. -/
structure DhanRestAdapter where
  liveConsumers : Dict ℕ LiveConsumer := []
  liveCashReferences : List DhanInstrumentReference := []
  decodeCounters : DhanLiveDecodeCounters := {}
  lastValidEventAt : Option ℚ := none
  suspectStaleLogged : Bool := false

/-- `event.instrument`. -/
def eventInstrument : MarketData → Instrument
  | .tick t => t.instrument
  | .quote q => q.instrument
  | .depth d => d.instrument
  | .candle c => c.instrument
  | .reference r => r.instrument

/-- `_event_matches_request`. -/
def eventMatchesRequest (event : MarketData) (request : SubscriptionRequest) : Bool :=
  if eventInstrument event ∉ request.instruments then false
  else
    match event with
    | .candle _ => decide (.candle ∈ request.dataTypes)
    | .tick _ => decide (.tick ∈ request.dataTypes)
    | .quote _ => decide (.quote ∈ request.dataTypes)
    | .depth _ => decide (.depth ∈ request.dataTypes)
    | .reference _ => false

/-- `_decode_one_packet`. -/
def decodeOnePacket (cashReferences : List DhanInstrumentReference) (c : DhanLiveDecodeCounters)
    (packet : List UInt8) : DhanLiveDecodeCounters × Except LiveError (List MarketData) :=
  match decodeStandardLivePacket packet cashReferences with
  | .ok events => (c.record packet none, .ok events)
  | .error error =>
    match decodeFailureKind error with
    | some kind => (c.record packet (some kind), .ok [])
    -- a `ConnectionError` is not caught, and not counted
    | none => (c, .error error)

/-- The loop of `_decode_live_frame` over the generator of packets. -/
def decodePackets (cashReferences : List DhanInstrumentReference) (c : DhanLiveDecodeCounters)
    (events : List MarketData) :
    Frames UInt8 → DhanLiveDecodeCounters × Except LiveError (List MarketData)
  | .stop => (c, .ok events)
  | .raise => (c.recordFramingFailure, .ok events)
  | .yield packet rest =>
    match decodeOnePacket cashReferences c packet with
    | (c, .ok decoded) => decodePackets cashReferences c (events ++ decoded) rest
    | (c, .error error) => (c, .error error)

/-- `_decode_live_frame`; `none` for a non-binary message. -/
def decodeLiveFrame (cashReferences : List DhanInstrumentReference) (c : DhanLiveDecodeCounters) :
    LiveMessage → DhanLiveDecodeCounters × Except LiveError (Option (List MarketData))
  | .text _ => (c.recordMessage.recordNonBinary, .ok none)
  | .bytes message =>
    let (c, decoded) :=
      decodePackets cashReferences c.recordMessage [] (iterStandardLivePackets message)
    (c, some <$> decoded)

/-- One event into the buffer of one consumer. -/
def LiveConsumer.offer (consumer : LiveConsumer) (event : MarketData) : LiveConsumer :=
  if eventMatchesRequest event consumer.request then
    { consumer with buffer := consumer.buffer ++ [event] }
  else consumer

namespace DhanRestAdapter

/-- `_distribute_live_packet`; `now` is the reading of the live clock. -/
def distributeLivePacket (a : DhanRestAdapter) (message : LiveMessage) (now : ℚ) :
    DhanRestAdapter × Except LiveError Unit :=
  let (decodeCounters, decoded) := decodeLiveFrame a.liveCashReferences a.decodeCounters message
  let a := { a with decodeCounters }
  match decoded with
  | .error error => (a, .error error)
  | .ok none => (a, .ok ())
  | .ok (some events) =>
    let a :=
      if events.isEmpty then a
      else { a with lastValidEventAt := some now, suspectStaleLogged := false }
    ({ a with
       liveConsumers := events.foldl
         (fun consumers event => consumers.mapItems (fun _ consumer => consumer.offer event))
         a.liveConsumers }, .ok ())

end DhanRestAdapter

/-! ## What a message decodes to -/

/-- The events of a packet; none where it does not decode. -/
def decodedOf (cashReferences : List DhanInstrumentReference) (packet : List UInt8) :
    List MarketData :=
  match decodeStandardLivePacket packet cashReferences with
  | .ok events => events
  | .error _ => []

/-- The events of packets that decode, in wire order. -/
def decodedEvents (cashReferences : List DhanInstrumentReference) (packets : List (List UInt8)) :
    List MarketData :=
  packets.flatMap (decodedOf cashReferences)

section

variable (cashReferences : List DhanInstrumentReference)

/-- A packet is decoded or discarded, unless it is a feed disconnect. -/
theorem decodeOnePacket_snd (c : DhanLiveDecodeCounters) (packet : List UInt8) :
    (decodeOnePacket cashReferences c packet).2 =
      if IsFeedDisconnect packet then .error .feedDisconnected
      else .ok (decodedOf cashReferences packet) := by
  have hiff := decode_eq_disconnected_iff packet cashReferences
  unfold decodeOnePacket decodedOf
  cases hdecode : decodeStandardLivePacket packet cashReferences with
  | ok events =>
    have hnot : ¬ IsFeedDisconnect packet := by
      rw [← hiff, hdecode]
      intro h
      cases h
    rw [if_neg hnot]
  | error error =>
    rw [hdecode, Except.error.injEq] at hiff
    cases error with
    | feedDisconnected =>
      rw [if_pos (hiff.mp rfl)]
      rfl
    | normalization | unsupportedProviderRequest | unknownProviderReference =>
      rw [if_neg (fun h => nomatch hiff.mpr h)]
      rfl

/-- Without a feed disconnect the loop collects every packet's events. -/
theorem decodePackets_quiet (c : DhanLiveDecodeCounters) (events : List MarketData)
    (frames : Frames UInt8) (h : ∀ packet ∈ frames.toList, ¬ IsFeedDisconnect packet) :
    (decodePackets cashReferences c events frames).2 =
      .ok (events ++ decodedEvents cashReferences frames.toList) := by
  induction frames generalizing c events with
  | stop => simp [decodePackets, decodedEvents, Frames.toList]
  | raise => simp [decodePackets, decodedEvents, Frames.toList]
  | yield packet rest ih =>
    have hpacket := h packet (List.mem_cons_self ..)
    have hrest : ∀ p ∈ rest.toList, ¬ IsFeedDisconnect p :=
      fun p hp => h p (List.mem_cons_of_mem _ hp)
    have hsnd := decodeOnePacket_snd cashReferences c packet
    rw [if_neg hpacket] at hsnd
    unfold decodePackets
    split
    · rename_i hone
      rw [hone] at hsnd
      rw [ih _ _ hrest, Except.ok.inj hsnd]
      simp [decodedEvents, Frames.toList]
    · rename_i hone
      rw [hone] at hsnd
      cases hsnd

/-- A feed disconnect leaves the loop, whatever came before it. -/
theorem decodePackets_disconnected (c : DhanLiveDecodeCounters) (events : List MarketData)
    (frames : Frames UInt8) (h : ∃ packet ∈ frames.toList, IsFeedDisconnect packet) :
    (decodePackets cashReferences c events frames).2 = .error .feedDisconnected := by
  induction frames generalizing c events with
  | stop =>
    obtain ⟨_, hmem, _⟩ := h
    cases hmem
  | raise =>
    obtain ⟨_, hmem, _⟩ := h
    cases hmem
  | yield packet rest ih =>
    have hsnd := decodeOnePacket_snd cashReferences c packet
    unfold decodePackets
    split
    · rename_i hone
      rw [hone] at hsnd
      apply ih
      obtain ⟨p, hmem, hp⟩ := h
      rcases List.mem_cons.mp hmem with rfl | hmem
      · rw [if_pos hp] at hsnd
        cases hsnd
      · exact ⟨p, hmem, hp⟩
    · rename_i hone
      rw [hone] at hsnd
      split at hsnd
      · exact hsnd
      · cases hsnd

end

/-! ## Fan-out -/

/-- The kind under which a consumer requests an event; a session reference has none. -/
def kindOf : MarketData → Option MarketDataKind
  | .tick _ => some .tick
  | .quote _ => some .quote
  | .depth _ => some .depth
  | .candle _ => some .candle
  | .reference _ => none

/-- The event is of a requested instrument and a requested kind. -/
def Requested (request : SubscriptionRequest) (event : MarketData) : Prop :=
  eventInstrument event ∈ request.instruments ∧ ∃ kind ∈ kindOf event, kind ∈ request.dataTypes

theorem eventMatchesRequest_iff (event : MarketData) (request : SubscriptionRequest) :
    eventMatchesRequest event request = true ↔ Requested request event := by
  unfold eventMatchesRequest Requested
  split
  · rename_i hinstrument
    simp [hinstrument]
  · rename_i hinstrument
    rw [not_not] at hinstrument
    cases event <;> simp [kindOf, hinstrument]

instance (request : SubscriptionRequest) : DecidablePred (Requested request) :=
  fun event => decidable_of_iff _ (eventMatchesRequest_iff event request)

/-- The events appended to a buffer. -/
def LiveConsumer.gain (consumer : LiveConsumer) (events : List MarketData) : LiveConsumer :=
  { consumer with buffer := consumer.buffer ++ events }

theorem LiveConsumer.gain_eq_self_iff {consumer : LiveConsumer} {events : List MarketData} :
    consumer.gain events = consumer ↔ events = [] := by
  constructor
  · intro h
    have hbuffer := congrArg LiveConsumer.buffer h
    simpa [LiveConsumer.gain] using hbuffer
  · rintro rfl
    simp [LiveConsumer.gain]

theorem foldl_offer (events : List MarketData) (consumer : LiveConsumer) :
    events.foldl LiveConsumer.offer consumer =
      consumer.gain (events.filter (Requested consumer.request)) := by
  induction events generalizing consumer with
  | nil => simp [LiveConsumer.gain]
  | cons event events ih =>
    rw [List.foldl_cons, ih, LiveConsumer.offer]
    by_cases hevent : Requested consumer.request event
    · rw [if_pos ((eventMatchesRequest_iff _ _).mpr hevent)]
      simp [LiveConsumer.gain, hevent]
    · rw [if_neg (fun h => hevent ((eventMatchesRequest_iff _ _).mp h))]
      simp [LiveConsumer.gain, hevent]

/-- Offering event by event to all consumers offers all events to each. -/
theorem foldl_mapItems_offer (events : List MarketData) (consumers : Dict ℕ LiveConsumer) :
    events.foldl (fun consumers event => consumers.mapItems (fun _ c => c.offer event)) consumers =
      consumers.mapItems (fun _ c => c.gain (events.filter (Requested c.request))) := by
  have hfold : events.foldl
      (fun consumers event => Dict.mapItems consumers (fun _ c => c.offer event)) consumers =
        consumers.mapItems (fun _ c => events.foldl LiveConsumer.offer c) := by
    induction events generalizing consumers with
    | nil => simp [Dict.mapItems]
    | cons event events ih =>
      rw [List.foldl_cons, ih]
      simp [Dict.mapItems]
  rw [hfold]
  simp only [foldl_offer]

/-! ## What a call does -/

section

variable (a : DhanRestAdapter) (now : ℚ) {message tail : List UInt8} {packets : List (List UInt8)}

/-- Without a feed disconnect every consumer gains the decoded events that it requested. -/
theorem distribute_quiet (h : Delimits packetSize message packets tail)
    (hquiet : ∀ packet ∈ packets, ¬ IsFeedDisconnect packet) :
    (a.distributeLivePacket (.bytes message) now).1.liveConsumers =
        a.liveConsumers.mapItems (fun _ c =>
          c.gain ((decodedEvents a.liveCashReferences packets).filter (Requested c.request))) ∧
      (a.distributeLivePacket (.bytes message) now).2 = .ok () := by
  have hframes : (iterStandardLivePackets message).toList = packets :=
    toList_framesOf packetSize_pos h
  have hdecode := decodePackets_quiet a.liveCashReferences a.decodeCounters.recordMessage []
    (iterStandardLivePackets message) (hframes ▸ hquiet)
  rw [hframes, List.nil_append] at hdecode
  unfold DhanRestAdapter.distributeLivePacket decodeLiveFrame
  simp only [hdecode, Functor.map, Except.map]
  refine ⟨?_, trivial⟩
  rw [foldl_mapItems_offer]
  split <;> rfl

/-- A feed disconnect anywhere in the message leaves every buffer as it was. -/
theorem distribute_disconnected (h : Delimits packetSize message packets tail)
    (hdisconnect : ∃ packet ∈ packets, IsFeedDisconnect packet) :
    (a.distributeLivePacket (.bytes message) now).1.liveConsumers = a.liveConsumers ∧
      (a.distributeLivePacket (.bytes message) now).2 = .error .feedDisconnected := by
  have hframes : (iterStandardLivePackets message).toList = packets :=
    toList_framesOf packetSize_pos h
  have hdecode := decodePackets_disconnected a.liveCashReferences a.decodeCounters.recordMessage []
    (iterStandardLivePackets message) (hframes ▸ hdisconnect)
  unfold DhanRestAdapter.distributeLivePacket decodeLiveFrame
  simp only [hdecode, Functor.map, Except.map]
  exact ⟨trivial, trivial⟩

end

/-! ## Stacked packets -/

/-- Every consumer gains exactly the events decoded from the packets of the message that it
    requested, in wire order, and the call raises exactly where one of them is a feed disconnect. -/
structure DeliversStacked (a : DhanRestAdapter) (message : List UInt8)
    (packets : List (List UInt8)) (now : ℚ) : Prop where
  buffers : (a.distributeLivePacket (.bytes message) now).1.liveConsumers =
    a.liveConsumers.mapItems (fun _ c =>
      c.gain ((decodedEvents a.liveCashReferences packets).filter (Requested c.request)))
  raises : (a.distributeLivePacket (.bytes message) now).2 = .error .feedDisconnected ↔
    ∃ packet ∈ packets, IsFeedDisconnect packet

/-- No consumer requested an event of these packets. -/
def Unrequested (a : DhanRestAdapter) (packets : List (List UInt8)) : Prop :=
  ∀ kv ∈ a.liveConsumers, ∀ event ∈ decodedEvents a.liveCashReferences packets,
    ¬ Requested kv.2.request event

theorem mapItems_gain_eq_self_iff {a : DhanRestAdapter} {packets : List (List UInt8)} :
    a.liveConsumers.mapItems (fun _ c =>
        c.gain ((decodedEvents a.liveCashReferences packets).filter (Requested c.request))) =
      a.liveConsumers ↔ Unrequested a packets := by
  rw [Dict.mapItems_eq_self_iff]
  apply forall₂_congr
  intro kv _
  rw [LiveConsumer.gain_eq_self_iff, List.filter_eq_nil_iff]
  simp only [decide_eq_true_eq]

/-- **Stacked packets are delivered exactly where no packet is a feed disconnect, or nobody
    requested what they decode to.**  A disconnect discards the events of every other packet of the
    message, those before it included. -/
theorem stacked_delivery_iff (a : DhanRestAdapter) (message : List UInt8) (now : ℚ)
    (packets : List (List UInt8)) (tail : List UInt8)
    (h : Delimits packetSize message packets tail) :
    DeliversStacked a message packets now ↔
      (∀ packet ∈ packets, ¬ IsFeedDisconnect packet) ∨ Unrequested a packets := by
  by_cases hdisconnect : ∃ packet ∈ packets, IsFeedDisconnect packet
  · obtain ⟨hbuffers, hraises⟩ := distribute_disconnected a now h hdisconnect
    constructor
    · intro hdelivers
      have hself := hdelivers.buffers
      rw [hbuffers] at hself
      exact Or.inr (mapItems_gain_eq_self_iff.mp hself.symm)
    · rintro (hquiet | hnone)
      · obtain ⟨packet, hmem, hpacket⟩ := hdisconnect
        exact absurd hpacket (hquiet packet hmem)
      · refine ⟨?_, ?_⟩
        · rw [hbuffers]
          exact (mapItems_gain_eq_self_iff.mpr hnone).symm
        · exact iff_of_true hraises hdisconnect
  · have hquiet : ∀ packet ∈ packets, ¬ IsFeedDisconnect packet :=
      fun packet hmem hpacket => hdisconnect ⟨packet, hmem, hpacket⟩
    obtain ⟨hbuffers, hreturns⟩ := distribute_quiet a now h hquiet
    refine iff_of_true ⟨hbuffers, ?_⟩ (Or.inl hquiet)
    rw [hreturns]
    exact iff_of_false (fun h => nomatch h) hdisconnect

/-- A consumer of ticks of one instrument, and the reference of that instrument. -/
def sampleAdapter : DhanRestAdapter :=
  { liveConsumers :=
      [(0, { sequence := 0
             request :=
               { instruments := [reliance]
                 dataTypes := {.tick}
                 instruments_ne := reliance_ne_nil
                 instruments_nodup := List.nodup_singleton _
                 dataTypes_ne := Finset.singleton_nonempty _ } })]
    liveCashReferences :=
      [{ instrument := reliance, securityId := "2885", exchangeSegment := some "NSE_EQ" }] }

/-- A price of 100. -/
def samplePriceBytes : List UInt8 := [0, 0, 0xC8, 0x42]

/-- A quote packet of a security at one price. -/
def quotePacket (security price : List UInt8) : List UInt8 :=
  [4, 50, 0, 1] ++ security ++ price ++ [1, 0] ++ [0, 0xF1, 0x53, 0x65] ++ price ++ [1, 0, 0, 0] ++
    [0, 0, 0, 0] ++ [0, 0, 0, 0] ++ price ++ price ++ price ++ price

/-- A quote packet of security 2885. -/
def sampleQuotePacket : List UInt8 := quotePacket [0x45, 0x0B, 0, 0] samplePriceBytes

def sampleDisconnectPacket : List UInt8 := [50, 10, 0, 1, 0, 0, 0, 0, 0x25, 0x03]

theorem delimits_single (packet : List UInt8) (hne : packet ≠ [])
    (hsize : packetSize packet = some packet.length) :
    Delimits packetSize packet [packet] [] := by
  have hframe := Delimits.frame hne hsize
    (by rw [List.drop_length]; exact Delimits.empty)
  rwa [List.take_length] at hframe

/-- Two quotes of the security at 100 and 101, with a packet of an unsupported code and a quote of an
    unknown security between them. -/
def stackedQuotes : List (List UInt8) :=
  [sampleQuotePacket, [7, 8, 0, 1, 0, 0, 0, 0], quotePacket [0x0F, 0x27, 0, 0] samplePriceBytes,
    quotePacket [0x45, 0x0B, 0, 0] [0, 0, 0xCA, 0x42]]

/-- The packets and the first bytes of another one, in one message. -/
def stackedMessage : List UInt8 := stackedQuotes.flatten ++ [4, 50, 0]

theorem stackedMessage_delimits : Delimits packetSize stackedMessage stackedQuotes [4, 50, 0] := by
  refine Delimits.frame (n := 50) (by decide +kernel) (by decide +kernel) ?_
  refine Delimits.frame (n := 8) (by decide +kernel) (by decide +kernel) ?_
  refine Delimits.frame (n := 50) (by decide +kernel) (by decide +kernel) ?_
  refine Delimits.frame (n := 50) (by decide +kernel) (by decide +kernel) ?_
  exact Delimits.stuck (by decide +kernel) (by decide +kernel)

/-- The prices of the ticks in the buffer of the consumer after the message. -/
def stackedPrices : Option (List (Option ℚ)) :=
  ((sampleAdapter.distributeLivePacket (.bytes stackedMessage) 0).1.liveConsumers.get 0).map
    fun c => c.buffer.map fun
      | .tick t => some t.lastPrice.1
      | _ => none

theorem stacked_delivery_quotes :
    Delimits packetSize stackedMessage stackedQuotes [4, 50, 0] ∧
      stackedPrices = some [some 100, some 101] ∧
      DeliversStacked sampleAdapter stackedMessage stackedQuotes 0 := by
  refine ⟨stackedMessage_delimits, by decide +kernel, ?_⟩
  rw [stacked_delivery_iff sampleAdapter stackedMessage 0 _ _ stackedMessage_delimits]
  exact Or.inl (by decide +kernel)

/-- A quote before a feed disconnect in one message: the tick is decoded and dropped. -/
theorem disconnect_drops_tick :
    Delimits packetSize (sampleQuotePacket ++ sampleDisconnectPacket)
        [sampleQuotePacket, sampleDisconnectPacket] [] ∧
      ¬ DeliversStacked sampleAdapter (sampleQuotePacket ++ sampleDisconnectPacket)
        [sampleQuotePacket, sampleDisconnectPacket] 0 := by
  constructor
  · exact Delimits.frame (n := 50) (by decide) (by decide +kernel)
      (delimits_single sampleDisconnectPacket (by decide) (by decide +kernel))
  · intro h
    have hlengths := congrArg (List.map fun kv => kv.2.buffer.length) h.buffers
    have hafter : (sampleAdapter.distributeLivePacket
        (.bytes (sampleQuotePacket ++ sampleDisconnectPacket)) 0).1.liveConsumers.map
          (fun kv => kv.2.buffer.length) = [0] := by decide +kernel
    have hexpected : (sampleAdapter.liveConsumers.mapItems (fun _ c =>
        c.gain ((decodedEvents sampleAdapter.liveCashReferences
          [sampleQuotePacket, sampleDisconnectPacket]).filter (Requested c.request)))).map
            (fun kv => kv.2.buffer.length) = [1] := by decide +kernel
    rw [hafter, hexpected] at hlengths
    cases hlengths

/-! ## Session references -/

/-- What `LiveMarketRuntime._dispatch` hands to the engine; `none` is an unsupported datum. -/
def dispatched : MarketData → Option CanonicalEvent
  | .tick t => some (.datum (.tick t))
  | .quote q => some (.datum (.quote q))
  | .reference r => some (.reference r)
  | .depth _ | .candle _ => none

/-- What a consumer is owed: events of its instruments of a requested kind, and those without a kind
    that the engine accepts. -/
def Owed (request : SubscriptionRequest) (event : MarketData) : Prop :=
  eventInstrument event ∈ request.instruments ∧
    ((∃ kind ∈ kindOf event, kind ∈ request.dataTypes) ∨
      (kindOf event = none ∧ (dispatched event).isSome))

/-- A consumer is owed what it requested and the session references of its instruments. -/
theorem owed_iff (request : SubscriptionRequest) (event : MarketData) :
    Owed request event ↔ Requested request event ∨
      ∃ r, event = .reference r ∧ r.instrument ∈ request.instruments := by
  unfold Owed Requested
  rw [and_or_left]
  apply or_congr Iff.rfl
  cases event <;> simp [kindOf, dispatched, eventInstrument]

/-- Every consumer gains every decoded event that it is owed, once for each time it is decoded. -/
def ReachesConsumers (a : DhanRestAdapter) (message : List UInt8) (packets : List (List UInt8))
    (now : ℚ) : Prop :=
  ∀ k c, a.liveConsumers.get k = some c → ∃ gained,
    (a.distributeLivePacket (.bytes message) now).1.liveConsumers.get k = some (c.gain gained) ∧
      ∀ event ∈ decodedEvents a.liveCashReferences packets, Owed c.request event →
        gained.count event = (decodedEvents a.liveCashReferences packets).count event

theorem mem_decodedEvents {cashReferences : List DhanInstrumentReference}
    {packets : List (List UInt8)} {event : MarketData} :
    event ∈ decodedEvents cashReferences packets ↔ ∃ packet ∈ packets, ∃ events,
      decodeStandardLivePacket packet cashReferences = .ok events ∧ event ∈ events := by
  unfold decodedEvents
  rw [List.mem_flatMap]
  apply exists_congr
  intro packet
  apply and_congr Iff.rfl
  unfold decodedOf
  cases decodeStandardLivePacket packet cashReferences <;> simp

/-- The instruments of the session references of a message. -/
theorem exists_reference_iff {cashReferences : List DhanInstrumentReference}
    {packets : List (List UInt8)} (instrument : Instrument) :
    (∃ r, .reference r ∈ decodedEvents cashReferences packets ∧ r.instrument = instrument) ↔
      ∃ packet ∈ packets, CarriesReference cashReferences packet instrument := by
  simp only [mem_decodedEvents, ← decodes_reference_iff]
  constructor
  · rintro ⟨r, ⟨packet, hpacket, events, hdecode, hmem⟩, hr⟩
    exact ⟨packet, hpacket, events, r, hdecode, hmem, hr⟩
  · rintro ⟨packet, hpacket, events, r, hdecode, hmem, hr⟩
    exact ⟨r, ⟨packet, hpacket, events, hdecode, hmem⟩, hr⟩

/-- No packet carries a session reference of a consumer's instrument. -/
def WithoutReferences (a : DhanRestAdapter) (packets : List (List UInt8)) : Prop :=
  ∀ k c, a.liveConsumers.get k = some c → ∀ instrument ∈ c.request.instruments,
    ∀ packet ∈ packets, ¬ CarriesReference a.liveCashReferences packet instrument

/-- No consumer is owed an event of these packets. -/
def NothingOwed (a : DhanRestAdapter) (packets : List (List UInt8)) : Prop :=
  ∀ k c, a.liveConsumers.get k = some c →
    ∀ event ∈ decodedEvents a.liveCashReferences packets, ¬ Owed c.request event

section

variable {a : DhanRestAdapter} {message tail : List UInt8} {packets : List (List UInt8)} {now : ℚ}

theorem withoutReferences_of_nothingOwed (h : NothingOwed a packets) : WithoutReferences a packets := by
  intro k c hget instrument hinstrument packet hpacket hcarries
  obtain ⟨r, hmem, hr⟩ := (exists_reference_iff instrument).mpr ⟨packet, hpacket, hcarries⟩
  apply h k c hget (.reference r) hmem
  rw [owed_iff]
  exact Or.inr ⟨r, rfl, hr ▸ hinstrument⟩

/-- With a feed disconnect, only a message that owes nothing satisfies everybody. -/
theorem reaches_disconnected_iff (h : Delimits packetSize message packets tail)
    (hdisconnect : ∃ packet ∈ packets, IsFeedDisconnect packet) :
    ReachesConsumers a message packets now ↔ NothingOwed a packets := by
  have hbuffers := (distribute_disconnected a now h hdisconnect).1
  unfold ReachesConsumers NothingOwed
  rw [hbuffers]
  constructor
  · intro hreaches k c hget event hmem howed
    obtain ⟨gained, hgained, hcount⟩ := hreaches k c hget
    rw [hget, Option.some.injEq] at hgained
    have hnil := LiveConsumer.gain_eq_self_iff.mp hgained.symm
    have hzero := hcount event hmem howed
    rw [hnil, List.count_nil] at hzero
    exact absurd (List.count_pos_iff.mpr hmem) (by omega)
  · intro hnothing k c hget
    refine ⟨[], ?_, ?_⟩
    · rw [hget, LiveConsumer.gain_eq_self_iff.mpr rfl]
    · intro event hmem howed
      exact absurd howed (hnothing k c hget event hmem)

/-- Without a feed disconnect, only session references are missed. -/
theorem reaches_quiet_iff (h : Delimits packetSize message packets tail)
    (hquiet : ∀ packet ∈ packets, ¬ IsFeedDisconnect packet) :
    ReachesConsumers a message packets now ↔ WithoutReferences a packets := by
  have hbuffers := (distribute_quiet a now h hquiet).1
  have hget' : ∀ k c, a.liveConsumers.get k = some c →
      (a.distributeLivePacket (.bytes message) now).1.liveConsumers.get k = some (c.gain
        ((decodedEvents a.liveCashReferences packets).filter (Requested c.request))) := by
    intro k c hget
    rw [hbuffers, Dict.get_mapItems, hget]
    rfl
  constructor
  · intro hreaches k c hget instrument hinstrument packet hpacket hcarries
    obtain ⟨gained, hgained, hcount⟩ := hreaches k c hget
    rw [hget' k c hget, Option.some.injEq] at hgained
    have hfilter : gained =
        (decodedEvents a.liveCashReferences packets).filter (Requested c.request) := by
      have := congrArg LiveConsumer.buffer hgained
      simpa [LiveConsumer.gain] using this.symm
    obtain ⟨r, hmem, hr⟩ := (exists_reference_iff instrument).mpr ⟨packet, hpacket, hcarries⟩
    have howed : Owed c.request (.reference r) := by
      rw [owed_iff]
      exact Or.inr ⟨r, rfl, hr ▸ hinstrument⟩
    have hpos : 0 < gained.count (.reference r) := by
      rw [hcount _ hmem howed]
      exact List.count_pos_iff.mpr hmem
    -- a reference has no kind, so that the filter never keeps it
    have hrequested := (List.mem_filter.mp (hfilter ▸ List.count_pos_iff.mp hpos)).2
    simp [Requested, kindOf] at hrequested
  · intro hwithout k c hget
    refine ⟨_, hget' k c hget, ?_⟩
    intro event hmem howed
    apply List.count_filter
    rcases (owed_iff _ _).mp howed with hrequested | ⟨r, rfl, hinstrument⟩
    · exact decide_eq_true hrequested
    · obtain ⟨packet, hpacket, hcarries⟩ := (exists_reference_iff r.instrument).mp ⟨r, hmem, rfl⟩
      exact absurd hcarries (hwithout k c hget r.instrument hinstrument packet hpacket)

end

/-- **Every owed event reaches its consumer exactly where no packet carries a session reference of
    a consumer's instrument, and no feed disconnect discards an owed event.** -/
theorem reaches_consumers_iff (a : DhanRestAdapter) (message : List UInt8) (now : ℚ)
    (packets : List (List UInt8)) (tail : List UInt8)
    (h : Delimits packetSize message packets tail) :
    ReachesConsumers a message packets now ↔ WithoutReferences a packets ∧
      ((∀ packet ∈ packets, ¬ IsFeedDisconnect packet) ∨ NothingOwed a packets) := by
  by_cases hdisconnect : ∃ packet ∈ packets, IsFeedDisconnect packet
  · rw [reaches_disconnected_iff h hdisconnect]
    constructor
    · intro hnothing
      exact ⟨withoutReferences_of_nothingOwed hnothing, Or.inr hnothing⟩
    · rintro ⟨_, hquiet | hnothing⟩
      · obtain ⟨packet, hmem, hpacket⟩ := hdisconnect
        exact absurd hpacket (hquiet packet hmem)
      · exact hnothing
  · have hquiet : ∀ packet ∈ packets, ¬ IsFeedDisconnect packet :=
      fun packet hmem hpacket => hdisconnect ⟨packet, hmem, hpacket⟩
    rw [reaches_quiet_iff h hquiet]
    exact ⟨fun hwithout => ⟨hwithout, Or.inl hquiet⟩, fun hcondition => hcondition.1⟩

/-- A previous close of 100 of security 2885. -/
def samplePreviousClosePacket : List UInt8 :=
  [6, 16, 0, 1, 0x45, 0x0B, 0, 0] ++ samplePriceBytes ++ [0, 0, 0, 0]

theorem reaches_consumers_quotes :
    Delimits packetSize stackedMessage stackedQuotes [4, 50, 0] ∧
      stackedPrices = some [some 100, some 101] ∧
      ReachesConsumers sampleAdapter stackedMessage stackedQuotes 0 := by
  refine ⟨stackedMessage_delimits, by decide +kernel, ?_⟩
  rw [reaches_consumers_iff sampleAdapter stackedMessage 0 _ _ stackedMessage_delimits]
  refine ⟨?_, Or.inl (by decide +kernel)⟩
  intro k c _ instrument _ packet hpacket hcarries
  have hcodes : ∀ p ∈ stackedQuotes, responseCode p ≠ previousCloseResponseCode := by decide +kernel
  exact hcodes packet hpacket hcarries.2.1.code

/-- A previous-close packet of a subscribed instrument: the reference is decoded and dropped. -/
theorem previous_close_not_delivered :
    Delimits packetSize samplePreviousClosePacket [samplePreviousClosePacket] [] ∧
      ¬ ReachesConsumers sampleAdapter samplePreviousClosePacket [samplePreviousClosePacket] 0 := by
  refine ⟨delimits_single samplePreviousClosePacket (by decide) (by decide +kernel), ?_⟩
  intro h
  obtain ⟨gained, hgained, hcount⟩ := h 0 _ rfl
  have hafter : ((sampleAdapter.distributeLivePacket (.bytes samplePreviousClosePacket)
      0).1.liveConsumers.get 0).map (·.buffer) = some [] := by decide +kernel
  rw [hgained] at hafter
  have hnil : gained = [] := Option.some.inj hafter
  have hdecoded : decodedEvents sampleAdapter.liveCashReferences [samplePreviousClosePacket] =
      [.reference { instrument := reliance, previousClose := rupees 100 }] := by decide +kernel
  have hone := hcount (.reference { instrument := reliance, previousClose := rupees 100 })
    (by rw [hdecoded]; exact List.mem_singleton_self _)
    ⟨List.mem_singleton_self _, Or.inr ⟨rfl, rfl⟩⟩
  rw [hnil, hdecoded] at hone
  simp at hone

end ApexScan.Dhan
