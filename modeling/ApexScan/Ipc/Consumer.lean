import ApexScan.Ipc.Envelope

/-!
# The shadow consumer (`app/market_ipc/consumer.py`, `app/market_ipc/dedup.py`)

`_handle` takes one stream entry through decoding, the trading-date and universe gates,
deduplication, payload decoding, the sink and the acknowledgement.

* `Consumer` — the deduplicator, the counters and the freshness markers.
* `Delivery` — everything one call reads from outside: the entry, the two authorities, the clock
  readings, and whether the sink and the acknowledgement succeed.
* `handle` — the new consumer state and what the call did; an exception is a result.
* `Safe` — the call returns, and rejects terminally what is not a valid entry.
* `Poison` — the entries that make it raise.

Main result: `handle_safe_iff`.  `unhashable_version_raises` is a poisonous entry.
-/

set_option autoImplicit false

namespace ApexScan.Ipc

open Lib

inductive MessageOutcome where
  | applied
  | duplicate
  | staleTradingDate
  | futureTradingDate
  | olderUniverse
  | newerUniverse
  | unknownUniverse
  | envelopeDecodeFailed
  | unsupportedSchema
  | payloadDecodeFailed
  | eventKindMismatch
  | sinkFailed
  | ackFailed
  deriving DecidableEq, Repr

/-- `_TERMINAL_ACK_OUTCOMES`. -/
def MessageOutcome.isTerminal : MessageOutcome → Bool
  | .sinkFailed | .ackFailed => false
  | _ => true

/-- The terminal outcomes other than `APPLIED`. -/
def MessageOutcome.isRejection (o : MessageOutcome) : Bool := o.isTerminal && decide (o ≠ .applied)

/-! ## State -/

/-- `_ConsumerCounters`, without the read failures of the polling loop. -/
structure ConsumerCounters where
  received : ℕ := 0
  claimed : ℕ := 0
  acked : ℕ := 0
  ackFailures : ℕ := 0
  /-- One counter for each outcome that `_handle` reaches before the acknowledgement. -/
  byOutcome : MessageOutcome → ℕ := fun _ => 0

/-- `MarketEventConsumer`: the identities seen, oldest first, the counters and the markers. -/
structure Consumer where
  maxEntries : ℕ
  maxEntries_pos : 1 ≤ maxEntries
  seen : List ProducerEventIdentity := []
  counters : ConsumerCounters := {}
  lastReceivedAt : Option Int := none
  lastAppliedAt : Option Int := none
  lastAckAt : Option Int := none
  lastErrorAt : Option Int := none
  lastEventAge : Option Int := none

/-- `BoundedDeduplicator.record`: the identity becomes the newest, the oldest is evicted beyond the
    capacity. -/
def Consumer.record (c : Consumer) (id : ProducerEventIdentity) : Consumer :=
  let seen := c.seen.filter (· ≠ id) ++ [id]
  { c with seen := if c.maxEntries < seen.length then seen.drop 1 else seen }

/-- What one call of `_handle` reads. -/
structure Delivery where
  raw : Option ByteArray
  claimed : Bool := false
  currentDate : Option Int
  universeVersion : Option ℕ
  sinkApplies : Bool := true
  ackSucceeds : Bool := true
  /-- The clock readings: on receipt, for the event age, after the sink, after the acknowledgement. -/
  receivedAt : Int := 0
  ageAt : Int := 0
  appliedAt : Int := 0
  finishedAt : Int := 0

/-- What one call of `_handle` did. -/
structure Handled where
  result : Except PyException MessageOutcome
  acked : Bool := false
  event : Option (MarketEventEnvelope × IpcPayload) := none

/-! ## Decoding -/

/-- A decoding step: a value, an outcome to reject with, or an exception. -/
inductive Decoded (α : Type) where
  | value (a : α)
  | reject (outcome : MessageOutcome)
  | raise (exception : PyException)

/-- `version in SUPPORTED_SCHEMA_VERSIONS` for a version that is not `None`: `True` and `1.0` equal
    1, and arrays and objects are not hashable. -/
def versionSupported : Json → Except PyException Bool
  | .null => .ok true
  | .bool b => .ok b
  | .int n => .ok (decide (n ∈ supportedSchemaVersions))
  | .float q => .ok (decide (q = some 1))
  | .str _ => .ok false
  | .arr _ | .obj _ => .error .typeError

section

variable (P : Parsers)

/-- `_decode_envelope`. -/
def decodeEnvelopeStep (raw : Option ByteArray) : Decoded MarketEventEnvelope :=
  match raw with
  | none => .reject .envelopeDecodeFailed
  | some raw =>
    match P.loads raw with
    | none => .reject .envelopeDecodeFailed
    | some parsed =>
      match versionSupported ((parsed.get? "schema_version").getD .null) with
      | .error exception => .raise exception
      | .ok false => .reject .unsupportedSchema
      | .ok true =>
        match decodeEnvelope P raw with
        | .ok envelope => .value envelope
        | .invalid => .reject .envelopeDecodeFailed
        | .raised => .raise .overflowError

/-- The loop of `_decodes_under_other_kind`; `none` when a kind raises. -/
def decodesUnder (payload : String) : List EventKind → Option Bool
  | [] => some false
  | kind :: kinds =>
    match decodePayload P kind payload with
    | .ok _ => some true
    | .invalid => decodesUnder payload kinds
    | .raised => none

/-- The kinds `_decodes_under_other_kind` tries, in order. -/
def otherKinds (kind : EventKind) : List EventKind := EventKind.all.filter (· ≠ kind)

/-- `_decode_payload`. -/
def decodePayloadStep (envelope : MarketEventEnvelope) : Decoded IpcPayload :=
  match decodePayload P envelope.eventKind envelope.payload.1.1 with
  | .ok event => .value event
  | .raised => .raise .overflowError
  | .invalid =>
    match decodesUnder P envelope.payload.1.1 (otherKinds envelope.eventKind) with
    | some true => .reject .eventKindMismatch
    | some false => .reject .payloadDecodeFailed
    | none => .raise .overflowError

end

/-- `_gate`: the trading date, then the universe version. -/
def gate (currentDate : Option Int) (universeVersion : Option ℕ) (e : MarketEventEnvelope) :
    Option MessageOutcome :=
  let byUniverse := match compareUniverseVersion e.universeVersion universeVersion with
    | .match => none
    | .older => some .olderUniverse
    | .newer => some .newerUniverse
    | .unknown => some .unknownUniverse
  match currentDate with
  | none => byUniverse
  | some current =>
    if e.tradingDate < current then some .staleTradingDate
    else if current < e.tradingDate then some .futureTradingDate
    else byUniverse

/-! ## Handling one entry -/

/-- Counts an outcome. -/
def Consumer.count (c : Consumer) (o : MessageOutcome) : Consumer :=
  { c with counters := { c.counters with
      byOutcome := fun o' => if o' = o then c.counters.byOutcome o' + 1 else c.counters.byOutcome o' } }

/-- `_finalize` of a terminal outcome. -/
def finalize (c : Consumer) (d : Delivery) (o : MessageOutcome)
    (event : Option (MarketEventEnvelope × IpcPayload) := none) : Consumer × Handled :=
  if d.ackSucceeds then
    ({ c with counters := { c.counters with acked := c.counters.acked + 1 },
              lastAckAt := some d.finishedAt },
     { result := .ok o, acked := true, event })
  else
    ({ c with counters := { c.counters with ackFailures := c.counters.ackFailures + 1 },
              lastErrorAt := some d.finishedAt },
     { result := .ok .ackFailed, event })

/-- `_apply_and_ack`. -/
def applyAndAck (c : Consumer) (d : Delivery) (envelope : MarketEventEnvelope)
    (event : IpcPayload) : Consumer × Handled :=
  if d.sinkApplies then
    let c := (c.record (.fromEnvelope envelope)).count .applied
    finalize { c with lastAppliedAt := some d.appliedAt } d .applied (some (envelope, event))
  else
    ({ c.count .sinkFailed with lastErrorAt := some d.appliedAt }, { result := .ok .sinkFailed })

/-- `_handle`. -/
def handle (P : Parsers) (c : Consumer) (d : Delivery) : Consumer × Handled :=
  let counters := if d.claimed then { c.counters with claimed := c.counters.claimed + 1 }
    else { c.counters with received := c.counters.received + 1 }
  let c := { c with counters, lastReceivedAt := some d.receivedAt }
  match decodeEnvelopeStep P d.raw with
  | .raise exception => (c, { result := .error exception })
  | .reject o => finalize (c.count o) d o
  | .value envelope =>
    let c := { c with lastEventAge := some (d.ageAt - envelope.producedAt) }
    match gate d.currentDate d.universeVersion envelope with
    | some o => finalize (c.count o) d o
    | none =>
      if .fromEnvelope envelope ∈ c.seen then finalize (c.count .duplicate) d .duplicate
      else
        match decodePayloadStep P envelope with
        | .raise exception => (c, { result := .error exception })
        | .reject o => finalize (c.count o) d o
        | .value event => applyAndAck c d envelope event

/-! ## What must not happen, and when it does -/

section Safety

variable (P : Parsers)

/-- A valid envelope with a valid payload for its kind. -/
def ValidEntry (raw : Option ByteArray) : Prop :=
  ∃ bytes envelope event, raw = some bytes ∧ decodeEnvelope P bytes = .ok envelope ∧
    decodePayload P envelope.eventKind envelope.payload.1.1 = .ok event

/-- The call returns an outcome, and an entry that is not valid is rejected terminally and
    acknowledged, or its acknowledgement failed. -/
def Safe (c : Consumer) (d : Delivery) : Prop :=
  ∃ o, (handle P c d).2.result = .ok o ∧
    (¬ ValidEntry P d.raw → (o.isRejection = true ∧ (handle P c d).2.acked = true) ∨
      (o = .ackFailed ∧ d.ackSucceeds = false))

/-- The schema version is an array or an object. -/
def UnhashableVersion (bytes : ByteArray) : Prop :=
  ∃ parsed, P.loads bytes = some parsed ∧
    ((∃ items, parsed.get? "schema_version" = some (.arr items)) ∨
      ∃ members, parsed.get? "schema_version" = some (.obj members))

/-- The schema version is accepted, or absent. -/
def SupportedVersion (bytes : ByteArray) : Prop :=
  ∃ parsed, P.loads bytes = some parsed ∧
    versionSupported ((parsed.get? "schema_version").getD .null) = .ok true

/-- The schema version is accepted and `produced_at` overflows. -/
def OverflowingEnvelope (bytes : ByteArray) : Prop :=
  SupportedVersion P bytes ∧
    ∃ json, P.parse bytes = some json ∧ overflowsAt P json "produced_at" = true

/-- The payload's timestamp overflows under its own kind, or, where the payload is invalid for its
    own kind, under a kind that is tried before any that accepts it. -/
def OverflowingPayload (kind : EventKind) (payload : String) : Prop :=
  ∃ json, P.parseText payload = some json ∧
    ((timestampField kind).any (overflowsAt P json) = true ∨
      decodeParsed P kind json = .invalid ∧ ∃ before other after,
        otherKinds kind = before ++ other :: after ∧
        (∀ k ∈ before, decodeParsed P k json = .invalid) ∧
        (timestampField other).any (overflowsAt P json) = true)

/-- The entry makes `_handle` raise: an unhashable schema version, an overflowing `produced_at`, or
    an overflowing payload of an envelope that passes the gates and was not seen. -/
def Poison (c : Consumer) (d : Delivery) : Prop :=
  ∃ bytes, d.raw = some bytes ∧
    (UnhashableVersion P bytes ∨ OverflowingEnvelope P bytes ∨
      ∃ envelope, SupportedVersion P bytes ∧ decodeEnvelope P bytes = .ok envelope ∧
        gate d.currentDate d.universeVersion envelope = none ∧
        .fromEnvelope envelope ∉ c.seen ∧
        OverflowingPayload P envelope.eventKind envelope.payload.1.1)

end Safety

/-! ## The decoding steps -/

section Proofs

variable {P : Parsers}

/-- Which values of `schema_version` make the membership test raise. -/
theorem versionSupported_raises (v : Option Json) :
    (∃ exception, versionSupported (v.getD .null) = .error exception) ↔
      (∃ items, v = some (.arr items)) ∨ ∃ members, v = some (.obj members) := by
  cases v with
  | none => simp [versionSupported]
  | some v => cases v <;> simp [versionSupported]

theorem decodeEnvelope_isRaised (bytes : ByteArray) :
    (decodeEnvelope P bytes).isRaised = true ↔
      ∃ json, P.parse bytes = some json ∧ overflowsAt P json "produced_at" = true := by
  unfold decodeEnvelope
  cases hp : P.parse bytes with
  | none => simp [Check.ofOption, Check.andThen]
  | some json => simp [Check.ofOption, Check.andThen, envelopeOf_isRaised]

/-- `_decode_envelope` raises exactly on an unhashable version and an overflowing `produced_at`. -/
theorem decodeEnvelopeStep_raises (raw : Option ByteArray) :
    (∃ exception, decodeEnvelopeStep P raw = .raise exception) ↔
      ∃ bytes, raw = some bytes ∧ (UnhashableVersion P bytes ∨ OverflowingEnvelope P bytes) := by
  cases raw with
  | none => simp [decodeEnvelopeStep]
  | some bytes =>
    simp only [decodeEnvelopeStep, Option.some.injEq, exists_eq_left', UnhashableVersion,
      OverflowingEnvelope, SupportedVersion]
    cases hl : P.loads bytes with
    | none => simp
    | some parsed =>
      have hun := versionSupported_raises (parsed.get? "schema_version")
      simp only [Option.some.injEq, exists_eq_left']
      cases hv : versionSupported ((parsed.get? "schema_version").getD .null) with
      | error exception => simp [← hun, hv]
      | ok supported =>
        have hno : ¬ ∃ exception, versionSupported ((parsed.get? "schema_version").getD .null) =
            .error exception := by
          rintro ⟨_, h⟩
          rw [hv] at h
          cases h
        rw [← hun, or_iff_right hno]
        have hraised := decodeEnvelope_isRaised (P := P) bytes
        cases supported with
        | false => simp
        | true =>
          simp only [true_and]
          rw [← hraised]
          cases decodeEnvelope P bytes <;> simp

/-- `_decode_envelope` returns the valid envelopes of a supported version. -/
theorem decodeEnvelopeStep_value (bytes : ByteArray) (envelope : MarketEventEnvelope) :
    decodeEnvelopeStep P (some bytes) = .value envelope ↔
      SupportedVersion P bytes ∧ decodeEnvelope P bytes = .ok envelope := by
  simp only [decodeEnvelopeStep, SupportedVersion]
  cases hl : P.loads bytes with
  | none => simp
  | some parsed =>
    simp only [Option.some.injEq, exists_eq_left']
    cases versionSupported ((parsed.get? "schema_version").getD .null) with
    | error exception => simp
    | ok supported =>
      cases supported with
      | false => simp
      | true => cases decodeEnvelope P bytes <;> simp

/-- The loop over other kinds raises at the first kind that does not reject, when that raises. -/
theorem decodesUnder_eq_none (payload : String) (kinds : List EventKind) :
    decodesUnder P payload kinds = none ↔
      ∃ before other after, kinds = before ++ other :: after ∧
        (∀ k ∈ before, decodePayload P k payload = .invalid) ∧
        decodePayload P other payload = .raised := by
  induction kinds with
  | nil => simp [decodesUnder]
  | cons kind kinds ih =>
    simp only [decodesUnder]
    constructor
    · intro h
      split at h
      · cases h
      · rename_i hinv
        obtain ⟨before, other, after, rfl, hb, ho⟩ := ih.mp h
        refine ⟨kind :: before, other, after, rfl, ?_, ho⟩
        intro k hk
        rcases List.mem_cons.mp hk with rfl | hk
        · exact hinv
        · exact hb k hk
      · rename_i hraised
        exact ⟨[], kind, kinds, rfl, by simp, hraised⟩
    · rintro ⟨before, other, after, heq, hb, ho⟩
      cases before with
      | nil =>
        obtain ⟨rfl, rfl⟩ := List.cons.inj heq
        rw [ho]
      | cons b before =>
        obtain ⟨rfl, rfl⟩ := List.cons.inj heq
        rw [hb kind (by simp)]
        exact ih.mpr ⟨before, other, after, rfl, fun k hk => hb k (List.mem_cons_of_mem _ hk), ho⟩

/-- `_decode_payload` raises exactly on an overflowing payload. -/
theorem decodePayloadStep_raises (envelope : MarketEventEnvelope) :
    (∃ exception, decodePayloadStep P envelope = .raise exception) ↔
      OverflowingPayload P envelope.eventKind envelope.payload.1.1 := by
  unfold OverflowingPayload decodePayloadStep
  cases hp : P.parseText envelope.payload.1.1 with
  | none =>
    have hinv : ∀ kind, decodePayload P kind envelope.payload.1.1 = .invalid := by
      intro kind
      rw [decodePayload, hp]
      rfl
    have hloop : decodesUnder P envelope.payload.1.1 (otherKinds envelope.eventKind) ≠ none := by
      intro h
      obtain ⟨_, other, _, _, _, ho⟩ := (decodesUnder_eq_none _ _).mp h
      rw [hinv other] at ho
      cases ho
    rw [hinv]
    cases hd : decodesUnder P envelope.payload.1.1 (otherKinds envelope.eventKind) with
    | none => exact absurd hd hloop
    | some b => cases b <;> simp
  | some json =>
    have hpayload : ∀ kind, decodePayload P kind envelope.payload.1.1 = decodeParsed P kind json := by
      intro kind
      rw [decodePayload, hp]
      rfl
    have hraised : ∀ kind, decodeParsed P kind json = .raised ↔
        (timestampField kind).any (overflowsAt P json) = true := by
      intro kind
      rw [← decodeParsed_isRaised, Check.isRaised_iff]
    have hloop := decodesUnder_eq_none (P := P) envelope.payload.1.1 (otherKinds envelope.eventKind)
    simp only [hpayload, hraised] at hloop ⊢
    simp only [Option.some.injEq, exists_eq_left', ← hloop, ← hraised envelope.eventKind]
    cases hd : decodeParsed P envelope.eventKind json with
    | ok event => simp
    | raised => simp
    | invalid =>
      cases hu : decodesUnder P envelope.payload.1.1 (otherKinds envelope.eventKind) with
      | none => simp
      | some b => cases b <;> simp

/-! ## The whole call -/

theorem finalize_result (c : Consumer) (d : Delivery) (o : MessageOutcome)
    (event : Option (MarketEventEnvelope × IpcPayload)) :
    (d.ackSucceeds = true ∧ (finalize c d o event).2.result = .ok o ∧
      (finalize c d o event).2.acked = true) ∨
    (d.ackSucceeds = false ∧ (finalize c d o event).2.result = .ok .ackFailed) := by
  unfold finalize
  cases h : d.ackSucceeds with
  | true => exact Or.inl ⟨rfl, rfl, rfl⟩
  | false => exact Or.inr ⟨rfl, rfl⟩

/-- A call that ends in `_finalize` with a rejection is terminal. -/
theorem finalize_rejects {c : Consumer} {d : Delivery} {o : MessageOutcome}
    (ho : o.isRejection = true) (event : Option (MarketEventEnvelope × IpcPayload)) :
    ∃ o', (finalize c d o event).2.result = .ok o' ∧
      ((o'.isRejection = true ∧ (finalize c d o event).2.acked = true) ∨
        (o' = .ackFailed ∧ d.ackSucceeds = false)) := by
  rcases finalize_result c d o event with ⟨-, hr, hacked⟩ | ⟨hack, hr⟩
  · exact ⟨o, hr, Or.inl ⟨ho, hacked⟩⟩
  · exact ⟨_, hr, Or.inr ⟨rfl, hack⟩⟩

theorem applyAndAck_returns (c : Consumer) (d : Delivery) (envelope : MarketEventEnvelope)
    (event : IpcPayload) : ∃ o, (applyAndAck c d envelope event).2.result = .ok o := by
  unfold applyAndAck
  split
  · rcases finalize_result _ d .applied (some (envelope, event)) with ⟨-, hr, -⟩ | ⟨-, hr⟩
    · exact ⟨_, hr⟩
    · exact ⟨_, hr⟩
  · exact ⟨_, rfl⟩

theorem decodeEnvelopeStep_reject {raw : Option ByteArray} {o : MessageOutcome}
    (h : decodeEnvelopeStep P raw = .reject o) : o.isRejection = true := by
  unfold decodeEnvelopeStep at h
  split at h
  · cases h; rfl
  · split at h
    · cases h; rfl
    · split at h
      · cases h
      · cases h; rfl
      · split at h
        · cases h
        · cases h; rfl
        · cases h

theorem decodePayloadStep_reject {envelope : MarketEventEnvelope} {o : MessageOutcome}
    (h : decodePayloadStep P envelope = .reject o) : o.isRejection = true := by
  unfold decodePayloadStep at h
  split at h
  · cases h
  · cases h
  · split at h
    · cases h; rfl
    · cases h; rfl
    · cases h

theorem decodePayloadStep_value {envelope : MarketEventEnvelope} {event : IpcPayload}
    (h : decodePayloadStep P envelope = .value event) :
    decodePayload P envelope.eventKind envelope.payload.1.1 = .ok event := by
  unfold decodePayloadStep at h
  split at h
  · cases h
    assumption
  · cases h
  · split at h <;> cases h

theorem gate_reject {date : Option Int} {version : Option ℕ} {envelope : MarketEventEnvelope}
    {o : MessageOutcome} (h : gate date version envelope = some o) : o.isRejection = true := by
  have hu : ∀ comparison : UniverseVersionComparison, ∀ o : MessageOutcome,
      (match comparison with
        | .match => none
        | .older => some MessageOutcome.olderUniverse
        | .newer => some MessageOutcome.newerUniverse
        | .unknown => some MessageOutcome.unknownUniverse) = some o → o.isRejection = true := by
    intro comparison o h
    cases comparison <;> cases h <;> rfl
  unfold gate at h
  simp only at h
  split at h
  · exact hu _ o h
  · split at h
    · cases h; rfl
    · split at h
      · cases h; rfl
      · exact hu _ o h

/-- Where `_decode_envelope` does not raise, only the payload of a decoded envelope is poisonous. -/
theorem poison_iff {c : Consumer} {d : Delivery}
    (h : ¬ ∃ exception, decodeEnvelopeStep P d.raw = .raise exception) :
    Poison P c d ↔ ∃ envelope, decodeEnvelopeStep P d.raw = .value envelope ∧
      gate d.currentDate d.universeVersion envelope = none ∧ .fromEnvelope envelope ∉ c.seen ∧
      OverflowingPayload P envelope.eventKind envelope.payload.1.1 := by
  rw [decodeEnvelopeStep_raises] at h
  constructor
  · rintro ⟨bytes, hraw, hun | hov | ⟨envelope, hversion, henvelope, hrest⟩⟩
    · exact absurd ⟨bytes, hraw, Or.inl hun⟩ h
    · exact absurd ⟨bytes, hraw, Or.inr hov⟩ h
    · refine ⟨envelope, ?_, hrest⟩
      rw [hraw]
      exact (decodeEnvelopeStep_value bytes envelope).mpr ⟨hversion, henvelope⟩
  · rintro ⟨envelope, hvalue, hrest⟩
    cases hraw : d.raw with
    | none =>
      rw [hraw] at hvalue
      cases hvalue
    | some bytes =>
      rw [hraw, decodeEnvelopeStep_value] at hvalue
      exact ⟨bytes, hraw, Or.inr (Or.inr ⟨envelope, hvalue.1, hvalue.2, hrest⟩)⟩

/-- The decoded envelope and payload of an entry are valid. -/
theorem validEntry_of_values {raw : Option ByteArray} {envelope : MarketEventEnvelope}
    {event : IpcPayload} (henvelope : decodeEnvelopeStep P raw = .value envelope)
    (hevent : decodePayloadStep P envelope = .value event) : ValidEntry P raw := by
  cases raw with
  | none => cases henvelope
  | some bytes =>
    have hvalid := ((decodeEnvelopeStep_value bytes envelope).mp henvelope).2
    exact ⟨bytes, envelope, event, rfl, hvalid, decodePayloadStep_value hevent⟩

theorem finalize_returns (c : Consumer) (d : Delivery) (o : MessageOutcome)
    (event : Option (MarketEventEnvelope × IpcPayload)) (exception : PyException) :
    (finalize c d o event).2.result ≠ .error exception := by
  rcases finalize_result c d o event with ⟨-, hr, -⟩ | ⟨-, hr⟩
  · rw [hr]
    exact fun h => nomatch h
  · rw [hr]
    exact fun h => nomatch h

/-- `_handle` raises exactly on poisonous entries. -/
theorem handle_raises_iff (P : Parsers) (c : Consumer) (d : Delivery) :
    (∃ exception, (handle P c d).2.result = .error exception) ↔ Poison P c d := by
  have hdecode := decodeEnvelopeStep_raises (P := P) d.raw
  have hpoison := poison_iff (P := P) (c := c) (d := d)
  unfold handle
  simp only
  cases hstep : decodeEnvelopeStep P d.raw with
  | raise exception =>
    -- the exception of `_decode_envelope` leaves the call
    obtain ⟨bytes, hraw, hcase⟩ := hdecode.mp ⟨exception, hstep⟩
    exact iff_of_true ⟨exception, rfl⟩ ⟨bytes, hraw, hcase.imp_right Or.inl⟩
  | reject o =>
    rw [hpoison (by simp [hstep])]
    refine iff_of_false ?_ ?_
    · rintro ⟨exception, h⟩
      exact finalize_returns _ _ _ _ _ h
    · rintro ⟨envelope, henvelope, -⟩
      rw [hstep] at henvelope
      cases henvelope
  | value envelope =>
    rw [hpoison (by simp [hstep])]
    simp only [hstep, Decoded.value.injEq, exists_eq_left']
    cases hgate : gate d.currentDate d.universeVersion envelope with
    | some o =>
      refine iff_of_false ?_ (by simp)
      rintro ⟨exception, h⟩
      exact finalize_returns _ _ _ _ _ h
    | none =>
      simp only [true_and]
      by_cases hseen : .fromEnvelope envelope ∈ c.seen
      · rw [if_pos hseen]
        refine iff_of_false ?_ (by simp [hseen])
        rintro ⟨exception, h⟩
        exact finalize_returns _ _ _ _ _ h
      · rw [if_neg hseen, ← decodePayloadStep_raises]
        cases hp : decodePayloadStep P envelope with
        | raise exception => exact iff_of_true ⟨exception, rfl⟩ ⟨hseen, exception, rfl⟩
        | reject o =>
          refine iff_of_false ?_ (by simp)
          rintro ⟨exception, h⟩
          exact finalize_returns _ _ _ _ _ h
        | value event =>
          refine iff_of_false ?_ (by simp)
          rintro ⟨exception, h⟩
          obtain ⟨o, ho⟩ := applyAndAck_returns _ d envelope event
          rw [ho] at h
          cases h

/-- A call that returns rejects terminally what is not a valid entry. -/
theorem safe_of_returns {c : Consumer} {d : Delivery}
    (h : ¬ ∃ exception, (handle P c d).2.result = .error exception) : Safe P c d := by
  unfold Safe
  unfold handle at h ⊢
  simp only at h ⊢
  cases hstep : decodeEnvelopeStep P d.raw with
  | raise exception =>
    rw [hstep] at h
    exact absurd ⟨exception, rfl⟩ h
  | reject o =>
    obtain ⟨o', hr, hterminal⟩ := finalize_rejects (decodeEnvelopeStep_reject hstep) none
    exact ⟨o', hr, fun _ => hterminal⟩
  | value envelope =>
    simp only [hstep] at h ⊢
    cases hgate : gate d.currentDate d.universeVersion envelope with
    | some o =>
      obtain ⟨o', hr, hterminal⟩ := finalize_rejects (gate_reject hgate) none
      exact ⟨o', hr, fun _ => hterminal⟩
    | none =>
      simp only [hgate] at h ⊢
      by_cases hseen : .fromEnvelope envelope ∈ c.seen
      · rw [if_pos hseen]
        obtain ⟨o', hr, hterminal⟩ := finalize_rejects (o := .duplicate) rfl none
        exact ⟨o', hr, fun _ => hterminal⟩
      · rw [if_neg hseen] at h ⊢
        cases hp : decodePayloadStep P envelope with
        | raise exception =>
          rw [hp] at h
          exact absurd ⟨exception, rfl⟩ h
        | reject o =>
          obtain ⟨o', hr, hterminal⟩ := finalize_rejects (decodePayloadStep_reject hp) none
          exact ⟨o', hr, fun _ => hterminal⟩
        | value event =>
          obtain ⟨o, ho⟩ := applyAndAck_returns _ d envelope event
          refine ⟨o, ho, ?_⟩
          intro hinvalid
          exact absurd (validEntry_of_values hstep hp) hinvalid

/-- **The consumer is safe exactly on entries that are not poisonous.**  For every entry, consumer
    state, authority values and behaviour of sink and acknowledgement. -/
theorem handle_safe_iff (P : Parsers) (c : Consumer) (d : Delivery) :
    Safe P c d ↔ ¬ Poison P c d := by
  rw [← handle_raises_iff]
  constructor
  · rintro ⟨o, ho, -⟩ ⟨exception, hraised⟩
    rw [ho] at hraised
    cases hraised
  · exact safe_of_returns

end Proofs

/-- The text of an entry whose schema version is an empty array. -/
def emptyArrayVersion : ByteArray := "\x7b\"schema_version\": []\x7d".toUTF8

/-- Parsers that read `emptyArrayVersion` as it is written. -/
def sampleParsers : Parsers where
  loads b := if b.data = emptyArrayVersion.data then some (.obj [("schema_version", .arr [])]) else none
  parse b := if b.data = emptyArrayVersion.data then some (.obj [("schema_version", .arr [])]) else none
  parseText _ := none
  datetime _ := none
  date _ := none
  decimal _ := none
  upper s := s

/-- An entry with an array as schema version leaves `_handle` with a `TypeError`, and is not
    acknowledged. -/
theorem unhashable_version_raises :
    let c : Consumer := { maxEntries := 1, maxEntries_pos := Nat.le_refl 1 }
    let d : Delivery := { raw := some emptyArrayVersion, currentDate := none,
                          universeVersion := none }
    (handle sampleParsers c d).2.result = .error .typeError ∧
      (handle sampleParsers c d).2.acked = false ∧ ¬ Safe sampleParsers c d := by
  intro c d
  have hloads : sampleParsers.loads emptyArrayVersion =
      some (.obj [("schema_version", .arr [])]) := by simp [sampleParsers]
  have hstep : decodeEnvelopeStep sampleParsers d.raw = .raise .typeError := by
    simp only [d, decodeEnvelopeStep, hloads]
    rfl
  have hresult : (handle sampleParsers c d).2.result = .error .typeError := by
    simp only [handle, hstep]
  refine ⟨hresult, by simp only [handle, hstep], ?_⟩
  rintro ⟨o, ho, -⟩
  rw [hresult] at ho
  cases ho

end ApexScan.Ipc
