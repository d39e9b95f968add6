import ApexScan.Ipc.Envelope
import ApexScan.Lib.Dict
import ApexScan.Lib.Machine
import ApexScan.Lib.Records
import ApexScan.Lib.Rounding
import Mathlib.Data.Prod.Lex

/-!
# Compacted reference state (`app/market_ipc/reference.py`, `app/market_ipc/state.py`)

The last known reference of each instrument is kept in a Redis hash for each trading date.  A
server-side script compares the ordering of an update with the stored one, rejects what is not newer
and otherwise merges the price fields.

* `CompactedReferenceState`, `mergeReference`, `classify` — the state and the documented merge.
* `StoredReference`, `dump`, `safeLoad` — its JSON.  A number in it is an integer literal or, after
  `cjson.encode` with its 14 significant digits, possibly a literal with an exponent.
* `compactScript` — the script; its numbers are IEEE doubles.
* `ReferenceWriter.update` — one envelope through the writer.
* `compactAll_eq` — the documented merge of a sequence of states, in closed form.
* `compactScript_dump` — on numbers below `10 ^ 14` the script is the documented merge.
-/

set_option autoImplicit false

namespace ApexScan.Ipc

open Lib

/-! ## The state -/

inductive PriceField where
  | previousClose
  | sessionOpen
  | sessionHigh
  | sessionLow
  | sessionClose
  deriving DecidableEq, Repr

/-- `CompactedReferenceState`. -/
structure CompactedReferenceState where
  instrumentIdentity : String
  tradingDate : Int
  updatedAt : Int
  universeVersion : ℕ
  producerId : String
  producerEpoch : ℕ
  producerSequence : ℕ
  prices : PriceField → Option Price

/-- `CompactedReferenceState.ordering`: epoch, then sequence. -/
def CompactedReferenceState.ordering (s : CompactedReferenceState) : ℕ ×ₗ ℕ :=
  toLex (s.producerEpoch, s.producerSequence)

/-- The same provenance with other prices. -/
def CompactedReferenceState.withPrices (s : CompactedReferenceState)
    (prices : PriceField → Option Price) : CompactedReferenceState := { s with prices }

@[simp] theorem CompactedReferenceState.ordering_withPrices (s : CompactedReferenceState)
    (prices : PriceField → Option Price) : (s.withPrices prices).ordering = s.ordering := rfl

inductive ReferenceOutcome where
  | written
  | merged
  | duplicate
  | staleRejected
  | noReferenceData
  | writeFailed
  deriving DecidableEq, Repr

/-- `merge_reference`. -/
def mergeReference (existing incoming : CompactedReferenceState) : CompactedReferenceState :=
  { incoming with prices := fun f => (incoming.prices f).or (existing.prices f) }

/-- `_classify`. -/
def classify (incoming : CompactedReferenceState) (existing : Option CompactedReferenceState) :
    ReferenceOutcome :=
  match existing with
  | none => .written
  | some existing =>
    if incoming.ordering < existing.ordering then .staleRejected
    else if incoming.ordering = existing.ordering then .duplicate
    else .merged

/-! ## Stored JSON -/

/-- A JSON number that stands for a natural: an integer literal, or one with an exponent. -/
inductive NumberLiteral where
  | integer (n : ℕ)
  | exponent (value : ℕ)
  deriving DecidableEq, Repr

def NumberLiteral.value : NumberLiteral → ℕ
  | .integer n => n
  | .exponent value => value

/-- A stored `CompactedReferenceState`: texts are kept as they are, numbers as literals. -/
structure StoredReference where
  instrumentIdentity : String
  tradingDate : Int
  updatedAt : Int
  universeVersion : NumberLiteral
  producerId : String
  producerEpoch : NumberLiteral
  producerSequence : NumberLiteral
  prices : PriceField → Option Price

/-- `model_dump_json`. -/
def dump (s : CompactedReferenceState) : StoredReference :=
  { instrumentIdentity := s.instrumentIdentity, tradingDate := s.tradingDate,
    updatedAt := s.updatedAt, universeVersion := .integer s.universeVersion,
    producerId := s.producerId, producerEpoch := .integer s.producerEpoch,
    producerSequence := .integer s.producerSequence, prices := s.prices }

/-- `_safe_load`: strict integers refuse a literal with an exponent. -/
def safeLoad (s : StoredReference) : Option CompactedReferenceState :=
  match s.universeVersion, s.producerEpoch, s.producerSequence with
  | .integer universeVersion, .integer producerEpoch, .integer producerSequence =>
    some { instrumentIdentity := s.instrumentIdentity, tradingDate := s.tradingDate,
           updatedAt := s.updatedAt, universeVersion, producerId := s.producerId,
           producerEpoch, producerSequence, prices := s.prices }
  | _, _, _ => none

@[simp] theorem safeLoad_dump (s : CompactedReferenceState) : safeLoad (dump s) = some s := rfl

/-! ## The script -/

/-- `cjson.encode` of a number; infinity is an error. -/
def cjsonNumber : WithTop ℕ → Option NumberLiteral
  | ⊤ => none
  | WithTop.some n => some (if n < 10 ^ 14 then .integer n else .exponent (roundSignificant 10 14 n))

/-- `cjson.encode` of the decoded incoming state with the price fields filled from the existing
    one. -/
def encodeMerged (existing : StoredReference) (incoming : CompactedReferenceState) :
    Option StoredReference := do
  let universeVersion ← cjsonNumber (toDouble incoming.universeVersion)
  let producerEpoch ← cjsonNumber (toDouble incoming.producerEpoch)
  let producerSequence ← cjsonNumber (toDouble incoming.producerSequence)
  return { dump incoming with
    universeVersion, producerEpoch, producerSequence,
    prices := fun f => (incoming.prices f).or (existing.prices f) }

/-- `_COMPACT_LUA`: the status and, when the script writes, the new value; `none` when it raises. -/
def compactScript (existing : Option StoredReference) (incoming : CompactedReferenceState) :
    Option (ReferenceOutcome × Option StoredReference) :=
  match existing with
  | none => some (.written, some (dump incoming))
  | some ex =>
    let incEpoch := toDouble incoming.producerEpoch
    let incSeq := toDouble incoming.producerSequence
    let exEpoch := toDouble ex.producerEpoch.value
    let exSeq := toDouble ex.producerSequence.value
    if incEpoch < exEpoch ∨ (incEpoch = exEpoch ∧ incSeq < exSeq) then some (.staleRejected, none)
    else if incEpoch = exEpoch ∧ incSeq = exSeq then some (.duplicate, none)
    else (encodeMerged ex incoming).map fun merged => (.merged, some merged)

/-! ## The store and the writer -/

/-- The hash of one trading date: its fields and the time to live set last. -/
structure ReferenceHash where
  entries : Dict String StoredReference
  ttl : ℕ

/-- `RedisCompactedReferenceStore`: the hashes by trading date. -/
structure ReferenceStore where
  ttlSeconds : ℕ
  hashes : Dict Int ReferenceHash := []

/-- `HGET`. -/
def ReferenceStore.entry (s : ReferenceStore) (tradingDate : Int) (identity : String) :
    Option StoredReference :=
  (s.hashes.get tradingDate).bind fun h => h.entries.get identity

/-- `HSET`, then `EXPIRE`. -/
def ReferenceStore.write (s : ReferenceStore) (tradingDate : Int) (identity : String)
    (value : StoredReference) : ReferenceStore :=
  let entries : Dict String StoredReference := (s.hashes.get tradingDate).elim [] (·.entries)
  { s with hashes := s.hashes.set tradingDate ⟨entries.set identity value, s.ttlSeconds⟩ }

/-- `RedisCompactedReferenceStore.compact`; `none` when the script raises. -/
def ReferenceStore.compact (s : ReferenceStore) (incoming : CompactedReferenceState) :
    Option (ReferenceStore × ReferenceOutcome) :=
  (compactScript (s.entry incoming.tradingDate incoming.instrumentIdentity) incoming).map
    fun (status, value) =>
      (value.elim s (s.write incoming.tradingDate incoming.instrumentIdentity), status)

/-- `RedisCompactedReferenceStore.get`. -/
def ReferenceStore.get (s : ReferenceStore) (tradingDate : Int) (identity : String) :
    Option CompactedReferenceState :=
  (s.entry tradingDate identity).bind safeLoad

/-- The price fields of a payload that carries reference data. -/
def referencePrices : IpcPayload → Option (PriceField → Option Price)
  | .marketReference r => some fun
    | .previousClose => some r.previousClose
    | _ => none
  | .tick t => t.sessionOhlc.map fun ohlc => fun
    | .previousClose => none
    | .sessionOpen => some ohlc.openPrice
    | .sessionHigh => some ohlc.highPrice
    | .sessionLow => some ohlc.lowPrice
    | .sessionClose => some ohlc.closePrice
  | _ => none

/-- `reference_from_envelope`. -/
def referenceFromEnvelope (P : Parsers) (e : MarketEventEnvelope) :
    Check (Option CompactedReferenceState) :=
  (fun payload => (referencePrices payload).map fun prices =>
    { instrumentIdentity := e.instrumentIdentity.1.1, tradingDate := e.tradingDate,
      updatedAt := e.producedAt, universeVersion := e.universeVersion,
      producerId := e.producerId.1, producerEpoch := e.producerEpoch,
      producerSequence := e.producerSequence, prices }) <$>
    decodePayload P e.eventKind e.payload.1.1

/-- `_WriterCounters`. -/
structure WriterCounters where
  attempted : ℕ := 0
  written : ℕ := 0
  failures : ℕ := 0
  previousClose : ℕ := 0
  sessionOpen : ℕ := 0
  stale : ℕ := 0
  duplicate : ℕ := 0
  noReferenceData : ℕ := 0

/-- `ReferenceStateWriter` with the store it writes to. -/
structure ReferenceWriter where
  store : ReferenceStore
  counters : WriterCounters := {}
  lastSuccessAt : Option Int := none
  lastFailureAt : Option Int := none

/-- What one call of `update` reads: the envelope, whether the script is run or the transport
    fails, and the clock. -/
structure UpdateCall where
  envelope : MarketEventEnvelope
  transport : Bool := true
  now : Int := 0

/-- `_fail`. -/
def ReferenceWriter.fail (w : ReferenceWriter) (now : Int) : ReferenceWriter :=
  { w with counters := { w.counters with failures := w.counters.failures + 1 },
           lastFailureAt := some now }

/-- `_record`. -/
def ReferenceWriter.record (w : ReferenceWriter) (outcome : ReferenceOutcome)
    (incoming : CompactedReferenceState) (now : Int) : ReferenceWriter :=
  let c := w.counters
  match outcome with
  | .written | .merged =>
    { w with
      counters := { c with
        written := c.written + 1,
        previousClose := c.previousClose + if (incoming.prices .previousClose).isSome then 1 else 0,
        sessionOpen := c.sessionOpen + if (incoming.prices .sessionOpen).isSome then 1 else 0 },
      lastSuccessAt := some now }
  | .staleRejected => { w with counters := { c with stale := c.stale + 1 } }
  | .duplicate => { w with counters := { c with duplicate := c.duplicate + 1 } }
  | .writeFailed => w.fail now
  | .noReferenceData => w

/-- `ReferenceStateWriter.update`. -/
def ReferenceWriter.update (P : Parsers) (w : ReferenceWriter) (call : UpdateCall) :
    ReferenceWriter × Except PyException ReferenceOutcome :=
  let w := { w with counters := { w.counters with attempted := w.counters.attempted + 1 } }
  match referenceFromEnvelope P call.envelope with
  | .raised => (w, .error .overflowError)
  | .invalid => (w.fail call.now, .ok .writeFailed)
  | .ok none =>
    ({ w with counters := { w.counters with noReferenceData := w.counters.noReferenceData + 1 } },
      .ok .noReferenceData)
  | .ok (some incoming) =>
    if call.transport then
      match w.store.compact incoming with
      | none => (w.fail call.now, .ok .writeFailed)
      | some (store, outcome) =>
        ({ w with store }.record outcome incoming call.now, .ok outcome)
    else (w.fail call.now, .ok .writeFailed)

/-! ## The documented merge -/

/-- What `_classify` and `merge_reference` leave stored. -/
def compactState (existing : Option CompactedReferenceState) (incoming : CompactedReferenceState) :
    Option CompactedReferenceState :=
  match classify incoming existing with
  | .written => some incoming
  | .merged => existing.map (mergeReference · incoming)
  | _ => existing

theorem compactState_none (incoming : CompactedReferenceState) :
    compactState none incoming = some incoming := rfl

theorem compactState_some (existing incoming : CompactedReferenceState) :
    compactState (some existing) incoming =
      some (if existing.ordering < incoming.ordering then mergeReference existing incoming
        else existing) := by
  simp only [compactState, classify]
  rcases lt_trichotomy incoming.ordering existing.ordering with h | h | h
  · simp [h, h.le]
  · simp [h]
  · simp [h, h.ne', not_lt_of_gt h]

/-- The compaction of a sequence of states. -/
def compactAll (states : List CompactedReferenceState) : Option CompactedReferenceState :=
  states.foldl compactState none

/-- The latest price of each field along a sequence. -/
def latestPrices (states : List CompactedReferenceState) (f : PriceField) : Option Price :=
  latest (·.prices f) states

theorem latestPrices_concat (states : List CompactedReferenceState) (s : CompactedReferenceState) :
    latestPrices (states ++ [s]) = fun f => (s.prices f).or (latestPrices states f) :=
  funext fun _ => latest_concat _ states s

theorem latestPrices_singleton (s : CompactedReferenceState) : latestPrices [s] = s.prices := by
  rw [← List.nil_append [s], latestPrices_concat]
  exact funext fun _ => Option.or_none

/-- The state compacted from a sequence is its last record, with the latest price of each field
    among the records. -/
theorem compactAll_eq (states : List CompactedReferenceState) :
    compactAll states = (records CompactedReferenceState.ordering states).getLast?.map
      (·.withPrices (latestPrices (records CompactedReferenceState.ordering states))) := by
  induction states using List.reverseRecOn with
  | nil => rfl
  | append_singleton states s ih =>
    have hstep : compactAll (states ++ [s]) = compactState (compactAll states) s := by
      simp [compactAll]
    have hsorted := records_pairwise CompactedReferenceState.ordering states
    rw [hstep, ih, records_concat, keepNewer]
    generalize records CompactedReferenceState.ordering states = rs at hsorted
    rcases List.eq_nil_or_concat rs with rfl | ⟨rs, last, rfl⟩
    · simp [compactState_none, latestPrices_singleton, CompactedReferenceState.withPrices]
    · rw [List.concat_eq_append] at hsorted ⊢
      obtain ⟨-, -, hlast⟩ := List.pairwise_append.mp hsorted
      -- the last record is the newest, so only it has to be compared
      have hnewer : (∀ y ∈ rs ++ [last], y.ordering < s.ordering) ↔
          last.ordering < s.ordering := by
        constructor
        · intro h
          exact h last (by simp)
        · intro h y hy
          rcases List.mem_append.mp hy with hy | hy
          · exact (hlast y hy last (by simp)).trans h
          · rwa [List.mem_singleton.mp hy]
      rw [List.getLast?_concat, Option.map_some, compactState_some,
        CompactedReferenceState.ordering_withPrices]
      by_cases h : last.ordering < s.ordering
      · have hprices : mergeReference (last.withPrices (latestPrices (rs ++ [last]))) s =
            s.withPrices (latestPrices (rs ++ [last] ++ [s])) := by
          rw [latestPrices_concat _ s]
          rfl
        rw [if_pos (hnewer.mpr h), List.getLast?_concat, if_pos h, hprices, Option.map_some]
      · rw [if_neg fun h' => h (hnewer.mp h'), List.getLast?_concat, if_neg h, Option.map_some]

/-! ## The script is the documented merge -/

/-- Numbers that a double and 14 decimal digits hold exactly. -/
structure CompactedReferenceState.Exact (s : CompactedReferenceState) : Prop where
  universeVersion : s.universeVersion < 10 ^ 14
  producerEpoch : s.producerEpoch < 10 ^ 14
  producerSequence : s.producerSequence < 10 ^ 14

theorem toDouble_of_exact {n : ℕ} (h : n < 10 ^ 14) : toDouble n = WithTop.some n :=
  toDouble_eq_self (h.trans (by decide))

theorem cjsonNumber_of_exact {n : ℕ} (h : n < 10 ^ 14) :
    cjsonNumber (toDouble n) = some (.integer n) := by
  rw [toDouble_of_exact h]
  exact congrArg some (if_pos h)

theorem encodeMerged_dump {existing incoming : CompactedReferenceState} (h : incoming.Exact) :
    encodeMerged (dump existing) incoming = some (dump (mergeReference existing incoming)) := by
  simp only [encodeMerged, cjsonNumber_of_exact h.universeVersion,
    cjsonNumber_of_exact h.producerEpoch, cjsonNumber_of_exact h.producerSequence]
  rfl

theorem ordering_lt_iff (s t : CompactedReferenceState) :
    s.ordering < t.ordering ↔ s.producerEpoch < t.producerEpoch ∨
      (s.producerEpoch = t.producerEpoch ∧ s.producerSequence < t.producerSequence) :=
  Prod.Lex.toLex_lt_toLex

theorem ordering_eq_iff (s t : CompactedReferenceState) :
    s.ordering = t.ordering ↔
      s.producerEpoch = t.producerEpoch ∧ s.producerSequence = t.producerSequence := by
  simp [CompactedReferenceState.ordering, Prod.ext_iff]

theorem compactScript_dump_some {existing incoming : CompactedReferenceState}
    (hex : existing.Exact) (hin : incoming.Exact) :
    compactScript (some (dump existing)) incoming =
      if incoming.ordering < existing.ordering then some (.staleRejected, none)
      else if incoming.ordering = existing.ordering then some (.duplicate, none)
      else some (.merged, some (dump (mergeReference existing incoming))) := by
  have hepoch : toDouble (dump existing).producerEpoch.value =
      WithTop.some existing.producerEpoch := toDouble_of_exact hex.producerEpoch
  have hseq : toDouble (dump existing).producerSequence.value =
      WithTop.some existing.producerSequence := toDouble_of_exact hex.producerSequence
  simp only [compactScript, hepoch, hseq, toDouble_of_exact hin.producerEpoch,
    toDouble_of_exact hin.producerSequence, encodeMerged_dump hin, ordering_lt_iff,
    ordering_eq_iff, WithTop.coe_lt_coe, WithTop.coe_inj, Option.map_some]

/-- On exact numbers the script returns what `_classify` gives and leaves what the documented merge
    leaves. -/
theorem compactScript_dump {existing : Option CompactedReferenceState}
    {incoming : CompactedReferenceState} (hex : ∀ s ∈ existing, s.Exact) (hin : incoming.Exact) :
    ∃ value, compactScript (existing.map dump) incoming =
        some (classify incoming existing, value) ∧
      value.or (existing.map dump) = (compactState existing incoming).map dump := by
  cases existing with
  | none => exact ⟨_, rfl, rfl⟩
  | some existing =>
    rw [Option.map_some, compactScript_dump_some (hex existing rfl) hin]
    by_cases hstale : incoming.ordering < existing.ordering
    · exact ⟨none, by simp [hstale, classify], by simp [compactState, classify, hstale]⟩
    · by_cases hsame : incoming.ordering = existing.ordering
      · exact ⟨none, by simp [hsame, classify], by simp [compactState, classify, hsame]⟩
      · exact ⟨some (dump (mergeReference existing incoming)), by simp [hstale, hsame, classify],
          by simp [compactState, classify, hstale, hsame]⟩

end ApexScan.Ipc
