import ApexScan.Ipc.Consumer
import ApexScan.Lib.Machine
import ApexScan.Lib.Window
import Mathlib.Algebra.GroupWithZero.Nat

/-!
# Polling a stream (`app/market_ipc/consumer.py`, `app/market_ipc/transport.py`)

`poll_once` claims a page of stale pending entries, handles them, reads new entries and handles those.
An entry is pending from its delivery until it is acknowledged; what is not acknowledged is claimed
again.

* `EventStream` — the entries, the read cursor and the pending ids.
* `Conduct`, `PollCall` — what a poll meets: which pending entries are stale, how many new ones are
  read, failing claims and reads, and the sink, the acknowledgement and the clock for each entry.
* `pollOnce`, `step` — one poll; publishes and polls as a machine whose outputs are the `Handling`s.
* `Accounted` — what is to hold after every run: no event lost or applied twice, and every delivery in
  the counters.

Main result: `consumption_accounted_iff`.  `raising_entry_uncounted` is a poll after which the counters
do not add up.
-/

set_option autoImplicit false

namespace ApexScan.Ipc

open Lib

/-! ## The stream -/

/-- A `MarketEventStream` with one consumer group.  The id of an entry is its position. -/
structure EventStream where
  entries : List (Option ByteArray) := []
  cursor : ℕ := 0
  pending : List ℕ := []

namespace EventStream

/-- `publish`. -/
def publish (s : EventStream) (raw : Option ByteArray) : EventStream :=
  { s with entries := s.entries ++ [raw] }

def publishAll (s : EventStream) (raws : List (Option ByteArray)) : EventStream :=
  { s with entries := s.entries ++ raws }

/-- The ids of the next `count` entries, or of those that are there. -/
def newIds (s : EventStream) (count : ℕ) : List ℕ :=
  List.range' s.cursor (min count (s.entries.length - s.cursor))

/-- `read_raw`: the entries read are pending from then on. -/
def readRaw (s : EventStream) (count : ℕ) : EventStream :=
  { s with cursor := s.cursor + min count (s.entries.length - s.cursor)
           pending := s.pending ++ s.newIds count }

/-- `claim_page_raw`: pending entries, those that are stale. -/
def claimPage (s : EventStream) (stale : List ℕ) : List ℕ := s.pending.filter (· ∈ stale)

/-- `ack`. -/
def ack (s : EventStream) (id : ℕ) : EventStream := { s with pending := s.pending.filter (· ≠ id) }

end EventStream

/-! ## Polls -/

/-- The two authorities the gates read. -/
structure Authorities where
  currentDate : Option Int
  universeVersion : Option ℕ

/-- What the handling of one entry meets. -/
structure Conduct where
  sinkApplies : Bool := true
  ackSucceeds : Bool := true
  receivedAt : Int := 0
  ageAt : Int := 0
  appliedAt : Int := 0
  finishedAt : Int := 0

/-- What one call of `poll_once` meets. -/
structure PollCall where
  /-- The stale entries, or `none` for a `RedisError`. -/
  claim : Option (List ℕ)
  /-- What is published while the claimed page is handled. -/
  arriving : List (Option ByteArray) := []
  /-- How many entries the read gives at most, or `none` for a `RedisError`. -/
  read : Option ℕ
  conduct : ℕ → Conduct := fun _ => {}
  now : Int := 0

/-- A consumer with its stream. -/
structure Node where
  stream : EventStream := {}
  consumer : Consumer
  readFailures : ℕ := 0

/-- One call of `_handle`: the entry's id, the consumer before and what the call read. -/
structure Handling where
  id : ℕ
  before : Consumer
  delivery : Delivery

section Poll

variable (P : Parsers) (A : Authorities)

def Handling.after (r : Handling) : Consumer := (handle P r.before r.delivery).1

def Handling.handled (r : Handling) : Handled := (handle P r.before r.delivery).2

/-- What `_handle` reads for one entry. -/
def deliver (s : EventStream) (conduct : ℕ → Conduct) (claimed : Bool) (id : ℕ) : Delivery where
  raw := (s.entries[id]?).getD none
  claimed
  currentDate := A.currentDate
  universeVersion := A.universeVersion
  sinkApplies := (conduct id).sinkApplies
  ackSucceeds := (conduct id).ackSucceeds
  receivedAt := (conduct id).receivedAt
  ageAt := (conduct id).ageAt
  appliedAt := (conduct id).appliedAt
  finishedAt := (conduct id).finishedAt

/-- The consumer and the stream after one call of `_handle`. -/
def Node.apply (n : Node) (r : Handling) : Node :=
  { n with
    consumer := r.after P
    stream := if (r.handled P).acked then n.stream.ack r.id else n.stream }

/-- The loops of `poll_once`; an exception leaves the rest of the entries pending. -/
def handleEntries (conduct : ℕ → Conduct) (claimed : Bool) :
    List ℕ → Node → Node × List Handling × Bool
  | [], n => (n, [], true)
  | id :: ids, n =>
    let r : Handling := ⟨id, n.consumer, deliver A n.stream conduct claimed id⟩
    match (r.handled P).result with
    | .error _ => (n.apply P r, [r], false)
    | .ok _ =>
      let (n, rs, returned) := handleEntries conduct claimed ids (n.apply P r)
      (n, r :: rs, returned)

/-- `_record_read_failure`. -/
def Node.recordReadFailure (n : Node) (now : Int) : Node :=
  { n with readFailures := n.readFailures + 1
           consumer := { n.consumer with lastErrorAt := some now } }

/-- `poll_once`: the node and the calls of `_handle`, in order. -/
def pollOnce (n : Node) (call : PollCall) : Node × List Handling :=
  match call.claim with
  | none => (n.recordReadFailure call.now, [])
  | some stale =>
    let (n, claimed, returned) :=
      handleEntries P A call.conduct true (n.stream.claimPage stale) n
    let n := { n with stream := n.stream.publishAll call.arriving }
    if returned then
      match call.read with
      | none => (n.recordReadFailure call.now, claimed)
      | some count =>
        let (n, new, _) := handleEntries P A call.conduct false (n.stream.newIds count)
          { n with stream := n.stream.readRaw count }
        (n, claimed ++ new)
    else (n, claimed)

/-- Publishes and polls. -/
inductive StreamOp where
  | publish (raw : Option ByteArray)
  | poll (call : PollCall)

def streamStep (n : Node) : StreamOp → Node × List Handling
  | .publish raw => ({ n with stream := n.stream.publish raw }, [])
  | .poll call => pollOnce P A n call

/-- All calls of `_handle` along a run. -/
def handlings (n : Node) (ops : List StreamOp) : List Handling := (outs (streamStep P A) n ops).flatten

end Poll

/-! ## What is to hold -/

/-- `received + claimed`. -/
def ConsumerCounters.delivered (k : ConsumerCounters) : ℕ := k.received + k.claimed

/-- `acked + ack_failures + sink_failures`. -/
def ConsumerCounters.finished (k : ConsumerCounters) : ℕ :=
  k.acked + k.ackFailures + k.byOutcome .sinkFailed

/-- The outcomes with a counter of their own: applied, duplicate, the rejections and sink failures. -/
def MessageOutcome.counted : List MessageOutcome :=
  [.applied, .duplicate, .staleTradingDate, .futureTradingDate, .olderUniverse, .newerUniverse,
   .unknownUniverse, .envelopeDecodeFailed, .unsupportedSchema, .payloadDecodeFailed,
   .eventKindMismatch, .sinkFailed]

/-- The sum of the outcome counters. -/
def ConsumerCounters.classified (k : ConsumerCounters) : ℕ :=
  (MessageOutcome.counted.map k.byOutcome).sum

section Accounts

variable (P : Parsers)

/-- The identity whose event the call applied. -/
def Handling.applied (r : Handling) : Option ProducerEventIdentity :=
  (r.handled P).event.map fun event => .fromEnvelope event.1

/-- The identities applied, in order. -/
def appliedIds (log : List Handling) : List ProducerEventIdentity := log.filterMap (·.applied P)

/-- An acknowledgement is in order: the call applied the event, or it rejected the entry in decoding
    or at a gate, or an earlier call had applied an event of its identity. -/
def AckInOrder (earlier : List Handling) (r : Handling) : Prop :=
  (r.handled P).acked = true →
    ((r.handled P).result = .ok .applied ∧ (r.applied P).isSome = true) ∨
    (∃ o, (r.handled P).result = .ok o ∧ o.isRejection = true ∧ o ≠ .duplicate) ∨
    ((r.handled P).result = .ok .duplicate ∧ ∃ envelope,
      decodeEnvelopeStep P r.delivery.raw = .value envelope ∧
      .fromEnvelope envelope ∈ r.before.seen ∧ .fromEnvelope envelope ∈ appliedIds P earlier)

/-- **No event is lost or applied twice, and every delivery is counted.** -/
structure Accounted (log : List Handling) (n : Node) : Prop where
  /-- Acknowledgements are in order, and an entry leaves the pending ones by an acknowledgement. -/
  acks : ∀ earlier r later, log = earlier ++ r :: later → AckInOrder P earlier r
  pending : ∀ id, id ∈ n.stream.pending ↔
    id < n.stream.cursor ∧ ∀ r ∈ log, r.id = id → (r.handled P).acked = false
  /-- An entry whose sink failed is neither acknowledged nor recorded. -/
  sinkFailures : ∀ r ∈ log, (r.handled P).result = .ok .sinkFailed →
    (r.handled P).acked = false ∧ r.applied P = none ∧ (r.after P).seen = r.before.seen
  /-- Between two applications of one identity there are `maxEntries` distinct others. -/
  repeated : ∀ pre mid post id, appliedIds P log = pre ++ id :: mid ++ id :: post →
    n.consumer.maxEntries ≤ (mid.filter (· ≠ id)).dedup.length
  finished : n.consumer.counters.delivered = n.consumer.counters.finished
  classified : n.consumer.counters.finished = n.consumer.counters.classified

end Accounts

/-! ## One call -/

/-- What one call of `_handle` can do: raise, leave the entry pending after a sink failure, or close it
    with a terminal outcome and try to acknowledge it. -/
inductive HandleCase (P : Parsers) (c : Consumer) (d : Delivery) (c' : Consumer) (h : Handled) : Prop
  | raised (exception : PyException) (result : h.result = .error exception) (acked : h.acked = false)
      (event : h.event = none) (seen : c'.seen = c.seen)
      (finished : c'.counters.finished = c.counters.finished)
      (classified : c'.counters.classified = c.counters.classified)
  | sinkFailed (result : h.result = .ok .sinkFailed) (acked : h.acked = false)
      (event : h.event = none) (seen : c'.seen = c.seen)
      (finished : c'.counters.finished = c.counters.finished + 1)
      (classified : c'.counters.classified = c.counters.classified + 1)
  | rejected (o : MessageOutcome) (rejection : o.isRejection = true)
      (result : (h.result = .ok o ∧ h.acked = true) ∨ (h.result = .ok .ackFailed ∧ h.acked = false))
      (duplicate : o = .duplicate → ∃ envelope, decodeEnvelopeStep P d.raw = .value envelope ∧
        .fromEnvelope envelope ∈ c.seen)
      (event : h.event = none) (seen : c'.seen = c.seen)
      (finished : c'.counters.finished = c.counters.finished + 1)
      (classified : c'.counters.classified = c.counters.classified + 1)
  | applied (envelope : MarketEventEnvelope) (payload : IpcPayload)
      (result : (h.result = .ok .applied ∧ h.acked = true) ∨
        (h.result = .ok .ackFailed ∧ h.acked = false))
      (event : h.event = some (envelope, payload)) (fresh : .fromEnvelope envelope ∉ c.seen)
      (seen : c'.seen = (c.record (.fromEnvelope envelope)).seen)
      (finished : c'.counters.finished = c.counters.finished + 1)
      (classified : c'.counters.classified = c.counters.classified + 1)

/-- Adding one at a key adds as many to a sum as it has occurrences of the key. -/
theorem sum_map_bump (f : MessageOutcome → ℕ) (o : MessageOutcome) (outcomes : List MessageOutcome) :
    (outcomes.map fun o' => if o' = o then f o' + 1 else f o').sum =
      (outcomes.map f).sum + outcomes.count o := by
  induction outcomes with
  | nil => rfl
  | cons o' outcomes ih =>
    rw [List.map_cons, List.sum_cons, ih, List.map_cons, List.sum_cons, List.count_cons]
    split
    · rename_i heq
      rw [if_pos (beq_iff_eq.mpr heq)]
      omega
    · rename_i hne
      rw [if_neg (fun h => hne (beq_iff_eq.mp h))]
      omega

/-- Counting an outcome adds one to the sum of the counters. -/
theorem classified_count (c : Consumer) {o : MessageOutcome} (h : o ≠ .ackFailed) :
    (c.count o).counters.classified = c.counters.classified + 1 := by
  have honce : MessageOutcome.counted.count o = 1 := by
    cases o with
    | ackFailed => exact absurd rfl h
    | _ => rfl
  unfold ConsumerCounters.classified Consumer.count
  rw [sum_map_bump, honce]

theorem finished_count (c : Consumer) {o : MessageOutcome} (h : o ≠ .sinkFailed) :
    (c.count o).counters.finished = c.counters.finished := by
  unfold ConsumerCounters.finished Consumer.count
  simp [h.symm]

theorem finished_count_sinkFailed (c : Consumer) :
    (c.count .sinkFailed).counters.finished = c.counters.finished + 1 := by
  unfold ConsumerCounters.finished Consumer.count
  simp only [if_true]
  omega

/-- A terminal outcome is acknowledged, or the acknowledgement failed; either counts as finished. -/
theorem finalize_spec (c : Consumer) (d : Delivery) (o : MessageOutcome)
    (event : Option (MarketEventEnvelope × IpcPayload)) :
    (((finalize c d o event).2.result = .ok o ∧ (finalize c d o event).2.acked = true) ∨
      ((finalize c d o event).2.result = .ok .ackFailed ∧
        (finalize c d o event).2.acked = false)) ∧
    (finalize c d o event).2.event = event ∧
    (finalize c d o event).1.seen = c.seen ∧
    (finalize c d o event).1.maxEntries = c.maxEntries ∧
    (finalize c d o event).1.counters.delivered = c.counters.delivered ∧
    (finalize c d o event).1.counters.finished = c.counters.finished + 1 ∧
    (finalize c d o event).1.counters.classified = c.counters.classified := by
  unfold finalize
  cases d.ackSucceeds with
  | true =>
    refine ⟨Or.inl ⟨rfl, rfl⟩, rfl, rfl, rfl, rfl, ?_, rfl⟩
    simp only [if_true, ConsumerCounters.finished]
    omega
  | false =>
    refine ⟨Or.inr ⟨rfl, rfl⟩, rfl, rfl, rfl, rfl, ?_, rfl⟩
    simp only [Bool.false_eq_true, if_false, ConsumerCounters.finished]
    omega

/-- The decoders and the gates do not reject as duplicate. -/
theorem decodeEnvelopeStep_ne_duplicate {P : Parsers} {raw : Option ByteArray} :
    decodeEnvelopeStep P raw ≠ .reject .duplicate := by
  intro h
  unfold decodeEnvelopeStep at h
  split at h
  · cases h
  · split at h
    · cases h
    · split at h
      · cases h
      · cases h
      · split at h <;> cases h

theorem decodePayloadStep_ne_duplicate {P : Parsers} {envelope : MarketEventEnvelope} :
    decodePayloadStep P envelope ≠ .reject .duplicate := by
  intro h
  unfold decodePayloadStep at h
  split at h
  · cases h
  · cases h
  · split at h <;> cases h

theorem gate_ne_duplicate {date : Option Int} {version : Option ℕ} {envelope : MarketEventEnvelope} :
    gate date version envelope ≠ some .duplicate := by
  intro h
  unfold gate at h
  simp only at h
  split at h
  · split at h <;> cases h
  · split at h
    · cases h
    · split at h
      · cases h
      · split at h <;> cases h

/-- The same consumer but for markers and the counters of deliveries. -/
structure Entered (c c₀ : Consumer) : Prop where
  seen : c₀.seen = c.seen
  maxEntries : c₀.maxEntries = c.maxEntries
  delivered : c₀.counters.delivered = c.counters.delivered + 1
  finished : c₀.counters.finished = c.counters.finished
  classified : c₀.counters.classified = c.counters.classified

/-- The call counted the delivery, kept the capacity, and did one of the four things. -/
def Handles (P : Parsers) (c : Consumer) (d : Delivery) (out : Consumer × Handled) : Prop :=
  HandleCase P c d out.1 out.2 ∧ out.1.maxEntries = c.maxEntries ∧
    out.1.counters.delivered = c.counters.delivered + 1

section Cases

variable {P : Parsers} {c c₀ : Consumer} {d : Delivery}

theorem handles_raised (h : Entered c c₀) (exception : PyException) :
    Handles P c d (c₀, { result := .error exception }) :=
  ⟨.raised exception rfl rfl rfl h.seen h.finished h.classified, h.maxEntries, h.delivered⟩

theorem handles_rejected (h : Entered c c₀) {o : MessageOutcome} (ho : o.isRejection = true)
    (hdup : o = .duplicate → ∃ envelope, decodeEnvelopeStep P d.raw = .value envelope ∧
      .fromEnvelope envelope ∈ c.seen) :
    Handles P c d (finalize (c₀.count o) d o) := by
  obtain ⟨hresult, hevent, hseen, hmax, hdelivered, hfinished, hclassified⟩ :=
    finalize_spec (c₀.count o) d o none
  have hsink : o ≠ .sinkFailed := by rintro rfl; cases ho
  have hack : o ≠ .ackFailed := by rintro rfl; cases ho
  refine ⟨.rejected o ho hresult hdup hevent (hseen.trans h.seen) ?_ ?_, hmax.trans h.maxEntries,
    hdelivered.trans h.delivered⟩
  · rw [hfinished, finished_count _ hsink, h.finished]
  · rw [hclassified, classified_count _ hack, h.classified]

theorem handles_applyAndAck (h : Entered c c₀) (envelope : MarketEventEnvelope)
    (payload : IpcPayload) (hfresh : .fromEnvelope envelope ∉ c.seen) :
    Handles P c d (applyAndAck c₀ d envelope payload) := by
  unfold applyAndAck
  split
  · set c₁ : Consumer := { (c₀.record (.fromEnvelope envelope)).count .applied with
      lastAppliedAt := some d.appliedAt }
    obtain ⟨hresult, hevent, hseen, hmax, hdelivered, hfinished, hclassified⟩ :=
      finalize_spec c₁ d .applied (some (envelope, payload))
    have hrecord : (c₀.record (.fromEnvelope envelope)).seen =
        (c.record (.fromEnvelope envelope)).seen := by
      simp only [Consumer.record, h.seen, h.maxEntries]
    refine ⟨.applied envelope payload hresult hevent hfresh (hseen.trans hrecord) ?_ ?_,
      hmax.trans h.maxEntries, hdelivered.trans h.delivered⟩
    · rw [hfinished, ← h.finished]
      exact congrArg (· + 1) (finished_count (c₀.record _) (by decide))
    · rw [hclassified, ← h.classified]
      exact classified_count (c₀.record _) (by decide)
  · refine ⟨.sinkFailed rfl rfl rfl h.seen ?_ ?_, h.maxEntries, h.delivered⟩
    · rw [← h.finished]
      exact finished_count_sinkFailed c₀
    · rw [← h.classified]
      exact classified_count c₀ (by decide)

end Cases

/-- **What one call of `_handle` does**, for every entry and consumer state. -/
theorem handle_handles (P : Parsers) (c : Consumer) (d : Delivery) : Handles P c d (handle P c d) := by
  unfold handle
  simp only
  set c₀ : Consumer := { c with
    counters := if d.claimed then { c.counters with claimed := c.counters.claimed + 1 }
      else { c.counters with received := c.counters.received + 1 }
    lastReceivedAt := some d.receivedAt } with hc₀
  have hentered : Entered c c₀ := by
    rw [hc₀]
    cases d.claimed with
    | true =>
      refine ⟨rfl, rfl, ?_, rfl, rfl⟩
      simp only [if_true, ConsumerCounters.delivered]
      omega
    | false =>
      refine ⟨rfl, rfl, ?_, rfl, rfl⟩
      simp only [Bool.false_eq_true, if_false, ConsumerCounters.delivered]
      omega
  split
  · exact handles_raised hentered _
  · rename_i o hstep
    refine handles_rejected hentered (decodeEnvelopeStep_reject hstep) ?_
    rintro rfl
    exact absurd hstep decodeEnvelopeStep_ne_duplicate
  · rename_i envelope hstep
    set c₁ : Consumer := { c₀ with lastEventAge := some (d.ageAt - envelope.producedAt) }
    have hentered₁ : Entered c c₁ := ⟨hentered.seen, hentered.maxEntries, hentered.delivered,
      hentered.finished, hentered.classified⟩
    split
    · rename_i o hgate
      refine handles_rejected hentered₁ (gate_reject hgate) ?_
      rintro rfl
      exact absurd hgate gate_ne_duplicate
    · split
      · rename_i hseen
        refine handles_rejected hentered₁ rfl ?_
        intro _
        exact ⟨envelope, hstep, hentered.seen ▸ hseen⟩
      · rename_i hseen
        split
        · exact handles_raised hentered₁ _
        · rename_i o hpayload
          refine handles_rejected hentered₁ (decodePayloadStep_reject hpayload) ?_
          rintro rfl
          exact absurd hpayload decodePayloadStep_ne_duplicate
        · rename_i payload hpayload
          exact handles_applyAndAck hentered₁ envelope payload (hentered.seen ▸ hseen)

/-! ## The invariant -/

section Invariant

variable (P : Parsers)

/-- The call left `_handle` with an exception. -/
def Handling.raised (r : Handling) : Bool :=
  match (r.handled P).result with
  | .error _ => true
  | .ok _ => false

/-- The invariant of a node after the calls `log`. -/
structure Kept (log : List Handling) (n : Node) : Prop where
  delivered_lt : ∀ r ∈ log, r.id < n.stream.cursor
  acks : ∀ earlier r later, log = earlier ++ r :: later → AckInOrder P earlier r
  pending : ∀ id, id ∈ n.stream.pending ↔
    id < n.stream.cursor ∧ ∀ r ∈ log, r.id = id → (r.handled P).acked = false
  sinkFailures : ∀ r ∈ log, (r.handled P).result = .ok .sinkFailed →
    (r.handled P).acked = false ∧ r.applied P = none ∧ (r.after P).seen = r.before.seen
  seen : n.consumer.seen = (appliedIds P log).rtake n.consumer.maxEntries
  novel : Novel n.consumer.maxEntries (appliedIds P log)
  finished : n.consumer.counters.delivered =
    n.consumer.counters.finished + log.countP (·.raised P)
  classified : n.consumer.counters.finished = n.consumer.counters.classified

variable {P} {log : List Handling} {n : Node}

theorem appliedIds_concat (r : Handling) :
    appliedIds P (log ++ [r]) = appliedIds P log ++ (r.applied P).toList := by
  unfold appliedIds
  rw [List.filterMap_append]
  cases h : r.applied P <;> simp [h]

/-- Recording a new identity pushes it into the window. -/
theorem record_seen {c : Consumer} {id : ProducerEventIdentity} (hfresh : id ∉ c.seen)
    (hlen : c.seen.length ≤ c.maxEntries) :
    (c.record id).seen = pushBounded c.maxEntries c.seen id := by
  have hfilter : c.seen.filter (· ≠ id) = c.seen := by
    rw [List.filter_eq_self]
    intro x hx
    rw [decide_eq_true_eq]
    rintro rfl
    exact hfresh hx
  simp only [Consumer.record, hfilter, pushBounded, List.rtake, List.length_append,
    List.length_singleton]
  split
  · congr 1
    omega
  · have hzero : c.seen.length + 1 - c.maxEntries = 0 := by omega
    rw [hzero, List.drop_zero]

/-- An acknowledgement that one call makes is in order. -/
theorem Kept.ackInOrder (h : Kept P log n) {r : Handling} (hbefore : r.before = n.consumer) :
    AckInOrder P log r := by
  intro hacked
  rcases (handle_handles P r.before r.delivery).1 with
    ⟨_, _, hno, _⟩ | ⟨_, hno, _⟩ | ⟨o, ho, hresult, hdup, _⟩ | ⟨envelope, payload, hresult, hevent, _⟩
  · rw [Handling.handled, hno] at hacked
    cases hacked
  · rw [Handling.handled, hno] at hacked
    cases hacked
  · rcases hresult with ⟨hresult, -⟩ | ⟨-, hno⟩
    · by_cases hd : o = .duplicate
      · obtain ⟨envelope, hdecoded, hseen⟩ := hdup hd
        right; right
        refine ⟨hd ▸ hresult, envelope, hdecoded, hseen, ?_⟩
        rw [hbefore, h.seen] at hseen
        exact (rtake_sublist _ _).subset hseen
      · right; left
        exact ⟨o, hresult, ho, hd⟩
    · rw [Handling.handled, hno] at hacked
      cases hacked
  · rcases hresult with ⟨hresult, -⟩ | ⟨-, hno⟩
    · left
      refine ⟨hresult, ?_⟩
      rw [Handling.applied, Handling.handled, hevent]
      rfl
    · rw [Handling.handled, hno] at hacked
      cases hacked

/-- An entry whose sink failed is neither acknowledged nor recorded. -/
theorem handled_sinkFailed {r : Handling} (h : (r.handled P).result = .ok .sinkFailed) :
    (r.handled P).acked = false ∧ r.applied P = none ∧ (r.after P).seen = r.before.seen := by
  rcases (handle_handles P r.before r.delivery).1 with
    ⟨_, hresult, _⟩ | ⟨_, hacked, hevent, hseen, _⟩ | ⟨o, ho, hresult, _⟩ | ⟨_, _, hresult, _⟩
  · rw [Handling.handled, hresult] at h
    cases h
  · refine ⟨hacked, ?_, hseen⟩
    rw [Handling.applied, Handling.handled, hevent]
    rfl
  · rcases hresult with ⟨hresult, -⟩ | ⟨hresult, -⟩
    · rw [Handling.handled, hresult] at h
      obtain rfl : o = .sinkFailed := Except.ok.inj h
      cases ho
    · rw [Handling.handled, hresult] at h
      cases h
  · rcases hresult with ⟨hresult, -⟩ | ⟨hresult, -⟩
    · rw [Handling.handled, hresult] at h
      cases h
    · rw [Handling.handled, hresult] at h
      cases h

/-- What one call does to the window of identities. -/
theorem Kept.window (h : Kept P log n) {r : Handling} (hbefore : r.before = n.consumer) :
    (r.after P).seen = (appliedIds P (log ++ [r])).rtake n.consumer.maxEntries ∧
      Novel n.consumer.maxEntries (appliedIds P (log ++ [r])) := by
  rw [appliedIds_concat]
  -- only an application changes the window
  have hsame : (r.handled P).event = none → (r.after P).seen = r.before.seen →
      (r.after P).seen = (appliedIds P log ++ (r.applied P).toList).rtake n.consumer.maxEntries ∧
        Novel n.consumer.maxEntries (appliedIds P log ++ (r.applied P).toList) := by
    intro hevent hseen
    have happlied : r.applied P = none := by
      rw [Handling.applied, hevent]
      rfl
    rw [happlied, Option.toList_none, List.append_nil, hseen, hbefore]
    exact ⟨h.seen, h.novel⟩
  rcases (handle_handles P r.before r.delivery).1 with
    ⟨_, _, _, hevent, hseen, _⟩ | ⟨_, _, hevent, hseen, _⟩ | ⟨_, _, _, _, hevent, hseen, _⟩ |
      ⟨envelope, payload, _, hevent, hfresh, hseen, _⟩
  · exact hsame hevent hseen
  · exact hsame hevent hseen
  · exact hsame hevent hseen
  · have happlied : r.applied P = some (.fromEnvelope envelope) := by
      rw [Handling.applied, Handling.handled, hevent]
      rfl
    rw [happlied, Option.toList_some, novel_concat]
    rw [hbefore] at hfresh hseen
    have hlen : n.consumer.seen.length ≤ n.consumer.maxEntries := by
      rw [h.seen]
      exact rtake_length_le _ _
    rw [record_seen hfresh hlen, h.seen, pushBounded_rtake] at hseen
    rw [h.seen] at hfresh
    refine ⟨?_, h.novel, hfresh⟩
    rw [Handling.after, hbefore]
    exact hseen

/-- A call that returns is finished and classified once, one that raises is neither. -/
theorem after_counters (r : Handling) :
    (r.after P).counters.finished + (if r.raised P then 1 else 0) =
        r.before.counters.finished + 1 ∧
      (r.after P).counters.classified + (if r.raised P then 1 else 0) =
        r.before.counters.classified + 1 := by
  have hreturned : ∀ o, (r.handled P).result = .ok o →
      (r.after P).counters.finished = r.before.counters.finished + 1 →
      (r.after P).counters.classified = r.before.counters.classified + 1 →
      (r.after P).counters.finished + (if r.raised P then 1 else 0) =
          r.before.counters.finished + 1 ∧
        (r.after P).counters.classified + (if r.raised P then 1 else 0) =
          r.before.counters.classified + 1 := by
    intro o ho hf hc
    have hr : r.raised P = false := by
      unfold Handling.raised
      rw [ho]
    rw [hr, if_neg Bool.false_ne_true]
    constructor
    · rw [Nat.add_zero, hf]
    · rw [Nat.add_zero, hc]
  have hcase : HandleCase P r.before r.delivery (r.after P) (r.handled P) :=
    (handle_handles P r.before r.delivery).1
  rcases hcase with
    ⟨exception, hresult, _, _, _, hf, hc⟩ | ⟨hresult, _, _, _, hf, hc⟩ |
      ⟨o, _, hresult, _, _, _, hf, hc⟩ | ⟨_, _, hresult, _, _, _, hf, hc⟩
  · have hr : r.raised P = true := by
      unfold Handling.raised
      rw [hresult]
    rw [hr, if_pos rfl, hf, hc]
    exact ⟨rfl, rfl⟩
  · exact hreturned _ hresult hf hc
  · rcases hresult with ⟨hresult, -⟩ | ⟨hresult, -⟩
    · exact hreturned _ hresult hf hc
    · exact hreturned _ hresult hf hc
  · rcases hresult with ⟨hresult, -⟩ | ⟨hresult, -⟩
    · exact hreturned _ hresult hf hc
    · exact hreturned _ hresult hf hc

/-- **One call keeps the invariant.** -/
theorem Kept.apply (h : Kept P log n) {r : Handling} (hbefore : r.before = n.consumer)
    (hid : r.id < n.stream.cursor) : Kept P (log ++ [r]) (n.apply P r) := by
  obtain ⟨-, hmax, hdelivered⟩ := handle_handles P r.before r.delivery
  have hcursor : (n.apply P r).stream.cursor = n.stream.cursor := by
    unfold Node.apply
    split <;> rfl
  have hmaxEntries : (n.apply P r).consumer.maxEntries = n.consumer.maxEntries := by
    rw [← hbefore]
    exact hmax
  obtain ⟨hseen, hnovel⟩ := h.window hbefore
  obtain ⟨hfin, hcls⟩ := after_counters (P := P) r
  refine ⟨?_, ?_, ?_, ?_, ?_, ?_, ?_, ?_⟩
  · intro r' hr'
    rw [hcursor]
    rcases List.mem_append.mp hr' with hr' | hr'
    · exact h.delivered_lt r' hr'
    · rw [List.mem_singleton.mp hr']
      exact hid
  · rw [forall_split_concat]
    exact ⟨h.acks, h.ackInOrder hbefore⟩
  · intro id
    rw [hcursor]
    have hlog : (∀ r' ∈ log ++ [r], r'.id = id → (r'.handled P).acked = false) ↔
        (∀ r' ∈ log, r'.id = id → (r'.handled P).acked = false) ∧
          (r.id = id → (r.handled P).acked = false) := by
      simp only [List.mem_append, List.mem_singleton, or_imp, forall_and, forall_eq]
    rw [hlog, ← and_assoc, ← h.pending]
    unfold Node.apply
    simp only
    cases hacked : (r.handled P).acked with
    | true =>
      simp only [if_true, EventStream.ack, List.mem_filter, decide_eq_true_eq, Bool.true_eq_false,
        imp_false, ne_comm, ne_eq]
    | false => simp
  · intro r' hr'
    rcases List.mem_append.mp hr' with hr' | hr'
    · exact h.sinkFailures r' hr'
    · rw [List.mem_singleton.mp hr']
      exact handled_sinkFailed
  · rw [hmaxEntries]
    exact hseen
  · rw [hmaxEntries]
    exact hnovel
  · have hfinished := h.finished
    rw [← hbefore] at hfinished
    have hcount : (log ++ [r]).countP (·.raised P) =
        log.countP (·.raised P) + if r.raised P then 1 else 0 := by
      rw [List.countP_append, List.countP_singleton]
    rw [hcount]
    show (r.after P).counters.delivered = (r.after P).counters.finished + _
    have hdel : (r.after P).counters.delivered = r.before.counters.delivered + 1 := hdelivered
    omega
  · have hclassified := h.classified
    rw [← hbefore] at hclassified
    show (r.after P).counters.finished = (r.after P).counters.classified
    omega

theorem Node.apply_cursor (n : Node) (r : Handling) :
    (n.apply P r).stream.cursor = n.stream.cursor := by
  unfold Node.apply
  split <;> rfl

/-- The loops of `poll_once` keep the invariant. -/
theorem Kept.handleEntries (h : Kept P log n) (A : Authorities) (conduct : ℕ → Conduct)
    (claimed : Bool) (ids : List ℕ) (hids : ∀ id ∈ ids, id < n.stream.cursor) :
    Kept P (log ++ (handleEntries P A conduct claimed ids n).2.1)
        (handleEntries P A conduct claimed ids n).1 := by
  induction ids generalizing n log with
  | nil =>
    unfold Ipc.handleEntries
    rw [List.append_nil]
    exact h
  | cons id ids ih =>
    unfold Ipc.handleEntries
    simp only
    have hkept := h.apply (r := ⟨id, n.consumer, deliver A n.stream conduct claimed id⟩) rfl
      (hids id List.mem_cons_self)
    split
    · exact hkept
    · have hrest := ih hkept (by
        intro id' hid'
        rw [Node.apply_cursor]
        exact hids id' (List.mem_cons_of_mem _ hid'))
      rw [List.append_assoc, List.singleton_append] at hrest
      exact hrest

theorem Kept.recordReadFailure (h : Kept P log n) (now : Int) :
    Kept P log (n.recordReadFailure now) :=
  ⟨h.delivered_lt, h.acks, h.pending, h.sinkFailures, h.seen, h.novel, h.finished, h.classified⟩

theorem Kept.publishAll (h : Kept P log n) (raws : List (Option ByteArray)) :
    Kept P log { n with stream := n.stream.publishAll raws } :=
  ⟨h.delivered_lt, h.acks, h.pending, h.sinkFailures, h.seen, h.novel, h.finished, h.classified⟩

/-- The entries of a read were never delivered before. -/
theorem Kept.readRaw (h : Kept P log n) (count : ℕ) :
    Kept P log { n with stream := n.stream.readRaw count } := by
  refine ⟨?_, h.acks, ?_, h.sinkFailures, h.seen, h.novel, h.finished, h.classified⟩
  · intro r hr
    have hlt := h.delivered_lt r hr
    show r.id < n.stream.cursor + _
    omega
  · intro id
    show id ∈ n.stream.pending ++ n.stream.newIds count ↔
      id < n.stream.cursor + min count (n.stream.entries.length - n.stream.cursor) ∧ _
    rw [List.mem_append, h.pending id, EventStream.newIds, List.mem_range'_1]
    constructor
    · rintro (⟨hlt, hlog⟩ | ⟨hle, hlt⟩)
      · exact ⟨by omega, hlog⟩
      · refine ⟨by omega, ?_⟩
        intro r hr hid
        have := h.delivered_lt r hr
        omega
    · rintro ⟨hlt, hlog⟩
      by_cases hold : id < n.stream.cursor
      · exact Or.inl ⟨hold, hlog⟩
      · exact Or.inr ⟨by omega, by omega⟩

theorem mem_newIds_lt {s : EventStream} {count id : ℕ} (h : id ∈ s.newIds count) :
    id < (s.readRaw count).cursor := by
  rw [EventStream.newIds, List.mem_range'_1] at h
  exact h.2

theorem mem_claimPage_lt (h : Kept P log n) {stale : List ℕ} {id : ℕ}
    (hid : id ∈ n.stream.claimPage stale) : id < n.stream.cursor :=
  ((h.pending id).mp (List.mem_filter.mp hid).1).1

/-- **A poll keeps the invariant.** -/
theorem Kept.pollOnce (h : Kept P log n) (A : Authorities) (call : PollCall) :
    Kept P (log ++ (pollOnce P A n call).2) (pollOnce P A n call).1 := by
  unfold Ipc.pollOnce
  cases call.claim with
  | none =>
    rw [List.append_nil]
    exact h.recordReadFailure call.now
  | some stale =>
    simp only
    have hclaimed := (h.handleEntries A call.conduct true (n.stream.claimPage stale)
      fun id hid => mem_claimPage_lt h hid).publishAll call.arriving
    split
    · cases call.read with
      | none => exact hclaimed.recordReadFailure call.now
      | some count =>
        simp only
        have hread := (hclaimed.readRaw count).handleEntries A call.conduct false _
          fun id hid => mem_newIds_lt hid
        rw [List.append_assoc] at hread
        exact hread
    · exact hclaimed

end Invariant

section Runs

variable (P : Parsers) (A : Authorities)

theorem kept_new (c : Consumer) (hseen : c.seen = []) (hcounters : c.counters = {}) :
    Kept P [] { consumer := c } := by
  refine ⟨?_, ?_, ?_, ?_, ?_, novel_nil _, ?_, ?_⟩
  · intro r hr
    cases hr
  · intro earlier r later h
    cases earlier <;> cases h
  · intro id
    simp
  · intro r hr
    cases hr
  · show c.seen = List.rtake [] c.maxEntries
    rw [hseen, List.rtake_nil]
  · show c.counters.delivered = c.counters.finished + 0
    rw [hcounters]
    rfl
  · show c.counters.finished = c.counters.classified
    rw [hcounters]
    rfl

/-- The invariant holds after every run. -/
theorem run_kept (c : Consumer) (hseen : c.seen = []) (hcounters : c.counters = {})
    (ops : List StreamOp) :
    Kept P (handlings P A { consumer := c } ops) (run (streamStep P A) { consumer := c } ops) := by
  unfold handlings
  induction ops using List.reverseRecOn with
  | nil => exact kept_new P c hseen hcounters
  | append_singleton ops op ih =>
    rw [outs_concat, run_concat, List.flatten_append, List.flatten_singleton]
    cases op with
    | publish raw =>
      show Kept P (_ ++ []) _
      rw [List.append_nil]
      exact ih.publishAll [raw]
    | poll call => exact ih.pollOnce A call

/-- **Consumption is accounted for exactly when no entry handled so far was poisonous**: after every
    run of publishes and polls of a new consumer, whatever the claims, reads, sinks and
    acknowledgements do. -/
theorem consumption_accounted_iff (maxEntries : ℕ) (hmax : 1 ≤ maxEntries) (ops : List StreamOp) :
    let n : Node := { consumer := { maxEntries, maxEntries_pos := hmax } }
    Accounted P (handlings P A n ops) (run (streamStep P A) n ops) ↔
      ∀ r ∈ handlings P A n ops, ¬ Poison P r.before r.delivery := by
  intro n
  have hkept : Kept P (handlings P A n ops) (run (streamStep P A) n ops) :=
    run_kept P A _ rfl rfl ops
  have hraised : ∀ r : Handling, r.raised P = true ↔ Poison P r.before r.delivery := by
    intro r
    rw [← handle_raises_iff]
    unfold Handling.raised Handling.handled
    cases (handle P r.before r.delivery).2.result <;> simp
  have hnone : (handlings P A n ops).countP (·.raised P) = 0 ↔
      ∀ r ∈ handlings P A n ops, ¬ Poison P r.before r.delivery := by
    rw [List.countP_eq_zero]
    simp only [hraised]
  rw [← hnone]
  have hfinished := hkept.finished
  constructor
  · intro h
    have := h.finished
    omega
  · intro hzero
    refine ⟨hkept.acks, hkept.pending, hkept.sinkFailures, ?_, ?_, hkept.classified⟩
    · intro pre mid post id hsplit
      have hnovel := hkept.novel
      rw [hsplit] at hnovel
      exact hnovel.repeated
    · rw [hfinished]
      omega

end Runs

theorem one_entry : 1 ≤ 1 := le_refl 1

/-- The payload of a feed that has connected. -/
def connectedPayload : String :=
  "\x7b\"status\":\"connected\",\"observed_at\":\"2024-10-04T04:00:00Z\"\x7d"

/-- An entry that carries it. -/
def connectedEntry : ByteArray :=
  ("\x7b\"schema_version\":1,\"producer_id\":\"feed\",\"producer_epoch\":1,\"producer_sequence\":1," ++
    "\"produced_at\":\"2024-10-04T04:00:00Z\",\"event_kind\":\"feed_continuity\"," ++
    "\"trading_date\":\"2024-10-04\",\"universe_version\":1,\"instrument_identity\":\"*:*\"," ++
    "\"payload\":\"\x7b\\\"status\\\":\\\"connected\\\"," ++
    "\\\"observed_at\\\":\\\"2024-10-04T04:00:00Z\\\"\x7d\"\x7d").toUTF8

def connectedJson : Json :=
  .obj [("schema_version", .int 1), ("producer_id", .str "feed"), ("producer_epoch", .int 1),
    ("producer_sequence", .int 1), ("produced_at", .str "2024-10-04T04:00:00Z"),
    ("event_kind", .str "feed_continuity"), ("trading_date", .str "2024-10-04"),
    ("universe_version", .int 1), ("instrument_identity", .str "*:*"), ("payload", .str connectedPayload)]

/-- Parsers that read the entry, its payload and its times as they are written. -/
def feedParsers : Parsers where
  loads b := if b.data.toList = connectedEntry.data.toList then some connectedJson else none
  parse b := if b.data.toList = connectedEntry.data.toList then some connectedJson else none
  parseText s :=
    if s = connectedPayload then
      some (.obj [("status", .str "connected"), ("observed_at", .str "2024-10-04T04:00:00Z")])
    else none
  datetime
    | .str s => if s = "2024-10-04T04:00:00Z" then some ⟨20000 * day + 240 * minute, true⟩ else none
    | _ => none
  date
    | .str s => if s = "2024-10-04" then some 20000 else none
    | _ => none
  decimal _ := none
  upper s := s.toUpper

/-- The entry, which the sink refuses first, whose acknowledgement fails then, and which is a duplicate
    when it is claimed again; and an entry without an envelope. -/
def redeliveredFeed : List StreamOp :=
  [.publish (some connectedEntry), .publish none,
    .poll { claim := some [], read := some 2, conduct := fun _ => { sinkApplies := false } },
    .poll { claim := some [0], read := some 2, conduct := fun _ => { ackSucceeds := false } },
    .poll { claim := some [0], read := none }]

/-- Its consumer. -/
def feedNode : Node := { consumer := { maxEntries := 1, maxEntries_pos := one_entry } }

/-- Four deliveries of two entries: each is counted, and the event is applied once. -/
theorem consumption_accounted_sample :
    let A : Authorities := ⟨some 20000, some 1⟩
    let log := handlings feedParsers A feedNode redeliveredFeed
    log.map (fun r => (r.id, (r.handled feedParsers).result)) =
        [(0, .ok .sinkFailed), (1, .ok .envelopeDecodeFailed), (0, .ok .ackFailed), (0, .ok .duplicate)] ∧
      appliedIds feedParsers log = [⟨"feed", 1, 1⟩] ∧
      Accounted feedParsers log (run (streamStep feedParsers A) feedNode redeliveredFeed) := by
  intro A log
  have hresults : log.map (fun r => (r.id, (r.handled feedParsers).result)) =
      [(0, .ok .sinkFailed), (1, .ok .envelopeDecodeFailed), (0, .ok .ackFailed),
        (0, .ok .duplicate)] := by
    decide +kernel
  refine ⟨hresults, by decide +kernel, ?_⟩
  refine (consumption_accounted_iff feedParsers A 1 one_entry redeliveredFeed).mpr ?_
  intro r (hr : r ∈ log)
  rw [← handle_raises_iff]
  rintro ⟨exception, hraised⟩
  -- none of the four calls has raised
  have hmem := List.mem_map_of_mem (f := fun r => (r.id, (r.handled feedParsers).result)) hr
  rw [hresults, Handling.handled, hraised] at hmem
  simp at hmem

/-- A poll that meets an entry with an array as schema version leaves it delivered and not
    finished. -/
theorem raising_entry_uncounted :
    let n : Node := { consumer := { maxEntries := 1, maxEntries_pos := Nat.le_refl 1 } }
    let A : Authorities := ⟨none, none⟩
    let ops : List StreamOp :=
      [.publish (some emptyArrayVersion), .poll { claim := some [], read := some 1 }]
    ¬ Accounted sampleParsers (handlings sampleParsers A n ops)
      (run (streamStep sampleParsers A) n ops) := by
  intro n A ops haccounted
  have hloads : sampleParsers.loads emptyArrayVersion =
      some (.obj [("schema_version", .arr [])]) := by simp [sampleParsers]
  have hstep : decodeEnvelopeStep sampleParsers (some emptyArrayVersion) = .raise .typeError := by
    simp only [decodeEnvelopeStep, hloads]
    rfl
  have hraises : ∀ (c : Consumer) (d : Delivery), d.raw = some emptyArrayVersion →
      d.claimed = false → handle sampleParsers c d =
        ({ c with counters := { c.counters with received := c.counters.received + 1 }
                  lastReceivedAt := some d.receivedAt }, { result := .error .typeError }) := by
    intro c d hraw hclaimed
    unfold handle
    simp only [hraw, hstep, hclaimed, Bool.false_eq_true, if_false]
  have hentries : ∀ m : Node, m.stream.entries = [some emptyArrayVersion] →
      (handleEntries sampleParsers A (fun _ => {}) false [0] m).1.consumer =
        { m.consumer with
          counters := { m.consumer.counters with received := m.consumer.counters.received + 1 }
          lastReceivedAt := some 0 } := by
    intro m hm
    have hraw : (deliver A m.stream (fun _ => {}) false 0).raw = some emptyArrayVersion := by
      simp [deliver, hm]
    unfold handleEntries
    simp only [Handling.handled, hraises m.consumer _ hraw rfl, Node.apply, Handling.after]
    rfl
  have hrun : (run (streamStep sampleParsers A) n ops).consumer =
      { n.consumer with counters := { received := 1 }, lastReceivedAt := some 0 } :=
    hentries { n with stream := ⟨[some emptyArrayVersion], 1, [0]⟩ } rfl
  have hfinished := haccounted.finished
  rw [hrun] at hfinished
  exact absurd hfinished (by decide)

end ApexScan.Ipc
