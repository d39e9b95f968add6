import ApexScan.Adapters.Dhan.Distribution
import ApexScan.Lib.Machine

/-!
# Consumer streams over one receive loop (`DhanRestAdapter._next_live_event`)

Consumers share one socket.  A consumer takes from its buffer while it can; the first one that finds
its buffer empty reads a message under the receive lock and distributes it to all.  A feed disconnect
is answered with a reconnect, which touches no buffer.

* `Turn`, `turn` — one pass of a consumer through the loop.
* `delivered` — what a message brings to the consumers: nothing with a feed disconnect.
* `yielded`, `received` — what a consumer was given along a run, and what all messages read along it
  brought.

Main result: `stream_exact`.  In every interleaving of the consumers' turns, what a consumer was given
and what still waits in its buffer are together the events that it requested, in order and once each,
whoever read the messages.
-/

set_option autoImplicit false

namespace ApexScan.Dhan

open Lib

/-! ## One turn -/

/-- A consumer's pass through the loop, with the message that the socket would give it. -/
structure Turn where
  consumer : ℕ
  message : LiveMessage
  now : ℚ

namespace DhanRestAdapter

/-- `_mark_live_connection_lost`, its part in the freshness window. -/
def markLiveConnectionLost (a : DhanRestAdapter) : DhanRestAdapter :=
  { a with lastValidEventAt := none, suspectStaleLogged := false }

/-- One pass through the loop of `_next_live_event`; the output is the event returned. -/
def turn (a : DhanRestAdapter) (t : Turn) : DhanRestAdapter × Option MarketData :=
  match a.liveConsumers.get t.consumer with
  | none => (a, none)
  | some consumer =>
    match consumer.buffer with
    | event :: buffer =>
      ({ a with liveConsumers := a.liveConsumers.set t.consumer { consumer with buffer } },
       some event)
    | [] =>
      match a.distributeLivePacket t.message t.now with
      | (a, .ok _) => (a, none)
      | (a, .error _) => (a.markLiveConnectionLost, none)

end DhanRestAdapter

/-! ## What a message brings -/

/-- The events that a message brings to the consumers. -/
def delivered (cashReferences : List DhanInstrumentReference) : LiveMessage → List MarketData
  | .text _ => []
  | .bytes message =>
    let packets := (iterStandardLivePackets message).toList
    if packets.any (fun packet => decide (IsFeedDisconnect packet)) then []
    else decodedEvents cashReferences packets

theorem gain_nil (consumer : LiveConsumer) : consumer.gain [] = consumer :=
  LiveConsumer.gain_eq_self_iff.mpr rfl

theorem distribute_liveConsumers (a : DhanRestAdapter) (message : LiveMessage) (now : ℚ) :
    (a.distributeLivePacket message now).1.liveConsumers =
      a.liveConsumers.mapItems (fun _ c =>
        c.gain ((delivered a.liveCashReferences message).filter (Requested c.request))) := by
  cases message with
  | text message =>
    symm
    show a.liveConsumers.mapItems (fun _ c => c.gain []) = a.liveConsumers
    rw [Dict.mapItems_eq_self_iff]
    intro kv _
    exact gain_nil kv.2
  | bytes message =>
    obtain ⟨tail, hdelimits⟩ := delimits_framesOf packetSize_pos message
    unfold delivered
    simp only
    split
    · rename_i hany
      rw [List.any_eq_true] at hany
      obtain ⟨packet, hmem, hpacket⟩ := hany
      have hdisconnect := distribute_disconnected a now hdelimits
        ⟨packet, hmem, of_decide_eq_true hpacket⟩
      rw [hdisconnect.1]
      symm
      rw [Dict.mapItems_eq_self_iff]
      intro kv _
      exact gain_nil kv.2
    · rename_i hany
      have hquiet : ∀ packet ∈ (framesOf packetSize message).toList, ¬ IsFeedDisconnect packet := by
        intro packet hmem hpacket
        apply hany
        rw [List.any_eq_true]
        exact ⟨packet, hmem, decide_eq_true hpacket⟩
      exact (distribute_quiet a now hdelimits hquiet).1

/-! ## Along a run -/

/-- The event that a consumer is given in a turn. -/
def yieldedBy (k : ℕ) (a : DhanRestAdapter) (t : Turn) : List MarketData :=
  if t.consumer = k then (a.turn t).2.toList else []

/-- What a turn brings to all consumers: nothing where it reads no message. -/
def receivedBy (a : DhanRestAdapter) (t : Turn) : List MarketData :=
  match a.liveConsumers.get t.consumer with
  | none => []
  | some consumer =>
    if consumer.buffer.isEmpty then delivered a.liveCashReferences t.message else []

/-- What a consumer was given along a run. -/
def yielded (k : ℕ) : DhanRestAdapter → List Turn → List MarketData
  | _, [] => []
  | a, t :: turns => yieldedBy k a t ++ yielded k (a.turn t).1 turns

/-- What the messages read along a run brought to all consumers. -/
def received : DhanRestAdapter → List Turn → List MarketData
  | _, [] => []
  | a, t :: turns => receivedBy a t ++ received (a.turn t).1 turns

/-- A turn that reads a message. -/
theorem turn_reads {a : DhanRestAdapter} {t : Turn} {consumer : LiveConsumer}
    (hget : a.liveConsumers.get t.consumer = some consumer) (hempty : consumer.buffer = []) :
    (a.turn t).1.liveConsumers = a.liveConsumers.mapItems (fun _ c =>
        c.gain ((receivedBy a t).filter (Requested c.request))) ∧ (a.turn t).2 = none := by
  have hbuffers := distribute_liveConsumers a t.message t.now
  unfold DhanRestAdapter.turn receivedBy
  simp only [hget, hempty, List.isEmpty_nil, if_true]
  split <;> rename_i hdistribute <;> rw [hdistribute] at hbuffers
  · exact ⟨hbuffers, rfl⟩
  · exact ⟨hbuffers, rfl⟩

/-- One turn keeps the books of every consumer: what it is given comes off the front of its buffer,
    and what the turn brings and the consumer requested goes to the back. -/
theorem turn_books {a : DhanRestAdapter} {t : Turn} {k : ℕ} {c : LiveConsumer}
    (hget : a.liveConsumers.get k = some c) :
    ∃ buffer, (a.turn t).1.liveConsumers.get k = some { c with buffer } ∧
      yieldedBy k a t ++ buffer = c.buffer ++ (receivedBy a t).filter (Requested c.request) := by
  cases hconsumer : a.liveConsumers.get t.consumer with
  | none =>
    have hne : t.consumer ≠ k := by
      rintro rfl
      rw [hget] at hconsumer
      cases hconsumer
    refine ⟨c.buffer, ?_, ?_⟩
    · simp [DhanRestAdapter.turn, hconsumer, hget]
    · simp [yieldedBy, receivedBy, hconsumer, hne]
  | some consumer =>
    cases hbuffer : consumer.buffer with
    | nil =>
      obtain ⟨hafter, hnone⟩ := turn_reads hconsumer hbuffer
      refine ⟨c.buffer ++ (receivedBy a t).filter (Requested c.request), ?_, ?_⟩
      · rw [hafter, Dict.get_mapItems, hget]
        rfl
      · simp [yieldedBy, hnone]
    | cons event buffer =>
      have hreceived : receivedBy a t = [] := by simp [receivedBy, hconsumer, hbuffer]
      have hturn : a.turn t =
          ({ a with liveConsumers := a.liveConsumers.set t.consumer { consumer with buffer } },
           some event) := by
        simp [DhanRestAdapter.turn, hconsumer, hbuffer]
      by_cases hk : t.consumer = k
      · subst hk
        rw [hget, Option.some.injEq] at hconsumer
        subst hconsumer
        refine ⟨buffer, ?_, ?_⟩
        · simp [hturn]
        · simp [yieldedBy, hturn, hreceived, hbuffer]
      · refine ⟨c.buffer, ?_, ?_⟩
        · simp [hturn, Dict.get_set_ne _ _ hk, hget]
        · simp [yieldedBy, hk, hreceived]

/-- **Every consumer's stream is exact.**  Along every interleaving of turns, what a consumer was given,
    followed by what waits in its buffer, is its old buffer followed by the events it requested of all
    that was read, whichever consumer read it. -/
theorem stream_exact (turns : List Turn) {a : DhanRestAdapter} {k : ℕ} {c : LiveConsumer}
    (hget : a.liveConsumers.get k = some c) :
    ∃ buffer, (run DhanRestAdapter.turn a turns).liveConsumers.get k = some { c with buffer } ∧
      yielded k a turns ++ buffer =
        c.buffer ++ (received a turns).filter (Requested c.request) := by
  induction turns generalizing a c with
  | nil => exact ⟨c.buffer, hget, by simp [yielded, received]⟩
  | cons t turns ih =>
    obtain ⟨middle, hmiddle, hstep⟩ := turn_books (t := t) hget
    obtain ⟨buffer, hbuffer, hrest⟩ := ih hmiddle
    refine ⟨buffer, hbuffer, ?_⟩
    calc yielded k a (t :: turns) ++ buffer
        = yieldedBy k a t ++ (yielded k (a.turn t).1 turns ++ buffer) := by
          rw [yielded, List.append_assoc]
      _ = yieldedBy k a t ++ middle ++
            (received (a.turn t).1 turns).filter (Requested c.request) := by
          rw [hrest, List.append_assoc]
      _ = c.buffer ++ (received a (t :: turns)).filter (Requested c.request) := by
          rw [hstep, received, List.filter_append, List.append_assoc]

/-! ## Two consumers -/

theorem tick_quote_nonempty : ({.tick, .quote} : Finset MarketDataKind).Nonempty := ⟨.tick, by decide⟩

/-- A consumer of ticks and quotes. -/
def secondConsumer : LiveConsumer where
  sequence := 1
  request :=
    { instruments := [reliance]
      dataTypes := {.tick, .quote}
      instruments_ne := reliance_ne_nil
      instruments_nodup := List.nodup_singleton _
      dataTypes_ne := tick_quote_nonempty }

/-- Two consumers of the same instrument. -/
def twoConsumers : DhanRestAdapter :=
  { sampleAdapter with liveConsumers := sampleAdapter.liveConsumers ++ [(1, secondConsumer)] }

/-- The first consumer reads two quotes, which both take; it reads a quote that is lost with the feed,
    and another one, which both have in their buffers at the end. -/
def sharedTurns : List Turn :=
  [⟨0, .bytes stackedMessage, 0⟩, ⟨1, .text "", 1⟩, ⟨0, .text "", 1⟩, ⟨0, .text "", 2⟩,
    ⟨0, .bytes (sampleQuotePacket ++ sampleDisconnectPacket), 3⟩, ⟨0, .bytes sampleQuotePacket, 4⟩,
    ⟨1, .text "", 5⟩]

def priceOf : MarketData → Option ℚ
  | .tick t => some t.lastPrice.1
  | _ => none

/-- The second consumer is given the two prices that the first one has read. -/
theorem sharedTurns_exact :
    (yielded 1 twoConsumers sharedTurns).map priceOf = [some 100, some 101] ∧
      ∃ buffer, (run DhanRestAdapter.turn twoConsumers sharedTurns).liveConsumers.get 1 =
          some { secondConsumer with buffer } ∧
        yielded 1 twoConsumers sharedTurns ++ buffer =
          (received twoConsumers sharedTurns).filter (Requested secondConsumer.request) := by
  have hget : twoConsumers.liveConsumers.get 1 = some secondConsumer := rfl
  obtain ⟨buffer, hbuffer, hexact⟩ := stream_exact sharedTurns hget
  have hempty : secondConsumer.buffer = [] := rfl
  rw [hempty, List.nil_append] at hexact
  exact ⟨by decide +kernel, buffer, hbuffer, hexact⟩

end ApexScan.Dhan
