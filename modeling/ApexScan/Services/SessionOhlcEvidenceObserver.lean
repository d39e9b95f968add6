import ApexScan.Adapters.Dhan.Bookkeeping
import ApexScan.Adapters.Dhan.Continuity
import ApexScan.Engine.TickEngine
import ApexScan.Evidence.Combine

/-!
# The evidence observer (`app/services/session_ohlc_evidence_observer.py`)

During a session the observer keeps the latest valid session OHLC of every instrument, and from the
continuity facts of the feed it takes the evidence of a natural reconnect.  It freezes what it has at a
`DISCONNECTED` and compares at a `RECONNECTED`.

* `Observer.step` — a context, a continuity fact, or the record of a finished window.
* `Observer.finalizeSession` — the records of the windows combined, with the reconnect, and judged.
* `Item`, `events` — contexts and windows interleaved with the operations of the adapter and with the
  arrivals of the facts that these tell, in order.
* `NaturalReconnect` — a loss, the reconnect after it, and an instrument seen before the one and after
  the other.
* `Genuine` — every natural reconnect leaves its evidence, and one that lost an extremum a rejection.

Main result: `genuine_iff`.  `natural_reconnect_unrecorded` is a session that loses its high.

One trading date is observed, and the record of a window is an input; `EvidenceWindows` has the windows, the
dates and the files.
-/

set_option autoImplicit false

namespace ApexScan.EvidenceObserver

open Lib Evidence Dhan

/-! ## The observer -/

/-- `_Snapshot`. -/
structure Snapshot where
  identity : String
  exchange : String
  symbol : String
  tradingDate : Option Int
  eventTimestamp : Int
  observedAt : Int
  version : ℕ
  openPrice : Option ℚ
  highPrice : Option ℚ
  lowPrice : Option ℚ
  deriving DecidableEq

/-- `_identity`. -/
def identity (instrument : Instrument) : String := instrument.exchange ++ ":" ++ instrument.symbol

/-- `_to_observation`. -/
def toObservation (snapshot : Snapshot) (window : String) : OhlcObservation where
  source := "ws"
  window := window
  observedAt := snapshot.eventTimestamp
  tradingDate := snapshot.tradingDate
  openPrice := snapshot.openPrice
  highPrice := snapshot.highPrice
  lowPrice := snapshot.lowPrice

/-- The snapshot of a context, where its tick has a valid session OHLC. -/
def snapshotOf (context : MarketContext) : Option Snapshot :=
  match context.latestTick.bind (·.sessionOhlc) with
  | none => none
  | some ohlc =>
    some
      { identity := identity context.instrument
        exchange := context.instrument.exchange
        symbol := context.instrument.symbol
        tradingDate := context.session.map (·.tradingDate)
        eventTimestamp := context.eventTimestamp
        observedAt := context.observedAt
        version := context.version
        openPrice := some ohlc.openPrice.1
        highPrice := some ohlc.highPrice.1
        lowPrice := some ohlc.lowPrice.1 }

structure Observer where
  latest : Dict String Snapshot := []
  partials : List EvidenceRecord := []
  preReconnect : Option (Dict String Snapshot) := none
  reconnect : Option ReconnectEvidence := none

/-- What reaches the observer. -/
inductive Event where
  | context (context : MarketContext)
  | continuity (event : FeedContinuityEvent)
  | window (record : EvidenceRecord)

namespace Observer

/-- `_record_snapshot`. -/
def recordSnapshot (o : Observer) (context : MarketContext) : Observer :=
  match snapshotOf context with
  | none => o
  | some snapshot => { o with latest := o.latest.set snapshot.identity snapshot }

/-- `_capture_reconnect`: the first identity, in lexicographic order, that is present on both sides. -/
def captureReconnect (o : Observer) : Observer :=
  let preMap := o.preReconnect.getD []
  let captured := (sortBy id (preMap.map (·.1))).findSome? fun key =>
    match o.latest.get key, preMap.get key with
    | some post, some pre => some (pre, post)
    | _, _ => none
  match captured with
  | none => { o with preReconnect := none }
  | some (pre, post) =>
    { o with
      preReconnect := none
      reconnect :=
        some
          { observed := true
            pre := some (toObservation pre "pre")
            post := some (toObservation post "post") } }

/-- `on_feed_continuity`. -/
def onFeedContinuity (o : Observer) (event : FeedContinuityEvent) : Observer :=
  if event.status = .disconnected then { o with preReconnect := some o.latest }
  else if event.status = .reconnected ∧ o.preReconnect ≠ none then o.captureReconnect
  else o

/-- One event; the record of a window carries no reconnect. -/
def step (o : Observer) : Event → Observer × Unit
  | .context context => (o.recordSnapshot context, ())
  | .continuity event => (o.onFeedContinuity event, ())
  | .window record => ({ o with partials := o.partials ++ [{ record with reconnect := none }] }, ())

/-- `finalize_session`: the verdict, where there is a window and the records combine. -/
def finalizeSession (o : Observer) : Option Verdict :=
  match combineRecords o.partials with
  | .error _ => none
  | .ok record =>
    let reconnect := o.reconnect.getD
      { observed := false, detail := "INCONCLUSIVE_NO_NATURAL_RECONNECT" }
    some (evaluateRecord { record with reconnect := some reconnect })

/-- The observer after the events of a session. -/
def after (events : List Event) : Observer := run step {} events

end Observer

/-! ## The session -/

/-- What happens in a session: a context is published, a window finishes, the adapter operates, or the
    next of its facts arrives, for which the clock is read. -/
inductive Item where
  | context (context : MarketContext)
  | window (record : EvidenceRecord)
  | feed (op : LiveFeed.Op)
  | arrival (instant : Int)

/-- The events that reach the observer, from the adapter's state and the facts that it has told so far
    on; anything may happen between two facts, also of one operation. -/
def events : LiveFeed → List FeedContinuity → List Item → List Event
  | _, _, [] => []
  | s, facts, .context context :: items => .context context :: events s facts items
  | s, facts, .window record :: items => .window record :: events s facts items
  | s, facts, .feed op :: items => events (s.step op).1 (facts ++ s.facts op) items
  | s, [], .arrival _ :: items => events s [] items
  | s, fact :: facts, .arrival instant :: items =>
    .continuity ⟨fact, instant⟩ :: events s facts items

/-! ## Genuine evidence -/

/-- The last snapshot of an instrument. -/
def lastSnapshot (events : List Event) (key : String) : Option Snapshot :=
  (Observer.after events).latest.get key

/-- The snapshot of an instrument that an event brings. -/
def snapshotAt (key : String) : Event → Option Snapshot
  | .context context => (snapshotOf context).filter fun snapshot => snapshot.identity = key
  | _ => none

/-- The first snapshot of an instrument. -/
def firstSnapshot (events : List Event) (key : String) : Option Snapshot :=
  events.findSome? (snapshotAt key)

/-- The status that an event tells of. -/
def statusOf : Event → Option FeedContinuity
  | .continuity event => some event.status
  | _ => none

/-- The last loss has been followed by a reconnect. -/
def Whole (events : List Event) : Prop :=
  ∀ before after, events = before ++ after →
    some FeedContinuity.continuityLost ∈ after.map statusOf →
    some FeedContinuity.reconnected ∈ after.map statusOf

/-- A loss of a whole feed and the first reconnect after it, with an instrument's last snapshot before
    the loss and its first one after the reconnect. -/
structure NaturalReconnect (session before after : List Event) (key : String) (pre post : Snapshot) :
    Prop where
  split : ∃ lost during reconnected,
    session = before ++ lost :: during ++ reconnected :: after ∧
      statusOf lost = some .continuityLost ∧ statusOf reconnected = some .reconnected ∧
      some FeedContinuity.reconnected ∉ during.map statusOf
  whole : Whole before
  pre_eq : lastSnapshot before key = some pre
  post_eq : firstSnapshot after key = some post

/-- The evidence of a natural reconnect is recorded at some moment of the session, and where the post
    lost an extremum of the pre the session's verdict is a rejection. -/
def Evidenced (session : List Event) (pre post : Snapshot) : Prop :=
  (∃ shown rest ev, session = shown ++ rest ∧ (Observer.after shown).reconnect = some ev ∧
      ev.observed = true ∧ ev.pre = some (toObservation pre "pre") ∧
      ev.post = some (toObservation post "post")) ∧
    (continuityLost (toObservation pre "pre") (toObservation post "post") ≠ [] →
      ∀ verdict, (Observer.after session).finalizeSession = some verdict → verdict.outcome = .rejected)

/-- Every natural reconnect of the session is evidenced for an instrument that it has. -/
def Genuine (session : List Event) : Prop :=
  ∀ before after, (∃ key pre post, NaturalReconnect session before after key pre post) →
    ∃ key pre post, NaturalReconnect session before after key pre post ∧ Evidenced session pre post

/-- The session has a natural reconnect of an instrument. -/
def HasNaturalReconnect (session : List Event) : Prop :=
  ∃ before after key pre post, NaturalReconnect session before after key pre post

/-- What the adapter tells holds no `DISCONNECTED`. -/
theorem statusOf_mem_events {s : LiveFeed} {facts : List FeedContinuity}
    (hfacts : FeedContinuity.disconnected ∉ facts) {items : List Item} {event : Event}
    (h : event ∈ events s facts items) : statusOf event ≠ some .disconnected := by
  fun_induction events s facts items with
  | case1 => cases h
  | case2 s facts context items ih =>
    rcases List.mem_cons.mp h with rfl | h
    · simp [statusOf]
    · exact ih hfacts h
  | case3 s facts record items ih =>
    rcases List.mem_cons.mp h with rfl | h
    · simp [statusOf]
    · exact ih hfacts h
  | case4 s facts op items ih =>
    refine ih ?_ h
    rw [List.mem_append, not_or]
    exact ⟨hfacts, notMem_disconnected_facts s op⟩
  | case5 s instant items ih => exact ih hfacts h
  | case6 s fact facts instant items ih =>
    rw [List.mem_cons, not_or] at hfacts
    obtain ⟨hfact, hrest⟩ := hfacts
    rcases List.mem_cons.mp h with rfl | h
    · exact fun hstatus => hfact (Option.some.inj hstatus).symm
    · exact ih hrest h

/-- Nothing has been frozen and nothing recorded. -/
def Untouched (o : Observer) : Prop := o.preReconnect = none ∧ o.reconnect = none

/-- Without a `DISCONNECTED` nothing is ever frozen, and nothing recorded. -/
theorem untouched_after {shown : List Event} (h : ∀ event ∈ shown, statusOf event ≠ some .disconnected) :
    Untouched (Observer.after shown) := by
  unfold Observer.after
  have hkept : ∀ o : Observer, Untouched o → Untouched (run Observer.step o shown) := by
    induction shown with
    | nil => exact fun _ ho => ho
    | cons event shown ih =>
      intro o ho
      refine ih (fun e he => h e (List.mem_cons_of_mem _ he)) _ ?_
      have hstatus := h event List.mem_cons_self
      cases event with
      | context context =>
        simp only [Observer.step, Observer.recordSnapshot]
        split
        · exact ho
        · exact ho
      | continuity event =>
        have hne : event.status ≠ .disconnected := fun heq => hstatus (congrArg some heq)
        simp only [Observer.step, Observer.onFeedContinuity, if_neg hne]
        rw [if_neg fun hpre => hpre.2 ho.1]
        exact ho
      | window record => exact ho
  exact hkept {} ⟨rfl, rfl⟩

/-- Where a reconnect is captured, after a `DISCONNECTED`, its post is the latest snapshot before the
    `RECONNECTED`: no snapshot after it is waited for. -/
theorem captureReconnect_post {o : Observer} {ev : ReconnectEvidence}
    (h : o.captureReconnect.reconnect = some ev) :
    o.reconnect = some ev ∨
      ∃ key pre post, (o.preReconnect.getD []).get key = some pre ∧ o.latest.get key = some post ∧
        ev.pre = some (toObservation pre "pre") ∧ ev.post = some (toObservation post "post") := by
  simp only [Observer.captureReconnect] at h
  split at h
  · exact .inl h
  · rename_i pre post hcaptured
    obtain ⟨key, -, hkey⟩ := List.exists_of_findSome?_eq_some hcaptured
    split at hkey
    · rename_i post' pre' hpost hpre
      cases hkey
      cases h
      exact .inr ⟨key, pre, post, hpre, hpost, rfl, rfl⟩
    · cases hkey

/-- With what the adapter tells, no reconnect is ever evidenced. -/
theorem not_evidenced (s : LiveFeed) (items : List Item) (pre post : Snapshot) :
    ¬ Evidenced (events s [] items) pre post := by
  rintro ⟨⟨shown, rest, ev, hsplit, hev, -⟩, -⟩
  have hshown : ∀ event ∈ shown, statusOf event ≠ some .disconnected := fun event hevent =>
    statusOf_mem_events List.not_mem_nil (hsplit ▸ List.mem_append_left rest hevent)
  rw [(untouched_after hshown).2] at hev
  cases hev

/-- **The evidence of a session is genuine exactly when the session has no natural reconnect.** -/
theorem genuine_iff (s : LiveFeed) (items : List Item) :
    Genuine (events s [] items) ↔ ¬ HasNaturalReconnect (events s [] items) := by
  constructor
  · rintro hgenuine ⟨before, after, hreconnect⟩
    obtain ⟨key, pre, post, -, hevidenced⟩ := hgenuine before after hreconnect
    exact not_evidenced s items pre post hevidenced
  · intro hnone before after hreconnect
    exact absurd ⟨before, after, hreconnect⟩ hnone

/-! ## A lost high -/

theorem hundred_le_above (above : ℕ) : rupees 100 ≤ rupees (100 + above) := rupees_le_add 100 above

theorem hundred_within (above : ℕ) :
    rupees 100 ≤ rupees 100 ∧ rupees 100 ≤ rupees (100 + above) :=
  ⟨le_refl _, hundred_le_above above⟩

/-- A context whose session has the open and low 100 and a high some rupees above. -/
def contextWithHigh (above : ℕ) (instant : Int) : MarketContext where
  sequence := 1
  eventTimestamp := instant
  observedAt := instant
  latestTick :=
    some
      { instrument := reliance
        eventTimestamp := instant
        lastPrice := rupees 100
        sessionOhlc :=
          some
            { openPrice := rupees 100
              highPrice := rupees (100 + above)
              lowPrice := rupees 100
              closePrice := rupees 100
              low_le_high := hundred_le_above above
              open_within := hundred_within above
              close_within := hundred_within above } }
  instrument := reliance
  version := 1
  version_pos := Nat.one_pos

/-- The record of a window, for the verdict to be given on. -/
def lateWindow : EvidenceRecord :=
  { collectorVersion := "3.0.0"
    sourceSha := "deadbee"
    provider := "dhan"
    tradingDate := 20666
    sessionIdentity := "regular"
    collectionStart := 9
    collectionEnd := 9
    expectedInstruments := ["NSE:RELIANCE"]
    sampleWindows := ["late"]
    instruments := [] }

/-- The adapter connects, the high is 102, the socket is dropped and the subscriptions come back, and
    the high is 101. -/
def lostHigh : List Item :=
  [.feed (.register LiveFeed.relianceTicks [LiveFeed.relianceReference] {}), .arrival 1,
    .context (contextWithHigh 2 2), .feed (.reconnect [{}]), .arrival 3, .arrival 3, .arrival 3,
    .context (contextWithHigh 1 4), .window lateWindow]

/-- The reconnect of this session loses the high, and the session is not rejected. -/
theorem natural_reconnect_unrecorded :
    HasNaturalReconnect (events {} [] lostHigh) ∧ ¬ Genuine (events {} [] lostHigh) ∧
      (Observer.after (events {} [] lostHigh)).reconnect = none ∧
      (Observer.after (events {} [] lostHigh)).finalizeSession.map (·.outcome) = some .inconclusive := by
  have hreconnect : ∃ before after key pre post,
      NaturalReconnect (events {} [] lostHigh) before after key pre post := by
    refine ⟨[.continuity ⟨.connected, 1⟩, .context (contextWithHigh 2 2)],
      [.context (contextWithHigh 1 4), .window lateWindow], "NSE:RELIANCE", _, _, ?_, ?_, rfl, rfl⟩
    · exact ⟨.continuity ⟨.continuityLost, 3⟩, [.continuity ⟨.connected, 3⟩],
        .continuity ⟨.reconnected, 3⟩, rfl, rfl, rfl, by simp [statusOf]⟩
    · intro before after hsplit hlost
      have hmem : some FeedContinuity.continuityLost ∈ (before ++ after).map statusOf := by
        rw [List.map_append]
        exact List.mem_append_right _ hlost
      rw [← hsplit] at hmem
      simp [statusOf] at hmem
  refine ⟨hreconnect, fun hgenuine => ?_, rfl, ?_⟩
  · obtain ⟨before, after, hnatural⟩ := hreconnect
    obtain ⟨key, pre, post, -, hevidenced⟩ := hgenuine before after hnatural
    exact not_evidenced {} lostHigh pre post hevidenced
  · decide +kernel

end ApexScan.EvidenceObserver
