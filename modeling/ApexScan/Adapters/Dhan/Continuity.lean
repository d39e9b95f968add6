import ApexScan.Adapters.Dhan.Subscriptions

/-!
# Continuity facts of the live feed (`DhanRestAdapter._emit_continuity`)

What the adapter tells its continuity sink: `CONNECTED` when it opens a socket, `CONTINUITY_LOST` when
it drops one, `RECONNECTED` when the desired subscriptions are back.

* `facts` — the statuses that an operation emits, in order.
* `notMem_disconnected_facts` — a `DISCONNECTED` is never among them.
* `facts_reconnect` — a reconnect that drops a socket tells of the loss first.
-/

set_option autoImplicit false

namespace ApexScan.Dhan

open Lib

namespace LiveConnection

/-- `_connect_live_socket`. -/
def connectFacts (c : LiveConnection) (provider : Provider) : List FeedContinuity :=
  if c.socket then []
  else
    match provider.connect with
    | .connected => [.connected]
    | _ => []

/-- `_mark_live_connection_lost`. -/
def markLostFacts (c : LiveConnection) : List FeedContinuity :=
  if c.socket then [.continuityLost] else []

/-- The attempts of `_reconnect_live_subscription`. -/
def reconnectFacts (plan : Option DhanLiveSubscriptionPlan) :
    List Provider → LiveConnection → List FeedContinuity
  | [], _ => []
  | provider :: rest, c =>
    let (attempted, error) :=
      match plan with
      | none => c.connect provider
      | some plan => c.establish plan provider
    c.connectFacts provider ++
      match error with
      | none => if plan.isSome then [.reconnected] else []
      | some _ => attempted.markLostFacts ++ reconnectFacts plan rest attempted.markLost

end LiveConnection

namespace LiveFeed

/-- What an operation tells the sink.  An adapter that disconnects tells nothing. -/
def facts (s : LiveFeed) : Op → List FeedContinuity
  | .register request cashReferences provider =>
    match effectiveLivePlan (s.desiredLiveRequests.retain request) cashReferences with
    | .error _ => []
    | .ok _ => s.connection.connectFacts provider
  | .unregister _ _ => []
  | .reconnect attempts =>
    s.connection.markLostFacts ++
      LiveConnection.reconnectFacts s.desiredLivePlan attempts s.connection.markLost
  | .disconnect _ => []

end LiveFeed

theorem mem_connectFacts {c : LiveConnection} {provider : Provider} {status : FeedContinuity}
    (h : status ∈ c.connectFacts provider) : status = .connected := by
  unfold LiveConnection.connectFacts at h
  split at h
  · cases h
  · split at h
    · exact List.mem_singleton.mp h
    · cases h

theorem mem_markLostFacts {c : LiveConnection} {status : FeedContinuity} :
    status ∈ c.markLostFacts ↔ c.socket = true ∧ status = .continuityLost := by
  unfold LiveConnection.markLostFacts
  split <;> simp_all

theorem notMem_disconnected_reconnectFacts (plan : Option DhanLiveSubscriptionPlan)
    (attempts : List Provider) (c : LiveConnection) :
    FeedContinuity.disconnected ∉ LiveConnection.reconnectFacts plan attempts c := by
  induction attempts generalizing c with
  | nil => simp [LiveConnection.reconnectFacts]
  | cons provider rest ih =>
    unfold LiveConnection.reconnectFacts
    simp only [List.mem_append, not_or]
    refine ⟨fun h => (by cases mem_connectFacts h), ?_⟩
    split
    · split <;> simp
    · simp only [List.mem_append, not_or]
      exact ⟨fun h => (by cases (mem_markLostFacts.mp h).2), ih _⟩

/-- The adapter never tells of a `DISCONNECTED`. -/
theorem notMem_disconnected_facts (s : LiveFeed) (op : LiveFeed.Op) :
    FeedContinuity.disconnected ∉ s.facts op := by
  cases op with
  | register request cashReferences provider =>
    unfold LiveFeed.facts
    simp only
    split
    · simp
    · intro h
      cases mem_connectFacts h
  | unregister sequence provider => simp [LiveFeed.facts]
  | reconnect attempts =>
    simp only [LiveFeed.facts, List.mem_append, not_or]
    exact ⟨fun h => (by cases (mem_markLostFacts.mp h).2), notMem_disconnected_reconnectFacts _ _ _⟩
  | disconnect provider => simp [LiveFeed.facts]

/-- A reconnect that starts with an open socket tells of the loss before anything else. -/
theorem facts_reconnect {s : LiveFeed} (h : s.connection.socket = true) (attempts : List Provider) :
    ∃ rest, s.facts (.reconnect attempts) = .continuityLost :: rest := by
  simp only [LiveFeed.facts, LiveConnection.markLostFacts, h, if_true, List.singleton_append]
  exact ⟨_, rfl⟩

end ApexScan.Dhan
