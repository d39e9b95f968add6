import ApexScan.Adapters.Dhan.Subscriptions

/-!
# The books of the live subscriptions

The counts of the requests in use and the provider plan are kept beside the consumers they stand for.

* `Plannable`, `effectiveLivePlan_spec`, `effectiveLivePlan_returns` — when the requests in use have a
  plan, and what it covers.
* `Coherent` — the counts are those of the registered consumers, and the plan covers exactly the
  instruments that they request.
* `Registered`, `WellFormed` — what holds after every run, coherent or not.
* `Keeps` — an operation for one consumer takes nothing from another.
* `SoundStep` — a stream that a disconnect has cut ends while no consumer has an equal request, and a
  registered consumer leaves with references that know what the others request.

Main result: `books_coherent_iff`.  `stale_stream_drops_fresh_consumer` is a stream cut by a disconnect
that ends after a fresh consumer has registered the same request.
-/

set_option autoImplicit false

namespace ApexScan.Dhan

open Lib

/-! ## What a plan covers -/

/-- The instruments that a plan subscribes. -/
def DhanLiveSubscriptionPlan.instruments (plan : DhanLiveSubscriptionPlan) : List Instrument :=
  plan.batches.flatMap fun batch => batch.references.map (·.instrument)

/-- The plan subscribes exactly the instruments that the requests ask for. -/
def Covers (plan : DhanLiveSubscriptionPlan) (requests : List SubscriptionRequest) : Prop :=
  ∀ i, i ∈ plan.instruments ↔ ∃ request ∈ requests, i ∈ request.instruments

/-- The references know all instruments of the requests. -/
def Known (requests : List SubscriptionRequest) (cashReferences : List DhanInstrumentReference) :
    Prop :=
  ∀ request ∈ requests, ∀ i ∈ request.instruments, ∃ reference ∈ cashReferences,
    reference.instrument = i

/-- The references are of distinct instruments. -/
def Distinct (cashReferences : List DhanInstrumentReference) : Prop :=
  (cashReferences.map (·.instrument)).Nodup

/-- The standard feed delivers all that the requests ask for. -/
def Supported (requests : List SubscriptionRequest) : Prop :=
  ∀ request ∈ requests, request.dataTypes ⊆ standardDataTypes

theorem mem_slices (references : List DhanInstrumentReference) (r : DhanInstrumentReference) :
    (∃ slice ∈ slices references, r ∈ slice) ↔ r ∈ references := by
  unfold slices
  simp only [List.mem_map, List.mem_range]
  constructor
  · rintro ⟨_, ⟨k, -, rfl⟩, hr⟩
    exact List.mem_of_mem_drop (List.mem_of_mem_take hr)
  · intro hr
    obtain ⟨n, hn, rfl⟩ := List.mem_iff_getElem.mp hr
    have hpos : 0 < maximumInstrumentsPerRequest := by decide
    have hdiv := Nat.div_add_mod n maximumInstrumentsPerRequest
    have hmod := Nat.mod_lt n hpos
    have hcomm := Nat.mul_comm maximumInstrumentsPerRequest (n / maximumInstrumentsPerRequest)
    refine ⟨_, ⟨n / maximumInstrumentsPerRequest, ?_, rfl⟩, ?_⟩
    · rw [Nat.lt_div_iff_mul_lt hpos]
      omega
    · rw [List.mem_iff_getElem]
      refine ⟨n % maximumInstrumentsPerRequest, ?_, ?_⟩
      · rw [List.length_take, List.length_drop]
        omega
      · rw [List.getElem_take, List.getElem_drop]
        congr 1
        omega

theorem referenceOf_eq_ok {cashReferences : List DhanInstrumentReference} {i : Instrument}
    {r : DhanInstrumentReference} (h : referenceOf cashReferences i = .ok r) :
    r ∈ cashReferences ∧ r.instrument = i := by
  unfold referenceOf at h
  split at h
  · rename_i hfind
    cases h
    exact ⟨List.mem_of_find?_eq_some hfind, by simpa using List.find?_some hfind⟩
  · cases h

theorem referenceOf_returns {cashReferences : List DhanInstrumentReference} {i : Instrument}
    (h : ∃ reference ∈ cashReferences, reference.instrument = i) :
    ∃ r, referenceOf cashReferences i = .ok r := by
  obtain ⟨reference, hmem, hinstrument⟩ := h
  unfold referenceOf
  cases hfind : cashReferences.find? fun reference => reference.instrument = i with
  | none =>
    rw [List.find?_eq_none] at hfind
    exact absurd hinstrument (by simpa using hfind reference hmem)
  | some r => exact ⟨r, rfl⟩

theorem map_instrument_of_forall₂ {cashReferences : List DhanInstrumentReference}
    {instruments : List Instrument} {requested : List DhanInstrumentReference}
    (h : List.Forall₂ (fun i r => referenceOf cashReferences i = .ok r) instruments requested) :
    requested.map (·.instrument) = instruments := by
  induction h with
  | nil => rfl
  | cons hr _ ih => rw [List.map_cons, ih, (referenceOf_eq_ok hr).2]

theorem feedModeFor_returns_iff (dataTypes : Finset MarketDataKind) :
    (∃ mode, feedModeFor dataTypes = .ok mode) ↔ dataTypes ⊆ standardDataTypes := by
  unfold feedModeFor
  by_cases htick : dataTypes = {.tick}
  · rw [if_pos htick, htick]
    exact iff_of_true ⟨_, rfl⟩ (by decide)
  · rw [if_neg htick]
    by_cases hsub : dataTypes ⊆ standardDataTypes
    · rw [if_pos hsub]
      exact iff_of_true ⟨_, rfl⟩ hsub
    · rw [if_neg hsub]
      refine iff_of_false ?_ hsub
      rintro ⟨mode, hmode⟩
      cases hmode

/-- A plan of one request covers it, and had what it takes. -/
theorem planLiveSubscriptionBatches_spec {request : SubscriptionRequest}
    {cashReferences : List DhanInstrumentReference} {plan : DhanLiveSubscriptionPlan}
    (h : planLiveSubscriptionBatches request cashReferences = .ok plan) :
    Distinct cashReferences ∧ Supported [request] ∧ Known [request] cashReferences ∧
      Covers plan [request] := by
  unfold planLiveSubscriptionBatches at h
  obtain ⟨mode, hmode, h⟩ := bind_eq_ok.mp h
  split at h
  · cases h
  · rename_i hdistinct
    obtain ⟨requested, hrequested, h⟩ := bind_eq_ok.mp h
    cases h
    have hall := mapM_eq_ok.mp hrequested
    have hmap := map_instrument_of_forall₂ hall
    refine ⟨not_not.mp hdistinct, ?_, ?_, ?_⟩
    · intro r hr
      rw [List.mem_singleton.mp hr]
      exact (feedModeFor_returns_iff _).mp ⟨mode, hmode⟩
    · intro r hr i hi
      rw [List.mem_singleton.mp hr, ← hmap, List.mem_map] at hi
      obtain ⟨reference, hreference, rfl⟩ := hi
      obtain ⟨i', -, hi'⟩ := exists_of_mapM_eq_ok hrequested hreference
      exact ⟨reference, (referenceOf_eq_ok hi').1, rfl⟩
    · intro i
      simp only [DhanLiveSubscriptionPlan.instruments, List.mem_flatMap, List.mem_map,
        List.mem_singleton, exists_eq_left]
      rw [← hmap, List.mem_map]
      constructor
      · rintro ⟨_, ⟨slice, hslice, rfl⟩, reference, hmem, rfl⟩
        have hmem := (mem_slices _ reference).mp ⟨slice, hslice, hmem⟩
        exact ⟨reference, (List.mem_insertionSort _).mp hmem, rfl⟩
      · rintro ⟨reference, hmem, rfl⟩
        obtain ⟨slice, hslice, hmem⟩ := (mem_slices _ reference).mpr
          ((List.mem_insertionSort fun a b => referenceSortKey a ≤ referenceSortKey b).mpr hmem)
        exact ⟨_, ⟨slice, hslice, rfl⟩, reference, hmem, rfl⟩

theorem planLiveSubscriptionBatches_returns {request : SubscriptionRequest}
    {cashReferences : List DhanInstrumentReference} (hdistinct : Distinct cashReferences)
    (hsupported : request.dataTypes ⊆ standardDataTypes) (hknown : Known [request] cashReferences) :
    ∃ plan, planLiveSubscriptionBatches request cashReferences = .ok plan := by
  obtain ⟨mode, hmode⟩ := (feedModeFor_returns_iff _).mpr hsupported
  obtain ⟨requested, hrequested⟩ := mapM_returns fun i hi =>
    referenceOf_returns (hknown request (List.mem_singleton_self _) i hi)
  unfold planLiveSubscriptionBatches
  unfold Distinct at hdistinct
  rw [hmode, ok_bind, if_neg (not_not.mpr hdistinct), hrequested, ok_bind]
  exact ⟨_, rfl⟩

/-- What the requests in use have to be for a plan of them to exist. -/
def Plannable (requests : List SubscriptionRequest)
    (cashReferences : List DhanInstrumentReference) : Prop :=
  Distinct cashReferences ∧ Supported requests ∧ Known requests cashReferences

theorem Plannable.tail {request : SubscriptionRequest} {requests : List SubscriptionRequest}
    {cashReferences : List DhanInstrumentReference}
    (h : Plannable (request :: requests) cashReferences) : Plannable requests cashReferences :=
  ⟨h.1, fun r hr => h.2.1 r (List.mem_cons_of_mem _ hr),
    fun r hr => h.2.2 r (List.mem_cons_of_mem _ hr)⟩

section EffectivePlan

variable {desired : Dict SubscriptionRequest ℕ} {requests : List SubscriptionRequest}
  {cashReferences : List DhanInstrumentReference}

theorem mem_requestedInstruments (keys : List SubscriptionRequest) (i : Instrument) :
    i ∈ requestedInstruments keys ↔ ∃ request ∈ keys, i ∈ request.instruments := by
  unfold requestedInstruments
  rw [List.mem_insertionSort, List.mem_dedup, List.mem_flatMap]

theorem mem_requestedDataTypes (keys : List SubscriptionRequest) (kind : MarketDataKind) :
    kind ∈ requestedDataTypes keys ↔ ∃ request ∈ keys, kind ∈ request.dataTypes := by
  unfold requestedDataTypes
  induction keys with
  | nil => simp
  | cons request keys ih => simp [ih]

/-- The request that `_effective_live_plan` builds asks for what all requests in use ask for. -/
theorem effectiveLivePlan_eq (cashReferences : List DhanInstrumentReference)
    (htally : Tallies desired requests) (hne : requests ≠ []) :
    ∃ union : SubscriptionRequest,
      effectiveLivePlan desired cashReferences = planLiveSubscriptionBatches union cashReferences ∧
        (∀ i, i ∈ union.instruments ↔ ∃ request ∈ requests, i ∈ request.instruments) ∧
        ∀ kind, kind ∈ union.dataTypes ↔ ∃ request ∈ requests, kind ∈ request.dataTypes := by
  have hinstruments : ∀ i, i ∈ requestedInstruments (desired.map (·.1)) ↔
      ∃ request ∈ requests, i ∈ request.instruments := by
    intro i
    rw [mem_requestedInstruments]
    simp only [htally.mem_keys_iff]
  have hkinds : ∀ kind, kind ∈ requestedDataTypes (desired.map (·.1)) ↔
      ∃ request ∈ requests, kind ∈ request.dataTypes := by
    intro kind
    rw [mem_requestedDataTypes]
    simp only [htally.mem_keys_iff]
  obtain ⟨request, hrequest⟩ := List.exists_mem_of_ne_nil _ hne
  have hvalid : requestedInstruments (desired.map (·.1)) ≠ [] ∧
      (requestedInstruments (desired.map (·.1))).Nodup ∧
      (requestedDataTypes (desired.map (·.1))).Nonempty := by
    refine ⟨?_, ?_, ?_⟩
    · obtain ⟨i, hi⟩ := List.exists_mem_of_ne_nil _ request.instruments_ne
      exact List.ne_nil_of_mem ((hinstruments i).mpr ⟨request, hrequest, hi⟩)
    · exact (List.perm_insertionSort _ _).nodup_iff.mpr (List.nodup_dedup _)
    · obtain ⟨kind, hkind⟩ := request.dataTypes_ne
      exact ⟨kind, (hkinds kind).mpr ⟨request, hrequest, hkind⟩⟩
  refine ⟨⟨_, _, hvalid.1, hvalid.2.1, hvalid.2.2⟩, ?_, hinstruments, hkinds⟩
  unfold effectiveLivePlan SubscriptionRequest.validate
  simp only
  rw [dif_pos hvalid]

/-- A plan of the requests in use covers them, and had what it takes. -/
theorem effectiveLivePlan_spec (htally : Tallies desired requests) (hne : requests ≠ [])
    {plan : DhanLiveSubscriptionPlan} (h : effectiveLivePlan desired cashReferences = .ok plan) :
    Plannable requests cashReferences ∧ Covers plan requests := by
  obtain ⟨union, heq, hinstruments, hkinds⟩ :=
    effectiveLivePlan_eq cashReferences htally hne
  rw [heq] at h
  obtain ⟨hdistinct, hsupported, hknown, hcovers⟩ := planLiveSubscriptionBatches_spec h
  refine ⟨⟨hdistinct, ?_, ?_⟩, ?_⟩
  · intro request hrequest kind hkind
    have hunion := hsupported union (List.mem_singleton_self _)
    exact hunion ((hkinds kind).mpr ⟨request, hrequest, hkind⟩)
  · intro request hrequest i hi
    exact hknown union (List.mem_singleton_self _) i ((hinstruments i).mpr ⟨request, hrequest, hi⟩)
  · intro i
    rw [hcovers i, ← hinstruments i]
    simp

theorem effectiveLivePlan_returns (htally : Tallies desired requests) (hne : requests ≠ [])
    (h : Plannable requests cashReferences) :
    ∃ plan, effectiveLivePlan desired cashReferences = .ok plan := by
  obtain ⟨union, heq, hinstruments, hkinds⟩ :=
    effectiveLivePlan_eq cashReferences htally hne
  obtain ⟨hdistinct, hsupported, hknown⟩ := h
  rw [heq]
  apply planLiveSubscriptionBatches_returns hdistinct
  · intro kind hkind
    obtain ⟨request, hrequest, hkind⟩ := (hkinds kind).mp hkind
    exact hsupported request hrequest hkind
  · intro r hr i hi
    rw [List.mem_singleton.mp hr] at hi
    obtain ⟨request, hrequest, hi⟩ := (hinstruments i).mp hi
    exact hknown request hrequest i hi

end EffectivePlan

/-! ## Coherent books -/

/-- A plan belongs to the requests: there is none where there are no requests, and else it covers
    them. -/
def PlanFits (plan : Option DhanLiveSubscriptionPlan) (requests : List SubscriptionRequest) : Prop :=
  (plan = none ↔ requests = []) ∧ ∀ p, plan = some p → Covers p requests

/-- The plan that `rollBack` and `unregister` leave. -/
def planAfter (desired : Dict SubscriptionRequest ℕ) (cashReferences : List DhanInstrumentReference)
    (old : Option DhanLiveSubscriptionPlan) : Option DhanLiveSubscriptionPlan :=
  if desired = [] then none
  else
    match effectiveLivePlan desired cashReferences with
    | .ok plan => some plan
    | .error _ => old

theorem planFits_some {p : DhanLiveSubscriptionPlan} {requests : List SubscriptionRequest}
    (hne : requests ≠ []) : PlanFits (some p) requests ↔ Covers p requests := by
  unfold PlanFits
  constructor
  · rintro ⟨-, h⟩
    exact h p rfl
  · intro h
    refine ⟨iff_of_false (by simp) hne, ?_⟩
    intro q hq
    rw [← Option.some.inj hq]
    exact h

theorem planAfter_fits_iff {desired : Dict SubscriptionRequest ℕ}
    {requests : List SubscriptionRequest} (htally : Tallies desired requests)
    (cashReferences : List DhanInstrumentReference) (old : Option DhanLiveSubscriptionPlan) :
    PlanFits (planAfter desired cashReferences old) requests ↔
      requests = [] ∨ Plannable requests cashReferences ∨ PlanFits old requests := by
  unfold planAfter
  by_cases hnil : requests = []
  · rw [if_pos (htally.eq_nil_iff.mpr hnil)]
    refine iff_of_true ⟨iff_of_true rfl hnil, ?_⟩ (Or.inl hnil)
    intro p hp
    cases hp
  · rw [if_neg fun h => hnil (htally.eq_nil_iff.mp h)]
    cases heffective : effectiveLivePlan desired cashReferences with
    | ok plan =>
      obtain ⟨hplannable, hcovers⟩ := effectiveLivePlan_spec htally hnil heffective
      exact iff_of_true ((planFits_some hnil).mpr hcovers) (Or.inr (Or.inl hplannable))
    | error error =>
      have hnot : ¬ Plannable requests cashReferences := by
        intro hplannable
        obtain ⟨plan, hplan⟩ := effectiveLivePlan_returns htally hnil hplannable
        rw [heffective] at hplan
        cases hplan
      simp [hnil, hnot]

theorem PlanFits.perm {plan : Option DhanLiveSubscriptionPlan}
    {requests requests' : List SubscriptionRequest} (h : PlanFits plan requests)
    (hperm : requests.Perm requests') : PlanFits plan requests' := by
  refine ⟨?_, ?_⟩
  · rw [h.1]
    constructor
    · rintro rfl
      exact hperm.symm.eq_nil
    · rintro rfl
      exact hperm.eq_nil
  · intro p hp i
    rw [h.2 p hp i]
    simp only [hperm.mem_iff]

namespace LiveFeed

/-- The requests of the registered consumers. -/
def requests (s : LiveFeed) : List SubscriptionRequest := s.liveConsumers.map (·.2.request)

/-- **The books are right**: `_desired_live_requests` counts the registered consumers by request, and
    `_desired_live_plan` is absent without consumers and else covers exactly what they request. -/
structure Coherent (s : LiveFeed) : Prop where
  counts : Tallies s.desiredLiveRequests s.requests
  plan : PlanFits s.desiredLivePlan s.requests

/-- What the books are made of. -/
structure WellFormed (s : LiveFeed) : Prop where
  nodup : (s.liveConsumers.map (·.1)).Nodup
  owned : ∀ k consumer, s.liveConsumers.get k = some consumer →
    ∃ stream, s.streams.get k = some stream ∧ stream.consumer = consumer
  stream : ∀ k stream, s.streams.get k = some stream →
    stream.consumer.sequence = k ∧ k < s.liveConsumerSequence ∧ Distinct stream.cashReferences
  supported : Supported s.requests

/-- The operation ends the registration of the consumer with this sequence number. -/
def Op.Ends (op : Op) (k : ℕ) : Prop :=
  match op with
  | .disconnect _ => True
  | .unregister sequence _ => sequence = k
  | _ => False

/-- The operation leaves every consumer whose registration it does not end registered, counted and
    covered by the plan. -/
def Keeps (s : LiveFeed) (op : Op) : Prop :=
  ∀ k consumer, s.liveConsumers.get k = some consumer → ¬ op.Ends k →
    (s.step op).1.liveConsumers.get k = some consumer ∧
      ((s.step op).1.desiredLiveRequests.get consumer.request).isSome ∧
      ∃ plan, (s.step op).1.desiredLivePlan = some plan ∧
        ∀ i ∈ consumer.request.instruments, i ∈ plan.instruments

/-- The requests of the consumers other than this one. -/
def othersRequests (s : LiveFeed) (k : ℕ) : List SubscriptionRequest :=
  (s.liveConsumers.restrict (· ≠ k)).map (·.2.request)

/-- A stream ends soundly: a consumer that is still registered leaves with references that know what
    the others request, or requests nothing that they do not; one that a disconnect has cut leaves
    while no consumer has an equal request. -/
def SoundStep (s : LiveFeed) (op : Op) : Prop :=
  match op with
  | .unregister k _ =>
    match s.streams.get k with
    | none => True
    | some stream =>
      if (s.liveConsumers.get k).isSome then
        Known (s.othersRequests k) stream.cashReferences ∨
          ∀ i ∈ stream.consumer.request.instruments, ∃ request ∈ s.othersRequests k,
            i ∈ request.instruments
      else stream.consumer.request ∉ s.requests
  | _ => True

/-! ## What one operation does to the books -/

theorem mem_requests {s : LiveFeed} {k : ℕ} {consumer : LiveConsumer}
    (h : s.liveConsumers.get k = some consumer) : consumer.request ∈ s.requests := by
  unfold Dict.get at h
  rw [Option.map_eq_some_iff] at h
  obtain ⟨kv, hfind, rfl⟩ := h
  exact List.mem_map_of_mem (List.mem_of_find?_eq_some hfind)

/-- In coherent books a registered consumer is counted and covered. -/
theorem Coherent.keeps {s : LiveFeed} (h : s.Coherent) {k : ℕ} {consumer : LiveConsumer}
    (hget : s.liveConsumers.get k = some consumer) :
    (s.desiredLiveRequests.get consumer.request).isSome ∧
      ∃ plan, s.desiredLivePlan = some plan ∧
        ∀ i ∈ consumer.request.instruments, i ∈ plan.instruments := by
  have hmem := mem_requests hget
  refine ⟨(h.counts.isSome_iff _).mpr hmem, ?_⟩
  cases hplan : s.desiredLivePlan with
  | none =>
    have hnil := h.plan.1.mp hplan
    rw [hnil] at hmem
    cases hmem
  | some plan =>
    refine ⟨plan, rfl, ?_⟩
    intro i hi
    exact (h.plan.2 plan hplan i).mpr ⟨_, hmem, hi⟩

theorem requests_perm {s : LiveFeed} (hnodup : (s.liveConsumers.map (·.1)).Nodup) {k : ℕ}
    {consumer : LiveConsumer} (h : s.liveConsumers.get k = some consumer) :
    s.requests.Perm (consumer.request :: s.othersRequests k) := by
  have hperm := Dict.perm_cons_restrict hnodup h
  exact hperm.map fun kv => kv.2.request

theorem othersRequests_of_absent {s : LiveFeed} {k : ℕ} (h : s.liveConsumers.get k = none) :
    s.othersRequests k = s.requests := by
  unfold othersRequests requests
  rw [Dict.drop_of_get_eq_none h]

/-- `unregister` on the books. -/
theorem unregister_books (s : LiveFeed) (consumer : LiveConsumer)
    (cashReferences : List DhanInstrumentReference) (provider : Provider) :
    ∃ connection, (s.unregister consumer cashReferences provider).1 =
      { s with
        connection := connection
        liveConsumers := s.liveConsumers.restrict (· ≠ consumer.sequence)
        desiredLiveRequests := s.desiredLiveRequests.release consumer.request
        desiredLivePlan := planAfter (s.desiredLiveRequests.release consumer.request) cashReferences
          s.desiredLivePlan } := by
  unfold unregister planAfter
  simp only
  split
  · exact ⟨_, rfl⟩
  · cases effectiveLivePlan (s.desiredLiveRequests.release consumer.request) cashReferences with
    | ok plan => exact ⟨_, rfl⟩
    | error error => exact ⟨_, rfl⟩

/-- `rollBack` on the books. -/
theorem rollBack_books (s : LiveFeed) (consumer : LiveConsumer)
    (cashReferences : List DhanInstrumentReference) (error : ProviderError) :
    (s.rollBack consumer cashReferences error).1 =
      { s with
        liveConsumers := s.liveConsumers.restrict (· ≠ consumer.sequence)
        desiredLiveRequests := s.desiredLiveRequests.release consumer.request
        desiredLivePlan := planAfter (s.desiredLiveRequests.release consumer.request) cashReferences
          s.desiredLivePlan } := by
  unfold rollBack planAfter
  simp only
  split
  · rfl
  · cases effectiveLivePlan (s.desiredLiveRequests.release consumer.request) cashReferences with
    | ok plan => rfl
    | error error => rfl

/-- `register` on the books: it adds the consumer, or takes back what it added. -/
theorem register_books (s : LiveFeed) (request : SubscriptionRequest)
    (cashReferences : List DhanInstrumentReference) (provider : Provider) :
    ∃ connection,
      (∃ plan, effectiveLivePlan (s.desiredLiveRequests.retain request) cashReferences = .ok plan ∧
        (s.register request cashReferences provider).1 =
          { connection := connection
            liveCashReferences := cashReferences
            liveConsumerSequence := s.liveConsumerSequence + 1
            liveConsumers := s.liveConsumers.set s.liveConsumerSequence
              { sequence := s.liveConsumerSequence, request := request }
            desiredLiveRequests := s.desiredLiveRequests.retain request
            desiredLivePlan := some plan
            streams := s.streams.set s.liveConsumerSequence
              ⟨{ sequence := s.liveConsumerSequence, request := request }, cashReferences⟩ }) ∨
      ∃ old, (old = s.desiredLivePlan ∨
          ∃ plan, effectiveLivePlan (s.desiredLiveRequests.retain request) cashReferences = .ok plan) ∧
        (s.register request cashReferences provider).1 =
          { connection := connection
            liveCashReferences := cashReferences
            liveConsumerSequence := s.liveConsumerSequence + 1
            liveConsumers := (s.liveConsumers.set s.liveConsumerSequence
              { sequence := s.liveConsumerSequence, request := request }).restrict
                (· ≠ s.liveConsumerSequence)
            desiredLiveRequests := (s.desiredLiveRequests.retain request).release request
            desiredLivePlan :=
              planAfter ((s.desiredLiveRequests.retain request).release request) cashReferences old
            streams := s.streams } := by
  unfold register
  simp only
  cases heffective : effectiveLivePlan (s.desiredLiveRequests.retain request) cashReferences with
  | error error =>
    refine ⟨s.connection, Or.inr ⟨s.desiredLivePlan, Or.inl rfl, ?_⟩⟩
    simp only [rollBack_books]
  | ok plan =>
    simp only
    refine ⟨(s.connection.establish plan provider).1, ?_⟩
    cases hestablish : (s.connection.establish plan provider).2 with
    | none => exact Or.inl ⟨plan, rfl, rfl⟩
    | some error =>
      refine Or.inr ⟨some plan, Or.inr ⟨plan, rfl⟩, ?_⟩
      simp only [rollBack_books]

section Step

variable {s : LiveFeed}

/-- The sequence number of the next consumer is free. -/
theorem WellFormed.fresh (h : s.WellFormed) : s.liveConsumers.get s.liveConsumerSequence = none := by
  cases hget : s.liveConsumers.get s.liveConsumerSequence with
  | none => rfl
  | some consumer =>
    obtain ⟨stream, hstream, -⟩ := h.owned _ _ hget
    have hlt := (h.stream _ _ hstream).2.1
    omega

/-- The consumers and streams that a registration leaves. -/
theorem register_consumers (hw : s.WellFormed) (request : SubscriptionRequest)
    (cashReferences : List DhanInstrumentReference) (provider : Provider) :
    let s' := (s.register request cashReferences provider).1
    (s'.liveConsumers = s.liveConsumers ∧ s'.streams = s.streams) ∨
      let consumer : LiveConsumer := { sequence := s.liveConsumerSequence, request := request }
      s'.liveConsumers = s.liveConsumers ++ [(s.liveConsumerSequence, consumer)] ∧
        s'.streams = s.streams.set s.liveConsumerSequence ⟨consumer, cashReferences⟩ := by
  obtain ⟨connection, ⟨plan, -, heq⟩ | ⟨old, -, heq⟩⟩ :=
    register_books s request cashReferences provider
  · right
    rw [heq]
    exact ⟨Dict.set_of_get_eq_none hw.fresh _, rfl⟩
  · left
    rw [heq]
    refine ⟨?_, rfl⟩
    show (s.liveConsumers.set s.liveConsumerSequence _).restrict (· ≠ s.liveConsumerSequence) =
      s.liveConsumers
    rw [Dict.drop_set_self, Dict.drop_of_get_eq_none hw.fresh]

/-- **A registration keeps the books coherent**, whether it succeeds or fails at planning, connecting
    or subscribing. -/
theorem register_coherent (hc : s.Coherent) (hw : s.WellFormed) (request : SubscriptionRequest)
    (cashReferences : List DhanInstrumentReference) (provider : Provider) :
    (s.register request cashReferences provider).1.Coherent := by
  have hretain : Tallies (s.desiredLiveRequests.retain request) (request :: s.requests) :=
    hc.counts.retain request
  obtain ⟨connection, ⟨plan, hplan, heq⟩ | ⟨old, hold, heq⟩⟩ :=
    register_books s request cashReferences provider
  · rw [heq]
    have hrequests : (s.liveConsumers.set s.liveConsumerSequence
        { sequence := s.liveConsumerSequence, request := request }).map (·.2.request) =
        s.requests ++ [request] := by
      rw [Dict.set_of_get_eq_none hw.fresh, List.map_append]
      rfl
    have hperm : (request :: s.requests).Perm (s.requests ++ [request]) :=
      (List.perm_append_singleton request s.requests).symm
    have hcovers := (effectiveLivePlan_spec hretain (List.cons_ne_nil _ _) hplan).2
    constructor
    · show Tallies _ (List.map _ _)
      rw [hrequests]
      exact hretain.perm hperm
    · show PlanFits _ (List.map _ _)
      rw [hrequests]
      exact ((planFits_some (List.cons_ne_nil _ _)).mpr hcovers).perm hperm
  · rw [heq]
    have hrequests : ((s.liveConsumers.set s.liveConsumerSequence
        { sequence := s.liveConsumerSequence, request := request }).restrict
          (· ≠ s.liveConsumerSequence)).map (·.2.request) = s.requests := by
      rw [Dict.drop_set_self, Dict.drop_of_get_eq_none hw.fresh]
      rfl
    have hrelease := hretain.release
    constructor
    · show Tallies _ (List.map _ _)
      rw [hrequests]
      exact hrelease
    · show PlanFits _ (List.map _ _)
      rw [hrequests, planAfter_fits_iff hrelease]
      rcases hold with rfl | ⟨plan, hplan⟩
      · exact Or.inr (Or.inr hc.plan)
      · have hplannable := (effectiveLivePlan_spec hretain (List.cons_ne_nil _ _) hplan).1
        exact Or.inr (Or.inl hplannable.tail)

/-- A registered consumer leaves coherent books behind iff its references know what the others
    request, or it requests nothing that they do not. -/
theorem unregister_registered_iff (hc : s.Coherent) (hw : s.WellFormed) {k : ℕ}
    {stream : LiveStream} (hstream : s.streams.get k = some stream) {consumer : LiveConsumer}
    (hget : s.liveConsumers.get k = some consumer) :
    (Tallies (s.desiredLiveRequests.release stream.consumer.request) (s.othersRequests k) ∧
      PlanFits (planAfter (s.desiredLiveRequests.release stream.consumer.request)
        stream.cashReferences s.desiredLivePlan) (s.othersRequests k)) ↔
      Known (s.othersRequests k) stream.cashReferences ∨
        ∀ i ∈ stream.consumer.request.instruments, ∃ request ∈ s.othersRequests k,
          i ∈ request.instruments := by
  obtain ⟨owner, howner, howned⟩ := hw.owned _ _ hget
  rw [hstream, Option.some.injEq] at howner
  subst howner
  have hperm := requests_perm hw.nodup hget
  rw [← howned] at hperm
  have hrelease := (hc.counts.perm hperm).release
  have hfits := hc.plan.perm hperm
  have hsupported : Supported (s.othersRequests k) := by
    intro request hrequest
    exact hw.supported request (hperm.mem_iff.mpr (List.mem_cons_of_mem _ hrequest))
  rw [planAfter_fits_iff hrelease]
  obtain ⟨plan, hplan⟩ : ∃ plan, s.desiredLivePlan = some plan := by
    cases hplan : s.desiredLivePlan with
    | none => cases hfits.1.mp hplan
    | some plan => exact ⟨plan, rfl⟩
  have hcovers := hfits.2 plan hplan
  constructor
  · rintro ⟨-, hnil | hplannable | hold⟩
    · left
      rw [hnil]
      intro request hrequest
      cases hrequest
    · exact Or.inl hplannable.2.2
    · right
      intro i hi
      exact (hold.2 plan hplan i).mp ((hcovers i).mpr ⟨_, List.mem_cons_self, hi⟩)
  · intro h
    refine ⟨hrelease, ?_⟩
    by_cases hnil : s.othersRequests k = []
    · exact Or.inl hnil
    · right
      rcases h with hknown | hshared
      · exact Or.inl ⟨(hw.stream _ _ hstream).2.2, hsupported, hknown⟩
      · right
        rw [hplan, planFits_some hnil]
        intro i
        rw [hcovers i]
        constructor
        · rintro ⟨request, hrequest, hi⟩
          rcases List.mem_cons.mp hrequest with rfl | hrequest
          · exact hshared i hi
          · exact ⟨request, hrequest, hi⟩
        · rintro ⟨request, hrequest, hi⟩
          exact ⟨request, List.mem_cons_of_mem _ hrequest, hi⟩

/-- A consumer that is no longer registered leaves coherent books behind iff no registered consumer
    has an equal request. -/
theorem unregister_absent_iff (hc : s.Coherent) {k : ℕ} {stream : LiveStream}
    (hget : s.liveConsumers.get k = none) :
    (Tallies (s.desiredLiveRequests.release stream.consumer.request) (s.othersRequests k) ∧
      PlanFits (planAfter (s.desiredLiveRequests.release stream.consumer.request)
        stream.cashReferences s.desiredLivePlan) (s.othersRequests k)) ↔
      stream.consumer.request ∉ s.requests := by
  rw [othersRequests_of_absent hget]
  constructor
  · rintro ⟨hrelease, -⟩ hmem
    exact hc.counts.not_release hmem hrelease
  · intro hnot
    have hrelease := hc.counts.release_absent hnot
    refine ⟨hrelease, ?_⟩
    rw [planAfter_fits_iff hrelease]
    exact Or.inr (Or.inr hc.plan)

/-- A consumer that an unregistration does not concern stays registered. -/
theorem unregister_keeps {k k' : ℕ} {consumer : LiveConsumer}
    (hget : s.liveConsumers.get k' = some consumer) (hne : k' ≠ k) :
    (s.liveConsumers.restrict (· ≠ k)).get k' = some consumer := by
  rw [Dict.get_restrict, if_pos (decide_eq_true hne), hget]

/-- The end of a stream, on the books. -/
theorem step_unregister_books (hw : s.WellFormed) {k : ℕ} {stream : LiveStream}
    (hstream : s.streams.get k = some stream) (provider : Provider) :
    ∃ connection, (s.step (.unregister k provider)).1 =
      { s with
        connection := connection
        liveConsumers := s.liveConsumers.restrict (· ≠ k)
        desiredLiveRequests := s.desiredLiveRequests.release stream.consumer.request
        desiredLivePlan := planAfter (s.desiredLiveRequests.release stream.consumer.request)
          stream.cashReferences s.desiredLivePlan
        streams := s.streams.restrict (· ≠ k) } := by
  obtain ⟨connection, hbooks⟩ := unregister_books { s with streams := s.streams.restrict (· ≠ k) }
    stream.consumer stream.cashReferences provider
  refine ⟨connection, ?_⟩
  unfold step
  simp only [hstream]
  rw [hbooks, (hw.stream _ _ hstream).1]

/-- **The books stay coherent in an operation iff it is sound.** -/
theorem step_coherent_iff (hc : s.Coherent) (hw : s.WellFormed) (op : Op) :
    (s.step op).1.Coherent ↔ s.SoundStep op := by
  cases op with
  | register request cashReferences provider =>
    exact iff_of_true (register_coherent hc hw request cashReferences provider) trivial
  | reconnect attempts => exact iff_of_true ⟨hc.counts, hc.plan⟩ trivial
  | disconnect provider =>
    refine iff_of_true ⟨Tallies.nil, iff_of_true rfl rfl, ?_⟩ trivial
    intro p hp
    cases hp
  | unregister k provider =>
    cases hstream : s.streams.get k with
    | none =>
      unfold step SoundStep
      simp only [hstream]
      exact iff_of_true hc trivial
    | some stream =>
      obtain ⟨connection, hbooks⟩ := step_unregister_books hw hstream provider
      have hcoherent : (s.step (.unregister k provider)).1.Coherent ↔
          Tallies (s.desiredLiveRequests.release stream.consumer.request) (s.othersRequests k) ∧
            PlanFits (planAfter (s.desiredLiveRequests.release stream.consumer.request)
              stream.cashReferences s.desiredLivePlan) (s.othersRequests k) := by
        rw [hbooks]
        exact ⟨fun h => ⟨h.counts, h.plan⟩, fun h => ⟨h.1, h.2⟩⟩
      rw [hcoherent]
      unfold SoundStep
      simp only [hstream]
      cases hget : s.liveConsumers.get k with
      | none => simpa using unregister_absent_iff hc hget
      | some consumer => simpa using unregister_registered_iff hc hw hstream hget

/-- An operation that leaves the books coherent takes nothing from another consumer. -/
theorem step_keeps (hw : s.WellFormed) (op : Op) (h : (s.step op).1.Coherent) : s.Keeps op := by
  intro k consumer hget hends
  have hstays : (s.step op).1.liveConsumers.get k = some consumer := by
    cases op with
    | register request cashReferences provider =>
      show (s.register request cashReferences provider).1.liveConsumers.get k = _
      rcases register_consumers hw request cashReferences provider with hsame | hadded
      · rw [hsame.1, hget]
      · have hne : s.liveConsumerSequence ≠ k := by
          rintro rfl
          rw [hw.fresh] at hget
          cases hget
        rw [hadded.1, ← Dict.set_of_get_eq_none hw.fresh, Dict.get_set_ne _ _ hne, hget]
    | reconnect attempts => exact hget
    | disconnect provider => exact absurd trivial hends
    | unregister sequence provider =>
      have hne : k ≠ sequence := fun heq => hends heq.symm
      cases hstream : s.streams.get sequence with
      | none =>
        unfold step
        simp only [hstream]
        exact hget
      | some stream =>
        obtain ⟨connection, hbooks⟩ := step_unregister_books hw hstream provider
        rw [hbooks]
        exact unregister_keeps hget hne
  exact ⟨hstays, h.keeps hstays⟩

/-- Taking a consumer and its stream away keeps the books well formed. -/
theorem WellFormed.unregister (hw : s.WellFormed) {s' : LiveFeed} {k : ℕ}
    (hconsumers : s'.liveConsumers = s.liveConsumers.restrict (· ≠ k))
    (hstreams : s'.streams = s.streams.restrict (· ≠ k))
    (hsequence : s'.liveConsumerSequence = s.liveConsumerSequence) : s'.WellFormed := by
  constructor
  · rw [hconsumers]
    exact Dict.nodup_keys_restrict hw.nodup _
  · intro k' consumer hget
    rw [hconsumers, Dict.get_restrict] at hget
    split at hget
    · rename_i hne
      obtain ⟨stream, hstream, howned⟩ := hw.owned _ _ hget
      refine ⟨stream, ?_, howned⟩
      rw [hstreams, Dict.get_restrict, if_pos hne, hstream]
    · cases hget
  · intro k' stream hget
    rw [hstreams, Dict.get_restrict] at hget
    split at hget
    · rw [hsequence]
      exact hw.stream _ _ hget
    · cases hget
  · intro request hrequest
    unfold requests at hrequest
    rw [hconsumers] at hrequest
    obtain ⟨kv, hkv, rfl⟩ := List.mem_map.mp hrequest
    exact hw.supported _ (List.mem_map_of_mem (List.mem_of_mem_filter hkv))

/-- A consumer and its stream under the next sequence number keep the books well formed. -/
theorem WellFormed.registered (hw : s.WellFormed) {s' : LiveFeed} {request : SubscriptionRequest}
    {cashReferences : List DhanInstrumentReference}
    (hconsumers : s'.liveConsumers = s.liveConsumers.set s.liveConsumerSequence
      { sequence := s.liveConsumerSequence, request := request })
    (hstreams : s'.streams = s.streams.set s.liveConsumerSequence
      ⟨{ sequence := s.liveConsumerSequence, request := request }, cashReferences⟩)
    (hsequence : s'.liveConsumerSequence = s.liveConsumerSequence + 1)
    (hdistinct : Distinct cashReferences) (hsupported : Supported [request]) : s'.WellFormed := by
  constructor
  · rw [hconsumers]
    exact Dict.nodup_keys_set hw.nodup _ _
  · intro k consumer hget
    rw [hconsumers, Dict.get_set] at hget
    rw [hstreams, Dict.get_set]
    split at hget
    · rename_i hk
      rw [if_pos hk]
      exact ⟨_, rfl, Option.some.inj hget⟩
    · rename_i hk
      rw [if_neg hk]
      exact hw.owned _ _ hget
  · intro k stream hget
    rw [hstreams, Dict.get_set] at hget
    rw [hsequence]
    split at hget
    · rename_i hk
      rw [← Option.some.inj hget, ← hk]
      exact ⟨rfl, Nat.lt_succ_self _, hdistinct⟩
    · obtain ⟨hk, hlt, hrefs⟩ := hw.stream _ _ hget
      exact ⟨hk, Nat.lt_succ_of_lt hlt, hrefs⟩
  · intro r hr
    simp only [requests, hconsumers, Dict.set_of_get_eq_none hw.fresh, List.map_append, List.mem_append,
      List.map_cons, List.map_nil] at hr
    rcases hr with hr | hr
    · exact hw.supported r hr
    · exact hsupported r hr

/-- A consumer that is taken back at once leaves the books as they were, under the next number. -/
theorem WellFormed.takenBack (hw : s.WellFormed) {s' : LiveFeed} {request : SubscriptionRequest}
    (hconsumers : s'.liveConsumers = (s.liveConsumers.set s.liveConsumerSequence
      { sequence := s.liveConsumerSequence, request := request }).restrict
        (· ≠ s.liveConsumerSequence))
    (hstreams : s'.streams = s.streams)
    (hsequence : s'.liveConsumerSequence = s.liveConsumerSequence + 1) : s'.WellFormed := by
  have hsame : s'.liveConsumers = s.liveConsumers := by
    rw [hconsumers]
    exact (Dict.drop_set_self s.liveConsumers s.liveConsumerSequence _).trans
      (Dict.drop_of_get_eq_none hw.fresh)
  refine ⟨?_, ?_, ?_, ?_⟩
  · rw [hsame]
    exact hw.nodup
  · rw [hsame, hstreams]
    exact hw.owned
  · intro k stream hget
    rw [hstreams] at hget
    rw [hsequence]
    obtain ⟨hk, hlt, hrefs⟩ := hw.stream _ _ hget
    exact ⟨hk, Nat.lt_succ_of_lt hlt, hrefs⟩
  · unfold requests
    rw [hsame]
    exact hw.supported

theorem step_wellFormed (hc : s.Coherent) (hw : s.WellFormed) (op : Op) :
    (s.step op).1.WellFormed := by
  cases op with
  | register request cashReferences provider =>
    show (s.register request cashReferences provider).1.WellFormed
    obtain ⟨connection, ⟨plan, hplan, heq⟩ | ⟨old, -, heq⟩⟩ :=
      register_books s request cashReferences provider
    · have hretain := hc.counts.retain request
      obtain ⟨hdistinct, hsupported, -⟩ :=
        (effectiveLivePlan_spec hretain (List.cons_ne_nil _ _) hplan).1
      rw [heq]
      refine hw.registered rfl rfl rfl hdistinct ?_
      intro r hr
      rw [List.mem_singleton.mp hr]
      exact hsupported request List.mem_cons_self
    · rw [heq]
      exact hw.takenBack rfl rfl rfl
  | reconnect attempts => exact ⟨hw.nodup, hw.owned, hw.stream, hw.supported⟩
  | disconnect provider =>
    refine ⟨List.nodup_nil, ?_, hw.stream, ?_⟩
    · intro k consumer hget
      cases hget
    · intro request hrequest
      cases hrequest
  | unregister k provider =>
    cases hstream : s.streams.get k with
    | none =>
      unfold step
      simp only [hstream]
      exact hw
    | some stream =>
      obtain ⟨connection, hbooks⟩ := step_unregister_books hw hstream provider
      rw [hbooks]
      exact hw.unregister (k := k) rfl rfl rfl

end Step

/-! ## Main result -/

/-- **The books are right after every operation iff every stream ends soundly**, in every interleaving
    of registrations, unregistrations, reconnects and disconnects. -/
theorem books_coherent_iff (ops : List Op) :
    Along step (fun s op => (s.step op).1.Coherent ∧ s.Keeps op) {} ops ↔ Along step SoundStep {} ops := by
  have hinit : Coherent {} ∧ WellFormed {} := by
    refine ⟨⟨Tallies.nil, iff_of_true rfl rfl, ?_⟩, List.nodup_nil, ?_, ?_, ?_⟩
    · intro p hp
      cases hp
    · intro k consumer hget
      cases hget
    · intro k stream hget
      cases hget
    · intro request hrequest
      cases hrequest
  refine along_iff (I := fun s => s.Coherent ∧ s.WellFormed) ?_ ?_ ops hinit
  · rintro s op ⟨hc, hw⟩ ⟨hcoherent, -⟩
    exact ⟨hcoherent, step_wellFormed hc hw op⟩
  · rintro s op ⟨hc, hw⟩
    rw [← step_coherent_iff hc hw op]
    exact ⟨fun h => h.1, fun h => ⟨h, step_keeps hw op h⟩⟩

/-! ## A stream that outlives its registration -/

def relianceReference : DhanInstrumentReference := ⟨reliance, "2885", some "NSE_EQ"⟩

/-- The ticks of one instrument. -/
def relianceTicks : SubscriptionRequest where
  instruments := [reliance]
  dataTypes := {.tick}
  instruments_ne := reliance_ne_nil
  instruments_nodup := List.nodup_singleton _
  dataTypes_ne := Finset.singleton_nonempty _

/-- A consumer registers, the adapter disconnects, a second consumer registers the same request, and
    then the stream of the first one ends. -/
def staleStream : List Op :=
  [.register relianceTicks [relianceReference] {}, .disconnect {},
    .register relianceTicks [relianceReference] {}, .unregister 0 {}]

/-- The second consumer is registered and neither counted nor planned for. -/
theorem stale_stream_drops_fresh_consumer :
    (Lib.run step {} staleStream).requests = [relianceTicks] ∧
      (Lib.run step {} staleStream).desiredLiveRequests = [] ∧
      (Lib.run step {} staleStream).desiredLivePlan = none ∧
      ¬ Along step (fun s op => (s.step op).1.Coherent ∧ s.Keeps op) {} staleStream := by
  refine ⟨rfl, rfl, rfl, ?_⟩
  rintro ⟨-, -, -, ⟨hcoherent, -⟩, -⟩
  have hfits := hcoherent.plan.1.mp rfl
  cases hfits

end LiveFeed

end ApexScan.Dhan
