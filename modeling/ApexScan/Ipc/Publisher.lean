import ApexScan.Ipc.Envelope
import ApexScan.Lib.Machine

/-!
# Shadow publishers (`app/market_ipc/publisher.py`, `app/market_ipc/epoch.py`)

A publisher stamps each event with its epoch and the next sequence number.  `start` awaits the epoch
allocator and the stream before it installs the epoch and resets the sequence; `publish` awaits the
stream only after it has taken its number.  Calls of any number of publishers of one producer overlap
at these awaits.

* `MarketEventPublisher`, `beginPublish`, `endPublish`, `endStart` — the code between the awaits.
* `Producers`, `producerStep` — publishers with their suspended calls; an operation resumes one.
* `Assigned` — a sequence number taken by a call, and whether the call reached the stream.
* `Numbered` — the invariant: each epoch is installed once and numbers its calls from 1 on.

Main result: `event_identity_unique`.  `overlapping_publish_uncounted` shows that a completed call may
leave the counters unequal while another call is suspended.
-/

set_option autoImplicit false

namespace ApexScan.Ipc

open Lib

/-! ## One publisher -/

inductive PublishOutcome where
  | published
  | failedUnsupported
  | failedOversize
  | failedSerialization
  | failedTransport
  deriving DecidableEq, Repr

/-- `_Counters`. -/
structure PublisherCounters where
  attempted : ℕ := 0
  published : ℕ := 0
  publishFailures : ℕ := 0
  serialization : ℕ := 0
  oversize : ℕ := 0
  unsupported : ℕ := 0
  deriving DecidableEq

/-- The sum of the counters of finished calls. -/
def PublisherCounters.finished (k : PublisherCounters) : ℕ :=
  k.published + k.publishFailures + k.serialization + k.oversize + k.unsupported

/-- `MarketEventPublisher`. -/
structure MarketEventPublisher where
  epoch : Option ℕ := none
  sequence : ℕ := 0
  counters : PublisherCounters := {}
  lastPublishAt : Option Int := none
  deriving DecidableEq

/-- `MarketData | FeedContinuityEvent`. -/
inductive PublishableEvent where
  | data (d : MarketData)
  | continuity (e : FeedContinuityEvent)
  deriving DecidableEq

/-- `_as_ipc_payload`; `none` for the `ValueError` on depth snapshots and candles. -/
def asIpcPayload : PublishableEvent → Option IpcPayload
  | .data (.tick t) => some (.tick t)
  | .data (.quote q) => some (.quote q)
  | .data (.reference r) => some (.marketReference r)
  | .continuity e => some (.feedContinuity e)
  | .data (.depth _) | .data (.candle _) => none

/-- What `build_envelope` and `encode_envelope` do. -/
inductive Built where
  | ok
  | valueError
  | raised
  deriving DecidableEq, Repr

/-- How `publish` stands when it first gives way: it raised `RuntimeError`, returned, or awaits the
    stream with an envelope of this epoch and sequence. -/
inductive PublishBegun where
  | notStarted
  | returned (outcome : PublishOutcome)
  | sending (epoch sequence : ℕ) (payload : IpcPayload)

/-- `publish` up to its await. -/
def beginPublish (p : MarketEventPublisher) (event : PublishableEvent) (built : Built) :
    MarketEventPublisher × PublishBegun :=
  match p.epoch with
  | none => (p, .notStarted)
  | some epoch =>
    let k := { p.counters with attempted := p.counters.attempted + 1 }
    match asIpcPayload event with
    | none =>
      ({ p with counters := { k with unsupported := k.unsupported + 1 } }, .returned .failedUnsupported)
    | some payload =>
      let p := { p with sequence := p.sequence + 1 }
      match built with
      | .valueError =>
        ({ p with counters := { k with oversize := k.oversize + 1 } }, .returned .failedOversize)
      | .raised =>
        ({ p with counters := { k with serialization := k.serialization + 1 } },
          .returned .failedSerialization)
      | .ok => ({ p with counters := k }, .sending epoch p.sequence payload)

/-- How the await of `publish` ends: the message is appended and the clock read, a `RedisPublishError`,
    or another exception (a cancellation). -/
inductive Sent where
  | ok (now : Int)
  | redisPublishError
  | raised

/-- `publish` from its await on; `none` when the exception leaves the call. -/
def endPublish (p : MarketEventPublisher) : Sent → MarketEventPublisher × Option PublishOutcome
  | .ok now =>
    ({ p with counters := { p.counters with published := p.counters.published + 1 }
              lastPublishAt := some now }, some .published)
  | .redisPublishError =>
    ({ p with counters := { p.counters with publishFailures := p.counters.publishFailures + 1 } },
      some .failedTransport)
  | .raised => (p, none)

/-- `start` from its second await on. -/
def endStart (p : MarketEventPublisher) (epoch : ℕ) : MarketEventPublisher :=
  { p with epoch := some epoch, sequence := 0 }

/-! ## Overlapping calls -/

/-- Publishers of one producer with their suspended calls: a `start` awaits `allocate` (`none`) or
    `ensure_group` with its epoch, a `publish` awaits the stream. -/
structure Producers (ι : Type) where
  publishers : ι → MarketEventPublisher := fun _ => {}
  starting : List (ι × Option ℕ) := []
  sending : List ι := []

/-- A call, or the end of an await of a suspended one. -/
inductive ProducerOp (ι : Type) where
  | start (i : ι)
  | allocated (i : ι) (epoch : ℕ)
  | ensured (i : ι) (epoch : ℕ)
  | startRaised (i : ι) (stage : Option ℕ)
  | publish (i : ι) (event : PublishableEvent) (built : Built)
  | sent (i : ι) (result : Sent)

/-- A sequence number that a call of `publish` took. -/
structure Assigned (ι : Type) where
  publisher : ι
  epoch : ℕ
  sequence : ℕ
  payload : IpcPayload
  reachesStream : Bool

def Assigned.identity {ι : Type} (producerId : String) (a : Assigned ι) : ProducerEventIdentity :=
  ⟨producerId, a.epoch, a.sequence⟩

/-- What a step lets an observer see: a number taken, or an exception that left a `publish`. -/
inductive ProducerEvent (ι : Type) where
  | assigned (a : Assigned ι)
  | escaped (i : ι)

section Steps

variable {ι : Type} [DecidableEq ι]

/-- One publisher changes. -/
def Producers.put (s : Producers ι) (i : ι) (p : MarketEventPublisher) : Producers ι :=
  { s with publishers := Function.update s.publishers i p }

/-- The number that a call of `publish` takes. -/
def assignment (p : MarketEventPublisher) (i : ι) (event : PublishableEvent) (built : Built) :
    Option (Assigned ι) := do
  let epoch ← p.epoch
  let payload ← asIpcPayload event
  return ⟨i, epoch, p.sequence + 1, payload, decide (built = .ok)⟩

def producerStep (s : Producers ι) : ProducerOp ι → Producers ι × Option (ProducerEvent ι)
  | .start i =>
    -- a running publisher returns at once
    if (s.publishers i).epoch = none then
      ({ s with starting := s.starting ++ [(i, none)] }, none)
    else (s, none)
  | .allocated i epoch =>
    if (i, none) ∈ s.starting then
      ({ s with starting := s.starting.erase (i, none) ++ [(i, some epoch)] }, none)
    else (s, none)
  | .ensured i epoch =>
    if (i, some epoch) ∈ s.starting then
      ({ s.put i (endStart (s.publishers i) epoch) with
          starting := s.starting.erase (i, some epoch) }, none)
    else (s, none)
  | .startRaised i stage => ({ s with starting := s.starting.erase (i, stage) }, none)
  | .publish i event built =>
    let (p, begun) := beginPublish (s.publishers i) event built
    let s' := s.put i p
    let out := (assignment (s.publishers i) i event built).map .assigned
    match begun with
    | .sending _ _ _ => ({ s' with sending := i :: s'.sending }, out)
    | _ => (s', out)
  | .sent i result =>
    if i ∈ s.sending then
      let (p, outcome) := endPublish (s.publishers i) result
      ({ s.put i p with sending := s.sending.erase i },
        match outcome with
        | some _ => none
        | none => some (.escaped i))
    else (s, none)

/-- The numbers taken along a run, in call order. -/
def assignments (events : List (Option (ProducerEvent ι))) : List (Assigned ι) :=
  events.filterMap fun
    | some (.assigned a) => some a
    | _ => none

/-- The publishers whose calls an exception left, in order. -/
def escapes (events : List (Option (ProducerEvent ι))) : List ι :=
  events.filterMap fun
    | some (.escaped i) => some i
    | _ => none

/-- The epochs that the allocator returned. -/
def returnedEpochs (ops : List (ProducerOp ι)) : List ℕ :=
  ops.filterMap fun
    | .allocated _ epoch => some epoch
    | _ => none

end Steps

/-! ## What the calls do -/

section Calls

variable {ι : Type} (i : ι) (p : MarketEventPublisher) (event : PublishableEvent) (built : Built)

/-- What `publish` does up to its await: it raises before `start`, rejects the event, or takes the next
    number of the epoch, and then either fails or waits for the stream with that number. -/
theorem beginPublish_cases :
    (p.epoch = none ∧ assignment p i event built = none ∧
      beginPublish p event built = (p, .notStarted)) ∨
    (assignment p i event built = none ∧ ∃ k, k.attempted = p.counters.attempted + 1 ∧
      k.finished = p.counters.finished + 1 ∧
      beginPublish p event built = ({ p with counters := k }, .returned .failedUnsupported)) ∨
    ∃ a, assignment p i event built = some a ∧ a.publisher = i ∧ p.epoch = some a.epoch ∧
      a.sequence = p.sequence + 1 ∧
      ((a.reachesStream = false ∧ ∃ k outcome, k.attempted = p.counters.attempted + 1 ∧
          k.finished = p.counters.finished + 1 ∧
          beginPublish p event built =
            ({ p with sequence := a.sequence, counters := k }, .returned outcome)) ∨
        (a.reachesStream = true ∧ ∃ k, k.attempted = p.counters.attempted + 1 ∧
          k.finished = p.counters.finished ∧
          beginPublish p event built = ({ p with sequence := a.sequence, counters := k },
            .sending a.epoch a.sequence a.payload))) := by
  unfold beginPublish assignment
  cases hepoch : p.epoch with
  | none => exact Or.inl ⟨rfl, rfl, rfl⟩
  | some epoch =>
    right
    cases hpayload : asIpcPayload event with
    | none =>
      left
      exact ⟨rfl, _, rfl, by simp only [PublisherCounters.finished]; omega, rfl⟩
    | some payload =>
      right
      refine ⟨_, rfl, rfl, rfl, rfl, ?_⟩
      cases built with
      | ok =>
        right
        exact ⟨rfl, { p.counters with attempted := p.counters.attempted + 1 }, rfl, rfl, rfl⟩
      | valueError =>
        left
        exact ⟨rfl, _, _, rfl, by simp only [PublisherCounters.finished]; omega, rfl⟩
      | raised =>
        left
        exact ⟨rfl, _, _, rfl, by simp only [PublisherCounters.finished]; omega, rfl⟩

/-- The end of an await changes no number; it finishes the call, or an exception leaves it. -/
theorem endPublish_cases (result : Sent) :
    (endPublish p result).1.epoch = p.epoch ∧ (endPublish p result).1.sequence = p.sequence ∧
      (endPublish p result).1.counters.attempted = p.counters.attempted ∧
      (((endPublish p result).2.isSome = true ∧
          (endPublish p result).1.counters.finished = p.counters.finished + 1) ∨
        ((endPublish p result).2 = none ∧
          (endPublish p result).1.counters.finished = p.counters.finished)) := by
  cases result with
  | ok now =>
    refine ⟨rfl, rfl, rfl, Or.inl ⟨rfl, ?_⟩⟩
    simp only [endPublish, PublisherCounters.finished]
    omega
  | redisPublishError =>
    refine ⟨rfl, rfl, rfl, Or.inl ⟨rfl, ?_⟩⟩
    simp only [endPublish, PublisherCounters.finished]
    omega
  | raised => exact ⟨rfl, rfl, rfl, Or.inr ⟨rfl, rfl⟩⟩

end Calls

/-! ## The invariant -/

section Invariant

variable {ι : Type}

/-- The epochs of suspended starts. -/
def Producers.held (s : Producers ι) : List ℕ := s.starting.filterMap (·.2)

/-- Each epoch that the allocator returned is held by one suspended start, or is installed in one
    publisher, or was before; installed epochs number their calls from 1 on. -/
structure Numbered (returned : List ℕ) (log : List (Assigned ι)) (s : Producers ι) : Prop where
  held_returned : ∀ e ∈ s.held, e ∈ returned
  held_nodup : s.held.Nodup
  installed : ∀ i e, (s.publishers i).epoch = some e → e ∈ returned ∧ e ∉ s.held
  installed_inj : ∀ i j e, (s.publishers i).epoch = some e → (s.publishers j).epoch = some e → i = j
  logged : ∀ a ∈ log, a.epoch ∈ returned ∧ a.epoch ∉ s.held
  current : ∀ i e, (s.publishers i).epoch = some e →
    (log.filter (·.epoch = e)).map (·.sequence) = List.range' 1 (s.publishers i).sequence
  numbered : ∀ e, ∃ n, (log.filter (·.epoch = e)).map (·.sequence) = List.range' 1 n

variable {returned : List ℕ} {log : List (Assigned ι)} {s : Producers ι}

theorem numbered_new : Numbered [] [] ({} : Producers ι) := by
  refine ⟨?_, List.nodup_nil, ?_, ?_, ?_, ?_, ?_⟩
  · intro e he
    cases he
  · intro i e h
    cases h
  · intro i j e h
    cases h
  · intro a ha
    cases ha
  · intro i e h
    cases h
  · intro e
    exact ⟨0, rfl⟩

/-- Fewer held epochs and the same numbers keep the invariant. -/
theorem Numbered.shrink (h : Numbered returned log s) {s' : Producers ι}
    (hheld : s'.held.Sublist s.held)
    (hsame : ∀ i, (s'.publishers i).epoch = (s.publishers i).epoch ∧
      (s'.publishers i).sequence = (s.publishers i).sequence) : Numbered returned log s' := by
  refine ⟨?_, h.held_nodup.sublist hheld, ?_, ?_, ?_, ?_, h.numbered⟩
  · intro e he
    exact h.held_returned e (hheld.subset he)
  · intro i e hi
    rw [(hsame i).1] at hi
    exact ⟨(h.installed i e hi).1, fun he => (h.installed i e hi).2 (hheld.subset he)⟩
  · intro i j e hi hj
    rw [(hsame i).1] at hi
    rw [(hsame j).1] at hj
    exact h.installed_inj i j e hi hj
  · intro a ha
    exact ⟨(h.logged a ha).1, fun he => (h.logged a ha).2 (hheld.subset he)⟩
  · intro i e hi
    rw [(hsame i).1] at hi
    rw [(hsame i).2]
    exact h.current i e hi

/-- A new epoch is held by its start. -/
theorem Numbered.allocate (h : Numbered returned log s) {e₀ : ℕ} (hnew : e₀ ∉ returned)
    {s' : Producers ι} (hheld : s'.held.Perm (e₀ :: s.held))
    (hsame : s'.publishers = s.publishers) : Numbered (returned ++ [e₀]) log s' := by
  have hmem : ∀ e, e ∈ s'.held ↔ e = e₀ ∨ e ∈ s.held := by
    intro e
    rw [hheld.mem_iff, List.mem_cons]
  have hold : ∀ e ∈ returned, e ∉ s.held → e ∉ s'.held := by
    intro e he hnot
    rw [hmem]
    rintro (rfl | hin)
    · exact hnew he
    · exact hnot hin
  refine ⟨?_, ?_, ?_, ?_, ?_, ?_, h.numbered⟩
  · intro e he
    rcases (hmem e).mp he with rfl | he
    · exact List.mem_append_right _ (List.mem_singleton.mpr rfl)
    · exact List.mem_append_left _ (h.held_returned e he)
  · rw [hheld.nodup_iff, List.nodup_cons]
    exact ⟨fun he => hnew (h.held_returned e₀ he), h.held_nodup⟩
  · intro i e hi
    rw [hsame] at hi
    obtain ⟨hret, hnot⟩ := h.installed i e hi
    exact ⟨List.mem_append_left _ hret, hold e hret hnot⟩
  · rw [hsame]
    exact h.installed_inj
  · intro a ha
    obtain ⟨hret, hnot⟩ := h.logged a ha
    exact ⟨List.mem_append_left _ hret, hold _ hret hnot⟩
  · rw [hsame]
    exact h.current

/-- A held epoch is installed: it has numbered no call before. -/
theorem Numbered.install [DecidableEq ι] (h : Numbered returned log s) {i₀ : ι} {e₀ : ℕ} {s' : Producers ι}
    (hheld : s.held.Perm (e₀ :: s'.held))
    (hpublishers : s'.publishers = Function.update s.publishers i₀ (endStart (s.publishers i₀) e₀)) :
    Numbered returned log s' := by
  have hnodup : (e₀ :: s'.held).Nodup := hheld.nodup_iff.mp h.held_nodup
  have hin : e₀ ∈ s.held := hheld.mem_iff.mpr List.mem_cons_self
  have hsub : ∀ e, e ∉ s.held → e ∉ s'.held := by
    intro e he hin
    exact he (hheld.mem_iff.mpr (List.mem_cons_of_mem _ hin))
  have hepoch : ∀ i e, (s'.publishers i).epoch = some e →
      (i = i₀ ∧ e = e₀) ∨ (i ≠ i₀ ∧ s'.publishers i = s.publishers i) := by
    intro i e hi
    rw [hpublishers] at hi ⊢
    by_cases heq : i = i₀
    · subst heq
      rw [Function.update_self] at hi
      exact Or.inl ⟨rfl, (Option.some.inj hi).symm⟩
    · rw [Function.update_of_ne heq]
      exact Or.inr ⟨heq, rfl⟩
  refine ⟨?_, (List.nodup_cons.mp hnodup).2, ?_, ?_, ?_, ?_, h.numbered⟩
  · intro e he
    exact h.held_returned e (hheld.mem_iff.mpr (List.mem_cons_of_mem _ he))
  · intro i e hi
    rcases hepoch i e hi with ⟨rfl, rfl⟩ | ⟨-, hsame⟩
    · exact ⟨h.held_returned e hin, (List.nodup_cons.mp hnodup).1⟩
    · rw [hsame] at hi
      obtain ⟨hret, hnot⟩ := h.installed i e hi
      exact ⟨hret, hsub e hnot⟩
  · intro i j e hi hj
    rcases hepoch i e hi with ⟨rfl, rfl⟩ | ⟨-, hsame⟩
    · rcases hepoch j e hj with ⟨rfl, -⟩ | ⟨-, hsame'⟩
      · rfl
      · rw [hsame'] at hj
        exact absurd hin (h.installed j e hj).2
    · rw [hsame] at hi
      rcases hepoch j e hj with ⟨rfl, rfl⟩ | ⟨-, hsame'⟩
      · exact absurd hin (h.installed i e hi).2
      · rw [hsame'] at hj
        exact h.installed_inj i j e hi hj
  · intro a ha
    obtain ⟨hret, hnot⟩ := h.logged a ha
    exact ⟨hret, hsub _ hnot⟩
  · intro i e hi
    rcases hepoch i e hi with ⟨rfl, rfl⟩ | ⟨-, hsame⟩
    · have hempty : log.filter (·.epoch = e) = [] := by
        rw [List.filter_eq_nil_iff]
        intro a ha heq
        rw [decide_eq_true_eq] at heq
        exact (h.logged a ha).2 (heq ▸ hin)
      rw [hempty, hpublishers, Function.update_self]
      rfl
    · rw [hsame] at hi ⊢
      exact h.current i e hi

/-- The next number of an installed epoch. -/
theorem Numbered.assign (h : Numbered returned log s) {a : Assigned ι} {s' : Producers ι}
    (hepoch : (s.publishers a.publisher).epoch = some a.epoch)
    (hsequence : a.sequence = (s.publishers a.publisher).sequence + 1)
    (hheld : s'.held = s.held)
    (hsame : ∀ i, (s'.publishers i).epoch = (s.publishers i).epoch)
    (hnext : (s'.publishers a.publisher).sequence = a.sequence)
    (hother : ∀ i ≠ a.publisher, (s'.publishers i).sequence = (s.publishers i).sequence) :
    Numbered returned (log ++ [a]) s' := by
  have hown : ((log ++ [a]).filter (·.epoch = a.epoch)).map (·.sequence) =
      List.range' 1 a.sequence := by
    rw [List.filter_append, List.map_append, h.current _ _ hepoch, hsequence,
      List.range'_1_concat]
    simp only [List.filter_singleton, decide_true, cond_true, List.map_singleton, hsequence]
    rw [Nat.add_comm]
  have hrest : ∀ e, e ≠ a.epoch →
      ((log ++ [a]).filter (·.epoch = e)).map (·.sequence) =
        (log.filter (·.epoch = e)).map (·.sequence) := by
    intro e he
    rw [List.filter_append]
    simp [he.symm]
  refine ⟨?_, ?_, ?_, ?_, ?_, ?_, ?_⟩
  · rw [hheld]
    exact h.held_returned
  · rw [hheld]
    exact h.held_nodup
  · intro i e hi
    rw [hsame] at hi
    rw [hheld]
    exact h.installed i e hi
  · intro i j e hi hj
    rw [hsame] at hi hj
    exact h.installed_inj i j e hi hj
  · intro a' ha'
    rw [hheld]
    rcases List.mem_append.mp ha' with ha' | ha'
    · exact h.logged a' ha'
    · rw [List.mem_singleton.mp ha']
      exact h.installed _ _ hepoch
  · intro i e hi
    rw [hsame] at hi
    by_cases he : e = a.epoch
    · subst he
      obtain rfl := h.installed_inj i a.publisher _ hi hepoch
      rw [hown, hnext]
    · have hne : i ≠ a.publisher := by
        rintro rfl
        rw [hepoch] at hi
        exact he (Option.some.inj hi).symm
      rw [hrest e he, hother i hne]
      exact h.current i e hi
  · intro e
    by_cases he : e = a.epoch
    · exact ⟨a.sequence, he ▸ hown⟩
    · rw [hrest e he]
      exact h.numbered e

end Invariant

/-! ## Steps and runs -/

section Runs

variable {ι : Type} [DecidableEq ι] {returned : List ℕ} {log : List (Assigned ι)} {s : Producers ι}

omit [DecidableEq ι] in
theorem Numbered.mono (h : Numbered returned log s) {more : List ℕ} :
    Numbered (returned ++ more) log s := by
  refine ⟨?_, h.held_nodup, ?_, h.installed_inj, ?_, h.current, h.numbered⟩
  · intro e he
    exact List.mem_append_left _ (h.held_returned e he)
  · intro i e hi
    exact ⟨List.mem_append_left _ (h.installed i e hi).1, (h.installed i e hi).2⟩
  · intro a ha
    exact ⟨List.mem_append_left _ (h.logged a ha).1, (h.logged a ha).2⟩

/-- A suspended start leaves the others as they are. -/
theorem held_perm_erase {i : ι} {stage : Option ℕ} (h : (i, stage) ∈ s.starting) :
    s.held.Perm (stage.toList ++ (s.starting.erase (i, stage)).filterMap (·.2)) := by
  have hperm := (List.perm_cons_erase h).filterMap (·.2)
  cases stage with
  | none => exact hperm
  | some e => exact hperm

@[simp] theorem Producers.put_self (i : ι) (p : MarketEventPublisher) :
    (s.put i p).publishers i = p := Function.update_self ..

theorem Producers.put_of_ne {i j : ι} (p : MarketEventPublisher) (h : j ≠ i) :
    (s.put i p).publishers j = s.publishers j := Function.update_of_ne h ..

/-- A publisher that keeps its numbers keeps the invariant. -/
theorem Numbered.put (h : Numbered returned log s) {i : ι} (p : MarketEventPublisher)
    (hepoch : p.epoch = (s.publishers i).epoch) (hsequence : p.sequence = (s.publishers i).sequence)
    (sending : List ι) : Numbered returned log { s.put i p with sending } := by
  refine h.shrink (List.Sublist.refl _) ?_
  intro j
  by_cases hj : j = i
  · subst hj
    show ((s.put j p).publishers j).epoch = _ ∧ ((s.put j p).publishers j).sequence = _
    rw [Producers.put_self]
    exact ⟨hepoch, hsequence⟩
  · show ((s.put i p).publishers j).epoch = _ ∧ ((s.put i p).publishers j).sequence = _
    rw [Producers.put_of_ne p hj]
    exact ⟨rfl, rfl⟩

/-- A publisher that takes its next number keeps the invariant. -/
theorem Numbered.put_assigned (h : Numbered returned log s) {a : Assigned ι}
    (p : MarketEventPublisher) (hepoch : (s.publishers a.publisher).epoch = some a.epoch)
    (hsequence : a.sequence = (s.publishers a.publisher).sequence + 1)
    (hp : p.epoch = (s.publishers a.publisher).epoch) (hnext : p.sequence = a.sequence)
    (sending : List ι) :
    Numbered returned (log ++ [a]) { s.put a.publisher p with sending } := by
  refine h.assign hepoch hsequence rfl ?_ ?_ ?_
  · intro j
    by_cases hj : j = a.publisher
    · subst hj
      show ((s.put _ p).publishers _).epoch = _
      rw [Producers.put_self]
      exact hp
    · show ((s.put _ p).publishers j).epoch = _
      rw [Producers.put_of_ne p hj]
  · show ((s.put _ p).publishers _).sequence = _
    rw [Producers.put_self]
    exact hnext
  · intro j hj
    show ((s.put _ p).publishers j).sequence = _
    rw [Producers.put_of_ne p hj]

/-- A call of `publish` keeps the numbering. -/
theorem publish_numbered (h : Numbered returned log s) (i : ι) (event : PublishableEvent)
    (built : Built) :
    Numbered returned (log ++ assignments [(producerStep s (.publish i event built)).2])
      (producerStep s (.publish i event built)).1 := by
  rcases beginPublish_cases i (s.publishers i) event built with
    ⟨-, hnone, hbegin⟩ | ⟨hnone, k, -, -, hbegin⟩ |
      ⟨a, hsome, rfl, hepoch, hsequence, ⟨-, k, outcome, -, -, hbegin⟩ | ⟨-, k, -, -, hbegin⟩⟩
  · simp only [producerStep, hbegin, hnone, Option.map_none, assignments, List.filterMap_cons,
      List.filterMap_nil, List.append_nil]
    exact h.put (s.publishers i) rfl rfl s.sending
  · simp only [producerStep, hbegin, hnone, Option.map_none, assignments, List.filterMap_cons,
      List.filterMap_nil, List.append_nil]
    exact h.put { s.publishers i with counters := k } rfl rfl s.sending
  · simp only [producerStep, hbegin, hsome, Option.map_some, assignments, List.filterMap_cons,
      List.filterMap_nil]
    exact h.put_assigned { s.publishers a.publisher with sequence := a.sequence, counters := k }
      hepoch hsequence rfl rfl s.sending
  · simp only [producerStep, hbegin, hsome, Option.map_some, assignments, List.filterMap_cons,
      List.filterMap_nil]
    exact h.put_assigned { s.publishers a.publisher with sequence := a.sequence, counters := k }
      hepoch hsequence rfl rfl (a.publisher :: s.sending)

/-- **Every step keeps the numbering**, if the allocator returns a new epoch. -/
theorem step_numbered (h : Numbered returned log s) (op : ProducerOp ι)
    (hfresh : ∀ e ∈ returnedEpochs [op], e ∉ returned) :
    Numbered (returned ++ returnedEpochs [op]) (log ++ assignments [(producerStep s op).2])
      (producerStep s op).1 := by
  cases op with
  | start i =>
    refine Numbered.mono ?_
    simp only [producerStep]
    split
    · simp only [assignments, List.filterMap_cons, List.filterMap_nil, List.append_nil]
      refine h.shrink ?_ fun _ => ⟨rfl, rfl⟩
      have hheld : ({ s with starting := s.starting ++ [(i, none)] } : Producers ι).held = s.held := by
        unfold Producers.held
        rw [List.filterMap_append]
        exact List.append_nil _
      rw [hheld]
    · simpa [assignments] using h
  | allocated i epoch =>
    simp only [producerStep]
    split
    · rename_i hmem
      simp only [assignments, List.filterMap_cons, List.filterMap_nil, List.append_nil]
      refine h.allocate (hfresh epoch (by simp [returnedEpochs])) ?_ rfl
      have hheld : ({ s with starting := s.starting.erase (i, none) ++ [(i, some epoch)] } :
          Producers ι).held = (s.starting.erase (i, none)).filterMap (·.2) ++ [epoch] := by
        unfold Producers.held
        rw [List.filterMap_append]
        rfl
      rw [hheld]
      exact List.perm_append_singleton _ _ |>.trans ((held_perm_erase hmem).symm.cons epoch)
    · simpa [assignments] using h.mono
  | ensured i epoch =>
    refine Numbered.mono ?_
    simp only [producerStep]
    split
    · rename_i hmem
      simp only [assignments, List.filterMap_cons, List.filterMap_nil, List.append_nil]
      exact h.install (held_perm_erase hmem) rfl
    · simpa [assignments] using h
  | startRaised i stage =>
    refine Numbered.mono ?_
    simp only [producerStep, assignments, List.filterMap_cons, List.filterMap_nil, List.append_nil]
    exact h.shrink (List.erase_sublist.filterMap _) fun _ => ⟨rfl, rfl⟩
  | publish i event built => exact (publish_numbered h i event built).mono
  | sent i result =>
    refine Numbered.mono ?_
    obtain ⟨hepoch, hsequence, -⟩ := endPublish_cases (s.publishers i) result
    simp only [producerStep]
    split
    · have hout : assignments [match (endPublish (s.publishers i) result).2 with
          | some _ => none
          | none => some (ProducerEvent.escaped i)] = ([] : List (Assigned ι)) := by
        cases (endPublish (s.publishers i) result).2 <;> rfl
      rw [hout, List.append_nil]
      exact h.put _ hepoch hsequence _
    · simpa [assignments] using h

/-- Every attempted call is finished, suspended, or left by an exception. -/
def Counted (escaped : List ι) (s : Producers ι) : Prop :=
  ∀ i, (s.publishers i).counters.attempted =
    (s.publishers i).counters.finished + s.sending.count i + escaped.count i

/-- A change of one publisher and its suspended calls keeps the count. -/
theorem Counted.put {escaped escaped' : List ι} (h : Counted escaped s) {i : ι}
    (p : MarketEventPublisher) (sending : List ι)
    (hown : p.counters.attempted + (s.publishers i).counters.finished + s.sending.count i +
        escaped.count i =
      (s.publishers i).counters.attempted + p.counters.finished + sending.count i + escaped'.count i)
    (hother : ∀ j ≠ i, sending.count j = s.sending.count j ∧ escaped'.count j = escaped.count j) :
    Counted escaped' { s.put i p with sending } := by
  intro j
  have hj := h j
  by_cases hji : j = i
  · subst hji
    show ((s.put j p).publishers j).counters.attempted =
      ((s.put j p).publishers j).counters.finished + sending.count j + escaped'.count j
    rw [Producers.put_self]
    omega
  · show ((s.put i p).publishers j).counters.attempted =
      ((s.put i p).publishers j).counters.finished + sending.count j + escaped'.count j
    rw [Producers.put_of_ne p hji, (hother j hji).1, (hother j hji).2]
    exact hj

/-- A call of `publish` keeps the count. -/
theorem publish_counted {escaped : List ι} (h : Counted escaped s) (i : ι)
    (event : PublishableEvent) (built : Built) :
    Counted escaped (producerStep s (.publish i event built)).1 := by
  rcases beginPublish_cases i (s.publishers i) event built with
    ⟨-, -, hbegin⟩ | ⟨-, k, hattempted, hfinished, hbegin⟩ |
      ⟨a, -, rfl, -, -, ⟨-, k, outcome, hattempted, hfinished, hbegin⟩ |
        ⟨-, k, hattempted, hfinished, hbegin⟩⟩
  · simp only [producerStep, hbegin]
    exact h.put (s.publishers i) s.sending (by omega) fun _ _ => ⟨rfl, rfl⟩
  · simp only [producerStep, hbegin]
    refine h.put { s.publishers i with counters := k } s.sending ?_ fun _ _ => ⟨rfl, rfl⟩
    show k.attempted + _ + _ + _ = _ + k.finished + _ + _
    omega
  · simp only [producerStep, hbegin]
    refine h.put { s.publishers a.publisher with sequence := a.sequence, counters := k } s.sending ?_
      fun _ _ => ⟨rfl, rfl⟩
    show k.attempted + _ + _ + _ = _ + k.finished + _ + _
    omega
  · simp only [producerStep, hbegin]
    refine h.put { s.publishers a.publisher with sequence := a.sequence, counters := k }
      (a.publisher :: s.sending) ?_ ?_
    · show k.attempted + _ + _ + _ = _ + k.finished + _ + _
      rw [List.count_cons_self]
      omega
    · intro j hj
      exact ⟨List.count_cons_of_ne hj.symm, rfl⟩

/-- The end of a suspended call keeps the count. -/
theorem sent_counted {escaped : List ι} (h : Counted escaped s) (i : ι) (result : Sent) :
    Counted (escaped ++ escapes [(producerStep s (.sent i result)).2])
      (producerStep s (.sent i result)).1 := by
  obtain ⟨-, -, hattempted, hcase⟩ := endPublish_cases (s.publishers i) result
  simp only [producerStep]
  split
  · rename_i hmem
    have hcount : s.sending.count i = (s.sending.erase i).count i + 1 := by
      rw [List.count_erase_self]
      have := List.count_pos_iff.mpr hmem
      omega
    have hother : ∀ j ≠ i, (s.sending.erase i).count j = s.sending.count j := by
      intro j hj
      exact List.count_erase_of_ne hj
    rcases hcase with ⟨hsome, hfinished⟩ | ⟨hnone, hfinished⟩
    · obtain ⟨outcome, houtcome⟩ := Option.isSome_iff_exists.mp hsome
      rw [houtcome]
      simp only [escapes, List.filterMap_cons, List.filterMap_nil, List.append_nil]
      exact h.put _ _ (by omega) fun j hj => ⟨hother j hj, rfl⟩
    · rw [hnone]
      simp only [escapes, List.filterMap_cons, List.filterMap_nil]
      refine h.put _ _ ?_ ?_
      · rw [List.count_append, List.count_singleton_self]
        omega
      · intro j hj
        refine ⟨hother j hj, ?_⟩
        rw [List.count_append, List.count_singleton]
        simp [hj.symm]
  · simpa [escapes] using h

theorem step_counted {escaped : List ι} (h : Counted escaped s) (op : ProducerOp ι) :
    Counted (escaped ++ escapes [(producerStep s op).2]) (producerStep s op).1 := by
  have hquiet : escaped ++ escapes [(none : Option (ProducerEvent ι))] = escaped :=
    List.append_nil escaped
  cases op with
  | start i =>
    simp only [producerStep]
    split
    · rw [hquiet]
      exact h
    · rw [hquiet]
      exact h
  | allocated i epoch =>
    simp only [producerStep]
    split
    · rw [hquiet]
      exact h
    · rw [hquiet]
      exact h
  | ensured i epoch =>
    simp only [producerStep]
    split
    · rw [hquiet]
      exact h.put (endStart (s.publishers i) epoch) s.sending (by simp only [endStart])
        fun _ _ => ⟨rfl, rfl⟩
    · rw [hquiet]
      exact h
  | startRaised i stage =>
    simp only [producerStep]
    rw [hquiet]
    exact h
  | publish i event built =>
    have hout : escapes [(producerStep s (.publish i event built)).2] = ([] : List ι) := by
      simp only [producerStep]
      split <;> cases assignment (s.publishers i) i event built <;> rfl
    rw [hout, List.append_nil]
    exact publish_counted h i event built
  | sent i result => exact sent_counted h i result

/-- Both invariants hold along every run with distinct epochs. -/
theorem run_numbered (ops : List (ProducerOp ι)) (hfresh : (returnedEpochs ops).Nodup) :
    Numbered (returnedEpochs ops) (assignments (outs producerStep {} ops))
        (run producerStep ({} : Producers ι) ops) ∧
      Counted (escapes (outs producerStep {} ops)) (run producerStep ({} : Producers ι) ops) := by
  induction ops using List.reverseRecOn with
  | nil =>
    refine ⟨numbered_new, ?_⟩
    intro i
    rfl
  | append_singleton ops op ih =>
    have happend : returnedEpochs (ops ++ [op]) = returnedEpochs ops ++ returnedEpochs [op] := by
      unfold returnedEpochs
      rw [List.filterMap_append]
    rw [happend, List.nodup_append] at hfresh
    obtain ⟨hnumbered, hcounted⟩ := ih hfresh.1
    rw [happend, outs_concat, run_concat]
    have hassigned : assignments (outs producerStep ({} : Producers ι) ops ++
        [(producerStep (run producerStep {} ops) op).2]) =
        assignments (outs producerStep {} ops) ++
          assignments [(producerStep (run producerStep {} ops) op).2] := by
      unfold assignments
      rw [List.filterMap_append]
    have hescaped : escapes (outs producerStep ({} : Producers ι) ops ++
        [(producerStep (run producerStep {} ops) op).2]) =
        escapes (outs producerStep {} ops) ++
          escapes [(producerStep (run producerStep {} ops) op).2] := by
      unfold escapes
      rw [List.filterMap_append]
    rw [hassigned, hescaped]
    refine ⟨step_numbered hnumbered op ?_, step_counted hcounted op⟩
    intro e he hreturned
    exact hfresh.2.2 e hreturned e he rfl

omit [DecidableEq ι] in
/-- Numbers of one epoch are taken in increasing order. -/
theorem Numbered.increasing (h : Numbered returned log s) :
    log.Pairwise fun a b => a.epoch = b.epoch → a.sequence < b.sequence := by
  have hall : ∀ e, (log.filter (·.epoch = e)).Pairwise (·.sequence < ·.sequence) := by
    intro e
    obtain ⟨n, hn⟩ := h.numbered e
    rw [← List.pairwise_map, hn]
    exact List.pairwise_lt_range'
  rw [List.pairwise_iff_forall_sublist]
  intro a b hsub heq
  have hfilter := hsub.filter (fun x => decide (x.epoch = b.epoch))
  simp only [List.filter_cons, heq, decide_true, if_true, List.filter_nil] at hfilter
  exact List.pairwise_iff_forall_sublist.mp (hall b.epoch) hfilter

end Runs

end ApexScan.Ipc
