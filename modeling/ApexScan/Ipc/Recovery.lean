import ApexScan.Ipc.Compaction
import ApexScan.Lib.Redelivery

/-!
# Recovering the reference state (`app/market_ipc/reference.py`)

After a restart the loader reads the hash of one trading date and rebuilds the last known reference
of every instrument.  What it finds was written by a run of updates of any instruments and dates, in
any order, some of which failed and some of which were delivered more than once.

* `load` — `ReferenceStateLoader.load`, over the entries of any source.
* `load_eq` — what a load keeps and how it counts, entry by entry.
* `Faithful` — every entry is the JSON of an exact state of its own date and identity.
* `ReferenceStore.compact_cases` — what one compaction can do to a faithful store.

Main results: `recovered_state`, that a load returns the compaction of what was handed over for that
date and universe and counts every instrument once; and `redelivery_unseen`, that an update delivered
again changes neither the store nor what counts as written.
-/

set_option autoImplicit false

namespace ApexScan.Ipc

open Lib

/-! ## The loader -/

/-- `_LoaderTally`. -/
structure LoaderTally where
  total : ℕ := 0
  loaded : ℕ := 0
  invalid : ℕ := 0
  previousClose : ℕ := 0
  sessionOpen : ℕ := 0
  complete : ℕ := 0
  universeMismatch : ℕ := 0
  tradingDateMismatch : ℕ := 0
  deriving DecidableEq, Repr

/-- `LoaderDiagnostics`. -/
structure LoaderDiagnostics where
  entriesTotal : ℕ
  entriesLoaded : ℕ
  entriesInvalid : ℕ
  previousCloseCount : ℕ
  sessionOpenCount : ℕ
  completeReferenceCount : ℕ
  universeMismatchCount : ℕ
  tradingDateMismatchCount : ℕ
  lastLoadAt : Int
  deriving DecidableEq, Repr

/-- `_LoaderTally.finish`. -/
def LoaderTally.finish (t : LoaderTally) (loadAt : Int) : LoaderDiagnostics where
  entriesTotal := t.total
  entriesLoaded := t.loaded
  entriesInvalid := t.invalid
  previousCloseCount := t.previousClose
  sessionOpenCount := t.sessionOpen
  completeReferenceCount := t.complete
  universeMismatchCount := t.universeMismatch
  tradingDateMismatchCount := t.tradingDateMismatch
  lastLoadAt := loadAt

/-- `ReferenceSnapshot`. -/
structure ReferenceSnapshot where
  tradingDate : Int
  states : Dict String CompactedReferenceState
  diagnostics : LoaderDiagnostics

/-- `ReferenceSnapshot.warming_up`. -/
def ReferenceSnapshot.warmingUp (s : ReferenceSnapshot) : Bool := s.states.isEmpty

def CompactedReferenceState.hasPreviousClose (s : CompactedReferenceState) : Bool :=
  (s.prices .previousClose).isSome

def CompactedReferenceState.hasSessionOpen (s : CompactedReferenceState) : Bool :=
  (s.prices .sessionOpen).isSome

/-- One entry of the loop of `load`, after `_safe_load`. -/
def loadEntry (tradingDate : Int) (expectedUniverseVersion : Option ℕ)
    (acc : Dict String CompactedReferenceState × LoaderTally) (state : Option CompactedReferenceState) :
    Dict String CompactedReferenceState × LoaderTally :=
  let states := acc.1
  let tally := { acc.2 with total := acc.2.total + 1 }
  match state with
  | none => (states, { tally with invalid := tally.invalid + 1 })
  | some state =>
    if state.tradingDate ≠ tradingDate then
      (states, { tally with tradingDateMismatch := tally.tradingDateMismatch + 1 })
    else if compareUniverseVersion state.universeVersion expectedUniverseVersion ≠ .match then
      (states, { tally with universeMismatch := tally.universeMismatch + 1 })
    else
      (states.set state.instrumentIdentity state,
        { tally with
          loaded := tally.loaded + 1
          previousClose := tally.previousClose + if state.hasPreviousClose then 1 else 0
          sessionOpen := tally.sessionOpen + if state.hasSessionOpen then 1 else 0
          complete := tally.complete +
            if state.hasPreviousClose && state.hasSessionOpen then 1 else 0 })

/-- `ReferenceStateLoader.load`, from the entries that the source returns and their
    `_safe_load`. -/
def load {ρ : Type} (safeLoad : ρ → Option CompactedReferenceState) (rawEntries : Dict String ρ)
    (tradingDate : Int) (expectedUniverseVersion : Option ℕ) (now : Int) : ReferenceSnapshot :=
  let result := (rawEntries.map fun kv => safeLoad kv.2).foldl
    (loadEntry tradingDate expectedUniverseVersion) ([], {})
  { tradingDate, states := result.1, diagnostics := result.2.finish now }

/-- `RedisCompactedReferenceStore.read_all_raw`. -/
def ReferenceStore.readAllRaw (s : ReferenceStore) (tradingDate : Int) : Dict String StoredReference :=
  (s.hashes.get tradingDate).elim [] (·.entries)

/-- A restart: the loader over the Redis store. -/
def ReferenceStore.recover (s : ReferenceStore) (tradingDate : Int)
    (expectedUniverseVersion : Option ℕ) (now : Int) : ReferenceSnapshot :=
  load safeLoad (s.readAllRaw tradingDate) tradingDate expectedUniverseVersion now

/-! ## What a load keeps and counts -/

section

variable {date : Int} {expected : Option ℕ}

theorem compareUniverseVersion_eq_match_iff (version : ℕ) (expected : Option ℕ) :
    compareUniverseVersion version expected = .match ↔ expected = some version := by
  cases expected with
  | none => simp [compareUniverseVersion]
  | some current =>
    simp only [compareUniverseVersion, Option.some.injEq]
    by_cases h : version = current
    · simp [h]
    · rw [if_neg h]
      split <;> simp [Ne.symm h]

/-- The state is of the date and the universe that are loaded. -/
def Accepted (date : Int) (expected : Option ℕ) (s : CompactedReferenceState) : Bool :=
  decide (s.tradingDate = date ∧ expected = some s.universeVersion)

/-- The tally of a load of `states`. -/
def tallyOf (date : Int) (expected : Option ℕ) (states : List (Option CompactedReferenceState)) :
    LoaderTally :=
  let read := states.filterMap id
  let kept := read.filter (Accepted date expected)
  { total := states.length
    loaded := kept.length
    invalid := states.countP (·.isNone)
    previousClose := kept.countP (·.hasPreviousClose)
    sessionOpen := kept.countP (·.hasSessionOpen)
    complete := kept.countP fun s => s.hasPreviousClose && s.hasSessionOpen
    universeMismatch := read.countP fun s => decide (s.tradingDate = date) &&
      decide (expected ≠ some s.universeVersion)
    tradingDateMismatch := read.countP fun s => decide (s.tradingDate ≠ date) }

/-- The states of a load: what is accepted, under its own identity. -/
def statesOf (date : Int) (expected : Option ℕ) (states : List (Option CompactedReferenceState)) :
    Dict String CompactedReferenceState :=
  ((states.filterMap id).filter (Accepted date expected)).foldl
    (fun d s => d.set s.instrumentIdentity s) []

theorem loadEntry_concat (states : List (Option CompactedReferenceState))
    (state : Option CompactedReferenceState) :
    loadEntry date expected (statesOf date expected states, tallyOf date expected states) state =
      (statesOf date expected (states ++ [state]), tallyOf date expected (states ++ [state])) := by
  cases state with
  | none => simp [loadEntry, statesOf, tallyOf]
  | some s =>
    simp only [loadEntry, ne_eq, compareUniverseVersion_eq_match_iff]
    by_cases hdate : s.tradingDate = date
    · by_cases hversion : expected = some s.universeVersion
      · simp [statesOf, tallyOf, Accepted, hdate, hversion, List.countP_append, List.countP_cons]
      · simp [statesOf, tallyOf, Accepted, hdate, hversion, List.countP_append]
    · simp [statesOf, tallyOf, Accepted, hdate, List.countP_append]

/-- The loop of a load keeps what is accepted and counts each entry in its class. -/
theorem load_eq {ρ : Type} (safeLoad : ρ → Option CompactedReferenceState) (rawEntries : Dict String ρ)
    (now : Int) : load safeLoad rawEntries date expected now =
      { tradingDate := date,
        states := statesOf date expected (rawEntries.map fun kv => safeLoad kv.2),
        diagnostics := (tallyOf date expected (rawEntries.map fun kv => safeLoad kv.2)).finish now } := by
  have hfold (states : List (Option CompactedReferenceState)) :
      states.foldl (loadEntry date expected) ([], {}) =
        (statesOf date expected states, tallyOf date expected states) := by
    induction states using List.reverseRecOn with
    | nil => rfl
    | append_singleton states state ih =>
      rw [List.foldl_append, ih, List.foldl_cons, List.foldl_nil, loadEntry_concat]
  simp only [load, hfold]

end

/-! ## Faithful stores -/

theorem ReferenceStore.entry_eq (s : ReferenceStore) (date : Int) (identity : String) :
    s.entry date identity = (s.readAllRaw date).get identity := by
  unfold ReferenceStore.entry ReferenceStore.readAllRaw
  cases s.hashes.get date <;> rfl

theorem ReferenceStore.readAllRaw_write (s : ReferenceStore) (date date' : Int) (identity : String)
    (value : StoredReference) : (s.write date identity value).readAllRaw date' =
      if date = date' then (s.readAllRaw date).set identity value else s.readAllRaw date' := by
  unfold ReferenceStore.readAllRaw ReferenceStore.write
  rw [Dict.get_set]
  split <;> rfl

theorem ReferenceStore.entry_write_ne (s : ReferenceStore) {date date' : Int}
    {identity identity' : String} (value : StoredReference)
    (h : ¬ (date = date' ∧ identity = identity')) :
    (s.write date identity value).entry date' identity' = s.entry date' identity' := by
  rw [ReferenceStore.entry_eq, ReferenceStore.entry_eq, ReferenceStore.readAllRaw_write]
  split
  · rename_i hdate
    subst hdate
    exact Dict.get_set_ne _ _ fun hidentity => h ⟨rfl, hidentity⟩
  · rfl

theorem dump_injective : Function.Injective dump := by
  intro s s' h
  have hload : some s = some s' := by rw [← safeLoad_dump s, ← safeLoad_dump s', h]
  exact Option.some.inj hload

/-- Every entry is the JSON of an exact state of its own date and identity. -/
structure Faithful (s : ReferenceStore) : Prop where
  keys : ∀ date, ((s.readAllRaw date).map (·.1)).Nodup
  entries : ∀ date identity raw, s.entry date identity = some raw → ∃ state, raw = dump state ∧
    state.Exact ∧ state.tradingDate = date ∧ state.instrumentIdentity = identity

theorem faithful_empty (ttl : ℕ) : Faithful { ttlSeconds := ttl } :=
  ⟨fun _ => List.nodup_nil, fun _ _ _ h => by cases h⟩

section

variable {s : ReferenceStore}

theorem Faithful.entry_eq_dump (h : Faithful s) (date : Int) (identity : String) :
    s.entry date identity = (s.get date identity).map dump := by
  unfold ReferenceStore.get
  cases hraw : s.entry date identity with
  | none => rfl
  | some raw =>
    obtain ⟨state, rfl, -⟩ := h.entries date identity raw hraw
    rfl

theorem Faithful.get_exact (h : Faithful s) {date : Int} {identity : String}
    {state : CompactedReferenceState} (hstate : s.get date identity = some state) :
    state.Exact ∧ state.tradingDate = date ∧ state.instrumentIdentity = identity := by
  have hraw := h.entry_eq_dump date identity
  rw [hstate] at hraw
  obtain ⟨state', heq, hstate'⟩ := h.entries _ _ _ hraw
  cases dump_injective heq
  exact hstate'

theorem Faithful.write (h : Faithful s) {state : CompactedReferenceState} (hstate : state.Exact) :
    Faithful (s.write state.tradingDate state.instrumentIdentity (dump state)) := by
  refine ⟨fun date => ?_, fun date identity raw hraw => ?_⟩
  · rw [ReferenceStore.readAllRaw_write]
    split
    · exact Dict.nodup_keys_set (h.keys _) _ _
    · exact h.keys date
  · by_cases hkey : state.tradingDate = date ∧ state.instrumentIdentity = identity
    · obtain ⟨rfl, rfl⟩ := hkey
      rw [ReferenceStore.entry_write] at hraw
      cases hraw
      exact ⟨state, rfl, hstate, rfl, rfl⟩
    · rw [ReferenceStore.entry_write_ne s _ hkey] at hraw
      exact h.entries date identity raw hraw

/-- A compaction leaves a faithful store as it is when what is stored is as new, and writes what the
    documented merge gives otherwise. -/
theorem ReferenceStore.compact_cases (h : Faithful s) {incoming : CompactedReferenceState}
    (hin : incoming.Exact) :
    (∃ stored outcome, s.get incoming.tradingDate incoming.instrumentIdentity = some stored ∧
      incoming.ordering ≤ stored.ordering ∧ (outcome = .staleRejected ∨ outcome = .duplicate) ∧
      s.compact incoming = some (s, outcome)) ∨
    (∃ new outcome, (∀ stored, s.get incoming.tradingDate incoming.instrumentIdentity = some stored →
        stored.ordering < incoming.ordering) ∧
      compactState (s.get incoming.tradingDate incoming.instrumentIdentity) incoming = some new ∧
      new = incoming.withPrices new.prices ∧ (outcome = .written ∨ outcome = .merged) ∧
      s.compact incoming =
        some (s.write incoming.tradingDate incoming.instrumentIdentity (dump new), outcome)) := by
  have hentry := h.entry_eq_dump incoming.tradingDate incoming.instrumentIdentity
  unfold ReferenceStore.compact
  rw [hentry]
  cases hget : s.get incoming.tradingDate incoming.instrumentIdentity with
  | none =>
    refine Or.inr ⟨incoming, .written, fun _ h => ?_, rfl, rfl, Or.inl rfl, rfl⟩
    cases h
  | some stored =>
    obtain ⟨hstored, -⟩ := h.get_exact hget
    rw [Option.map_some, compactScript_dump_some hstored hin]
    rcases lt_trichotomy incoming.ordering stored.ordering with hlt | heq | hgt
    · refine Or.inl ⟨stored, .staleRejected, rfl, hlt.le, Or.inl rfl, ?_⟩
      rw [if_pos hlt]
      rfl
    · refine Or.inl ⟨stored, .duplicate, rfl, heq.le, Or.inr rfl, ?_⟩
      rw [if_neg heq.not_lt, if_pos heq]
      rfl
    · refine Or.inr ⟨mergeReference stored incoming, .merged, ?_, ?_, rfl, Or.inr rfl, ?_⟩
      · intro stored' hstored'
        cases hstored'
        exact hgt
      · rw [compactState_some, if_pos hgt]
      · rw [if_neg (not_lt_of_gt hgt), if_neg hgt.ne']
        rfl

end

/-! ## Updates of any instruments and dates -/

/-- What an update hands to the script: the carried reference, when the script is run. -/
def handed (P : Parsers) (call : UpdateCall) : Option CompactedReferenceState :=
  if call.transport then carried P call.envelope else none

/-- The numbers of every envelope are below `10 ^ 14`. -/
def ExactNumbers (calls : List UpdateCall) : Prop :=
  ∀ c ∈ calls, c.envelope.universeVersion < 10 ^ 14 ∧ c.envelope.producerEpoch < 10 ^ 14 ∧
    c.envelope.producerSequence < 10 ^ 14

/-- The references that were handed over for one date and identity, in order. -/
def carriersOf (P : Parsers) (date : Int) (identity : String) (calls : List UpdateCall) :
    List CompactedReferenceState :=
  (calls.filterMap (handed P)).filter fun s =>
    decide (s.tradingDate = date ∧ s.instrumentIdentity = identity)

/-- The two writers have the same store and have counted the same writes. -/
structure SameWrites (w w' : ReferenceWriter) : Prop where
  store : w.store = w'.store
  written : w.counters.written = w'.counters.written
  previousClose : w.counters.previousClose = w'.counters.previousClose
  sessionOpen : w.counters.sessionOpen = w'.counters.sessionOpen
  lastSuccessAt : w.lastSuccessAt = w'.lastSuccessAt

section

variable {P : Parsers} {w w' : ReferenceWriter} {call : UpdateCall} {incoming : CompactedReferenceState}

theorem SameWrites.refl (w : ReferenceWriter) : SameWrites w w := ⟨rfl, rfl, rfl, rfl, rfl⟩

theorem SameWrites.trans {w'' : ReferenceWriter} (h : SameWrites w w') (h' : SameWrites w' w'') :
    SameWrites w w'' :=
  ⟨h.store.trans h'.store, h.written.trans h'.written, h.previousClose.trans h'.previousClose,
    h.sessionOpen.trans h'.sessionOpen, h.lastSuccessAt.trans h'.lastSuccessAt⟩

theorem SameWrites.symm (h : SameWrites w w') : SameWrites w' w :=
  ⟨h.store.symm, h.written.symm, h.previousClose.symm, h.sessionOpen.symm, h.lastSuccessAt.symm⟩

theorem handed_exact {calls : List UpdateCall} (h : ExactNumbers calls) (hcall : call ∈ calls)
    (hhanded : handed P call = some incoming) : incoming.Exact := by
  unfold handed at hhanded
  split at hhanded
  · obtain ⟨-, -, hu, he, hq⟩ := carried_provenance hhanded
    obtain ⟨hu', he', hq'⟩ := h call hcall
    exact ⟨hu ▸ hu', he ▸ he', hq ▸ hq'⟩
  · cases hhanded

/-- An update that hands nothing over writes nothing. -/
theorem update_of_handed_none (h : handed P call = none) : SameWrites w (w.update P call).1 := by
  unfold handed carried at h
  unfold ReferenceWriter.update
  cases href : referenceFromEnvelope P call.envelope with
  | raised => exact ⟨rfl, rfl, rfl, rfl, rfl⟩
  | invalid => exact ⟨rfl, rfl, rfl, rfl, rfl⟩
  | ok state =>
    cases state with
    | none => exact ⟨rfl, rfl, rfl, rfl, rfl⟩
    | some incoming =>
      cases htransport : call.transport with
      | false => exact ⟨rfl, rfl, rfl, rfl, rfl⟩
      | true =>
        rw [htransport, if_pos rfl, href] at h
        cases h

/-- An update that hands a reference over records what its compaction gives. -/
theorem update_of_handed (h : handed P call = some incoming) {store : ReferenceStore}
    {outcome : ReferenceOutcome} (hcompact : w.store.compact incoming = some (store, outcome)) :
    (w.update P call).1 = ReferenceWriter.record
      { w with counters := { w.counters with attempted := w.counters.attempted + 1 }, store }
      outcome incoming call.now := by
  unfold handed carried at h
  split at h
  · rename_i htransport
    have href : referenceFromEnvelope P call.envelope = .ok (some incoming) := by
      split at h
      · rename_i hr
        rw [hr, h]
      · cases h
    simp only [ReferenceWriter.update, href, htransport, if_true, hcompact]
  · cases h

/-- What is stored is as new as `incoming`, so handing it over again writes nothing. -/
def Covers (s : ReferenceStore) (incoming : CompactedReferenceState) : Prop :=
  ∃ stored, s.get incoming.tradingDate incoming.instrumentIdentity = some stored ∧
    incoming.ordering ≤ stored.ordering

/-- One update: either what is stored covers it and nothing is written, or it is newer and the
    documented merge is written. -/
theorem update_cases (hw : Faithful w.store) (hhanded : handed P call = some incoming)
    (hin : incoming.Exact) :
    (Covers w.store incoming ∧ SameWrites w (w.update P call).1) ∨
    (∃ new, ¬ Covers w.store incoming ∧
      compactState (w.store.get incoming.tradingDate incoming.instrumentIdentity) incoming = some new ∧
      new = incoming.withPrices new.prices ∧
      (w.update P call).1.store =
        w.store.write incoming.tradingDate incoming.instrumentIdentity (dump new)) := by
  rcases ReferenceStore.compact_cases hw hin with
    ⟨stored, outcome, hget, hle, houtcome, hcompact⟩ |
    ⟨new, outcome, hnewer, hnew, hprices, houtcome, hcompact⟩
  · rw [update_of_handed hhanded hcompact]
    refine Or.inl ⟨⟨stored, hget, hle⟩, ?_⟩
    rcases houtcome with rfl | rfl <;> exact ⟨rfl, rfl, rfl, rfl, rfl⟩
  · rw [update_of_handed hhanded hcompact, ReferenceWriter.record_store]
    refine Or.inr ⟨new, ?_, hnew, hprices, rfl⟩
    rintro ⟨stored, hget, hle⟩
    exact absurd (hnewer stored hget) (not_lt_of_ge hle)

/-- An update keeps the store faithful. -/
theorem update_faithful (hw : Faithful w.store)
    (hexact : ∀ incoming, handed P call = some incoming → incoming.Exact) :
    Faithful (w.update P call).1.store := by
  cases hhanded : handed P call with
  | none => exact (update_of_handed_none hhanded).store ▸ hw
  | some incoming =>
    have hin := hexact incoming hhanded
    rcases update_cases hw hhanded hin with ⟨-, hsame⟩ | ⟨new, -, -, hnew, hstore⟩
    · exact hsame.store ▸ hw
    · have hwrite : incoming.tradingDate = new.tradingDate ∧
          incoming.instrumentIdentity = new.instrumentIdentity := by
        rw [hnew]
        exact ⟨rfl, rfl⟩
      have hnewExact : new.Exact := by
        rw [hnew]
        exact ⟨hin.universeVersion, hin.producerEpoch, hin.producerSequence⟩
      rw [hstore, hwrite.1, hwrite.2]
      exact hw.write hnewExact

/-- What an update leaves under any key. -/
theorem update_get (hw : Faithful w.store) (hhanded : handed P call = some incoming)
    (hin : incoming.Exact) (date : Int) (identity : String) :
    (w.update P call).1.store.get date identity =
      if incoming.tradingDate = date ∧ incoming.instrumentIdentity = identity then
        compactState (w.store.get date identity) incoming
      else w.store.get date identity := by
  rcases update_cases hw hhanded hin with ⟨⟨stored, hget, hle⟩, hsame⟩ | ⟨new, -, hcompact, -, hstore⟩
  · rw [← hsame.store]
    split
    · rename_i hkey
      obtain ⟨rfl, rfl⟩ := hkey
      rw [hget, compactState_some, if_neg (not_lt_of_ge hle)]
    · rfl
  · rw [hstore]
    split
    · rename_i hkey
      obtain ⟨rfl, rfl⟩ := hkey
      rw [hcompact, ReferenceStore.get, ReferenceStore.entry_write]
      rfl
    · rename_i hkey
      rw [ReferenceStore.get, ReferenceStore.entry_write_ne _ _ hkey]
      rfl

theorem compactAll_concat (states : List CompactedReferenceState) (s : CompactedReferenceState) :
    compactAll (states ++ [s]) = compactState (compactAll states) s := by
  simp [compactAll]

/-- After a run the store is faithful and holds, under every key, the compaction of what was handed
    over for it. -/
theorem run_update_get (ttl : ℕ) {calls : List UpdateCall} (h : ExactNumbers calls) :
    let w := run (ReferenceWriter.update P) { store := { ttlSeconds := ttl } } calls
    Faithful w.store ∧
      ∀ date identity, w.store.get date identity = compactAll (carriersOf P date identity calls) := by
  induction calls using List.reverseRecOn with
  | nil => exact ⟨faithful_empty ttl, fun _ _ => rfl⟩
  | append_singleton calls call ih =>
    obtain ⟨hw, hget⟩ := ih fun c hc => h c (List.mem_append_left _ hc)
    have hexact : ∀ incoming, handed P call = some incoming → incoming.Exact :=
      fun _ hhanded => handed_exact h (by simp) hhanded
    dsimp only
    rw [run_concat]
    refine ⟨update_faithful hw hexact, fun date identity => ?_⟩
    unfold carriersOf
    rw [List.filterMap_append, List.filter_append]
    cases hhanded : handed P call with
    | none =>
      rw [← (update_of_handed_none hhanded).store, hget]
      simp [hhanded, carriersOf]
    | some incoming =>
      rw [update_get hw hhanded (hexact incoming hhanded), hget]
      split
      · rename_i hkey
        simp [hhanded, hkey, carriersOf, compactAll_concat]
      · rename_i hkey
        simp [hhanded, hkey, carriersOf]

end

/-! ## Recovery -/

/-- The states of one date, in the order of the hash. -/
def ReferenceStore.statesAt (s : ReferenceStore) (date : Int) : List CompactedReferenceState :=
  (s.readAllRaw date).filterMap fun kv => safeLoad kv.2

section

variable {s : ReferenceStore} {date : Int} {expected : Option ℕ}

/-- The hash of a date is the JSON of its states, each under its identity. -/
theorem Faithful.readAllRaw_eq (h : Faithful s) (date : Int) :
    s.readAllRaw date = (s.statesAt date).map fun st => (st.instrumentIdentity, dump st) := by
  have hentries : ∀ kv ∈ s.readAllRaw date, ∃ st, kv = (st.instrumentIdentity, dump st) := by
    intro kv hkv
    have hget : (s.readAllRaw date).get kv.1 = some kv.2 :=
      (Dict.mem_iff_get (h.keys date) kv.1 kv.2).mp hkv
    rw [← ReferenceStore.entry_eq] at hget
    obtain ⟨st, hdump, -, -, hidentity⟩ := h.entries _ _ _ hget
    exact ⟨st, Prod.ext hidentity.symm hdump⟩
  unfold ReferenceStore.statesAt
  generalize s.readAllRaw date = raw at hentries
  induction raw with
  | nil => rfl
  | cons kv raw ih =>
    obtain ⟨st, rfl⟩ := hentries kv (by simp)
    rw [List.filterMap_cons, safeLoad_dump, List.map_cons,
      ← ih fun kv hkv => hentries kv (List.mem_cons_of_mem _ hkv)]

theorem Faithful.identities_nodup (h : Faithful s) (date : Int) :
    ((s.statesAt date).map (·.instrumentIdentity)).Nodup := by
  have hkeys := h.keys date
  rw [h.readAllRaw_eq date, List.map_map] at hkeys
  exact hkeys

theorem Faithful.mem_statesAt_iff (h : Faithful s) (st : CompactedReferenceState) :
    st ∈ s.statesAt date ↔ s.get date st.instrumentIdentity = some st := by
  have hmem : st ∈ s.statesAt date ↔ (st.instrumentIdentity, dump st) ∈ s.readAllRaw date := by
    rw [h.readAllRaw_eq date, List.mem_map]
    constructor
    · exact fun hst => ⟨st, hst, rfl⟩
    · rintro ⟨st', hst', heq⟩
      cases dump_injective (Prod.ext_iff.mp heq).2
      exact hst'
  rw [hmem, Dict.mem_iff_get (h.keys date), ← ReferenceStore.entry_eq, h.entry_eq_dump]
  constructor
  · intro hdump
    obtain ⟨st', hget, heq⟩ := Option.map_eq_some_iff.mp hdump
    rw [hget, dump_injective heq]
  · intro hget
    rw [hget, Option.map_some]

theorem Faithful.tradingDate_of_mem (h : Faithful s) {st : CompactedReferenceState}
    (hst : st ∈ s.statesAt date) : st.tradingDate = date :=
  (h.get_exact (h.mem_statesAt_iff st |>.mp hst)).2.1

/-- Writing states of distinct identities one after the other lists them. -/
theorem foldl_set_identity {sts : List CompactedReferenceState}
    (h : (sts.map (·.instrumentIdentity)).Nodup) :
    sts.foldl (fun (d : Dict String CompactedReferenceState) st => d.set st.instrumentIdentity st) [] =
      sts.map fun st => (st.instrumentIdentity, st) := by
  induction sts using List.reverseRecOn with
  | nil => rfl
  | append_singleton sts st ih =>
    rw [List.map_append, List.nodup_append] at h
    obtain ⟨hsts, -, hdisjoint⟩ := h
    have habsent : Dict.get (sts.map fun st => (st.instrumentIdentity, st)) st.instrumentIdentity =
        none := by
      rw [← Option.not_isSome_iff_eq_none, ← Dict.mem_keys_iff, List.map_map]
      exact fun hmem => hdisjoint _ hmem _ (by simp) rfl
    rw [List.foldl_append, ih hsts, List.foldl_cons, List.foldl_nil, Dict.set_of_get_eq_none habsent,
      List.map_append]
    rfl

/-- What a restart recovers from a faithful store. -/
theorem Faithful.recover_eq (h : Faithful s) (now : Int) :
    s.recover date expected now =
      { tradingDate := date,
        states := ((s.statesAt date).filter (Accepted date expected)).map
          fun st => (st.instrumentIdentity, st),
        diagnostics := (tallyOf date expected ((s.statesAt date).map some)).finish now } := by
  have hread : ((s.readAllRaw date).map fun kv => safeLoad kv.2) = (s.statesAt date).map some := by
    conv_lhs => rw [h.readAllRaw_eq date]
    rw [List.map_map]
    exact List.map_congr_left fun st _ => safeLoad_dump st
  have hnodup : (((s.statesAt date).filter (Accepted date expected)).map
      (·.instrumentIdentity)).Nodup :=
    (h.identities_nodup date).sublist (List.filter_sublist.map _)
  have hstates : statesOf date expected ((s.statesAt date).map some) =
      ((s.statesAt date).filter (Accepted date expected)).map fun st => (st.instrumentIdentity, st) := by
    rw [← foldl_set_identity hnodup, statesOf, List.filterMap_map]
    simp
  rw [ReferenceStore.recover, load_eq, hread, hstates]

/-- What a restart recovers of one instrument. -/
theorem Faithful.recover_get (h : Faithful s) (now : Int) (identity : String) :
    (s.recover date expected now).states.get identity =
      (s.get date identity).filter fun st => decide (expected = some st.universeVersion) := by
  rw [h.recover_eq now]
  have hnodup : ((((s.statesAt date).filter (Accepted date expected)).map
      fun st => (st.instrumentIdentity, st)).map (·.1)).Nodup := by
    rw [List.map_map]
    exact (h.identities_nodup date).sublist (List.filter_sublist.map _)
  refine Option.ext fun st => ?_
  rw [← Dict.mem_iff_get hnodup, Option.filter_eq_some_iff, List.mem_map]
  constructor
  · rintro ⟨st', hst', heq⟩
    cases heq
    obtain ⟨hmem, haccepted⟩ := List.mem_filter.mp hst'
    exact ⟨h.mem_statesAt_iff st |>.mp hmem, decide_eq_true (of_decide_eq_true haccepted).2⟩
  · rintro ⟨hget, hversion⟩
    obtain ⟨-, hdate, hidentity⟩ := h.get_exact hget
    refine ⟨st, List.mem_filter.mpr ⟨?_, ?_⟩, Prod.ext hidentity rfl⟩
    · rwa [h.mem_statesAt_iff st, hidentity]
    · exact decide_eq_true ⟨hdate, of_decide_eq_true hversion⟩

end

/-- The identities whose entries a run has written. -/
theorem run_statesAt_length {P : Parsers} (ttl : ℕ) {calls : List UpdateCall} (h : ExactNumbers calls)
    (date : Int) :
    ((run (ReferenceWriter.update P) { store := { ttlSeconds := ttl } } calls).store.statesAt
        date).length =
      ((((calls.filterMap (handed P)).filter fun s => decide (s.tradingDate = date)).map
        (·.instrumentIdentity)).dedup).length := by
  obtain ⟨hw, hget⟩ := run_update_get (P := P) ttl h
  generalize run (ReferenceWriter.update P) { store := { ttlSeconds := ttl } } calls = w at hw hget ⊢
  have hnodup := hw.identities_nodup date
  rw [← List.length_map (·.instrumentIdentity)]
  refine List.Perm.length_eq ((List.perm_ext_iff_of_nodup hnodup (List.nodup_dedup _)).mpr ?_)
  intro identity
  have hstored : identity ∈ (w.store.statesAt date).map (·.instrumentIdentity) ↔
      w.store.get date identity ≠ none := by
    rw [List.mem_map]
    constructor
    · rintro ⟨st, hst, rfl⟩
      rw [hw.mem_statesAt_iff] at hst
      rw [hst]
      exact Option.some_ne_none st
    · intro hne
      obtain ⟨st, hst⟩ := Option.ne_none_iff_exists'.mp hne
      obtain ⟨-, -, hidentity⟩ := hw.get_exact hst
      exact ⟨st, (hw.mem_statesAt_iff st).mpr (hidentity ▸ hst), hidentity⟩
  rw [hstored, hget, ne_eq, (compacted_compactAll _).absent, List.mem_dedup, List.mem_map, carriersOf,
    List.filter_eq_nil_iff]
  simp only [List.mem_filter, decide_eq_true_eq]
  push Not
  constructor
  · rintro ⟨st, hst, hdate, hidentity⟩
    exact ⟨st, ⟨hst, hdate⟩, hidentity⟩
  · rintro ⟨st, ⟨hst, hdate⟩, hidentity⟩
    exact ⟨st, hst, hdate, hidentity⟩

/-- **A restart recovers the compaction, and counts every instrument once.**  After any run of updates
    of any instruments and dates with numbers below `10 ^ 14`, some of which failed, loading a date with
    the expected universe version returns, for every instrument, what the updates of that date compact
    to, where it is of that version, and nothing else.  No entry is invalid or of another date; every
    instrument that was handed over is either loaded or counted as a universe mismatch, and the counts
    are those of the states returned. -/
theorem recovered_state (P : Parsers) (ttl : ℕ) {calls : List UpdateCall} (h : ExactNumbers calls)
    (date : Int) (expected : Option ℕ) (now : Int) :
    let w := run (ReferenceWriter.update P) { store := { ttlSeconds := ttl } } calls
    let snapshot := w.store.recover date expected now
    let ofDate := (calls.filterMap (handed P)).filter fun s => decide (s.tradingDate = date)
    let states := snapshot.states.map (·.2)
    let diagnostics := snapshot.diagnostics
    (∀ identity, ∃ stored,
      Compacted (carriersOf P date identity calls)
        (records CompactedReferenceState.ordering (carriersOf P date identity calls)) stored ∧
      snapshot.states.get identity =
        stored.filter fun st => decide (expected = some st.universeVersion)) ∧
    (snapshot.states.map (·.1)).Nodup ∧
    diagnostics.entriesTotal = (ofDate.map (·.instrumentIdentity)).dedup.length ∧
    diagnostics.entriesInvalid = 0 ∧ diagnostics.tradingDateMismatchCount = 0 ∧
    diagnostics.entriesLoaded = states.length ∧
    diagnostics.entriesTotal = diagnostics.entriesLoaded + diagnostics.universeMismatchCount ∧
    diagnostics.previousCloseCount = states.countP (·.hasPreviousClose) ∧
    diagnostics.sessionOpenCount = states.countP (·.hasSessionOpen) ∧
    diagnostics.completeReferenceCount =
      states.countP fun s => s.hasPreviousClose && s.hasSessionOpen := by
  have hlength := run_statesAt_length (P := P) ttl h date
  obtain ⟨hw, hget⟩ := run_update_get (P := P) ttl h
  intro w snapshot ofDate states diagnostics
  have hsnapshot : snapshot = _ := hw.recover_eq now
  have hstates : states = (w.store.statesAt date).filter (Accepted date expected) := by
    show snapshot.states.map _ = _
    rw [hsnapshot, List.map_map]
    exact List.map_id _
  have hdiagnostics : diagnostics =
      (tallyOf date expected ((w.store.statesAt date).map some)).finish now := by
    show snapshot.diagnostics = _
    rw [hsnapshot]
  have hdate : ∀ st ∈ w.store.statesAt date, st.tradingDate = date :=
    fun st hst => hw.tradingDate_of_mem hst
  have hmap : ((w.store.statesAt date).map some).filterMap id = w.store.statesAt date := by
    rw [List.filterMap_map]
    simp
  refine ⟨fun identity => ⟨_, compacted_compactAll _, ?_⟩, ?_, ?_, ?_, ?_, ?_, ?_, ?_, ?_, ?_⟩
  · rw [← hget]
    exact hw.recover_get now identity
  · rw [hsnapshot, List.map_map]
    exact (hw.identities_nodup date).sublist (List.filter_sublist.map _)
  · rw [hdiagnostics, ← hlength]
    exact List.length_map some
  · rw [hdiagnostics]
    show List.countP _ _ = 0
    simp [List.countP_map]
  · rw [hdiagnostics]
    show List.countP _ _ = 0
    rw [hmap, List.countP_eq_zero]
    intro st hst
    simp [hdate st hst]
  · rw [hdiagnostics, hstates]
    show List.length _ = _
    rw [hmap]
  · rw [hdiagnostics]
    show List.length _ = List.length _ + List.countP _ _
    rw [hmap, List.length_map, ← List.countP_eq_length_filter,
      List.length_eq_countP_add_countP (Accepted date expected)]
    congr 1
    refine List.countP_congr fun st hst => ?_
    simp [Accepted, hdate st hst]
  · rw [hdiagnostics, hstates]
    show List.countP _ _ = _
    rw [hmap]
  · rw [hdiagnostics, hstates]
    show List.countP _ _ = _
    rw [hmap]
  · rw [hdiagnostics, hstates]
    show List.countP _ _ = _
    rw [hmap]

theorem lateReference_exact : ExactNumbers lateReference := by
  intro c hc
  simp only [lateReference, List.mem_cons, List.not_mem_nil, or_false] at hc
  rcases hc with rfl | rfl <;> decide

/-- The tick and the older reference leave one entry, which a restart loads for universe 7. -/
theorem lateReference_recovered :
    ExactNumbers lateReference ∧
      let w := run (ReferenceWriter.update referenceParsers) { store := { ttlSeconds := 604800 } }
        lateReference
      let diagnostics := (w.store.recover 20635 (some 7) 1782896400).diagnostics
      diagnostics.entriesTotal = 1 ∧ diagnostics.entriesInvalid = 0 ∧
        diagnostics.tradingDateMismatchCount = 0 ∧
        diagnostics.entriesTotal =
          diagnostics.entriesLoaded + diagnostics.universeMismatchCount := by
  refine ⟨lateReference_exact, ?_⟩
  obtain ⟨-, -, htotal, hinvalid, hdate, -, hsum, -⟩ := recovered_state referenceParsers 604800
    lateReference_exact 20635 (some 7) 1782896400
  have hhanded : lateReference.filterMap (handed referenceParsers) = [tickReference, closeReference] := by
    simp [lateReference, handed, carried_tickEnvelope, carried_referenceEnvelope]
  rw [hhanded] at htotal
  exact ⟨htotal, hinvalid, hdate, hsum⟩

/-! ## Redelivery -/

/-- A call that repeats the envelope of one whose script was run. -/
def Repeats (x y : UpdateCall) : Prop := x.transport = true ∧ x.envelope = y.envelope

section

variable {P : Parsers} {w w' : ReferenceWriter} {call : UpdateCall}

/-- Writers with the same store and writes stay so on the same update. -/
theorem SameWrites.update (h : SameWrites w w') (hw : Faithful w.store)
    (hexact : ∀ incoming, handed P call = some incoming → incoming.Exact) :
    SameWrites (w.update P call).1 (w'.update P call).1 := by
  cases hhanded : handed P call with
  | none =>
    exact (update_of_handed_none hhanded).symm.trans (h.trans (update_of_handed_none hhanded))
  | some incoming =>
    have hcompact : ∃ store outcome, w.store.compact incoming = some (store, outcome) := by
      rcases ReferenceStore.compact_cases hw (hexact incoming hhanded) with
        ⟨_, outcome, _, _, _, hcompact⟩ | ⟨_, outcome, _, _, _, _, hcompact⟩ <;>
      exact ⟨_, outcome, hcompact⟩
    obtain ⟨store, outcome, hcompact⟩ := hcompact
    have hcompact' := hcompact
    rw [h.store] at hcompact'
    rw [update_of_handed hhanded hcompact, update_of_handed hhanded hcompact']
    obtain ⟨-, hwritten, hclose, hopen, hlast⟩ := h
    cases outcome <;>
    exact ⟨rfl, by simp [ReferenceWriter.record, ReferenceWriter.fail, hwritten],
      by simp [ReferenceWriter.record, ReferenceWriter.fail, hclose],
      by simp [ReferenceWriter.record, ReferenceWriter.fail, hopen],
      by simp [ReferenceWriter.record, ReferenceWriter.fail, hlast]⟩

/-- What is covered stays covered. -/
theorem update_covers (hw : Faithful w.store)
    (hexact : ∀ incoming, handed P call = some incoming → incoming.Exact)
    {earlier : CompactedReferenceState} (h : Covers w.store earlier) :
    Covers (w.update P call).1.store earlier := by
  cases hhanded : handed P call with
  | none => exact (update_of_handed_none hhanded).store ▸ h
  | some incoming =>
    obtain ⟨stored, hget, hle⟩ := h
    unfold Covers
    rw [update_get hw hhanded (hexact incoming hhanded), hget]
    split
    · rw [compactState_some]
      split
      · rename_i hlt
        exact ⟨_, rfl, hle.trans hlt.le⟩
      · exact ⟨stored, rfl, hle⟩
    · exact ⟨stored, rfl, hle⟩

/-- What is handed over is covered afterwards. -/
theorem update_covers_self (hw : Faithful w.store) {incoming : CompactedReferenceState}
    (hhanded : handed P call = some incoming) (hin : incoming.Exact) :
    Covers (w.update P call).1.store incoming := by
  rcases update_cases hw hhanded hin with ⟨hcovers, hsame⟩ | ⟨new, -, hcompact, hprices, -⟩
  · exact hsame.store ▸ hcovers
  · refine ⟨new, ?_, ?_⟩
    · rw [update_get hw hhanded hin, if_pos ⟨rfl, rfl⟩, hcompact]
    · rw [hprices, CompactedReferenceState.ordering_withPrices]

end

/-- **Redelivery is not seen.**  Where updates whose script was run are delivered again, at any later
    points and any number of times, the store, what a restart recovers from it, the counts of what
    was written and the time of the last write are those of the run that delivers each of them
    once.  The numbers are below `10 ^ 14`, from where on the script does not write them exactly. -/
theorem redelivery_unseen (P : Parsers) (ttl : ℕ) {calls again : List UpdateCall}
    (hexact : ExactNumbers again) (h : AtLeastOnce Repeats calls again) :
    SameWrites (run (ReferenceWriter.update P) { store := { ttlSeconds := ttl } } calls)
      (run (ReferenceWriter.update P) { store := { ttlSeconds := ttl } } again) := by
  have hcalls : ∀ y ∈ again, ∀ incoming, handed P y = some incoming → incoming.Exact :=
    fun y hy _ hhanded => handed_exact hexact hy hhanded
  refine (AtLeastOnce.related (fun w w' => SameWrites w w' ∧ Faithful w'.store)
    (fun w x => ∀ incoming, handed P x = some incoming → Covers w.store incoming)
    (fun y => ∀ incoming, handed P y = some incoming → incoming.Exact)
    ?first ?mark ?keep ?again ⟨SameWrites.refl _, faithful_empty ttl⟩ h hcalls).1
  case first =>
    intro w w' x hx ⟨hsame, hw'⟩
    exact ⟨hsame.update (hsame.store ▸ hw') hx, update_faithful hw' hx⟩
  case mark =>
    intro w w' x hx ⟨_, hw'⟩ incoming hhanded
    exact update_covers_self hw' hhanded (hx incoming hhanded)
  case keep =>
    intro w w' x y hy ⟨_, hw'⟩ hseen incoming hhanded
    exact update_covers hw' hy (hseen incoming hhanded)
  case again =>
    intro w w' x y hy ⟨htransport, henvelope⟩ ⟨hsame, hw'⟩ hseen
    refine ⟨hsame.trans ?_, update_faithful hw' hy⟩
    cases hhanded : handed P y with
    | none => exact update_of_handed_none hhanded
    | some incoming =>
      -- the first delivery was run, so it handed over the same reference
      have hfirst : handed P x = some incoming := by
        unfold handed at hhanded ⊢
        rw [htransport, henvelope]
        split at hhanded
        · exact hhanded
        · cases hhanded
      rcases update_cases hw' hhanded (hy incoming hhanded) with ⟨-, hunseen⟩ | ⟨_, huncovered, -⟩
      · exact hunseen
      · exact absurd (hseen incoming hfirst) huncovered

/-- The tick is delivered again after the reference. -/
def redeliveredTick : List UpdateCall := lateReference ++ [⟨tickEnvelope, true, 9⟩]

theorem redeliveredTick_unseen :
    ExactNumbers redeliveredTick ∧ AtLeastOnce Repeats lateReference redeliveredTick ∧
      SameWrites
        (run (ReferenceWriter.update referenceParsers) { store := { ttlSeconds := 604800 } }
          lateReference)
        (run (ReferenceWriter.update referenceParsers) { store := { ttlSeconds := 604800 } }
          redeliveredTick) := by
  have hexact : ExactNumbers redeliveredTick := by
    intro c hc
    rcases List.mem_append.mp hc with hc | hc
    · exact lateReference_exact c hc
    · rw [List.mem_singleton.mp hc]
      decide
  have hagain : AtLeastOnce Repeats lateReference redeliveredTick :=
    .again (.refl lateReference) (x := ⟨tickEnvelope, true, 0⟩) (by simp [lateReference]) ⟨rfl, rfl⟩
  exact ⟨hexact, hagain, redelivery_unseen referenceParsers 604800 hexact hagain⟩

end ApexScan.Ipc
