import ApexScan.Ipc.Reference

/-!
# What a run of reference updates leaves stored

The updates of one instrument and trading date reach the store in any order.  An update that is
not newer than everything stored is rejected as a whole, so what counts for a field is the newest
carrier among the updates that were new when they arrived: the left-to-right maxima of the delivery.

* `carried` — the reference state that an envelope carries.
* `Compacted carriers sources stored` — the provenance is that of the newest carrier, and each field
  has the price of its newest carrier among `sources`.
* `Deliveries` — updates of one instrument and date whose script runs, with exact numbers.

Main result: `newest_records_win`.  `late_reference_is_lost` is a delivery in which the only carrier
of a field arrives late.
-/

set_option autoImplicit false

namespace ApexScan.Ipc

open Lib

/-! ## The store -/

theorem ReferenceStore.entry_write (s : ReferenceStore) (date : Int) (identity : String)
    (value : StoredReference) : (s.write date identity value).entry date identity = some value := by
  simp [write, entry]

section

variable (P : Parsers)

/-- The reference state that an envelope carries, if any. -/
def carried (e : MarketEventEnvelope) : Option CompactedReferenceState :=
  match referenceFromEnvelope P e with
  | .ok state => state
  | _ => none

/-- Updates of one instrument identity and trading date, each run by the store, whose numbers are
    below `10 ^ 14`. -/
structure Deliveries (date : Int) (identity : String) (calls : List UpdateCall) : Prop where
  identity : ∀ c ∈ calls, c.envelope.instrumentIdentity.1.1 = identity
  date : ∀ c ∈ calls, c.envelope.tradingDate = date
  transport : ∀ c ∈ calls, c.transport = true
  exact : ∀ c ∈ calls, c.envelope.universeVersion < 10 ^ 14 ∧
    c.envelope.producerEpoch < 10 ^ 14 ∧ c.envelope.producerSequence < 10 ^ 14

end

/-- The stored state has the provenance of the newest carrier and, for each field, the price of the
    newest state of `sources` that carries it; without carriers there is none. -/
structure Compacted (carriers sources : List CompactedReferenceState)
    (stored : Option CompactedReferenceState) : Prop where
  absent : stored = none ↔ carriers = []
  provenance : ∀ s, stored = some s → ∃ c ∈ carriers, s = c.withPrices s.prices ∧
    ∀ c' ∈ carriers, c'.ordering ≤ c.ordering
  prices : ∀ s, stored = some s → ∀ f v, s.prices f = some v ↔ ∃ c ∈ sources,
    c.prices f = some v ∧ ∀ c' ∈ sources, (c'.prices f).isSome = true → c'.ordering ≤ c.ordering

/-! ## One update -/

variable {P : Parsers}

/-- What an envelope carries is stamped with the envelope's own metadata. -/
theorem carried_provenance {e : MarketEventEnvelope} {s : CompactedReferenceState}
    (h : carried P e = some s) :
    s.instrumentIdentity = e.instrumentIdentity.1.1 ∧ s.tradingDate = e.tradingDate ∧
      s.universeVersion = e.universeVersion ∧ s.producerEpoch = e.producerEpoch ∧
      s.producerSequence = e.producerSequence := by
  unfold carried referenceFromEnvelope at h
  cases hp : decodePayload P e.eventKind e.payload.1.1 with
  | invalid => simp [hp] at h
  | raised => simp [hp] at h
  | ok payload =>
    simp only [hp, Check.map_ok, Option.map_eq_some_iff] at h
    obtain ⟨prices, -, rfl⟩ := h
    exact ⟨rfl, rfl, rfl, rfl, rfl⟩

@[simp] theorem ReferenceWriter.record_store (w : ReferenceWriter) (outcome : ReferenceOutcome)
    (incoming : CompactedReferenceState) (now : Int) :
    (w.record outcome incoming now).store = w.store := by
  cases outcome <;> rfl

/-- An update that carries nothing leaves the store as it is. -/
theorem update_store_of_carried_none {w : ReferenceWriter} {call : UpdateCall}
    (h : carried P call.envelope = none) : (w.update P call).1.store = w.store := by
  unfold carried at h
  unfold ReferenceWriter.update
  split at h
  · rename_i hr
    subst h
    simp only [hr]
  · cases hr : referenceFromEnvelope P call.envelope with
    | raised => rfl
    | invalid => rfl
    | ok state => simp_all

/-- An update that carries a reference and whose script runs compacts it into its entry. -/
theorem update_entry {w : ReferenceWriter} {call : UpdateCall}
    {existing : Option CompactedReferenceState} {s : CompactedReferenceState}
    (hentry : w.store.entry s.tradingDate s.instrumentIdentity = existing.map dump)
    (hex : ∀ s ∈ existing, s.Exact) (hcarried : carried P call.envelope = some s) (hs : s.Exact)
    (htransport : call.transport = true) :
    (w.update P call).1.store.entry s.tradingDate s.instrumentIdentity =
      (compactState existing s).map dump := by
  have href : referenceFromEnvelope P call.envelope = .ok (some s) := by
    unfold carried at hcarried
    split at hcarried
    · rename_i hr
      rw [hr, hcarried]
    · cases hcarried
  obtain ⟨value, hscript, hleft⟩ := compactScript_dump hex hs
  have hcompact : w.store.compact s = some (value.elim w.store
      (w.store.write s.tradingDate s.instrumentIdentity), classify s existing) := by
    rw [ReferenceStore.compact, hentry, hscript, Option.map_some]
  simp only [ReferenceWriter.update, href, htransport, if_true, hcompact,
    ReferenceWriter.record_store]
  cases value with
  | none => rw [← hleft, Option.none_or]; exact hentry
  | some v =>
    rw [← hleft, Option.some_or]
    exact ReferenceStore.entry_write _ _ _ _

/-! ## Runs -/

/-- A compacted state is exact when all states are. -/
theorem compactAll_exact {states : List CompactedReferenceState}
    (h : ∀ s ∈ states, s.Exact) : ∀ s ∈ compactAll states, s.Exact := by
  intro s hs
  rw [compactAll_eq, Option.mem_def, Option.map_eq_some_iff] at hs
  obtain ⟨r, hr, rfl⟩ := hs
  have hmem := h r (records_subset _ (List.mem_of_getLast? hr))
  exact ⟨hmem.universeVersion, hmem.producerEpoch, hmem.producerSequence⟩

theorem Deliveries.carried_exact {date : Int} {identity : String} {calls : List UpdateCall}
    (h : Deliveries date identity calls) :
    ∀ s ∈ calls.filterMap (carried P ·.envelope), s.Exact := by
  intro s hs
  obtain ⟨c, hc, hcarried⟩ := List.mem_filterMap.mp hs
  obtain ⟨-, -, hu, he, hq⟩ := carried_provenance hcarried
  obtain ⟨hu', he', hq'⟩ := h.exact c hc
  exact ⟨hu ▸ hu', he ▸ he', hq ▸ hq'⟩

/-- The entry after a run is the documented compaction of what the run carried. -/
theorem run_update_entry {date : Int} {identity : String} {calls : List UpdateCall} (ttl : ℕ)
    (h : Deliveries date identity calls) :
    (run (ReferenceWriter.update P) { store := { ttlSeconds := ttl } } calls).store.entry
        date identity =
      (compactAll (calls.filterMap (carried P ·.envelope))).map dump := by
  induction calls using List.reverseRecOn with
  | nil => rfl
  | append_singleton calls call ih =>
    have hcalls : Deliveries date identity calls :=
      ⟨fun c hc => h.identity c (List.mem_append_left _ hc),
       fun c hc => h.date c (List.mem_append_left _ hc),
       fun c hc => h.transport c (List.mem_append_left _ hc),
       fun c hc => h.exact c (List.mem_append_left _ hc)⟩
    have ih := ih hcalls
    rw [run_concat, List.filterMap_append]
    cases hcarried : carried P call.envelope with
    | none => simpa [hcarried, update_store_of_carried_none hcarried] using ih
    | some s =>
      obtain ⟨hidentity, hdate, -⟩ := carried_provenance hcarried
      rw [h.identity call (by simp)] at hidentity
      rw [h.date call (by simp)] at hdate
      have hexact : s.Exact := h.carried_exact (P := P) s (by simp [hcarried])
      rw [← hidentity, ← hdate] at ih ⊢
      rw [update_entry ih (compactAll_exact hcalls.carried_exact) hcarried hexact
        (h.transport call (by simp))]
      simp [compactAll, hcarried]

/-! ## The result -/

/-- The compaction of a sequence has the provenance of its newest state and, for each field, the
    price of the newest record that carries it. -/
theorem compacted_compactAll (states : List CompactedReferenceState) :
    Compacted states (records CompactedReferenceState.ordering states) (compactAll states) := by
  have hsorted := records_pairwise CompactedReferenceState.ordering states
  have hempty : records CompactedReferenceState.ordering states = [] ↔ states = [] := by
    constructor
    · intro hnil
      refine List.eq_nil_iff_forall_not_mem.mpr fun s hs => ?_
      obtain ⟨r, hr, -⟩ := exists_record_ge CompactedReferenceState.ordering hs
      rw [hnil] at hr
      cases hr
    · rintro rfl
      rfl
  refine ⟨?_, ?_, ?_⟩
  · rw [compactAll_eq, Option.map_eq_none_iff, List.getLast?_eq_none_iff, hempty]
  · intro s hs
    rw [compactAll_eq, Option.map_eq_some_iff] at hs
    obtain ⟨last, hlast, rfl⟩ := hs
    refine ⟨last, records_subset _ (List.mem_of_getLast? hlast), rfl, ?_⟩
    intro c hc
    obtain ⟨r, hr, hle⟩ := exists_record_ge CompactedReferenceState.ordering hc
    obtain ⟨before, hbefore⟩ := List.getLast?_eq_some_iff.mp hlast
    rw [hbefore] at hr hsorted
    rcases List.mem_append.mp hr with hr | hr
    · exact hle.trans ((List.pairwise_append.mp hsorted).2.2 r hr last (by simp)).le
    · rwa [List.mem_singleton.mp hr] at hle
  · intro s hs f v
    rw [compactAll_eq, Option.map_eq_some_iff] at hs
    obtain ⟨last, -, rfl⟩ := hs
    exact latest_eq_some_iff CompactedReferenceState.ordering (·.prices f) hsorted v

/-- **What is stored comes from the updates that were new on arrival.**  After every delivery of
    updates of one instrument and date, the stored state has the provenance of the newest carrier,
    and each field the price of its newest carrier among those newer than every carrier before them.
    Where the carriers arrive in producer order, these are all of them. -/
theorem newest_records_win (P : Parsers) (ttl : ℕ) {date : Int} {identity : String}
    {calls : List UpdateCall} (h : Deliveries date identity calls) :
    let carriers := calls.filterMap (carried P ·.envelope)
    let fresh := records CompactedReferenceState.ordering carriers
    let stored := (run (ReferenceWriter.update P) { store := { ttlSeconds := ttl } } calls).store.get
      date identity
    Compacted carriers fresh stored ∧
      (∀ c, c ∈ fresh ↔ ∃ before after, carriers = before ++ c :: after ∧
        ∀ b ∈ before, b.ordering < c.ordering) ∧
      (carriers.Pairwise (·.ordering < ·.ordering) → Compacted carriers carriers stored) := by
  intro carriers fresh stored
  have hstored : stored = compactAll carriers := by
    show ReferenceStore.get _ _ _ = _
    rw [ReferenceStore.get, run_update_entry ttl h]
    simp [Option.bind_map, Function.comp_def, carriers]
  have hcompacted := compacted_compactAll carriers
  rw [hstored]
  refine ⟨hcompacted, mem_records_iff _ carriers, fun horder => ?_⟩
  rwa [records_eq_self _ horder] at hcompacted

/-! ## A late reference -/

/-- The text of a `Tick` with the session OHLC 102, 105, 101, 104. -/
def tickText : String :=
  "\x7b\"instrument\":\x7b\"exchange\":\"NSE\",\"symbol\":\"RELIANCE\"\x7d," ++
  "\"event_timestamp\":\"2026-07-01T04:00:00Z\",\"last_price\":\"104\",\"session_ohlc\":" ++
  "\x7b\"open_price\":\"102\",\"high_price\":\"105\",\"low_price\":\"101\"," ++
  "\"close_price\":\"104\"\x7d\x7d"

/-- The text of a `MarketReference` with the previous close 100. -/
def referenceText : String :=
  "\x7b\"instrument\":\x7b\"exchange\":\"NSE\",\"symbol\":\"RELIANCE\"\x7d," ++
  "\"previous_close\":\"100\"\x7d"

def instrumentJson : Json := .obj [("exchange", .str "NSE"), ("symbol", .str "RELIANCE")]

def tickJson : Json :=
  .obj [("instrument", instrumentJson), ("event_timestamp", .str "2026-07-01T04:00:00Z"),
    ("last_price", .str "104"),
    ("session_ohlc", .obj [("open_price", .str "102"), ("high_price", .str "105"),
      ("low_price", .str "101"), ("close_price", .str "104")])]

def referenceJson : Json :=
  .obj [("instrument", instrumentJson), ("previous_close", .str "100")]

/-- Parsers that read the two texts as they are written. -/
def referenceParsers : Parsers where
  loads _ := none
  parse _ := none
  parseText s :=
    if s = tickText then some tickJson else if s = referenceText then some referenceJson else none
  datetime
    | .str "2026-07-01T04:00:00Z" => some ⟨1782878400 * second, true⟩
    | _ => none
  date _ := none
  decimal
    | .str "100" => some 100
    | .str "101" => some 101
    | .str "102" => some 102
    | .str "104" => some 104
    | .str "105" => some 105
    | _ => none
  upper s := s

theorem one_le_length {s : String} (h : s ≠ "") : 1 ≤ s.length :=
  Nat.one_le_iff_ne_zero.mpr (mt String.length_eq_zero_iff.mp h)

def tickEnvelope : MarketEventEnvelope where
  schemaVersion := ⟨1, by decide⟩
  producerId := ⟨"ingestion", by decide⟩
  producerEpoch := 1
  producerSequence := 2
  producedAt := 1782878400 * second
  eventKind := .tick
  tradingDate := 20635
  universeVersion := 7
  instrumentIdentity := ⟨⟨"NSE:RELIANCE", by decide⟩, by decide⟩
  payload := ⟨⟨tickText, one_le_length (by decide +kernel)⟩, by decide +kernel⟩

def referenceEnvelope : MarketEventEnvelope :=
  { tickEnvelope with
    producerSequence := 1
    eventKind := .marketReference
    payload := ⟨⟨referenceText, one_le_length (by decide +kernel)⟩, by decide +kernel⟩ }

/-- The state that `tickEnvelope` carries. -/
def tickReference : CompactedReferenceState where
  instrumentIdentity := "NSE:RELIANCE"
  tradingDate := 20635
  updatedAt := 1782878400 * second
  universeVersion := 7
  producerId := "ingestion"
  producerEpoch := 1
  producerSequence := 2
  prices
    | .previousClose => none
    | .sessionOpen => some (rupees 102)
    | .sessionHigh => some (rupees 105)
    | .sessionLow => some (rupees 101)
    | .sessionClose => some (rupees 104)

/-- The state that `referenceEnvelope` carries. -/
def closeReference : CompactedReferenceState :=
  { tickReference with
    producerSequence := 1
    prices := fun
      | .previousClose => some (rupees 100)
      | _ => none }

theorem carried_tickEnvelope : carried referenceParsers tickEnvelope = some tickReference := by
  have hparse : referenceParsers.parseText tickText = some tickJson := by simp [referenceParsers]
  simp only [carried, referenceFromEnvelope, decodePayload, tickEnvelope, hparse]
  rfl

theorem carried_referenceEnvelope :
    carried referenceParsers referenceEnvelope = some closeReference := by
  rfl

/-- The tick is delivered before the older reference. -/
def lateReference : List UpdateCall := [⟨tickEnvelope, true, 0⟩, ⟨referenceEnvelope, true, 0⟩]

theorem lateReference_deliveries : Deliveries 20635 "NSE:RELIANCE" lateReference := by
  refine ⟨?_, ?_, ?_, ?_⟩ <;>
  · intro c hc
    simp only [lateReference, List.mem_cons, List.not_mem_nil, or_false] at hc
    rcases hc with rfl | rfl <;> decide

theorem lateReference_carriers :
    lateReference.filterMap (carried referenceParsers ·.envelope) =
      [tickReference, closeReference] := by
  simp [lateReference, carried_tickEnvelope, carried_referenceEnvelope]

/-- The only carrier of the previous close is rejected, so the field stays absent. -/
theorem late_reference_is_lost :
    let carriers := lateReference.filterMap (carried referenceParsers ·.envelope)
    let stored := (run (ReferenceWriter.update referenceParsers)
      { store := { ttlSeconds := 604800 } } lateReference).store.get 20635 "NSE:RELIANCE"
    carriers.Pairwise (·.ordering ≠ ·.ordering) ∧ stored = some tickReference ∧
      closeReference ∈ carriers ∧ ¬ Compacted carriers carriers stored := by
  intro carriers stored
  have hcarriers : carriers = [tickReference, closeReference] := lateReference_carriers
  have hstored : stored = some tickReference := by
    show ReferenceStore.get _ _ _ = _
    rw [ReferenceStore.get, run_update_entry 604800 lateReference_deliveries,
      lateReference_carriers]
    rfl
  have hne : tickReference.ordering ≠ closeReference.ordering := by decide
  refine ⟨?_, hstored, by simp [hcarriers], ?_⟩
  · simp [hcarriers, hne]
  · rw [hstored, hcarriers]
    intro hcompacted
    have hclose : tickReference.prices .previousClose = some (rupees 100) := by
      rw [hcompacted.prices _ rfl]
      refine ⟨closeReference, by simp, rfl, ?_⟩
      intro c hc hsome
      rcases List.mem_cons.mp hc with rfl | hc
      · cases hsome
      · rw [List.mem_singleton.mp hc]
    cases hclose

/-- In this delivery the stored state is compacted from the tick alone. -/
theorem newest_records_win_lateReference :
    Deliveries 20635 "NSE:RELIANCE" lateReference ∧
      Compacted [tickReference, closeReference]
        (records CompactedReferenceState.ordering [tickReference, closeReference])
        ((run (ReferenceWriter.update referenceParsers) { store := { ttlSeconds := 604800 } }
          lateReference).store.get 20635 "NSE:RELIANCE") := by
  obtain ⟨hcompacted, -⟩ := newest_records_win referenceParsers 604800 lateReference_deliveries
  rw [lateReference_carriers] at hcompacted
  exact ⟨lateReference_deliveries, hcompacted⟩

end ApexScan.Ipc
