import ApexScan.MarketUniverse.Resolver
import ApexScan.MarketUniverse.Store
import Mathlib.Data.Prod.Lex

/-!
# Whether a resolution accounts for the membership

The dictionary of the resolver keeps one mapped instrument of each identity, the last one of the list.
What becomes of the others, and whether the order of the list can be seen in the result, depends on what
the instruments of one identity have in common.

* `Accounts`, `AccountsInAnyOrder` — what is to hold of a result, and of a list.
* `AlwaysConflicts`, `AlwaysResolved` — what an identity comes to in every order of the list.

Main result: `accounts_iff`.  `shared_identity_dropped` is a list of two instruments of one identity.
-/

set_option autoImplicit false

namespace ApexScan.Universe

open Lib

/-! ## What is to hold -/

/-- The content of the candidate and what is reported beside it. -/
def ResolutionResult.surface (r : ResolutionResult) :
    LogicalContent × List UnresolvedInstrument × List String :=
  (r.candidate.content, r.unresolved, r.unclassifiedSector)

section Statement

variable (mappingFor : Instrument → Option ProviderMapping)
variable (resolvePrimary : String → Int → Option String)
variable (membership : List Instrument) (tradingDate effectiveAt : Int) (provenance : SourceProvenance)

/-- Every listed instrument is that of exactly one entry, with its own mapping, or is reported; entries
    have distinct security ids; and only a candidate with all listed instruments is promotable. -/
structure Accounts (r : ResolutionResult) : Prop where
  listed : ∀ i ∈ membership,
    (∃ entry ∈ r.candidate.instruments, entry.instrument = i ∧
        mappingFor i = some ⟨entry.providerSecurityId, entry.exchangeSegment⟩ ∧
        ∀ other ∈ r.candidate.instruments, other.instrument = i → other = entry) ∨
      ∃ u ∈ r.unresolved, u.identity = instrumentIdentity i
  securityIds : (r.candidate.instruments.map (·.providerSecurityId)).Nodup
  promotable : r.isPromotable = true →
    ∀ i ∈ membership, ∃ entry ∈ r.candidate.instruments, entry.instrument = i

/-- The list is resolved, accounted for, and resolved alike in every order. -/
def AccountsInAnyOrder : Prop :=
  ∃ r, resolve mappingFor resolvePrimary membership tradingDate effectiveAt provenance = .ok r ∧
    Accounts mappingFor membership r ∧
    ∀ membership', membership'.Perm membership → ∃ r',
      resolve mappingFor resolvePrimary membership' tradingDate effectiveAt provenance = .ok r' ∧
        r'.surface = r.surface

/-- Each mapped instrument of the identity has the security id of all the mapped ones of another. -/
def AlwaysConflicts (identity : String) : Prop :=
  ∀ v ∈ mappedOf mappingFor membership identity, ∃ other, other ≠ identity ∧
    mappedOf mappingFor membership other ≠ [] ∧
    ∀ w ∈ mappedOf mappingFor membership other, w.2.providerSecurityId = v.2.providerSecurityId

/-- The mapped instruments of the identity have one mapping, and no security id of another identity;
    they are one instrument, unless the identity has an unmapped one as well; and the sector is accepted. -/
structure AlwaysResolved (identity : String) : Prop where
  apart : ∀ v ∈ mappedOf mappingFor membership identity, ∀ other, other ≠ identity →
    ∀ w ∈ mappedOf mappingFor membership other, w.2.providerSecurityId ≠ v.2.providerSecurityId
  agree : ∀ v ∈ mappedOf mappingFor membership identity,
    ∀ w ∈ mappedOf mappingFor membership identity, v.2 = w.2
  alone : (∀ i ∈ membership, instrumentIdentity i = identity → mappingFor i ≠ none) →
    ∀ v ∈ mappedOf mappingFor membership identity,
      ∀ w ∈ mappedOf mappingFor membership identity, v.1 = w.1
  sector : ∃ sector, entrySector (resolvePrimary identity tradingDate) = .ok sector

end Statement

/-! ## Results -/

section Results

variable {mappingFor : Instrument → Option ProviderMapping}
variable {resolvePrimary : String → Int → Option String}
variable {membership membership' : List Instrument} {tradingDate effectiveAt : Int}
variable {provenance : SourceProvenance} {r r' : ResolutionResult} {identity : String}

theorem mappedOf_ext {v w : Instrument × ProviderMapping}
    (hv : v ∈ mappedOf mappingFor membership identity)
    (hw : w ∈ mappedOf mappingFor membership identity) (h : v.1 = w.1) : v = w := by
  have hmapping := (mem_mappedOf.mp hv).2.2
  rw [h, (mem_mappedOf.mp hw).2.2] at hmapping
  exact Prod.ext h (Option.some.inj hmapping).symm

theorem mem_mappedOf_perm (h : membership'.Perm membership) {v : Instrument × ProviderMapping} :
    v ∈ mappedOf mappingFor membership' identity ↔ v ∈ mappedOf mappingFor membership identity := by
  rw [mem_mappedOf, mem_mappedOf, h.mem_iff]

/-- Two entries of a candidate with one identity are the same. -/
theorem entry_unique {s : UniverseSnapshot} {a b : UniverseInstrument} (ha : a ∈ s.instruments)
    (hb : b ∈ s.instruments) (h : a.identity = b.identity) : a = b := by
  have hnodup : (s.instruments.map UniverseInstrument.identity).Nodup :=
    List.pairwise_map.mpr (s.increasing.imp fun hlt => hlt.ne)
  exact List.inj_on_of_nodup_map hnodup ha hb h

/-- Where an entry of the candidate comes from. -/
theorem Resolves.entry (h : Resolves mappingFor resolvePrimary membership tradingDate provenance r)
    {entry : UniverseInstrument} (hentry : entry ∈ r.candidate.instruments) :
    ∃ v sector, picked mappingFor membership entry.identity = some v ∧
      ¬ Conflicts mappingFor membership entry.identity ∧
      entrySector (resolvePrimary entry.identity tradingDate) = .ok sector ∧
      entry = ⟨v.1, v.2.providerSecurityId, v.2.exchangeSegment, sector⟩ := by
  obtain ⟨identity, v, hpicked, hfree, hv⟩ := (h.instruments entry).mp hentry
  obtain ⟨sector, hsector, rfl⟩ := entryFor_eq_ok hv
  have hidentity : instrumentIdentity v.1 = identity :=
    (mem_mappedOf.mp (mem_mappedOf_of_picked hpicked)).2.1
  rw [show (UniverseInstrument.mk v.1 v.2.providerSecurityId v.2.exchangeSegment sector).identity =
    identity from hidentity]
  exact ⟨v, sector, hpicked, hfree, hsector, rfl⟩

/-- A picked instrument that is not set apart has its entry. -/
theorem Resolves.mem_instruments
    (h : Resolves mappingFor resolvePrimary membership tradingDate provenance r)
    {v : Instrument × ProviderMapping} {sector : Option (Text 64)}
    (hpicked : picked mappingFor membership identity = some v)
    (hfree : ¬ Conflicts mappingFor membership identity)
    (hsector : entrySector (resolvePrimary identity tradingDate) = .ok sector) :
    UniverseInstrument.mk v.1 v.2.providerSecurityId v.2.exchangeSegment sector ∈
      r.candidate.instruments :=
  (h.instruments _).mpr ⟨identity, v, hpicked, hfree, entryFor_of_sector hsector⟩

/-- What is reported, and why. -/
theorem Resolves.mem_unresolved
    (h : Resolves mappingFor resolvePrimary membership tradingDate provenance r)
    {u : UnresolvedInstrument} :
    u ∈ r.unresolved ↔
      (∃ i ∈ membership, mappingFor i = none ∧ u = ⟨instrumentIdentity i, .missingProviderMapping⟩) ∨
      ∃ identity, Conflicts mappingFor membership identity ∧
        u = ⟨identity, .conflictingProviderMapping⟩ := by
  obtain ⟨conflicting, -, hconflicting, hunresolved⟩ := h.unresolved
  rw [hunresolved, mem_sortBy, List.mem_append, List.mem_map, List.mem_map]
  refine or_congr ?_ ?_
  · constructor
    · rintro ⟨i, hi, rfl⟩
      obtain ⟨hi, hnone⟩ := List.mem_filter.mp hi
      exact ⟨i, hi, of_decide_eq_true hnone, rfl⟩
    · rintro ⟨i, hi, hnone, rfl⟩
      exact ⟨i, List.mem_filter.mpr ⟨hi, decide_eq_true hnone⟩, rfl⟩
  · constructor
    · rintro ⟨identity, hidentity, rfl⟩
      exact ⟨identity, (hconflicting identity).mp hidentity, rfl⟩
    · rintro ⟨identity, hidentity, rfl⟩
      exact ⟨identity, (hconflicting identity).mpr hidentity, rfl⟩

theorem Resolves.conflicts_iff
    (h : Resolves mappingFor resolvePrimary membership tradingDate provenance r) :
    Conflicts mappingFor membership identity ↔
      UnresolvedInstrument.mk identity .conflictingProviderMapping ∈ r.unresolved := by
  rw [h.mem_unresolved]
  constructor
  · intro hconflicts
    exact Or.inr ⟨identity, hconflicts, rfl⟩
  · rintro (⟨i, -, -, heq⟩ | ⟨other, hconflicts, heq⟩)
    · cases heq
    · cases heq
      exact hconflicts

/-- The candidates have distinct security ids. -/
theorem Resolves.securityIds
    (h : Resolves mappingFor resolvePrimary membership tradingDate provenance r) :
    (r.candidate.instruments.map (·.providerSecurityId)).Nodup := by
  rw [List.Nodup, List.pairwise_map]
  refine r.candidate.increasing.imp_of_mem fun {a b} ha hb hlt heq => ?_
  obtain ⟨v, sector, hv, hfree, -, rfl⟩ := h.entry ha
  obtain ⟨w, sector', hw, -, -, rfl⟩ := h.entry hb
  exact hfree ⟨v, hv, _, hlt.ne', w, hw, heq.symm⟩

/-! ## Equal surfaces -/

/-- What the content has of an entry. -/
def contentEntry (entry : UniverseInstrument) : ContentEntry :=
  ⟨entry.identity, entry.providerSecurityId, entry.exchangeSegment, entry.sector⟩

/-- The instruments of a snapshot are sorted already. -/
theorem content_instruments (s : UniverseSnapshot) :
    s.content.instruments = s.instruments.map contentEntry := by
  have hsorted : sortBy UniverseInstrument.identity s.instruments = s.instruments :=
    sortBy_eq_self (s.increasing.imp fun hlt => hlt.le)
  unfold UniverseSnapshot.content logicalContent
  simp only
  rw [show s.instruments.insertionSort (fun a b => a.identity ≤ b.identity) = s.instruments
    from hsorted]
  rfl

theorem content_increasing (s : UniverseSnapshot) :
    s.content.instruments.Pairwise fun a b => a.identity < b.identity := by
  rw [content_instruments, List.pairwise_map]
  exact s.increasing

/-- A report in the order of identity, and the missing mappings first. -/
def reportKey (u : UnresolvedInstrument) : String ×ₗ ℕ :=
  toLex (u.identity, match u.reason with
    | .missingProviderMapping => 0
    | .conflictingProviderMapping => 1)

theorem reportKey_inj {u w : UnresolvedInstrument} (h : reportKey u = reportKey w) : u = w := by
  have hpair := toLex.injective h
  obtain ⟨identity, reason⟩ := u
  obtain ⟨identity', reason'⟩ := w
  obtain ⟨rfl, hreason⟩ := Prod.mk.inj hpair
  cases reason with
  | missingProviderMapping =>
    cases reason' with
    | missingProviderMapping => rfl
    | conflictingProviderMapping => cases hreason
  | conflictingProviderMapping =>
    cases reason' with
    | missingProviderMapping => cases hreason
    | conflictingProviderMapping => rfl

/-- The reports are sorted by identity with the missing mappings first, as they were collected. -/
theorem sortBy_reports (missing conflicting : List String) :
    sortBy UnresolvedInstrument.identity
        ((missing.map fun identity => ⟨identity, .missingProviderMapping⟩) ++
          conflicting.map fun identity => ⟨identity, .conflictingProviderMapping⟩) =
      sortBy reportKey ((missing.map fun identity => ⟨identity, .missingProviderMapping⟩) ++
        conflicting.map fun identity => ⟨identity, .conflictingProviderMapping⟩) := by
  have hkey (a b : UnresolvedInstrument) (hle : (reportKey a).2 ≤ (reportKey b).2) :
      a.identity ≤ b.identity ↔ reportKey a ≤ reportKey b := by
    rw [Prod.Lex.le_iff]
    constructor
    · intro h
      rcases h.lt_or_eq with hlt | heq
      · exact Or.inl hlt
      · exact Or.inr ⟨heq, hle⟩
    · rintro (hlt | ⟨heq, -⟩)
      · exact hlt.le
      · exact heq.le
  apply sortBy_eq_of_pairwise
  refine List.pairwise_append.mpr ⟨?_, ?_, ?_⟩
  · exact List.pairwise_map.mpr (List.pairwise_of_forall fun a b => hkey _ _ (le_refl 0))
  · exact List.pairwise_map.mpr (List.pairwise_of_forall fun a b => hkey _ _ (le_refl 1))
  · intro a ha b hb
    obtain ⟨_, -, rfl⟩ := List.mem_map.mp ha
    obtain ⟨_, -, rfl⟩ := List.mem_map.mp hb
    exact hkey _ _ (Nat.zero_le 1)

/-- The mapping that an identity stands for. -/
def pickedMapping (mappingFor : Instrument → Option ProviderMapping) (membership : List Instrument)
    (identity : String) : Option ProviderMapping :=
  (picked mappingFor membership identity).map (·.2)

theorem Resolves.mem_content
    (h : Resolves mappingFor resolvePrimary membership tradingDate provenance r) {e : ContentEntry} :
    e ∈ r.candidate.content.instruments ↔ ∃ mapping sector,
      pickedMapping mappingFor membership e.identity = some mapping ∧
      ¬ Conflicts mappingFor membership e.identity ∧
      entrySector (resolvePrimary e.identity tradingDate) = .ok sector ∧
      e = ⟨e.identity, mapping.providerSecurityId, mapping.exchangeSegment, sector⟩ := by
  rw [content_instruments, List.mem_map]
  constructor
  · rintro ⟨entry, hentry, rfl⟩
    obtain ⟨v, sector, hpicked, hfree, hsector, heq⟩ := h.entry hentry
    refine ⟨v.2, sector, ?_, hfree, hsector, ?_⟩
    · exact Option.map_eq_some_iff.mpr ⟨v, hpicked, rfl⟩
    · conv_lhs => rw [heq]
      conv_rhs => rw [heq]
      rfl
  · rintro ⟨mapping, sector, hmapping, hfree, hsector, heq⟩
    obtain ⟨v, hpicked, rfl⟩ := Option.map_eq_some_iff.mp hmapping
    refine ⟨_, h.mem_instruments hpicked hfree hsector, ?_⟩
    have hidentity : instrumentIdentity v.1 = e.identity :=
      (mem_mappedOf.mp (mem_mappedOf_of_picked hpicked)).2.1
    rw [heq, ← hidentity]
    rfl

/-- Results of two orders of a list have one surface where the conflicts and the mappings are the same. -/
theorem surface_eq (h : Resolves mappingFor resolvePrimary membership tradingDate provenance r)
    (h' : Resolves mappingFor resolvePrimary membership' tradingDate provenance r')
    (hperm : membership'.Perm membership)
    (hconflicts : ∀ identity, Conflicts mappingFor membership' identity ↔
      Conflicts mappingFor membership identity)
    (hmapping : ∀ identity, ¬ Conflicts mappingFor membership identity →
      pickedMapping mappingFor membership' identity = pickedMapping mappingFor membership identity) :
    r'.surface = r.surface := by
  have hcontent : r'.candidate.content = r.candidate.content := by
    have hinstruments : r'.candidate.content.instruments = r.candidate.content.instruments := by
      refine eq_of_pairwise_lt (content_increasing _) (content_increasing _) fun e => ?_
      rw [h'.mem_content, h.mem_content]
      constructor
      · rintro ⟨mapping, sector, hpicked, hfree, hrest⟩
        rw [hconflicts] at hfree
        exact ⟨mapping, sector, (hmapping _ hfree).symm.trans hpicked, hfree, hrest⟩
      · rintro ⟨mapping, sector, hpicked, hfree, hrest⟩
        exact ⟨mapping, sector, (hmapping _ hfree).trans hpicked, (hconflicts _).not.mpr hfree, hrest⟩
    have hparts (s : UniverseSnapshot) :
        s.content = ⟨s.tradingDate, s.content.instruments, s.sourceProvenance⟩ := rfl
    rw [hparts, hparts r.candidate, hinstruments, h'.date, h.date, h'.source, h.source]
  have hunresolved : r'.unresolved = r.unresolved := by
    obtain ⟨conflicting, hnodup, hmem, heq⟩ := h.unresolved
    obtain ⟨conflicting', hnodup', hmem', heq'⟩ := h'.unresolved
    have hsame : conflicting'.Perm conflicting :=
      (List.perm_ext_iff_of_nodup hnodup' hnodup).mpr fun identity => by
        rw [hmem', hmem, hconflicts]
    have hmissing (xs : List Instrument) :
        ((xs.filter fun i => mappingFor i = none).map fun i =>
          UnresolvedInstrument.mk (instrumentIdentity i) .missingProviderMapping) =
        ((xs.filter fun i => mappingFor i = none).map instrumentIdentity).map fun identity =>
          ⟨identity, .missingProviderMapping⟩ := by
      rw [List.map_map]
      rfl
    rw [heq, heq', hmissing, hmissing, sortBy_reports, sortBy_reports]
    refine sortBy_of_perm ?_ fun u _ w _ => reportKey_inj
    exact (((hperm.filter _).map _).map _).append (hsame.map _)
  have hunclassified : r'.unclassifiedSector = r.unclassifiedSector := by
    obtain ⟨identities, hnodup, hmem, heq⟩ := h.unclassified
    obtain ⟨identities', hnodup', hmem', heq'⟩ := h'.unclassified
    rw [heq, heq']
    refine sortBy_of_perm ?_ fun _ _ _ _ => id
    refine (List.perm_ext_iff_of_nodup hnodup' hnodup).mpr fun identity => ?_
    rw [hmem', hmem, hconflicts]
    refine and_congr_left fun hrest => ?_
    have hsome := congrArg Option.isSome (hmapping identity hrest.1)
    unfold pickedMapping at hsome
    rw [Option.isSome_map, Option.isSome_map] at hsome
    rw [← Option.isSome_iff_exists, ← Option.isSome_iff_exists, hsome]
  unfold ResolutionResult.surface
  rw [hcontent, hunresolved, hunclassified]

/-! ## Where the condition holds -/

/-- What every mapped identity comes to. -/
def Settles (mappingFor : Instrument → Option ProviderMapping)
    (resolvePrimary : String → Int → Option String) (membership : List Instrument) (tradingDate : Int) :
    Prop :=
  ∀ identity, mappedOf mappingFor membership identity ≠ [] →
    AlwaysConflicts mappingFor membership identity ∨
      AlwaysResolved mappingFor resolvePrimary membership tradingDate identity

/-- In every order the conflicts are the identities that always conflict. -/
theorem Settles.conflicts_iff (h : Settles mappingFor resolvePrimary membership tradingDate)
    (hperm : membership'.Perm membership) :
    Conflicts mappingFor membership' identity ↔
      mappedOf mappingFor membership identity ≠ [] ∧ AlwaysConflicts mappingFor membership identity := by
  constructor
  · rintro ⟨v, hv, other, hne, w, hw, hid⟩
    have hvmem := (mem_mappedOf_perm hperm).mp (mem_mappedOf_of_picked hv)
    have hwmem := (mem_mappedOf_perm hperm).mp (mem_mappedOf_of_picked hw)
    have hsome := List.ne_nil_of_mem hvmem
    refine ⟨hsome, ?_⟩
    rcases h identity hsome with hconflicts | hresolved
    · exact hconflicts
    · exact absurd hid (hresolved.apart v hvmem other hne w hwmem)
  · rintro ⟨hsome, hconflicts⟩
    obtain ⟨v₀, hv₀⟩ := List.exists_mem_of_ne_nil _ hsome
    obtain ⟨v, hv⟩ := exists_picked ((mem_mappedOf_perm hperm).mpr hv₀)
    obtain ⟨other, hne, hother, hall⟩ :=
      hconflicts v ((mem_mappedOf_perm hperm).mp (mem_mappedOf_of_picked hv))
    obtain ⟨w₀, hw₀⟩ := List.exists_mem_of_ne_nil _ hother
    obtain ⟨w, hw⟩ := exists_picked ((mem_mappedOf_perm hperm).mpr hw₀)
    exact ⟨v, hv, other, hne, w, hw,
      hall w ((mem_mappedOf_perm hperm).mp (mem_mappedOf_of_picked hw))⟩

/-- A mapped identity that is not set apart is always resolved. -/
theorem Settles.resolved (h : Settles mappingFor resolvePrimary membership tradingDate)
    (hsome : mappedOf mappingFor membership identity ≠ [])
    (hfree : ¬ Conflicts mappingFor membership identity) :
    AlwaysResolved mappingFor resolvePrimary membership tradingDate identity := by
  rw [h.conflicts_iff (List.Perm.refl _)] at hfree
  exact (h identity hsome).resolve_left fun hconflicts => hfree ⟨hsome, hconflicts⟩

/-- Every order is resolved. -/
theorem Settles.returns (h : Settles mappingFor resolvePrimary membership tradingDate)
    (hperm : membership'.Perm membership) (effectiveAt : Int) (provenance : SourceProvenance) :
    ∃ r, resolve mappingFor resolvePrimary membership' tradingDate effectiveAt provenance = .ok r := by
  rw [resolve_returns_iff]
  intro identity v hv hfree
  have hsome := List.ne_nil_of_mem ((mem_mappedOf_perm hperm).mp (mem_mappedOf_of_picked hv))
  rw [h.conflicts_iff hperm, ← h.conflicts_iff (List.Perm.refl _)] at hfree
  exact (h.resolved hsome hfree).sector

/-- Every order has the same surface. -/
theorem Settles.surface (h : Settles mappingFor resolvePrimary membership tradingDate)
    (hperm : membership'.Perm membership)
    (hr : Resolves mappingFor resolvePrimary membership tradingDate provenance r)
    (hr' : Resolves mappingFor resolvePrimary membership' tradingDate provenance r') :
    r'.surface = r.surface := by
  refine surface_eq hr hr' hperm ?_ ?_
  · intro identity
    rw [h.conflicts_iff hperm, h.conflicts_iff (List.Perm.refl _)]
  · intro identity hfree
    unfold pickedMapping
    cases hv : picked mappingFor membership identity with
    | none =>
      cases hw : picked mappingFor membership' identity with
      | none => rfl
      | some w =>
        obtain ⟨v, hv'⟩ := exists_picked ((mem_mappedOf_perm hperm).mp (mem_mappedOf_of_picked hw))
        rw [hv] at hv'
        cases hv'
    | some v =>
      have hvmem := mem_mappedOf_of_picked hv
      obtain ⟨w, hw⟩ := exists_picked ((mem_mappedOf_perm hperm).mpr hvmem)
      rw [hw]
      exact congrArg some ((h.resolved (List.ne_nil_of_mem hvmem) hfree).agree w
        ((mem_mappedOf_perm hperm).mp (mem_mappedOf_of_picked hw)) v hvmem)

/-- The list is accounted for. -/
theorem Settles.accounts (h : Settles mappingFor resolvePrimary membership tradingDate)
    (hr : Resolves mappingFor resolvePrimary membership tradingDate provenance r) :
    Accounts mappingFor membership r := by
  have hlisted : ∀ i ∈ membership,
      (∃ entry ∈ r.candidate.instruments, entry.instrument = i ∧
        mappingFor i = some ⟨entry.providerSecurityId, entry.exchangeSegment⟩ ∧
        ∀ other ∈ r.candidate.instruments, other.instrument = i → other = entry) ∨
      ∃ u ∈ r.unresolved, u.identity = instrumentIdentity i := by
    intro i hi
    by_cases hreported : ∃ u ∈ r.unresolved, u.identity = instrumentIdentity i
    · exact Or.inr hreported
    · left
      have hmissing : ∀ j ∈ membership, instrumentIdentity j = instrumentIdentity i →
          mappingFor j ≠ none := fun j hj hid hnone =>
        hreported ⟨_, hr.mem_unresolved.mpr (Or.inl ⟨j, hj, hnone, rfl⟩), hid⟩
      have hfree : ¬ Conflicts mappingFor membership (instrumentIdentity i) := fun hconflicts =>
        hreported ⟨_, hr.conflicts_iff.mp hconflicts, rfl⟩
      obtain ⟨mapping, hmapping⟩ := Option.ne_none_iff_exists'.mp (hmissing i hi rfl)
      have hmem : (i, mapping) ∈ mappedOf mappingFor membership (instrumentIdentity i) :=
        mem_mappedOf.mpr ⟨hi, rfl, hmapping⟩
      have hresolved := h.resolved (List.ne_nil_of_mem hmem) hfree
      obtain ⟨v, hv⟩ := exists_picked hmem
      -- the identity stands for this instrument
      have hpicked : v = (i, mapping) := mappedOf_ext (mem_mappedOf_of_picked hv) hmem
        (hresolved.alone hmissing v (mem_mappedOf_of_picked hv) _ hmem)
      subst hpicked
      obtain ⟨sector, hsector⟩ := hresolved.sector
      refine ⟨_, hr.mem_instruments hv hfree hsector, rfl, hmapping, ?_⟩
      intro other hother heq
      exact entry_unique hother (hr.mem_instruments hv hfree hsector)
        (congrArg instrumentIdentity heq)
  refine ⟨hlisted, hr.securityIds, ?_⟩
  intro hpromotable i hi
  rcases hlisted i hi with ⟨entry, hentry, heq, -⟩ | ⟨u, hu, -⟩
  · exact ⟨entry, hentry, heq⟩
  · unfold ResolutionResult.isPromotable at hpromotable
    rw [Bool.and_eq_true, List.isEmpty_iff] at hpromotable
    rw [hpromotable.1] at hu
    cases hu

/-! ## Where it is needed -/

/-- An order of the list in which every identity with a mapped instrument in `p` stands for one in `p`. -/
theorem exists_order (mappingFor : Instrument → Option ProviderMapping) (p : Instrument → Prop)
    [DecidablePred p] (membership : List Instrument) :
    ∃ membership', membership'.Perm membership ∧ ∀ identity,
      ∀ v ∈ mappedOf mappingFor membership identity, p v.1 →
        ∃ w ∈ mappedOf mappingFor membership identity,
          picked mappingFor membership' identity = some w ∧ p w.1 := by
  have hperm : (membership.filter (fun i => !decide (p i)) ++ membership.filter (p ·)).Perm membership :=
    List.perm_append_comm.trans (List.filter_append_perm _ _)
  refine ⟨_, hperm, ?_⟩
  intro identity v hv hpv
  obtain ⟨hlisted, hid, hmapping⟩ := mem_mappedOf.mp hv
  have hlast : v ∈ mappedOf mappingFor (membership.filter (p ·)) identity :=
    mem_mappedOf.mpr ⟨List.mem_filter.mpr ⟨hlisted, decide_eq_true hpv⟩, hid, hmapping⟩
  obtain ⟨w, hw⟩ := exists_picked hlast
  have hwmem := mem_mappedOf.mp (mem_mappedOf_of_picked hw)
  refine ⟨w, mem_mappedOf.mpr ⟨(List.mem_filter.mp hwmem.1).1, hwmem.2⟩, ?_, ?_⟩
  · rw [picked_append hlast]
    exact hw
  · exact of_decide_eq_true (List.mem_filter.mp hwmem.1).2

/-- In every order the conflicts and the mappings of the others are those of the list. -/
theorem AccountsInAnyOrder.alike
    (h : AccountsInAnyOrder mappingFor resolvePrimary membership tradingDate effectiveAt provenance)
    (hperm : membership'.Perm membership) (identity : String) :
    (Conflicts mappingFor membership' identity ↔ Conflicts mappingFor membership identity) ∧
      (¬ Conflicts mappingFor membership identity → ∀ v, picked mappingFor membership' identity = some v →
        pickedMapping mappingFor membership identity = some v.2) := by
  obtain ⟨r, hr, -, horders⟩ := h
  obtain ⟨r', hr', hsurface⟩ := horders membership' hperm
  have hspec := resolve_spec hr
  have hspec' := resolve_spec hr'
  have hunresolved : r'.unresolved = r.unresolved := congrArg (·.2.1) hsurface
  have hcontent : r'.candidate.content = r.candidate.content := congrArg (·.1) hsurface
  have hconflicts : Conflicts mappingFor membership' identity ↔
      Conflicts mappingFor membership identity := by
    rw [hspec'.conflicts_iff, hspec.conflicts_iff, hunresolved]
  refine ⟨hconflicts, ?_⟩
  intro hfree v hv
  have hfree' := hconflicts.not.mpr hfree
  obtain ⟨sector, hsector⟩ := resolve_returns_iff.mp ⟨r', hr'⟩ identity v hv hfree'
  have hmem : ContentEntry.mk identity v.2.providerSecurityId v.2.exchangeSegment sector ∈
      r'.candidate.content.instruments :=
    hspec'.mem_content.mpr ⟨v.2, sector, Option.map_eq_some_iff.mpr ⟨v, hv, rfl⟩, hfree', hsector, rfl⟩
  rw [hcontent] at hmem
  obtain ⟨mapping, sector', hmapping, -, -, heq⟩ := hspec.mem_content.mp hmem
  have hsame : v.2 = mapping :=
    ProviderMapping.ext (congrArg ContentEntry.providerSecurityId heq)
      (congrArg ContentEntry.exchangeSegment heq)
  rw [hsame]
  exact hmapping

/-- An identity that is set apart is set apart for all of its instruments and the others' choices. -/
theorem AccountsInAnyOrder.alwaysConflicts
    (h : AccountsInAnyOrder mappingFor resolvePrimary membership tradingDate effectiveAt provenance)
    (hconflicts : Conflicts mappingFor membership identity) :
    AlwaysConflicts mappingFor membership identity := by
  classical
  intro v hv
  by_contra hnone
  push Not at hnone
  -- let the identity stand for `v`, and the others for instruments of other security ids
  obtain ⟨membership', hperm, horder⟩ := exists_order mappingFor (fun i =>
    if instrumentIdentity i = identity then i = v.1
    else ∀ mapping, mappingFor i = some mapping → mapping.providerSecurityId ≠ v.2.providerSecurityId)
    membership
  obtain ⟨a, ha, other, hne, b, hb, hid⟩ := (h.alike hperm identity).1.mpr hconflicts
  have hvid := (mem_mappedOf.mp hv).2.1
  obtain ⟨a', ha'mem, ha', hpa⟩ := horder identity v hv (by rw [if_pos hvid])
  rw [ha] at ha'
  obtain rfl := Option.some.inj ha'
  rw [if_pos (mem_mappedOf.mp ha'mem).2.1] at hpa
  obtain rfl := mappedOf_ext ha'mem hv hpa
  have hbmem := (mem_mappedOf_perm hperm).mp (mem_mappedOf_of_picked hb)
  obtain ⟨w, hw, hwid⟩ := hnone other hne (List.ne_nil_of_mem hbmem)
  have hotherId (x : Instrument × ProviderMapping)
      (hx : x ∈ mappedOf mappingFor membership other) : instrumentIdentity x.1 ≠ identity := by
    rw [(mem_mappedOf.mp hx).2.1]
    exact hne
  obtain ⟨b', hb'mem, hb', hpb⟩ := horder other w hw (by
    rw [if_neg (hotherId w hw)]
    intro mapping hmapping
    rw [(mem_mappedOf.mp hw).2.2] at hmapping
    obtain rfl := Option.some.inj hmapping
    exact hwid)
  rw [hb] at hb'
  obtain rfl := Option.some.inj hb'
  rw [if_neg (hotherId b hb'mem)] at hpb
  exact hpb b.2 (mem_mappedOf.mp hb'mem).2.2 hid

/-- An identity that is not set apart has one mapping of its own, and one instrument. -/
theorem AccountsInAnyOrder.alwaysResolved
    (h : AccountsInAnyOrder mappingFor resolvePrimary membership tradingDate effectiveAt provenance)
    (hsome : mappedOf mappingFor membership identity ≠ [])
    (hfree : ¬ Conflicts mappingFor membership identity) :
    AlwaysResolved mappingFor resolvePrimary membership tradingDate identity := by
  classical
  refine ⟨?_, ?_, ?_, ?_⟩
  · intro v hv other hne w hw hid
    -- let the two identities stand for `v` and `w`
    obtain ⟨membership', hperm, horder⟩ := exists_order mappingFor
      (fun i => i = v.1 ∨ i = w.1) membership
    obtain ⟨a, ha, hpicked, hpa⟩ := horder identity v hv (Or.inl rfl)
    obtain ⟨b, hb, hpicked', hpb⟩ := horder other w hw (Or.inr rfl)
    have hav : a = v := by
      rcases hpa with hpa | hpa
      · exact mappedOf_ext ha hv hpa
      · refine absurd ?_ hne
        rw [← (mem_mappedOf.mp ha).2.1, hpa, (mem_mappedOf.mp hw).2.1]
    have hbw : b = w := by
      rcases hpb with hpb | hpb
      · refine absurd ?_ hne
        rw [← (mem_mappedOf.mp hb).2.1, hpb, (mem_mappedOf.mp hv).2.1]
      · exact mappedOf_ext hb hw hpb
    subst hav hbw
    exact hfree ((h.alike hperm identity).1.mp ⟨a, hpicked, other, hne, b, hpicked', hid⟩)
  · have hpicks (v : Instrument × ProviderMapping) (hv : v ∈ mappedOf mappingFor membership identity) :
        pickedMapping mappingFor membership identity = some v.2 := by
      obtain ⟨membership', hperm, horder⟩ := exists_order mappingFor
        (fun i => i = v.1) membership
      obtain ⟨a, ha, hpicked, hpa⟩ := horder identity v hv rfl
      obtain rfl := mappedOf_ext ha hv hpa
      exact (h.alike hperm identity).2 hfree a hpicked
    intro v hv w hw
    exact Option.some.inj ((hpicks v hv).symm.trans (hpicks w hw))
  · intro hmapped v hv w hw
    obtain ⟨r, hr, haccounts, -⟩ := h
    have hspec := resolve_spec hr
    have hentry (x : Instrument × ProviderMapping) (hx : x ∈ mappedOf mappingFor membership identity) :
        ∃ entry ∈ r.candidate.instruments, entry.instrument = x.1 := by
      obtain ⟨hlisted, hid, -⟩ := mem_mappedOf.mp hx
      rcases haccounts.listed x.1 hlisted with ⟨entry, hentry, heq, -⟩ | ⟨u, hu, hidentity⟩
      · exact ⟨entry, hentry, heq⟩
      · rw [hid] at hidentity
        rcases hspec.mem_unresolved.mp hu with ⟨i, hi, hnone, rfl⟩ | ⟨other, hconflicts, rfl⟩
        · exact absurd hnone (hmapped i hi hidentity)
        · exact absurd (hidentity ▸ hconflicts) hfree
    obtain ⟨a, ha, hav⟩ := hentry v hv
    obtain ⟨b, hb, hbw⟩ := hentry w hw
    have hidentities : a.identity = b.identity := by
      unfold UniverseInstrument.identity
      rw [hav, hbw, (mem_mappedOf.mp hv).2.1, (mem_mappedOf.mp hw).2.1]
    rw [← hav, ← hbw, entry_unique ha hb hidentities]
  · obtain ⟨r, hr, -, -⟩ := h
    obtain ⟨v, hv⟩ := List.exists_mem_of_ne_nil _ hsome
    obtain ⟨w, hw⟩ := exists_picked hv
    exact resolve_returns_iff.mp ⟨r, hr⟩ identity w hw hfree

/-- **A resolution accounts for a list in every order exactly when every mapped identity settles**: each
    of its mapped instruments conflicts with all the instruments of another identity, or none conflicts
    and the instruments agree. -/
theorem accounts_iff (mappingFor : Instrument → Option ProviderMapping)
    (resolvePrimary : String → Int → Option String) (membership : List Instrument)
    (tradingDate effectiveAt : Int) (provenance : SourceProvenance) :
    AccountsInAnyOrder mappingFor resolvePrimary membership tradingDate effectiveAt provenance ↔
      Settles mappingFor resolvePrimary membership tradingDate := by
  constructor
  · intro h identity hsome
    by_cases hconflicts : Conflicts mappingFor membership identity
    · exact Or.inl (h.alwaysConflicts hconflicts)
    · exact Or.inr (h.alwaysResolved hsome hconflicts)
  · intro h
    obtain ⟨r, hr⟩ := h.returns (List.Perm.refl _) effectiveAt provenance
    refine ⟨r, hr, h.accounts (resolve_spec hr), ?_⟩
    intro membership' hperm
    obtain ⟨r', hr'⟩ := h.returns hperm effectiveAt provenance
    exact ⟨r', hr', h.surface hperm (resolve_spec hr) (resolve_spec hr')⟩

end Results

/-- The future of a share has the identity of the share. -/
def relianceFuture : Instrument where
  exchange := "NSE"
  marketSegment := .derivatives
  symbol := "RELIANCE"
  instrumentClass := .future
  underlying := some ⟨"NSE", "RELIANCE", reliance.exchange_ne, reliance.symbol_ne⟩
  expiry := some 20026
  exchange_ne := reliance.exchange_ne
  symbol_ne := reliance.symbol_ne
  optional_ne := reliance.optional_ne

/-- The length of `"FUT"`. -/
theorem fut_length (k : ℕ) : 1 ≤ "FUT".length ∧ "FUT".length ≤ 32 + k := by
  have hlength : "FUT".length = 3 := rfl
  omega

/-- A source that maps every instrument, the future to other texts. -/
def listings (i : Instrument) : Option ProviderMapping :=
  some (if i = reliance then ⟨nse 32, nse 0⟩ else ⟨⟨"FUT", fut_length 32⟩, ⟨"FUT", fut_length 0⟩⟩)

/-- The share and its future are both mapped, and nothing is reported; the last one of the list alone is
    in the candidate, which is promotable and depends on the order of the list. -/
theorem shared_identity_dropped :
    ∃ r r', resolve listings (fun _ _ => none) [reliance, relianceFuture] 20000 0
        (relianceUniverse 20000 none).sourceProvenance = .ok r ∧
      resolve listings (fun _ _ => none) [relianceFuture, reliance] 20000 0
        (relianceUniverse 20000 none).sourceProvenance = .ok r' ∧
      r.isPromotable = true ∧ r.unresolved = [] ∧
      (∀ entry ∈ r.candidate.instruments, entry.instrument ≠ reliance) ∧
      r'.candidate.content ≠ r.candidate.content ∧
      ¬ AccountsInAnyOrder listings (fun _ _ => none) [reliance, relianceFuture] 20000 0
        (relianceUniverse 20000 none).sourceProvenance := by
  refine ⟨_, _, rfl, rfl, by decide, by decide, by decide, by decide, ?_⟩
  rintro ⟨r, hr, haccounts, -⟩
  obtain rfl := Except.ok.inj hr
  have hmissing := haccounts.promotable (by decide) reliance (by decide)
  revert hmissing
  decide

end ApexScan.Universe
