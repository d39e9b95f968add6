import ApexScan.Ipc.Wire
import ApexScan.Lib.Raising
import ApexScan.Lib.Sorting
import ApexScan.MarketUniverse.Snapshot
import Mathlib.Data.Finset.Card

/-!
# Universe resolution (`app/market_universe/resolver.py`)

The instruments of the membership list are joined to their provider mappings in a dictionary by identity
(`EXCHANGE:SYMBOL`), the identities that share a security id are set apart, and the others become the
entries of the candidate.

* `joinOne`, `securityIdConflicts`, `classifyOne` — the two loops and the conflicts between them.
* `buildSnapshot`, `resolve`.
* `picked`, `Conflicts` — the instrument that an identity stands for, and when it is set apart.
* `mem_instruments_iff`, `mem_unresolved_iff`, `resolve_isSome_iff` — what a resolution returns, and when it
  raises.

The mapping source and the sector authority are functions; a sector text of the wrong length makes an
entry raise.
-/

set_option autoImplicit false

namespace ApexScan.Universe

open Lib

@[ext]
structure ProviderMapping where
  providerSecurityId : Text 64
  exchangeSegment : Text 32
  deriving DecidableEq

/-! ## The first loop -/

/-- `mapped` and `unresolved` after some of the membership. -/
structure Joined where
  mapped : Dict String (Instrument × ProviderMapping) := []
  unresolved : List UnresolvedInstrument := []

section Resolve

variable (mappingFor : Instrument → Option ProviderMapping)
variable (resolvePrimary : String → Int → Option String)

def joinOne (j : Joined) (instrument : Instrument) : Joined :=
  match mappingFor instrument with
  | none => { j with unresolved := j.unresolved ++
                [⟨instrumentIdentity instrument, .missingProviderMapping⟩] }
  | some mapping =>
    { j with mapped := j.mapped.set (instrumentIdentity instrument) (instrument, mapping) }

/-- The loop over the membership. -/
def joined (membership : List Instrument) : Joined := membership.foldl (joinOne mappingFor) {}

/-- `_security_id_conflicts`. -/
def securityIdConflicts (mapped : Dict String (Instrument × ProviderMapping)) : List String :=
  (groupedBy (fun item : String × Instrument × ProviderMapping => item.2.2.providerSecurityId)
    mapped).flatMap fun group => if 1 < group.2.length then group.2.map (·.1) else []

/-! ## The second loop -/

/-- A `ValidationError` of an entry or of the snapshot. -/
inductive ValidationError where
  | entry
  | snapshot
  deriving DecidableEq, Repr

/-- The `sector` of an entry, stripped and checked. -/
def entrySector : Option String → Except ValidationError (Option (Text 64))
  | none => .ok none
  | some sector =>
    let text := Ipc.strip sector
    if h : 1 ≤ text.length ∧ text.length ≤ 64 then .ok (some ⟨text, h⟩) else .error .entry

/-- `UniverseInstrument(...)`. -/
def entryFor (tradingDate : Int) (item : String × Instrument × ProviderMapping) :
    Except ValidationError UniverseInstrument := do
  let sector ← entrySector (resolvePrimary item.1 tradingDate)
  return ⟨item.2.1, item.2.2.providerSecurityId, item.2.2.exchangeSegment, sector⟩

/-- `resolved`, `unresolved` and `unclassified` after some of the mapped identities. -/
structure Classified where
  resolved : List UniverseInstrument := []
  unresolved : List UnresolvedInstrument
  unclassified : List String := []

def classifyOne (tradingDate : Int) (conflicts : List String) (c : Classified)
    (item : String × Instrument × ProviderMapping) : Except ValidationError Classified :=
  if item.1 ∈ conflicts then
    .ok { c with unresolved := c.unresolved ++ [⟨item.1, .conflictingProviderMapping⟩] }
  else do
    let unclassified :=
      if resolvePrimary item.1 tradingDate = none then c.unclassified ++ [item.1] else c.unclassified
    let entry ← entryFor resolvePrimary tradingDate item
    return { c with resolved := c.resolved ++ [entry], unclassified := unclassified }

/-- `_resolve_instruments`. -/
def resolveInstruments (membership : List Instrument) (tradingDate : Int) :
    Except ValidationError Classified :=
  let j := joined mappingFor membership
  j.mapped.foldlM (classifyOne resolvePrimary tradingDate (securityIdConflicts j.mapped))
    { unresolved := j.unresolved }

/-! ## The candidate -/

/-- `build_snapshot`, whose validator wants distinct identities. -/
def buildSnapshot (universeVersion : ℕ) (tradingDate effectiveAt : Int) (state : SnapshotState)
    (instruments : List UniverseInstrument) (provenance : SourceProvenance) :
    Except ValidationError UniverseSnapshot :=
  let ordered := sortBy UniverseInstrument.identity instruments
  if h : ordered.Pairwise fun a b => a.identity < b.identity then
    .ok {
      universeVersion, tradingDate, effectiveAt, state
      instruments := ordered
      sourceProvenance := provenance
      contentSha256 := contentHash (logicalContent tradingDate ordered provenance)
      increasing := h
      hash := rfl }
  else .error .snapshot

/-- `CANDIDATE_VERSION`. -/
def candidateVersion : ℕ := 0

/-- `resolve`. -/
def resolve (membership : List Instrument) (tradingDate effectiveAt : Int)
    (provenance : SourceProvenance) : Except ValidationError ResolutionResult := do
  let c ← resolveInstruments mappingFor resolvePrimary membership tradingDate
  let candidate ← buildSnapshot candidateVersion tradingDate effectiveAt .candidate c.resolved provenance
  return {
    candidate
    unresolved := sortBy UnresolvedInstrument.identity c.unresolved
    unclassifiedSector := sortBy id c.unclassified }

end Resolve

/-! ## What an identity stands for -/

section Spec

variable {mappingFor : Instrument → Option ProviderMapping}
variable {resolvePrimary : String → Int → Option String}
variable {membership : List Instrument} {identity : String}

/-- The mapped instruments of an identity, in the order of the list. -/
def mappedOf (mappingFor : Instrument → Option ProviderMapping) (membership : List Instrument)
    (identity : String) : List (Instrument × ProviderMapping) :=
  membership.filterMap fun i =>
    if instrumentIdentity i = identity then (mappingFor i).map fun mapping => (i, mapping) else none

/-- The instrument that an identity stands for: the last mapped one. -/
def picked (mappingFor : Instrument → Option ProviderMapping) (membership : List Instrument)
    (identity : String) : Option (Instrument × ProviderMapping) :=
  (mappedOf mappingFor membership identity).getLast?

theorem mem_mappedOf {v : Instrument × ProviderMapping} :
    v ∈ mappedOf mappingFor membership identity ↔
      v.1 ∈ membership ∧ instrumentIdentity v.1 = identity ∧ mappingFor v.1 = some v.2 := by
  unfold mappedOf
  rw [List.mem_filterMap]
  constructor
  · rintro ⟨i, hi, heq⟩
    split at heq
    · rename_i hid
      obtain ⟨mapping, hmapping, rfl⟩ := Option.map_eq_some_iff.mp heq
      exact ⟨hi, hid, hmapping⟩
    · cases heq
  · rintro ⟨hi, hid, hmapping⟩
    refine ⟨v.1, hi, ?_⟩
    rw [if_pos hid, hmapping]
    rfl

theorem mem_mappedOf_of_picked {v : Instrument × ProviderMapping}
    (h : picked mappingFor membership identity = some v) : v ∈ mappedOf mappingFor membership identity :=
  List.mem_of_getLast? h

theorem exists_picked {v : Instrument × ProviderMapping}
    (h : v ∈ mappedOf mappingFor membership identity) :
    ∃ w, picked mappingFor membership identity = some w :=
  ⟨_, List.getLast?_eq_some_getLast (List.ne_nil_of_mem h)⟩

/-- Where mapped instruments of the identity come at the end of the list, one of them is picked. -/
theorem picked_append {before after : List Instrument} {v : Instrument × ProviderMapping}
    (h : v ∈ mappedOf mappingFor after identity) :
    picked mappingFor (before ++ after) identity = picked mappingFor after identity := by
  have hne := List.ne_nil_of_mem h
  unfold picked
  rw [show mappedOf mappingFor (before ++ after) identity =
    mappedOf mappingFor before identity ++ mappedOf mappingFor after identity from
      List.filterMap_append, List.getLast?_append_of_ne_nil _ hne]

theorem joined_concat (membership : List Instrument) (i : Instrument) :
    joined mappingFor (membership ++ [i]) = joinOne mappingFor (joined mappingFor membership) i := by
  unfold joined
  rw [List.foldl_append]
  rfl

/-- The dictionary has the picked instruments. -/
theorem joined_get (membership : List Instrument) (identity : String) :
    (joined mappingFor membership).mapped.get identity = picked mappingFor membership identity := by
  induction membership using List.reverseRecOn with
  | nil => rfl
  | append_singleton membership i ih =>
    have hsplit : mappedOf mappingFor (membership ++ [i]) identity =
        mappedOf mappingFor membership identity ++ mappedOf mappingFor [i] identity :=
      List.filterMap_append
    rw [joined_concat]
    unfold joinOne
    cases hmapping : mappingFor i with
    | none =>
      have hlast : mappedOf mappingFor [i] identity = [] := by
        simp [mappedOf, hmapping]
      unfold picked at ih ⊢
      rw [hsplit, hlast, List.append_nil]
      exact ih
    | some mapping =>
      simp only [Dict.get_set]
      unfold picked at ih ⊢
      rw [hsplit]
      by_cases hid : instrumentIdentity i = identity
      · have hlast : mappedOf mappingFor [i] identity = [(i, mapping)] := by
          simp [mappedOf, hmapping, hid]
        rw [if_pos hid, hlast, List.getLast?_concat]
      · have hlast : mappedOf mappingFor [i] identity = [] := by
          simp [mappedOf, hid]
        rw [if_neg hid, hlast, List.append_nil]
        exact ih

theorem joined_nodup (membership : List Instrument) :
    ((joined mappingFor membership).mapped.map (·.1)).Nodup := by
  induction membership using List.reverseRecOn with
  | nil => exact List.nodup_nil
  | append_singleton membership i ih =>
    rw [joined_concat]
    unfold joinOne
    split
    · exact ih
    · exact Dict.nodup_keys_set ih _ _

theorem joined_unresolved (membership : List Instrument) :
    (joined mappingFor membership).unresolved =
      (membership.filter fun i => mappingFor i = none).map fun i =>
        ⟨instrumentIdentity i, .missingProviderMapping⟩ := by
  induction membership using List.reverseRecOn with
  | nil => rfl
  | append_singleton membership i ih =>
    rw [joined_concat, List.filter_append, List.map_append, ← ih]
    unfold joinOne
    cases hmapping : mappingFor i with
    | none => simp [hmapping]
    | some mapping => simp [hmapping]

/-! ## Conflicts -/

/-- The identity stands for an instrument whose security id another identity has as well. -/
def Conflicts (mappingFor : Instrument → Option ProviderMapping) (membership : List Instrument)
    (identity : String) : Prop :=
  ∃ v, picked mappingFor membership identity = some v ∧ ∃ other, other ≠ identity ∧
    ∃ w, picked mappingFor membership other = some w ∧
      w.2.providerSecurityId = v.2.providerSecurityId

theorem one_lt_length_iff {α : Type} {xs : List α} (hnodup : xs.Nodup) {x : α} (hx : x ∈ xs) :
    1 < xs.length ↔ ∃ y ∈ xs, y ≠ x := by
  classical
  rw [← List.toFinset_card_of_nodup hnodup, Finset.one_lt_card_iff_nontrivial]
  constructor
  · intro h
    obtain ⟨y, hy, hne⟩ := h.exists_ne x
    exact ⟨y, List.mem_toFinset.mp hy, hne⟩
  · rintro ⟨y, hy, hne⟩
    exact ⟨y, List.mem_toFinset.mpr hy, x, List.mem_toFinset.mpr hx, hne⟩

theorem mem_securityIdConflicts (membership : List Instrument) (identity : String) :
    identity ∈ securityIdConflicts (joined mappingFor membership).mapped ↔
      Conflicts mappingFor membership identity := by
  have hnodup : ((joined mappingFor membership).mapped.map (·.1)).Nodup := joined_nodup membership
  have hget : ∀ identity v, (identity, v) ∈ (joined mappingFor membership).mapped ↔
      picked mappingFor membership identity = some v := by
    intro identity v
    rw [Dict.mem_iff_get hnodup, joined_get]
  set mapped := (joined mappingFor membership).mapped
  have hgroup (id : Text 64) : (mapped.filter fun item => item.2.2.providerSecurityId = id).Nodup :=
    (List.Nodup.of_map _ hnodup).filter _
  unfold securityIdConflicts
  rw [List.mem_flatMap]
  constructor
  · rintro ⟨⟨id, group⟩, hmem, hin⟩
    obtain ⟨-, rfl⟩ := (mem_groupedBy_iff _ _ _).mp hmem
    split at hin
    · rename_i hlength
      obtain ⟨⟨_, v⟩, hitem, rfl⟩ := List.mem_map.mp hin
      obtain ⟨⟨other, w⟩, hother, hne⟩ := (one_lt_length_iff (hgroup id) hitem).mp hlength
      obtain ⟨hitem, hid⟩ := List.mem_filter.mp hitem
      obtain ⟨hother, hid'⟩ := List.mem_filter.mp hother
      refine ⟨v, (hget _ _).mp hitem, other, ?_, w, (hget _ _).mp hother, ?_⟩
      · rintro rfl
        have hsame := ((hget _ _).mp hother).symm.trans ((hget _ _).mp hitem)
        exact hne (Prod.ext rfl (Option.some.inj hsame))
      · exact (of_decide_eq_true hid').trans (of_decide_eq_true hid).symm
    · cases hin
  · rintro ⟨v, hv, other, hne, w, hw, hid⟩
    have hitem := (hget _ _).mpr hv
    have hother := (hget _ _).mpr hw
    have hfiltered : (identity, v) ∈ mapped.filter fun item =>
        item.2.2.providerSecurityId = v.2.providerSecurityId :=
      List.mem_filter.mpr ⟨hitem, decide_eq_true rfl⟩
    refine ⟨(v.2.providerSecurityId, _), (mem_groupedBy_iff _ _ _).mpr ⟨⟨_, hitem, rfl⟩, rfl⟩, ?_⟩
    have hlength := (one_lt_length_iff (hgroup _) hfiltered).mpr
      ⟨(other, w), List.mem_filter.mpr ⟨hother, decide_eq_true hid⟩, fun heq =>
        hne (congrArg Prod.fst heq)⟩
    rw [if_pos hlength]
    exact List.mem_map_of_mem hfiltered

/-! ## The second loop -/

/-- What the second loop makes of its items and their entries. -/
def classifiedOf (resolvePrimary : String → Int → Option String) (tradingDate : Int)
    (conflicts : List String) (items : List (String × Instrument × ProviderMapping)) (c : Classified)
    (entries : List UniverseInstrument) : Classified where
  resolved := c.resolved ++ entries
  unresolved := c.unresolved ++ (items.filter fun item => item.1 ∈ conflicts).map fun item =>
    ⟨item.1, .conflictingProviderMapping⟩
  unclassified := c.unclassified ++ ((items.filter fun item => item.1 ∉ conflicts).filter
    fun item => resolvePrimary item.1 tradingDate = none).map (·.1)

/-- The second loop in one step. -/
theorem foldlM_classifyOne (tradingDate : Int) (conflicts : List String)
    (items : List (String × Instrument × ProviderMapping)) (c : Classified) :
    items.foldlM (classifyOne resolvePrimary tradingDate conflicts) c =
      classifiedOf resolvePrimary tradingDate conflicts items c <$>
        (items.filter fun item => item.1 ∉ conflicts).mapM (entryFor resolvePrimary tradingDate) := by
  induction items generalizing c with
  | nil =>
    simp only [List.foldlM_nil, List.filter_nil, List.mapM_nil, map_pure, classifiedOf, List.map_nil,
      List.append_nil]
  | cons item items ih =>
    by_cases hconflict : item.1 ∈ conflicts
    · have hone : classifyOne resolvePrimary tradingDate conflicts c item = .ok { c with
          unresolved := c.unresolved ++ [⟨item.1, .conflictingProviderMapping⟩] } := if_pos hconflict
      rw [List.foldlM_cons, hone, ok_bind, ih,
        List.filter_cons_of_neg (a := item) (by simp [hconflict])]
      refine congrArg (· <$> _) (funext fun entries => ?_)
      simp [classifiedOf, hconflict]
    · cases hentry : entryFor resolvePrimary tradingDate item with
      | error e =>
        have hone : classifyOne resolvePrimary tradingDate conflicts c item = .error e := by
          unfold classifyOne
          rw [if_neg hconflict, hentry]
          rfl
        rw [List.foldlM_cons, hone, List.filter_cons_of_pos (by simp [hconflict]), List.mapM_cons,
          hentry]
        rfl
      | ok entry =>
        have hone : classifyOne resolvePrimary tradingDate conflicts c item = .ok { c with
            resolved := c.resolved ++ [entry]
            unclassified := if resolvePrimary item.1 tradingDate = none then
              c.unclassified ++ [item.1] else c.unclassified } := by
          unfold classifyOne
          rw [if_neg hconflict, hentry]
          rfl
        rw [List.foldlM_cons, hone, ok_bind, ih, List.filter_cons_of_pos (by simp [hconflict]),
          List.mapM_cons, hentry, ok_bind]
        cases (items.filter fun item => item.1 ∉ conflicts).mapM
            (entryFor resolvePrimary tradingDate) with
        | error e => rfl
        | ok entries =>
          refine congrArg Except.ok ?_
          by_cases hsector : resolvePrimary item.1 tradingDate = none
          · simp [classifiedOf, hconflict, hsector]
          · simp [classifiedOf, hconflict, hsector]

/-! ## The result -/

theorem entryFor_eq_ok {tradingDate : Int} {item : String × Instrument × ProviderMapping}
    {entry : UniverseInstrument} (h : entryFor resolvePrimary tradingDate item = .ok entry) :
    ∃ sector, entrySector (resolvePrimary item.1 tradingDate) = .ok sector ∧
      entry = ⟨item.2.1, item.2.2.providerSecurityId, item.2.2.exchangeSegment, sector⟩ := by
  obtain ⟨sector, hsector, hpure⟩ := bind_eq_ok.mp h
  cases hpure
  exact ⟨sector, hsector, rfl⟩

theorem entryFor_of_sector {tradingDate : Int} {item : String × Instrument × ProviderMapping}
    {sector : Option (Text 64)} (h : entrySector (resolvePrimary item.1 tradingDate) = .ok sector) :
    entryFor resolvePrimary tradingDate item =
      .ok ⟨item.2.1, item.2.2.providerSecurityId, item.2.2.exchangeSegment, sector⟩ := by
  unfold entryFor
  rw [h]
  rfl

/-- The mapped identities that are not set apart. -/
def resolvable (mappingFor : Instrument → Option ProviderMapping) (membership : List Instrument) :
    List (String × Instrument × ProviderMapping) :=
  (joined mappingFor membership).mapped.filter fun item =>
    item.1 ∉ securityIdConflicts (joined mappingFor membership).mapped

theorem mem_resolvable {v : Instrument × ProviderMapping} :
    (identity, v) ∈ resolvable mappingFor membership ↔
      picked mappingFor membership identity = some v ∧ ¬ Conflicts mappingFor membership identity := by
  unfold resolvable
  rw [List.mem_filter, Dict.mem_iff_get (joined_nodup membership), joined_get, decide_eq_true_eq,
    mem_securityIdConflicts]

theorem resolvable_nodup (mappingFor : Instrument → Option ProviderMapping)
    (membership : List Instrument) : ((resolvable mappingFor membership).map (·.1)).Nodup :=
  (joined_nodup membership).sublist (List.filter_sublist.map _)

/-- The identity of a resolvable item is the one of its instrument. -/
theorem identity_of_resolvable {item : String × Instrument × ProviderMapping}
    (h : item ∈ resolvable mappingFor membership) : instrumentIdentity item.2.1 = item.1 :=
  (mem_mappedOf.mp (mem_mappedOf_of_picked (mem_resolvable.mp h).1)).2.1

/-- The entries of the candidate have the identities of their items. -/
theorem identities_of_entries {tradingDate : Int}
    {items : List (String × Instrument × ProviderMapping)} {entries : List UniverseInstrument}
    (h : List.Forall₂ (fun item entry => entryFor resolvePrimary tradingDate item = .ok entry) items
      entries)
    (hitems : ∀ item ∈ items, instrumentIdentity item.2.1 = item.1) :
    entries.map UniverseInstrument.identity = items.map (·.1) := by
  induction h with
  | nil => rfl
  | @cons item entry items entries hentry _ ih =>
    obtain ⟨sector, -, rfl⟩ := entryFor_eq_ok hentry
    rw [List.map_cons, List.map_cons, ih fun item hitem => hitems item (List.mem_cons_of_mem _ hitem)]
    exact congrArg (· :: _) (hitems item List.mem_cons_self)

/-- Distinct identities make a snapshot. -/
theorem buildSnapshot_of_nodup (universeVersion : ℕ) (tradingDate effectiveAt : Int)
    (state : SnapshotState) {instruments : List UniverseInstrument} (provenance : SourceProvenance)
    (h : (instruments.map UniverseInstrument.identity).Nodup) :
    ∃ s, buildSnapshot universeVersion tradingDate effectiveAt state instruments provenance = .ok s ∧
      s.tradingDate = tradingDate ∧ s.sourceProvenance = provenance ∧
      s.instruments = sortBy UniverseInstrument.identity instruments := by
  have hincreasing : (sortBy UniverseInstrument.identity instruments).Pairwise fun a b =>
      a.identity < b.identity :=
    pairwise_lt_sortBy h.of_map fun a ha b hb heq => List.inj_on_of_nodup_map h ha hb heq
  unfold buildSnapshot
  simp only
  rw [dif_pos hincreasing]
  exact ⟨_, rfl, rfl, rfl, rfl⟩

/-- What a resolution returns. -/
structure Resolves (mappingFor : Instrument → Option ProviderMapping)
    (resolvePrimary : String → Int → Option String) (membership : List Instrument) (tradingDate : Int)
    (provenance : SourceProvenance) (r : ResolutionResult) : Prop where
  date : r.candidate.tradingDate = tradingDate
  source : r.candidate.sourceProvenance = provenance
  instruments : ∀ entry, entry ∈ r.candidate.instruments ↔ ∃ identity v,
    picked mappingFor membership identity = some v ∧ ¬ Conflicts mappingFor membership identity ∧
      entryFor resolvePrimary tradingDate (identity, v) = .ok entry
  unresolved : ∃ conflicting : List String, conflicting.Nodup ∧
    (∀ identity, identity ∈ conflicting ↔ Conflicts mappingFor membership identity) ∧
    r.unresolved = sortBy UnresolvedInstrument.identity
      (((membership.filter fun i => mappingFor i = none).map fun i =>
          ⟨instrumentIdentity i, .missingProviderMapping⟩) ++
        conflicting.map fun identity => ⟨identity, .conflictingProviderMapping⟩)
  unclassified : ∃ identities : List String, identities.Nodup ∧
    (∀ identity, identity ∈ identities ↔ (∃ v, picked mappingFor membership identity = some v) ∧
      ¬ Conflicts mappingFor membership identity ∧ resolvePrimary identity tradingDate = none) ∧
    r.unclassifiedSector = sortBy id identities

/-- The conflicting identities, in the order of the dictionary. -/
theorem conflicting_spec (mappingFor : Instrument → Option ProviderMapping)
    (membership : List Instrument) :
    let conflicting := (((joined mappingFor membership).mapped.filter fun item =>
      item.1 ∈ securityIdConflicts (joined mappingFor membership).mapped).map (·.1))
    conflicting.Nodup ∧
      ∀ identity, identity ∈ conflicting ↔ Conflicts mappingFor membership identity := by
  refine ⟨(joined_nodup membership).sublist (List.filter_sublist.map _), ?_⟩
  intro identity
  rw [List.mem_map]
  constructor
  · rintro ⟨item, hitem, rfl⟩
    exact (mem_securityIdConflicts _ _).mp (of_decide_eq_true (List.mem_filter.mp hitem).2)
  · intro h
    obtain ⟨v, hv, -⟩ := id h
    refine ⟨(identity, v), List.mem_filter.mpr ⟨?_, ?_⟩, rfl⟩
    · rw [Dict.mem_iff_get (joined_nodup membership), joined_get]
      exact hv
    · exact decide_eq_true ((mem_securityIdConflicts _ _).mpr h)

/-- The identities without a sector, in the order of the dictionary. -/
theorem unclassified_spec (mappingFor : Instrument → Option ProviderMapping)
    (resolvePrimary : String → Int → Option String) (membership : List Instrument) (tradingDate : Int) :
    let unclassified := (((resolvable mappingFor membership).filter fun item =>
      resolvePrimary item.1 tradingDate = none).map (·.1))
    unclassified.Nodup ∧ ∀ identity, identity ∈ unclassified ↔
      (∃ v, picked mappingFor membership identity = some v) ∧
        ¬ Conflicts mappingFor membership identity ∧ resolvePrimary identity tradingDate = none := by
  refine ⟨(resolvable_nodup mappingFor membership).sublist (List.filter_sublist.map _), ?_⟩
  intro identity
  rw [List.mem_map]
  constructor
  · rintro ⟨⟨_, v⟩, hitem, rfl⟩
    obtain ⟨hitem, hsector⟩ := List.mem_filter.mp hitem
    obtain ⟨hpicked, hfree⟩ := mem_resolvable.mp hitem
    exact ⟨⟨v, hpicked⟩, hfree, of_decide_eq_true hsector⟩
  · rintro ⟨⟨v, hpicked⟩, hfree, hsector⟩
    exact ⟨(identity, v), List.mem_filter.mpr
      ⟨mem_resolvable.mpr ⟨hpicked, hfree⟩, decide_eq_true hsector⟩, rfl⟩

section Result

variable {tradingDate effectiveAt : Int} {provenance : SourceProvenance}

/-- A resolution returns where its entries are accepted. -/
theorem resolve_of_entries (effectiveAt : Int) (provenance : SourceProvenance)
    {entries : List UniverseInstrument}
    (h : (resolvable mappingFor membership).mapM (entryFor resolvePrimary tradingDate) = .ok entries) :
    ∃ r, resolve mappingFor resolvePrimary membership tradingDate effectiveAt provenance = .ok r ∧
      Resolves mappingFor resolvePrimary membership tradingDate provenance r := by
  have hall := mapM_eq_ok.mp h
  have hidentities := identities_of_entries hall fun item => identity_of_resolvable
  have hnodup := resolvable_nodup mappingFor membership
  rw [← hidentities] at hnodup
  obtain ⟨s, hs, hdate, hsource, hinstruments⟩ :=
    buildSnapshot_of_nodup candidateVersion tradingDate effectiveAt .candidate provenance hnodup
  set c := classifiedOf resolvePrimary tradingDate
    (securityIdConflicts (joined mappingFor membership).mapped) (joined mappingFor membership).mapped
    { unresolved := (joined mappingFor membership).unresolved } entries with hc
  have hloop : resolveInstruments mappingFor resolvePrimary membership tradingDate = .ok c := by
    unfold resolveInstruments
    simp only
    rw [foldlM_classifyOne]
    change _ <$> (resolvable mappingFor membership).mapM _ = _
    rw [h]
    rfl
  have hresolved : c.resolved = entries := List.nil_append _
  refine ⟨⟨s, sortBy UnresolvedInstrument.identity c.unresolved, sortBy id c.unclassified⟩, ?_, ?_⟩
  · unfold resolve
    rw [hloop, ok_bind, hresolved, hs]
    rfl
  · refine ⟨hdate, hsource, ?_, ?_, ?_⟩
    · intro entry
      rw [hinstruments, mem_sortBy]
      constructor
      · intro hentry
        obtain ⟨⟨identity, v⟩, hitem, hv⟩ := exists_of_mapM_eq_ok h hentry
        obtain ⟨hpicked, hfree⟩ := mem_resolvable.mp hitem
        exact ⟨identity, v, hpicked, hfree, hv⟩
      · rintro ⟨identity, v, hpicked, hfree, hv⟩
        obtain ⟨entry', hentry', hv'⟩ :=
          exists_mem_of_mapM_eq_ok h (mem_resolvable.mpr ⟨hpicked, hfree⟩)
        rw [hv] at hv'
        obtain rfl := Except.ok.inj hv'
        exact hentry'
    · obtain ⟨hconflicting, hconflicts⟩ := conflicting_spec mappingFor membership
      refine ⟨_, hconflicting, hconflicts, ?_⟩
      simp only [hc, classifiedOf, joined_unresolved, List.map_map]
      rfl
    · obtain ⟨hnodup, hunclassified⟩ :=
        unclassified_spec mappingFor resolvePrimary membership tradingDate
      refine ⟨_, hnodup, hunclassified, ?_⟩
      simp only [hc, classifiedOf, List.nil_append]
      rfl

/-- A resolution that returns is described by `Resolves`. -/
theorem resolve_spec {r : ResolutionResult}
    (h : resolve mappingFor resolvePrimary membership tradingDate effectiveAt provenance = .ok r) :
    Resolves mappingFor resolvePrimary membership tradingDate provenance r := by
  obtain ⟨c, hc, -⟩ := bind_eq_ok.mp h
  unfold resolveInstruments at hc
  simp only at hc
  rw [foldlM_classifyOne] at hc
  obtain ⟨entries, hentries, -⟩ := map_eq_ok.mp hc
  obtain ⟨r', hr', hspec⟩ := resolve_of_entries effectiveAt provenance
    (show (resolvable mappingFor membership).mapM (entryFor resolvePrimary tradingDate) = .ok entries
      from hentries)
  rw [h] at hr'
  obtain rfl := Except.ok.inj hr'
  exact hspec

/-- A resolution returns exactly where the sectors of the resolvable identities are accepted. -/
theorem resolve_returns_iff :
    (∃ r, resolve mappingFor resolvePrimary membership tradingDate effectiveAt provenance = .ok r) ↔
      ∀ identity v, picked mappingFor membership identity = some v →
        ¬ Conflicts mappingFor membership identity →
          ∃ sector, entrySector (resolvePrimary identity tradingDate) = .ok sector := by
  constructor
  · rintro ⟨r, h⟩ identity v hpicked hfree
    obtain ⟨c, hc, -⟩ := bind_eq_ok.mp h
    unfold resolveInstruments at hc
    simp only at hc
    rw [foldlM_classifyOne] at hc
    obtain ⟨entries, hentries, -⟩ := map_eq_ok.mp hc
    obtain ⟨entry, -, hentry⟩ := exists_mem_of_mapM_eq_ok hentries
      (show (identity, v) ∈ resolvable mappingFor membership from mem_resolvable.mpr ⟨hpicked, hfree⟩)
    obtain ⟨sector, hsector, -⟩ := entryFor_eq_ok hentry
    exact ⟨sector, hsector⟩
  · intro hsectors
    have hreturns : ∀ item ∈ resolvable mappingFor membership,
        ∃ entry, entryFor resolvePrimary tradingDate item = .ok entry := by
      rintro ⟨identity, v⟩ hitem
      obtain ⟨hpicked, hfree⟩ := mem_resolvable.mp hitem
      obtain ⟨sector, hsector⟩ := hsectors identity v hpicked hfree
      exact ⟨_, entryFor_of_sector hsector⟩
    obtain ⟨entries, hentries⟩ := mapM_returns hreturns
    obtain ⟨r, hr, -⟩ := resolve_of_entries effectiveAt provenance hentries
    exact ⟨r, hr⟩

end Result

end Spec

end ApexScan.Universe
